import RustProfile.PerfRing

/-!
# A drain parses the pending bytes

Tail, header and record are read modulo the size of the ring, so a turn of the
loop sees the first record of a linear stream. The bound on a record's end is
computed modulo `2 ^ 64`: a header whose record would reach past that is taken
for one that ends before the head.
-/

namespace RustProfile

/-! ## Headers -/

theorem headerKind_take (bytes : List UInt8) {k : ℕ} (h : 8 ≤ k) : headerKind (bytes.take k) = headerKind bytes := by
  unfold headerKind
  rw [List.take_take, min_eq_left (by omega)]

theorem headerSize_take (bytes : List UInt8) {k : ℕ} (h : 8 ≤ k) : headerSize (bytes.take k) = headerSize bytes := by
  unfold headerSize
  rw [List.drop_take, List.take_take, min_eq_left (by omega)]

theorem Bytes.toNat_lt : ∀ bytes : List UInt8, Bytes.toNat bytes < 256 ^ bytes.length
  | [] => Nat.one_pos
  | b :: bytes => by
    have ih := Bytes.toNat_lt bytes
    have hb : b.toNat < 256 := b.toNat_lt
    rw [Bytes.toNat, List.length_cons, pow_succ]
    omega

theorem headerSize_lt (bytes : List UInt8) : headerSize bytes < 2 ^ 16 := by
  have hlen : ((bytes.drop 6).take 2).length ≤ 2 := List.length_take_le _ _
  exact lt_of_lt_of_le (Bytes.toNat_lt _) (Nat.pow_le_pow_right (by decide) hlen)

/-! ## Parsing a stream -/

section
variable {limit : ℕ} {bytes : List UInt8}

@[simp] theorem parseRecords_nil : parseRecords limit [] = ([], false) := by
  rw [parseRecords, if_pos rfl]

theorem parseRecords_malformed (hne : bytes ≠ []) (h : bytes.length < 8 ∨ headerSize bytes < 8 ∨
    headerSize bytes > limit ∨ headerSize bytes > bytes.length) : parseRecords limit bytes = ([], true) := by
  rw [parseRecords, if_neg hne, if_pos h]

theorem parseRecords_record (h8 : 8 ≤ headerSize bytes) (hlimit : headerSize bytes ≤ limit)
    (hlength : headerSize bytes ≤ bytes.length) : parseRecords limit bytes =
      (⟨headerKind bytes, bytes.take (headerSize bytes)⟩ :: (parseRecords limit (bytes.drop (headerSize bytes))).1,
        (parseRecords limit (bytes.drop (headerSize bytes))).2) := by
  have hne : bytes ≠ [] := by
    rintro rfl
    simp at hlength
    omega
  rw [parseRecords, if_neg hne, if_neg (by omega)]

end

/-! ## What a record adds -/

def PerfBatch.contribute (self : PerfBatch) : Contribution → PerfBatch
  | .parsed sample => { self with samples := self.samples ++ [sample] }
  | .lost count => { self with lostSamples := saturatingAddU64 self.lostSamples count }
  | .malformed => self.countMalformed
  | .nothing => self

def PerfBatch.contributeAll (self : PerfBatch) (contributions : List Contribution) : PerfBatch :=
  contributions.foldl contribute self

namespace PerfBatch

variable (batch : PerfBatch)

theorem contributeAll_samples (contributions : List Contribution) :
    (batch.contributeAll contributions).samples = batch.samples ++ contributions.filterMap Contribution.sample? := by
  unfold contributeAll
  induction contributions generalizing batch with
  | nil => simp
  | cons c cs ih =>
    rw [List.foldl_cons, ih]
    cases c with
    | parsed sample => simp [contribute, Contribution.sample?]
    | _ => rfl

theorem contributeAll_lost (h : batch.lostSamples ≤ u64Max) (contributions : List Contribution) :
    (batch.contributeAll contributions).lostSamples =
      saturatingAddU64 batch.lostSamples (contributions.map Contribution.lostCount).sum := by
  unfold contributeAll
  induction contributions generalizing batch with
  | nil => exact (saturatingAddU64_zero h).symm
  | cons c cs ih =>
    have hc : (batch.contribute c).lostSamples = saturatingAddU64 batch.lostSamples c.lostCount := by
      cases c with
      | lost count => rfl
      | _ => exact (saturatingAddU64_zero h).symm
    rw [List.foldl_cons, ih _ (hc ▸ min_le_right _ _), hc, saturatingAddU64_assoc, List.map_cons, List.sum_cons]

theorem contributeAll_malformed (contributions : List Contribution) :
    (batch.contributeAll contributions).malformedRecords =
      batch.malformedRecords + (contributions.map Contribution.malformedCount).sum := by
  unfold contributeAll
  induction contributions generalizing batch with
  | nil => rfl
  | cons c cs ih =>
    rw [List.foldl_cons, ih, List.map_cons, List.sum_cons, ← Nat.add_assoc]
    cases c <;> rfl

end PerfBatch

/-! ## Reading the ring -/

theorem slice_of_le {bytes : List UInt8} {first last : ℕ} (h : first ≤ last) (hl : last ≤ bytes.length) :
    slice bytes first last = .ok ((bytes.take last).drop first) := if_pos ⟨h, hl⟩

namespace PerfEvent

variable {event : PerfEvent}

theorem countLost_eq (batch : PerfBatch) (record : List UInt8) (offset : ℕ) :
    countLost batch record offset = batch.contribute (lostAt record offset) := by
  unfold countLost lostAt
  cases Bytes.readAt 8 offset record <;> rfl

theorem handle_eq (batch : PerfBatch) {record : RawRecord} (h : 8 ≤ record.bytes.length) :
    event.handle batch record = .ok (batch.contribute (record.contribution event.mode event.registerMask)) := by
  unfold handle RawRecord.contribution
  rw [slice_of_le h le_rfl, List.take_length]
  by_cases hsample : record.kind = perfRecordSample
  · rw [if_pos hsample, if_pos hsample]
    cases hparse : parseSample (record.bytes.drop 8) event.mode event.registerMask <;>
      simp [bind, Except.bind, hparse, PerfBatch.contribute] <;> rfl
  · rw [if_neg hsample, if_neg hsample]
    by_cases hlost : record.kind = perfRecordLost
    · rw [if_pos hlost, if_pos hlost, countLost_eq]
    · rw [if_neg hlost, if_neg hlost]
      by_cases hsamples : record.kind = perfRecordLostSamples
      · rw [if_pos hsamples, if_pos hsamples, countLost_eq]
      · rw [if_neg hsamples, if_neg hsamples]
        rfl

namespace Mapped

variable (h : event.Mapped)

include h

theorem length_data : event.data.length = event.metadata.dataSize.toNat := by
  have := h.fits
  unfold data
  rw [List.length_take, List.length_drop, min_eq_left (by omega)]

theorem size_pos : 0 < event.metadata.dataSize.toNat := by
  obtain ⟨k, hk⟩ := h.powerOfTwo
  rw [hk]
  exact Nat.two_pow_pos k

theorem dataPages : event.dataPages = some event.data :=
  if_pos ⟨lt_of_le_of_lt h.fits h.addressable, h.fits⟩

theorem ringPosition (offset : UInt64) : event.ringPosition offset = offset.toNat % event.data.length := by
  obtain ⟨k, hk⟩ := h.powerOfTwo
  have hone : (1 : UInt64) ≤ event.metadata.dataSize := h.size_pos
  rw [h.length_data, PerfEvent.ringPosition, UInt64.toNat_and, UInt64.toNat_sub_of_le _ _ hone, hk]
  exact Nat.and_two_pow_sub_one_eq_mod _ _

theorem position_lt (offset : UInt64) : event.ringPosition offset < event.data.length := by
  rw [h.ringPosition]
  exact Nat.mod_lt _ (h.length_data ▸ h.size_pos)

theorem copyFromRing (offset : UInt64) {length : ℕ} (hl : length ≤ event.metadata.dataSize.toNat) :
    event.copyFromRing offset length = .ok (some (Cyclic.window event.data offset.toNat length)) := by
  have hpos := h.position_lt offset
  have hlen := h.length_data
  unfold PerfEvent.copyFromRing
  simp only [h.dataPages, if_neg (not_lt.mpr hl)]
  rw [← hlen] at hl ⊢
  by_cases hin : length ≤ event.data.length - event.ringPosition offset
  · rw [min_eq_left hin, slice_of_le (Nat.le_add_right _ _) (by omega)]
    simp only [ne_eq, not_true_eq_false, if_false]
    rw [Cyclic.window_inside (by rwa [← h.ringPosition]), ← h.ringPosition]
    rfl
  · rw [min_eq_right (by omega), slice_of_le (Nat.le_add_right _ _) (by omega), slice_of_le (Nat.zero_le _) (by omega),
      Cyclic.window_around (by omega) (by rw [← h.ringPosition]; omega) hl, ← h.ringPosition,
      Nat.add_sub_cancel' hpos.le, List.take_length]
    have hne : event.data.length - event.ringPosition offset ≠ length := by omega
    simp only [bind, Except.bind, if_pos hne]
    rfl

theorem recordFromRing (offset : UInt64) {length : ℕ} (hl : length ≤ event.metadata.dataSize.toNat) :
    event.recordFromRing offset length = .ok (some (Cyclic.window event.data offset.toNat length)) := by
  have hpos := h.position_lt offset
  have hlen := h.length_data
  unfold PerfEvent.recordFromRing
  simp only [h.dataPages, if_neg (not_lt.mpr hl)]
  rw [← hlen] at hl ⊢
  by_cases hin : length ≤ event.data.length - event.ringPosition offset
  · rw [if_pos hin, slice_of_le (Nat.le_add_right _ _) (by omega), Cyclic.window_inside (by rwa [← h.ringPosition]),
      ← h.ringPosition]
    rfl
  · rw [if_neg hin, slice_of_le hpos.le le_rfl, slice_of_le (Nat.zero_le _) (by omega),
      Cyclic.window_around (by omega) (by rw [← h.ringPosition]; omega) hl, ← h.ringPosition, List.take_length]
    rfl

end Mapped

/-! ## A turn of the loop -/

def recordAt (event : PerfEvent) (offset : ℕ) : RawRecord where
  kind := headerKind (Cyclic.window event.data offset 8)
  bytes := Cyclic.window event.data offset (event.sizeAt offset)

def contributionAt (event : PerfEvent) (offset : ℕ) : Contribution :=
  (event.recordAt offset).contribution event.mode event.registerMask

theorem sizeAt_lt (offset : ℕ) : event.sizeAt offset < 2 ^ 16 := headerSize_lt _

/-- The batch, when a header has ended the records early or not. -/
def Drained.ofBatch (event : PerfEvent) (batch : PerfBatch) (malformed : Bool) (handled : List RawRecord) :
    Drained where
  dataTail := event.metadata.dataHead
  batch := if malformed then batch.countMalformed else batch
  handled := handled

section
variable (h : event.Mapped) {t : ℕ} (ht : t ≤ event.metadata.dataHead.toNat)
  (hround : event.metadata.dataHead.toNat - t ≤ event.metadata.dataSize.toNat)

theorem toNat_position (ht : t ≤ event.metadata.dataHead.toNat) : (UInt64.ofNat t).toNat = t :=
  UInt64.toNat_ofNat_of_lt' (lt_of_le_of_lt ht event.metadata.dataHead.toNat_lt)

include h hround in
theorem length_stream : (event.stream t).length = event.metadata.dataHead.toNat - t :=
  Cyclic.length_window (h.length_data ▸ hround)

theorem headerSize_stream (h8 : 8 ≤ event.metadata.dataHead.toNat - t) :
    headerSize (event.stream t) = event.sizeAt t := by
  unfold stream sizeAt
  rw [← Cyclic.take_window h8, headerSize_take _ le_rfl]

theorem headerKind_stream (h8 : 8 ≤ event.metadata.dataHead.toNat - t) :
    headerKind (event.stream t) = (event.recordAt t).kind := by
  unfold stream recordAt
  rw [← Cyclic.take_window h8, headerKind_take _ le_rfl]

theorem drainFrom_done (ht' : t = event.metadata.dataHead.toNat) (fuel : ℕ) (batch : PerfBatch)
    (handled : List RawRecord) : event.drainFrom event.metadata.dataHead (fuel + 1) (UInt64.ofNat t) batch handled =
      .ok (Drained.ofBatch event batch false handled) := by
  have heq : UInt64.ofNat t = event.metadata.dataHead := by rw [ht', UInt64.ofNat_toNat]
  rw [drainFrom, heq, if_neg (by simp)]
  rfl

/-- What a turn does when the size of the header is refused. -/
def Refused (event : PerfEvent) (t : ℕ) : Prop :=
  event.metadata.dataSize.toNat < 8 ∨ event.sizeAt t < 8 ∨ event.metadata.dataSize.toNat < event.sizeAt t ∨
    event.metadata.dataHead.toNat < (t + event.sizeAt t) % 2 ^ 64

theorem size_refused_iff (ht : t ≤ event.metadata.dataHead.toNat) :
    (event.sizeAt t < 8 ∨ UInt64.ofNat (event.sizeAt t) > event.metadata.dataSize ∨
      UInt64.ofNat t + UInt64.ofNat (event.sizeAt t) > event.metadata.dataHead) ↔
    (event.sizeAt t < 8 ∨ event.metadata.dataSize.toNat < event.sizeAt t ∨
      event.metadata.dataHead.toNat < (t + event.sizeAt t) % 2 ^ 64) := by
  have hsize : (UInt64.ofNat (event.sizeAt t)).toNat = event.sizeAt t :=
    UInt64.toNat_ofNat_of_lt' (lt_trans (sizeAt_lt t) (by decide))
  rw [gt_iff_lt, gt_iff_lt, UInt64.lt_iff_toNat_lt, UInt64.lt_iff_toNat_lt, UInt64.toNat_add, hsize, toNat_position ht]

include h

theorem drainFrom_refused (hlt : t < event.metadata.dataHead.toNat) (hrefused : event.Refused t) (fuel : ℕ)
    (batch : PerfBatch) (handled : List RawRecord) :
    event.drainFrom event.metadata.dataHead (fuel + 1) (UInt64.ofNat t) batch handled =
      .ok (Drained.ofBatch event batch true handled) := by
  have hpos := toNat_position hlt.le
  rw [drainFrom, if_pos (by rw [UInt64.lt_iff_toNat_lt, hpos]; exact hlt)]
  by_cases h8 : 8 ≤ event.metadata.dataSize.toNat
  · have hsize := (size_refused_iff hlt.le).mpr (hrefused.resolve_left (not_lt.mpr h8))
    rw [h.copyFromRing _ h8, hpos]
    simp only [bind, Except.bind]
    exact if_pos hsize
  · have hnone : event.copyFromRing (UInt64.ofNat t) 8 = .ok none := by
      unfold PerfEvent.copyFromRing
      simp only [h.dataPages, if_pos (not_le.mp h8)]
    rw [hnone]
    rfl

theorem drainFrom_record (hlt : t < event.metadata.dataHead.toNat) (haccepted : ¬ event.Refused t) (fuel : ℕ)
    (batch : PerfBatch) (handled : List RawRecord) :
    event.drainFrom event.metadata.dataHead (fuel + 1) (UInt64.ofNat t) batch handled =
      event.drainFrom event.metadata.dataHead fuel (UInt64.ofNat t + UInt64.ofNat (event.sizeAt t))
        (batch.contribute (event.contributionAt t)) (handled ++ [event.recordAt t]) := by
  have hpos := toNat_position hlt.le
  obtain ⟨h8, haccepted⟩ := not_or.mp haccepted
  have hsize := mt (size_refused_iff hlt.le).mp haccepted
  have hrecord : 8 ≤ (event.recordAt t).bytes.length := by
    rw [recordAt, Cyclic.length_window (by rw [h.length_data]; omega)]
    omega
  rw [drainFrom, if_pos (by rw [UInt64.lt_iff_toNat_lt, hpos]; exact hlt), h.copyFromRing _ (not_lt.mp h8), hpos]
  simp only [bind, Except.bind]
  rw [show headerSize (Cyclic.window event.data t 8) = event.sizeAt t from rfl, if_neg hsize,
    h.recordFromRing _ (by omega), hpos]
  simp only
  rw [show RawRecord.mk _ (Cyclic.window event.data t (event.sizeAt t)) = event.recordAt t from rfl,
    handle_eq batch hrecord]
  rfl

omit h in
theorem not_refused_of_wraps (hlt : t < event.metadata.dataHead.toNat) (hwraps : event.Wraps t) :
    ¬ event.Refused t := by
  have := event.metadata.dataHead.toNat_lt
  have := event.sizeAt_lt t
  obtain ⟨h8, hsize, hover⟩ := hwraps
  unfold Refused
  omega

theorem parse_malformed (hround : event.metadata.dataHead.toNat - t ≤ event.metadata.dataSize.toNat)
    (hlt : t < event.metadata.dataHead.toNat) (hbad : event.Refused t ∨ event.Wraps t) :
    parseRecords event.metadata.dataSize.toNat (event.stream t) = ([], true) := by
  have hlen := length_stream h hround
  have hhead := event.metadata.dataHead.toNat_lt
  have hne : event.stream t ≠ [] := List.ne_nil_of_length_pos (by omega)
  refine parseRecords_malformed hne ?_
  by_cases h8 : 8 ≤ event.metadata.dataHead.toNat - t
  · rw [headerSize_stream h8, hlen]
    rcases hbad with hrefused | ⟨-, -, hover⟩
    · unfold Refused at hrefused
      omega
    · omega
  · exact .inl (by omega)

theorem parse_record (hround : event.metadata.dataHead.toNat - t ≤ event.metadata.dataSize.toNat)
    (haccepted : ¬ event.Refused t) (hwraps : ¬ event.Wraps t) :
    8 ≤ event.sizeAt t ∧ t + event.sizeAt t ≤ event.metadata.dataHead.toNat ∧
      parseRecords event.metadata.dataSize.toNat (event.stream t) =
        (event.recordAt t :: (parseRecords event.metadata.dataSize.toNat (event.stream (t + event.sizeAt t))).1,
          (parseRecords event.metadata.dataSize.toNat (event.stream (t + event.sizeAt t))).2) := by
  have hlen := length_stream h hround
  unfold Refused at haccepted
  unfold Wraps at hwraps
  have hin : t + event.sizeAt t ≤ event.metadata.dataHead.toNat := by omega
  have h8 : 8 ≤ event.metadata.dataHead.toNat - t := by omega
  have hsize := headerSize_stream h8
  have hrest : (event.stream t).drop (event.sizeAt t) = event.stream (t + event.sizeAt t) := by
    unfold stream
    rw [Cyclic.drop_window (by omega) (h.length_data ▸ hround), Nat.sub_sub]
  have hrecord : (event.stream t).take (event.sizeAt t) = (event.recordAt t).bytes := Cyclic.take_window (by omega)
  refine ⟨by omega, hin, ?_⟩
  rw [parseRecords_record (by omega) (by omega) (by omega), headerKind_stream h8, hsize, hrest, hrecord]

end

/-! ## The whole loop -/

/-- Where the records of the stream from `t` on end. -/
def stopFrom (event : PerfEvent) (t : ℕ) : ℕ :=
  t + ((parseRecords event.metadata.dataSize.toNat (event.stream t)).1.map fun record => record.bytes.length).sum

section
variable (h : event.Mapped)

include h

theorem stopFrom_record {t : ℕ} (hround : event.metadata.dataHead.toNat - t ≤ event.metadata.dataSize.toNat)
    (haccepted : ¬ event.Refused t) (hwraps : ¬ event.Wraps t) :
    event.stopFrom t = event.stopFrom (t + event.sizeAt t) := by
  obtain ⟨-, hin, hparse⟩ := parse_record h hround haccepted hwraps
  have hbytes : (event.recordAt t).bytes.length = event.sizeAt t :=
    Cyclic.length_window (by unfold Refused at haccepted; rw [h.length_data]; omega)
  unfold stopFrom
  rw [hparse, List.map_cons, List.sum_cons, hbytes, Nat.add_assoc]

theorem stopFrom_malformed {t : ℕ} (hround : event.metadata.dataHead.toNat - t ≤ event.metadata.dataSize.toNat)
    (hlt : t < event.metadata.dataHead.toNat) (hbad : event.Refused t ∨ event.Wraps t) : event.stopFrom t = t := by
  unfold stopFrom
  rw [parse_malformed h hround hlt hbad]
  rfl

/-- As long as no header wraps, the loop follows the parse of the stream. -/
theorem drainFrom_parsed : ∀ (fuel : ℕ) {t : ℕ} (batch : PerfBatch) (handled : List RawRecord),
    t ≤ event.metadata.dataHead.toNat → event.metadata.dataHead.toNat - t ≤ event.metadata.dataSize.toNat →
    event.metadata.dataHead.toNat - t < fuel →
    (event.stopFrom t < event.metadata.dataHead.toNat → ¬ event.Wraps (event.stopFrom t)) →
    event.drainFrom event.metadata.dataHead fuel (UInt64.ofNat t) batch handled =
      .ok (Drained.ofBatch event
        (batch.contributeAll ((parseRecords event.metadata.dataSize.toNat (event.stream t)).1.map
          (RawRecord.contribution event.mode event.registerMask)))
        (parseRecords event.metadata.dataSize.toNat (event.stream t)).2
        (handled ++ (parseRecords event.metadata.dataSize.toNat (event.stream t)).1))
  | 0, t, _, _, _, _, hfuel, _ => by omega
  | fuel + 1, t, batch, handled, ht, hround, hfuel, hstop => by
    rcases Nat.eq_or_lt_of_le ht with heq | hlt
    · have hstream : event.stream t = [] := by
        unfold stream Cyclic.window
        rw [← heq, Nat.sub_self, List.take_zero]
      rw [drainFrom_done heq, hstream, parseRecords_nil, List.append_nil]
      rfl
    · by_cases hrefused : event.Refused t
      · rw [drainFrom_refused h hlt hrefused, parse_malformed h hround hlt (.inl hrefused), List.append_nil]
        rfl
      · by_cases hwraps : event.Wraps t
        · have hhere := stopFrom_malformed h hround hlt (.inr hwraps)
          rw [hhere] at hstop
          -- The drain would stop at a record whose end wraps; the hypothesis leaves that out.
          exact absurd hwraps (hstop hlt)
        · obtain ⟨h8, hin, hparse⟩ := parse_record h hround hrefused hwraps
          have hnext := stopFrom_record h hround hrefused hwraps
          rw [hnext] at hstop
          rw [drainFrom_record h hlt hrefused, ← UInt64.ofNat_add,
            drainFrom_parsed fuel _ _ hin (by omega) (by omega) hstop, hparse, List.append_assoc]
          rfl

omit h in
theorem handled_le : ∀ (fuel : ℕ) {head tail : UInt64} {batch : PerfBatch} {handled : List RawRecord}
    {drained : Drained},
    event.drainFrom head fuel tail batch handled = .ok drained → handled.length ≤ drained.handled.length
  | 0, _, _, _, _, _, hrun => by cases hrun
  | fuel + 1, head, tail, batch, handled, drained, hrun => by
    -- Every early return keeps the records handled so far.
    have hreturned : ∀ {tail : UInt64} {batch : PerfBatch},
        Except.ok (ε := DrainFault) ⟨tail, batch, handled⟩ = .ok drained → handled.length ≤ drained.handled.length := by
      intro _ _ hret
      rw [← Except.ok.inj hret]
    rw [drainFrom] at hrun
    split at hrun
    · cases hcopy : event.copyFromRing tail 8 with
      | error fault => rw [hcopy] at hrun; cases hrun
      | ok copied =>
        rw [hcopy] at hrun
        cases copied with
        | none => exact hreturned hrun
        | some header =>
          simp only [bind, Except.bind] at hrun
          split at hrun
          · exact hreturned hrun
          · cases hread : event.recordFromRing tail (headerSize header) with
            | error fault => rw [hread] at hrun; cases hrun
            | ok read =>
              rw [hread] at hrun
              cases read with
              | none => exact hreturned hrun
              | some bytes =>
                simp only at hrun
                cases hhandle : event.handle batch ⟨headerKind header, bytes⟩ with
                | error fault => rw [hhandle] at hrun; cases hrun
                | ok batch' =>
                  rw [hhandle] at hrun
                  have ih := handled_le fuel hrun
                  rw [List.length_append] at ih
                  exact (Nat.le_add_right _ _).trans ih
    · exact hreturned hrun

/-- Behind a header that wraps the loop handles one more record at least. -/
theorem drainFrom_wrapped : ∀ (fuel : ℕ) {t : ℕ} {batch : PerfBatch} {handled : List RawRecord} {drained : Drained},
    t ≤ event.metadata.dataHead.toNat → event.metadata.dataHead.toNat - t ≤ event.metadata.dataSize.toNat →
    event.stopFrom t < event.metadata.dataHead.toNat → event.Wraps (event.stopFrom t) →
    event.drainFrom event.metadata.dataHead fuel (UInt64.ofNat t) batch handled = .ok drained →
    handled.length + (parseRecords event.metadata.dataSize.toNat (event.stream t)).1.length < drained.handled.length
  | 0, _, _, _, _, _, _, _, _, hrun => by cases hrun
  | fuel + 1, t, batch, handled, drained, ht, hround, hstop, hwrapped, hrun => by
    have hlt : t < event.metadata.dataHead.toNat := lt_of_le_of_lt (Nat.le_add_right _ _) hstop
    by_cases hrefused : event.Refused t
    · rw [stopFrom_malformed h hround hlt (.inl hrefused)] at hwrapped
      exact absurd hrefused (not_refused_of_wraps hlt hwrapped)
    · rw [drainFrom_record h hlt hrefused] at hrun
      by_cases hwraps : event.Wraps t
      · have hmore := handled_le fuel hrun
        rw [parse_malformed h hround hlt (.inr hwraps)]
        rw [List.length_append] at hmore
        exact hmore
      · obtain ⟨h8, hin, hparse⟩ := parse_record h hround hrefused hwraps
        rw [stopFrom_record h hround hrefused hwraps] at hstop hwrapped
        rw [← UInt64.ofNat_add] at hrun
        have ih := drainFrom_wrapped fuel hin (by omega) hstop hwrapped hrun
        rw [List.length_append] at ih
        rw [hparse, List.length_cons]
        simp only [List.length_singleton] at ih
        omega

end

/-! ## The drain -/

section
variable (h : event.Mapped)

include h

theorem isPowerOfTwo_dataSize : isPowerOfTwo event.metadata.dataSize = true := by
  obtain ⟨k, hk⟩ := h.powerOfTwo
  unfold isPowerOfTwo
  rw [hk, Nat.log2_two_pow]
  exact decide_eq_true rfl

theorem drain_eq (fuel : ℕ) (batch : PerfBatch) : event.drain fuel batch =
    event.drainFrom event.metadata.dataHead fuel (UInt64.ofNat event.metadata.dataTail.toNat) batch [] := by
  have hpos := h.size_pos
  have hne : event.metadata.dataSize ≠ 0 := by
    intro h0
    rw [h0] at hpos
    exact absurd hpos (by decide)
  unfold drain
  rw [isPowerOfTwo_dataSize h, if_neg (by simp [hne]), UInt64.ofNat_toNat]

end

/-- **A drain parses exactly the pending bytes, unless a header that ends them wraps.** -/
theorem drain_parses_pending_iff (event : PerfEvent) (h : event.Mapped) (batch : PerfBatch)
    (hlost : batch.lostSamples ≤ u64Max) :
    (∃ fuel drained, event.drain fuel batch = .ok drained ∧ event.Parsed batch drained) ↔ event.NoWrap := by
  have ht : event.metadata.dataTail.toNat ≤ event.metadata.dataHead.toNat := h.ordered
  constructor
  · rintro ⟨fuel, drained, hrun, hparsed⟩ hstop hwraps
    rw [drain_eq h] at hrun
    have hmore := drainFrom_wrapped h fuel ht h.oneRound hstop hwraps hrun
    rw [hparsed.handled, List.length_nil, Nat.zero_add] at hmore
    exact absurd hmore (lt_irrefl _)
  · intro hnowrap
    have hrun := drainFrom_parsed h (event.metadata.dataHead.toNat - event.metadata.dataTail.toNat + 1) batch [] ht
      h.oneRound (Nat.lt_succ_self _) hnowrap
    rw [← drain_eq h, List.nil_append] at hrun
    refine ⟨_, _, hrun, rfl, rfl, ?_, ?_, ?_⟩
    · have hsamples := batch.contributeAll_samples event.contributions
      unfold Drained.ofBatch
      split <;> exact hsamples
    · have hcount := batch.contributeAll_lost hlost event.contributions
      unfold Drained.ofBatch
      split <;> exact hcount
    · have hcount := batch.contributeAll_malformed event.contributions
      unfold Drained.ofBatch
      cases hend : event.pending.2 with
      | true => exact (if_pos hend).symm ▸ congrArg (· + 1) hcount
      | false => exact (if_neg (hend ▸ Bool.false_ne_true)).symm ▸ hcount

/-- Short of the last 64 KiB of offsets nothing wraps. -/
theorem noWrap_of_head_le (event : PerfEvent) (h : event.metadata.dataHead.toNat + 2 ^ 16 ≤ 2 ^ 64) : event.NoWrap := by
  intro hstop hwraps
  have hsize := event.sizeAt_lt event.stop
  obtain ⟨-, -, hover⟩ := hwraps
  omega

/-- A ring of 16 bytes behind 8 others. -/
def smallEvent (data : List UInt8) (head tail : UInt64) : PerfEvent where
  ring := List.replicate 8 0 ++ data
  metadata := { dataHead := head, dataTail := tail, dataOffset := 8, dataSize := 16 }
  mode := .fp
  registerMask := 0

/-- A lost-samples record of 16 bytes that lies across the end of the ring. -/
def lostAcrossEnd : PerfEvent := smallEvent [3, 0, 0, 0, 0, 0, 0, 0, 13, 0, 0, 0, 0, 0, 16, 0] 24 8

/-- A header of 8 bytes, 3 bytes before the head, at the end of the offsets. -/
def headerAtEnd : PerfEvent := smallEvent [0, 0, 8, 0, 0, 0, 0, 0, 0, 0, 0, 0, 0, 0, 0, 0]
    0xffffffffffffffff 0xfffffffffffffffc

def emptyBatch : PerfBatch where
  samples := []
  lostSamples := 0
  malformedRecords := 0

theorem lostAcrossEnd_mapped : lostAcrossEnd.Mapped where
  addressable := by decide
  fits := by decide
  powerOfTwo := ⟨4, rfl⟩
  ordered := by decide
  oneRound := by decide

theorem headerAtEnd_mapped : headerAtEnd.Mapped where
  addressable := by decide
  fits := by decide
  powerOfTwo := ⟨4, rfl⟩
  ordered := by decide +kernel
  oneRound := by decide +kernel

theorem drain_parses_pending_iff_acrossEnd :
    ∃ fuel drained, lostAcrossEnd.drain fuel emptyBatch = .ok drained ∧ lostAcrossEnd.Parsed emptyBatch drained :=
  (drain_parses_pending_iff lostAcrossEnd lostAcrossEnd_mapped emptyBatch (by decide)).mpr
    (noWrap_of_head_le lostAcrossEnd (by decide))

/-- The header is not pending as a whole, and yet it is handled as a record. -/
theorem drain_handles_past_head : headerAtEnd.Mapped ∧ ¬ ∃ fuel drained,
    headerAtEnd.drain fuel emptyBatch = .ok drained ∧ headerAtEnd.Parsed emptyBatch drained := by
  refine ⟨headerAtEnd_mapped, ?_⟩
  rintro ⟨fuel, drained, hrun, hparsed⟩
  have hwraps : headerAtEnd.Wraps headerAtEnd.metadata.dataTail.toNat := by decide +kernel
  have hlt : headerAtEnd.metadata.dataTail.toNat < headerAtEnd.metadata.dataHead.toNat := by decide +kernel
  have hstop := stopFrom_malformed headerAtEnd_mapped headerAtEnd_mapped.oneRound hlt (.inr hwraps)
  rw [drain_eq headerAtEnd_mapped] at hrun
  have hmore := drainFrom_wrapped headerAtEnd_mapped fuel hlt.le headerAtEnd_mapped.oneRound (by rwa [hstop])
    (by rwa [hstop]) hrun
  rw [hparsed.handled, List.length_nil, Nat.zero_add] at hmore
  exact absurd hmore (lt_irrefl _)

end PerfEvent

end RustProfile
