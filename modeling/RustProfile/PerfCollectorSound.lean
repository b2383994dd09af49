import RustProfile.PerfCollector

/-!
# Every record is delivered once

The records in the batches, those in the rings of open events and those in rings
that were closed are together the records appended, and the open events are the
ones that the collector holds. A drain moves what a ring holds to the batch,
whichever list led to it; only what comes between the last drain of a retired
event and its closing is lost.
-/

namespace RustProfile

open Run

/-! ## Rings -/

section
variable {rings : Table ℕ (List RingRecord)} {event : ℕ} {ring : List RingRecord}

def unread (rings : Table ℕ (List RingRecord)) : List RingRecord := rings.entries.flatMap (·.2)

theorem unread_insert (ring : List RingRecord) :
    unread (rings.insert event ring) = ring ++ unread (rings.erase event) :=
  rfl

theorem unread_perm (h : rings.lookup event = some ring) :
    (unread rings).Perm (ring ++ unread (rings.erase event)) :=
  (Table.entries_perm h).flatMap_right _

theorem mem_unread {record : RingRecord} :
    record ∈ unread rings ↔ ∃ event ring, rings.lookup event = some ring ∧ record ∈ ring := by
  unfold unread
  rw [List.mem_flatMap]
  constructor
  · rintro ⟨entry, he, hmem⟩
    exact ⟨entry.1, entry.2, Table.mem_entries.mp he, hmem⟩
  · rintro ⟨event, ring, hl, hmem⟩
    exact ⟨⟨event, ring⟩, Table.mem_entries.mpr hl, hmem⟩

theorem keys_insert_perm (h : event ∈ rings) (ring : List RingRecord) :
    (rings.insert event ring).keys.Perm rings.keys := by
  rw [AList.keys_insert]
  exact (List.perm_cons_erase h).symm

end

/-! ## The invariant -/

def PerfCollector.heldEvents (self : PerfCollector) : List ℕ := self.events.entries.map (·.2) ++ self.retiredEvents

theorem PerfSystem.holds_iff {s : PerfSystem} {event : ℕ} : s.Holds event ↔ event ∈ s.collector.heldEvents := by
  unfold PerfSystem.Holds PerfCollector.heldEvents
  rw [List.mem_append, List.mem_map]
  refine or_congr_left ⟨?_, ?_⟩
  · rintro ⟨tid, hl⟩
    exact ⟨⟨tid, event⟩, Table.mem_entries.mpr hl, rfl⟩
  · rintro ⟨entry, he, rfl⟩
    exact ⟨entry.1, Table.mem_entries.mp he⟩

/-- The events that are open: the ones held, and the retired one that is being dropped. -/
def PerfSystem.openEvents (self : PerfSystem) : List ℕ := self.collector.heldEvents ++ self.phase.owned

/-- The event was retired, and drained after that. -/
def PerfHistory.Finished (self : PerfHistory) (event : ℕ) : Prop :=
  ∃ retiredAt, self.retiredAt event = some retiredAt ∧ retiredAt ≤ self.drainedAt event

structure DeliversOnce (s : PerfSystem) : Prop where
  numbered : s.history.appended.map RingRecord.number = List.range s.history.appended.length
  accounted : (s.delivered ++ (unread s.rings ++ s.history.lost)).Perm s.history.appended
  held : s.openEvents.Perm s.rings.keys
  fresh : ∀ event ∈ s.rings, event < s.nextEvent
  own : ∀ event ring, s.rings.lookup event = some ring → ∀ record ∈ ring, record.event = event ∧
    s.history.drainedAt event ≤ record.number
  drained : ∀ record ∈ s.delivered, record.number < s.history.drainedAt record.event
  past : ∀ event, s.history.drainedAt event ≤ s.history.appended.length
  closed : ∀ event ∈ s.history.closed, event ∉ s.rings ∧ event < s.nextEvent ∧ s.history.Finished event
  dropped : ∀ event ∈ s.phase.owned, s.history.Finished event
  retired : ∀ event ∈ s.collector.retiredEvents,
    ∃ retiredAt, s.history.retiredAt event = some retiredAt ∧ retiredAt ≤ s.history.appended.length
  lost : ∀ record ∈ s.history.lost, record.event ∈ s.history.closed ∧
    s.history.drainedAt record.event ≤ record.number

namespace DeliversOnce

theorem start (maxThreads : ℕ) : DeliversOnce (.start maxThreads) where
  numbered := rfl
  accounted := List.Perm.refl _
  held := List.Perm.refl _
  fresh := fun event hmem => absurd hmem (AList.notMem_empty event)
  own := fun _ _ hl => by cases hl
  drained := fun _ hmem => absurd hmem List.not_mem_nil
  past := fun _ => Nat.le_refl _
  closed := fun _ hmem => absurd hmem List.not_mem_nil
  dropped := fun _ hmem => absurd hmem List.not_mem_nil
  retired := fun _ hmem => absurd hmem List.not_mem_nil
  lost := fun _ hmem => absurd hmem List.not_mem_nil

variable {s : PerfSystem} (h : DeliversOnce s)

include h

theorem mem_rings {event : ℕ} (hopen : event ∈ s.openEvents) : ∃ ring, s.rings.lookup event = some ring :=
  Table.mem_iff.mp (h.held.mem_iff.mp hopen)

theorem openEvents_nodup : s.openEvents.Nodup := h.held.nodup_iff.mpr s.rings.keys_nodup

theorem numbers_nodup : s.history.appended.Nodup :=
  List.Nodup.of_map RingRecord.number (h.numbered ▸ List.nodup_range)

theorem append {event : ℕ} {kind : UInt32} {body : List UInt8} {t : PerfSystem}
    (hs : s.append event kind body = some t) : DeliversOnce t := by
  obtain ⟨ring, hring, rfl⟩ := Option.map_eq_some_iff.mp hs
  have hmem := Table.mem_of_lookup hring
  have hlonger : ∀ record : RingRecord, s.history.appended.length ≤ (s.history.appended ++ [record]).length := by
    intro record
    rw [List.length_append]
    exact Nat.le_add_right _ _
  refine ⟨?_, ?_, h.held.trans (keys_insert_perm hmem _).symm, fun other hother => ?_, fun other ring' hl => ?_,
    h.drained, fun other => (h.past other).trans (hlonger _), fun other hclosed => ?_, h.dropped,
    fun other hretired => ?_, h.lost⟩
  · dsimp only
    rw [List.map_append, h.numbered, List.length_append, List.length_singleton, List.range_succ]
    rfl
  · -- the new record is the last of its ring
    change (s.delivered ++ (unread (s.rings.insert event (ring ++ [_])) ++ s.history.lost)).Perm _
    rw [unread_insert]
    have hlast : ∀ record : RingRecord, (s.delivered ++ ((ring ++ [record] ++ unread (s.rings.erase event)) ++
        s.history.lost)).Perm (s.delivered ++ ((ring ++ unread (s.rings.erase event)) ++ s.history.lost) ++
          [record]) := by
      intro record
      simp only [List.append_assoc]
      refine (List.Perm.append_left ring ?_).append_left s.delivered
      exact List.perm_append_comm.trans (by simp)
    refine (hlast _).trans (List.Perm.append_right _ ?_)
    exact ((((unread_perm hring).symm.append_right _).append_left s.delivered)).trans h.accounted
  · rcases (AList.mem_insert _).mp hother with rfl | hother
    · exact h.fresh _ hmem
    · exact h.fresh _ hother
  · rcases Table.lookup_insert_eq_some.mp hl with ⟨rfl, rfl⟩ | ⟨-, hl⟩
    · intro record hrecord
      rcases List.mem_append.mp hrecord with hrecord | hrecord
      · exact h.own _ ring hring record hrecord
      · rw [List.mem_singleton.mp hrecord]
        exact ⟨rfl, h.past _⟩
    · exact h.own other ring' hl
  · obtain ⟨hnot, hlt, hfinished⟩ := h.closed other hclosed
    refine ⟨fun hother => ?_, hlt, hfinished⟩
    rcases (AList.mem_insert _).mp hother with rfl | hother
    · exact hnot hmem
    · exact hnot hother
  · obtain ⟨retiredAt, hat, hle⟩ := h.retired other hretired
    exact ⟨retiredAt, hat, hle.trans (hlonger _)⟩

/-! ## Reconciling -/

omit h in
/-- To retire another event does not change when an event was. -/
theorem finished_retire {event other : ℕ} (hne : other ≠ event) (hfinished : s.history.Finished other) :
    ({ s.history with
      retiredAt := Function.update s.history.retiredAt event s.history.appended.length } : PerfHistory).Finished
      other := by
  obtain ⟨retiredAt, hat, hle⟩ := hfinished
  exact ⟨retiredAt, (Function.update_of_ne hne _ _).trans hat, hle⟩

theorem retire (tid : Int32) : DeliversOnce (s.retire tid) := by
  unfold PerfSystem.retire
  cases hl : s.collector.events.lookup tid with
  | none => exact h
  | some event =>
    have hentries := (Table.entries_perm hl).map fun entry => entry.2
    have hheld : event ∈ s.collector.events.entries.map (·.2) :=
      hentries.mem_iff.mpr List.mem_cons_self
    have hopen : event ∈ s.openEvents := List.mem_append_left _ (List.mem_append_left _ hheld)
    refine ⟨h.numbered, h.accounted, ?_, h.fresh, h.own, h.drained, h.past, fun other hclosed => ?_,
      fun other hdropped => ?_, fun other hretired => ?_, h.lost⟩
    · refine List.Perm.trans (List.Perm.append_right _ ?_) h.held
      unfold PerfCollector.heldEvents
      dsimp only
      rw [← List.append_assoc]
      exact List.perm_append_comm.trans (hentries.symm.append_right s.collector.retiredEvents)
    · obtain ⟨hnot, hlt, hfinished⟩ := h.closed other hclosed
      exact ⟨hnot, hlt, finished_retire (fun heq => hnot (h.held.mem_iff.mp (heq ▸ hopen))) hfinished⟩
    · refine finished_retire (fun heq => ?_) (h.dropped other hdropped)
      obtain ⟨-, -, hdisjoint⟩ := List.nodup_append'.mp h.openEvents_nodup
      exact hdisjoint (List.mem_append_left _ hheld) (heq ▸ hdropped)
    · dsimp only
      rw [Function.update_apply]
      split
      · exact ⟨_, rfl, Nat.le_refl _⟩
      · rename_i hne
        refine h.retired other ((List.mem_append.mp hretired).resolve_right fun hlast => ?_)
        exact hne (List.mem_singleton.mp hlast)

theorem openEvent {tid : Int32} (htid : tid ∉ s.collector.events) : DeliversOnce (s.openEvent tid) := by
  have hfresh : s.nextEvent ∉ s.rings := fun hmem => Nat.lt_irrefl _ (h.fresh _ hmem)
  refine ⟨h.numbered, ?_, ?_, fun event hmem => ?_, fun event ring hl => ?_, h.drained, h.past,
    fun event hclosed => ?_, h.dropped, h.retired, h.lost⟩
  · change (s.delivered ++ (unread (s.rings.insert s.nextEvent []) ++ s.history.lost)).Perm _
    rw [unread_insert, Table.erase_of_notMem hfresh]
    exact h.accounted
  · change ((s.nextEvent :: (s.collector.events.erase tid).entries.map (·.2)) ++ _ ++ _).Perm
      (s.nextEvent :: (s.rings.erase s.nextEvent).keys)
    rw [Table.erase_of_notMem htid, Table.erase_of_notMem hfresh]
    exact h.held.cons s.nextEvent
  · rcases (AList.mem_insert _).mp hmem with rfl | hmem
    · exact Nat.lt_succ_self _
    · exact Nat.lt_succ_of_lt (h.fresh event hmem)
  · change (s.rings.insert s.nextEvent []).lookup event = some ring at hl
    rcases Table.lookup_insert_eq_some.mp hl with ⟨-, rfl⟩ | ⟨-, hl⟩
    · exact fun _ hmem => absurd hmem List.not_mem_nil
    · exact h.own event ring hl
  · obtain ⟨hnot, hlt, hfinished⟩ := h.closed event hclosed
    refine ⟨fun hmem => ?_, Nat.lt_succ_of_lt hlt, hfinished⟩
    rcases (AList.mem_insert _).mp hmem with rfl | hmem
    · exact Nat.lt_irrefl _ hlt
    · exact hnot hmem

omit h in
theorem foldl_retire : ∀ (retired : List Int32) {s : PerfSystem}, DeliversOnce s →
    DeliversOnce (retired.foldl PerfSystem.retire s)
  | [], _, h => h
  | tid :: retired, _, h => foldl_retire retired (h.retire tid)

omit h in
theorem openThreads (opens : Int32 → OpenOutcome) : ∀ (tids : List Int32) {s : PerfSystem}, DeliversOnce s →
    DeliversOnce (PerfSystem.openThreads opens tids s).2
  | [], _, h => h
  | tid :: tids, s, h => by
    unfold PerfSystem.openThreads
    split
    · exact openThreads opens tids h
    · rename_i htid
      split
      · exact openThreads opens tids (h.openEvent htid)
      · exact openThreads opens tids h
      · exact h

/-- Also a reconciliation that fails keeps every event. -/
theorem reconcileThreadIds (threads : List Int32) (opens : Int32 → OpenOutcome) (iter : IterOrder) :
    DeliversOnce (s.reconcileThreadIds threads opens iter).2 := by
  unfold PerfSystem.reconcileThreadIds
  split
  · exact h
  · have hopened := openThreads opens threads
      (foldl_retire (iter.order (s.collector.events.keys.filter (· ∉ threads))) h)
    dsimp only
    split
    · rename_i t ht
      rw [ht] at hopened
      exact { hopened with held := hopened.held }
    · rename_i error t ht
      rw [ht] at hopened
      exact hopened

/-! ## Draining -/

theorem withPhase (phase : DrainPhase) (hbatch : phase.batch = s.phase.batch) (howned : phase.owned = s.phase.owned) :
    DeliversOnce { s with phase := phase } := by
  have hdelivered : ({ s with phase := phase } : PerfSystem).delivered = s.delivered := by
    unfold PerfSystem.delivered
    rw [hbatch]
  have hopen : ({ s with phase := phase } : PerfSystem).openEvents = s.openEvents := by
    unfold PerfSystem.openEvents
    rw [howned]
  exact ⟨h.numbered, hdelivered ▸ h.accounted, hopen ▸ h.held, h.fresh, h.own, hdelivered ▸ h.drained, h.past,
    h.closed, fun event hmem => h.dropped event (howned ▸ hmem), h.retired, h.lost⟩

theorem call (hphase : s.phase = .idle) (wait : Bool) : DeliversOnce (s.call wait) := by
  have hstarted := h.withPhase (.retired wait []) (by rw [hphase]; rfl) (by rw [hphase]; rfl)
  exact { hstarted with held := hstarted.held }

theorem returnBatch {batch : List RingRecord} (hbatch : s.phase.batch = batch) (howned : s.phase.owned = []) :
    DeliversOnce (s.returnBatch batch) := by
  have hdelivered : (s.returnBatch batch).delivered = s.delivered := by
    unfold PerfSystem.delivered PerfSystem.returnBatch DrainPhase.batch
    dsimp only
    rw [List.flatten_append, List.flatten_singleton, List.append_nil, ← hbatch]
    rfl
  have hopen : (s.returnBatch batch).openEvents = s.openEvents := by
    unfold PerfSystem.openEvents
    rw [howned]
    rfl
  exact ⟨h.numbered, hdelivered ▸ h.accounted, hopen ▸ h.held, h.fresh, h.own, hdelivered ▸ h.drained, h.past,
    h.closed, fun _ hmem => absurd hmem List.not_mem_nil, h.retired, h.lost⟩

theorem number_lt {record : RingRecord} (hrecord : record ∈ s.history.appended) :
    record.number < s.history.appended.length := by
  have hrange := List.mem_map_of_mem (f := RingRecord.number) hrecord
  rw [h.numbered] at hrange
  exact List.mem_range.mp hrange

/-- A drain is not earlier than the ones before it. -/
theorem drainedAt_le (event other : ℕ) : s.history.drainedAt other ≤
    Function.update s.history.drainedAt event s.history.appended.length other := by
  rw [Function.update_apply]
  split
  · exact h.past other
  · exact Nat.le_refl _

theorem drainEvent {event : ℕ} (hopen : event ∈ s.openEvents) (phase : DrainPhase)
    (hbatch : phase.batch = (s.drainEvent event s.phase.batch).1) (howned : phase.owned = s.phase.owned) :
    DeliversOnce { (s.drainEvent event s.phase.batch).2 with phase := phase } := by
  obtain ⟨ring, hring⟩ := h.mem_rings hopen
  have hmem := Table.mem_of_lookup hring
  have hdelivered : ({ (s.drainEvent event s.phase.batch).2 with phase := phase } : PerfSystem).delivered =
      s.delivered ++ ring := by
    unfold PerfSystem.delivered
    rw [hbatch]
    unfold PerfSystem.drainEvent
    rw [hring, Option.getD_some, ← List.append_assoc]
  have hfinished : ∀ {other}, s.history.Finished other →
      ({ (s.drainEvent event s.phase.batch).2 with phase := phase } : PerfSystem).history.Finished other := by
    rintro other ⟨retiredAt, hat, hle⟩
    exact ⟨retiredAt, hat, hle.trans (h.drainedAt_le event other)⟩
  refine ⟨h.numbered, ?_, ?_, fun other hother => ?_, fun other ring' hl => ?_, fun record hrecord => ?_,
    fun other => ?_,
    fun other hclosed => ?_, fun other hdropped => hfinished (h.dropped other (howned ▸ hdropped)), h.retired,
    fun record hlost => ?_⟩
  · rw [hdelivered]
    change (_ ++ (unread (s.rings.insert event []) ++ s.history.lost)).Perm _
    rw [unread_insert, List.nil_append, List.append_assoc, ← List.append_assoc ring]
    exact (((unread_perm hring).symm.append_right _).append_left s.delivered).trans h.accounted
  · unfold PerfSystem.openEvents
    rw [howned]
    exact h.held.trans (keys_insert_perm hmem _).symm
  · rcases (AList.mem_insert _).mp hother with rfl | hother
    · exact h.fresh _ hmem
    · exact h.fresh _ hother
  · change (s.rings.insert event []).lookup other = some ring' at hl
    rcases Table.lookup_insert_eq_some.mp hl with ⟨-, rfl⟩ | ⟨hevent, hl⟩
    · exact fun _ hrecord => absurd hrecord List.not_mem_nil
    · intro record hrecord
      obtain ⟨howner, hlate⟩ := h.own other ring' hl record hrecord
      refine ⟨howner, ?_⟩
      change Function.update s.history.drainedAt event _ other ≤ _
      rwa [Function.update_of_ne hevent]
  · rw [hdelivered] at hrecord
    change record.number < Function.update s.history.drainedAt event _ record.event
    rcases List.mem_append.mp hrecord with hrecord | hrecord
    · exact (h.drained record hrecord).trans_le (h.drainedAt_le event record.event)
    · obtain ⟨rfl, -⟩ := h.own event ring hring record hrecord
      rw [Function.update_self]
      refine h.number_lt (h.accounted.mem_iff.mp (List.mem_append_right _ (List.mem_append_left _ ?_)))
      exact mem_unread.mpr ⟨_, ring, hring, hrecord⟩
  · change Function.update s.history.drainedAt event _ other ≤ _
    rw [Function.update_apply]
    split
    · exact Nat.le_refl _
    · exact h.past other
  · obtain ⟨hnot, hlt, hdone⟩ := h.closed other hclosed
    refine ⟨fun hother => ?_, hlt, hfinished hdone⟩
    rcases (AList.mem_insert _).mp hother with rfl | hother
    · exact hnot hmem
    · exact hnot hother
  · obtain ⟨hclosed, hlate⟩ := h.lost record hlost
    refine ⟨hclosed, ?_⟩
    change Function.update s.history.drainedAt event _ record.event ≤ _
    rwa [Function.update_of_ne fun heq : record.event = event => (h.closed _ hclosed).1 (heq ▸ hmem)]

/-- A retired event that has just been drained is the one to be dropped. -/
theorem drop {event : ℕ} {retired : List ℕ} (hretired : s.collector.retiredEvents = event :: retired)
    (howned : s.phase.owned = []) (hfinished : s.history.Finished event) {phase : DrainPhase}
    (hbatch : phase.batch = s.phase.batch) (hphase : phase.owned = [event]) :
    DeliversOnce { s with collector := { s.collector with retiredEvents := retired }, phase := phase } := by
  have hdelivered : ({ s with
      collector := { s.collector with retiredEvents := retired }
      phase := phase } : PerfSystem).delivered = s.delivered := by
    unfold PerfSystem.delivered
    rw [hbatch]
  refine ⟨h.numbered, hdelivered ▸ h.accounted, ?_, h.fresh, h.own, hdelivered ▸ h.drained, h.past, h.closed,
    fun other hdropped => ?_, fun other hother => h.retired other (hretired ▸ List.mem_cons_of_mem _ hother), h.lost⟩
  · refine List.Perm.trans ?_ h.held
    unfold PerfSystem.openEvents PerfCollector.heldEvents
    rw [hphase, howned, hretired, List.append_nil, List.append_assoc]
    exact (List.perm_append_singleton event retired).append_left _
  · rw [hphase] at hdropped
    rw [List.mem_singleton.mp hdropped]
    exact hfinished

theorem drainRetired {wait : Bool} {batch : List RingRecord} (hphase : s.phase = .retired wait batch) {t : PerfSystem}
    (hs : s.drainRetired wait batch = some t) : DeliversOnce t := by
  have hbatch : s.phase.batch = batch := by
    rw [hphase]
    rfl
  have howned : s.phase.owned = [] := by
    rw [hphase]
    rfl
  unfold PerfSystem.drainRetired at hs
  cases hretired : s.collector.retiredEvents with
  | nil =>
    rw [hretired] at hs
    cases hs
  | cons event retired =>
    rw [hretired] at hs
    cases hs
    have hmem : event ∈ s.collector.retiredEvents := hretired ▸ List.mem_cons_self
    have hopen : event ∈ s.openEvents := List.mem_append_left _ (List.mem_append_right _ hmem)
    obtain ⟨retiredAt, hat, hle⟩ := h.retired event hmem
    subst hbatch
    have hdrained := h.drainEvent hopen (.retired wait (s.drainEvent event s.phase.batch).1) rfl howned.symm
    refine @drop _ hdrained event retired hretired rfl ⟨retiredAt, hat, ?_⟩ _ rfl rfl
    change retiredAt ≤ Function.update s.history.drainedAt event _ event
    rwa [Function.update_self]

/-- What has come to the ring since the drain is lost with it. -/
theorem closeRetired {wait : Bool} {event : ℕ} {batch : List RingRecord}
    (hphase : s.phase = .dropping wait event batch) :
    DeliversOnce { s.close event with phase := .retired wait batch } := by
  have howned : s.phase.owned = [event] := by
    rw [hphase]
    rfl
  have hopen : event ∈ s.openEvents := List.mem_append_right _ (howned ▸ List.mem_singleton_self event)
  obtain ⟨ring, hring⟩ := h.mem_rings hopen
  have hmem := Table.mem_of_lookup hring
  have hdelivered : ({ s.close event with phase := .retired wait batch } : PerfSystem).delivered = s.delivered := by
    unfold PerfSystem.delivered
    rw [hphase]
    rfl
  refine ⟨h.numbered, ?_, ?_, fun other hother => ?_, fun other ring' hl => ?_, hdelivered ▸ h.drained, h.past,
    fun other hclosed => ?_, fun _ hdropped => absurd hdropped List.not_mem_nil, h.retired, fun record hlost => ?_⟩
  · rw [hdelivered]
    change (s.delivered ++ (unread (s.rings.erase event) ++ (s.history.lost ++ (s.rings.lookup event).getD []))).Perm _
    rw [hring, Option.getD_some, ← List.append_assoc (unread _)]
    refine List.Perm.trans (List.Perm.append_left s.delivered ?_) h.accounted
    refine List.perm_append_comm.trans ?_
    rw [← List.append_assoc]
    exact (unread_perm hring).symm.append_right _
  · change (s.collector.heldEvents ++ []).Perm (s.rings.erase event).keys
    rw [AList.keys_erase, List.append_nil]
    have hall := h.held
    unfold PerfSystem.openEvents at hall
    rw [howned] at hall
    exact (((List.perm_append_singleton _ _).symm.trans hall).trans (List.perm_cons_erase hmem)).cons_inv
  · exact h.fresh other (AList.mem_erase.mp hother).2
  · change (s.rings.erase event).lookup other = some ring' at hl
    exact h.own other ring' (Table.lookup_erase_eq_some.mp hl).2
  · rcases List.mem_append.mp hclosed with hclosed | hclosed
    · obtain ⟨hnot, hlt, hfinished⟩ := h.closed other hclosed
      exact ⟨fun hother => hnot (AList.mem_erase.mp hother).2, hlt, hfinished⟩
    · rw [List.mem_singleton.mp hclosed]
      exact ⟨fun hother => (AList.mem_erase.mp hother).1 rfl, h.fresh event hmem,
        h.dropped event (howned ▸ List.mem_singleton_self event)⟩
  · change record ∈ s.history.lost ++ (s.rings.lookup event).getD [] at hlost
    rw [hring, Option.getD_some] at hlost
    rcases List.mem_append.mp hlost with hlost | hlost
    · obtain ⟨hclosed, hlate⟩ := h.lost record hlost
      exact ⟨List.mem_append_left _ hclosed, hlate⟩
    · obtain ⟨rfl, hlate⟩ := h.own event ring hring record hlost
      exact ⟨List.mem_append_right _ (List.mem_singleton_self _), hlate⟩

theorem poll {wait : Bool} {batch : List RingRecord} (hphase : s.phase = .retired wait batch) (outcome : PollOutcome) :
    DeliversOnce (s.poll batch outcome) := by
  have hbatch : s.phase.batch = batch := by
    rw [hphase]
    rfl
  have howned : s.phase.owned = [] := by
    rw [hphase]
    rfl
  unfold PerfSystem.poll
  split
  · exact h.returnBatch hbatch howned
  · cases outcome with
    | timeout => exact h.returnBatch hbatch howned
    | interrupted => exact h.returnBatch hbatch howned
    | ready revents => exact h.withPhase _ hbatch.symm howned.symm

/-- A thread's event is drained if the thread has one by now, whatever it had when it was polled. -/
theorem drainActive {wait : Bool} {asked tids : List Int32} {batch : List RingRecord}
    (hphase : s.phase = .active wait asked tids batch) : DeliversOnce (s.drainActive wait asked tids batch) := by
  have hbatch : s.phase.batch = batch := by
    rw [hphase]
    rfl
  have howned : s.phase.owned = [] := by
    rw [hphase]
    rfl
  cases tids with
  | nil => exact h.returnBatch hbatch howned
  | cons tid tids =>
    unfold PerfSystem.drainActive
    dsimp only
    cases hl : s.collector.events.lookup tid with
    | none => exact h.withPhase (.active wait asked tids batch) hbatch.symm howned.symm
    | some event =>
      subst hbatch
      have hheld := PerfSystem.holds_iff.mp (Or.inl ⟨tid, hl⟩)
      exact h.drainEvent (List.mem_append_left _ hheld) (.active wait asked tids _) rfl howned.symm

theorem step {action : PerfStep} {t : PerfSystem} (hs : s.step action = some t) : DeliversOnce t := by
  unfold PerfSystem.step at hs
  cases action with
  | append event kind body => exact h.append hs
  | reconcileThreadIds threads opens iter =>
    dsimp only at hs
    split at hs
    · cases hs
      exact h.reconcileThreadIds threads opens iter
    · cases hs
  | drainInto =>
    dsimp only at hs
    split at hs
    · rename_i hphase
      cases hs
      exact h.call hphase false
    · cases hs
  | waitAndDrainInto =>
    dsimp only at hs
    split at hs
    · rename_i hphase
      cases hs
      exact h.call hphase true
    · cases hs
  | drainRetired =>
    dsimp only at hs
    split at hs
    · rename_i wait batch hphase
      exact h.drainRetired hphase hs
    · cases hs
  | closeRetired =>
    dsimp only at hs
    split at hs
    · rename_i wait event batch hphase
      cases hs
      exact h.closeRetired hphase
    · cases hs
  | drainEvents iter =>
    dsimp only at hs
    split at hs
    · rename_i batch hphase
      split at hs
      · cases hs
        exact h.withPhase _ (by rw [hphase]; rfl) (by rw [hphase]; rfl)
      · cases hs
    · cases hs
  | poll outcome =>
    dsimp only at hs
    split at hs
    · rename_i batch hphase
      split at hs
      · cases hs
        exact h.poll hphase outcome
      · cases hs
    · cases hs
  | drainActive =>
    dsimp only at hs
    split at hs
    · rename_i wait asked tids batch hphase
      cases hs
      exact h.drainActive hphase
    · cases hs

end DeliversOnce

/-! ## A call drains what it asks for -/

/-- How far a call has come. A thread that it has asked is drained unless it is among those left. -/
structure Progress (s : PerfSystem) : Prop where
  called : s.history.calledAt ≤ s.history.appended.length
  asked : ∀ wait asked tids batch, s.phase = .active wait asked tids batch → s.collector.retiredEvents = [] ∧
    (wait = false → ∀ tid ∈ s.collector.events, tid ∈ asked) ∧
    ∀ tid ∈ asked, tid ∉ tids → ∀ event, s.collector.events.lookup tid = some event →
      s.history.calledAt ≤ s.history.drainedAt event

structure SameCall (s t : PerfSystem) : Prop where
  phase : t.phase = s.phase
  calledAt : t.history.calledAt = s.history.calledAt
  appended : t.history.appended = s.history.appended

theorem SameCall.trans {s t u : PerfSystem} (h : SameCall s t) (h' : SameCall t u) : SameCall s u :=
  ⟨h'.phase.trans h.phase, h'.calledAt.trans h.calledAt, h'.appended.trans h.appended⟩

theorem retire_sameCall (s : PerfSystem) (tid : Int32) : SameCall s (s.retire tid) := by
  unfold PerfSystem.retire
  split <;> exact ⟨rfl, rfl, rfl⟩

theorem foldl_retire_sameCall : ∀ (retired : List Int32) (s : PerfSystem),
    SameCall s (retired.foldl PerfSystem.retire s)
  | [], _ => ⟨rfl, rfl, rfl⟩
  | tid :: retired, s => (retire_sameCall s tid).trans (foldl_retire_sameCall retired _)

theorem openThreads_sameCall (opens : Int32 → OpenOutcome) : ∀ (tids : List Int32) (s : PerfSystem),
    SameCall s (PerfSystem.openThreads opens tids s).2
  | [], _ => ⟨rfl, rfl, rfl⟩
  | tid :: tids, s => by
    unfold PerfSystem.openThreads
    split
    · exact openThreads_sameCall opens tids s
    · split
      · have hopened : SameCall s (s.openEvent tid) := ⟨rfl, rfl, rfl⟩
        exact hopened.trans (openThreads_sameCall opens tids (s.openEvent tid))
      · exact openThreads_sameCall opens tids s
      · exact ⟨rfl, rfl, rfl⟩

theorem reconcileThreadIds_sameCall (s : PerfSystem) (threads : List Int32) (opens : Int32 → OpenOutcome)
    (iter : IterOrder) : SameCall s (s.reconcileThreadIds threads opens iter).2 := by
  unfold PerfSystem.reconcileThreadIds
  split
  · exact ⟨rfl, rfl, rfl⟩
  · have hopened := (foldl_retire_sameCall (iter.order (s.collector.events.keys.filter (· ∉ threads))) s).trans
      (openThreads_sameCall opens threads _)
    dsimp only
    split
    · rename_i t ht
      rw [ht] at hopened
      exact hopened.trans ⟨rfl, rfl, rfl⟩
    · rename_i error t ht
      rw [ht] at hopened
      exact hopened

namespace Progress

theorem start (maxThreads : ℕ) : Progress (.start maxThreads) := ⟨Nat.le_refl _, nofun⟩

variable {s t : PerfSystem}

/-- Between the calls, and before the active threads, there is nothing to show. -/
theorem of_not_active (hcalled : s.history.calledAt ≤ s.history.appended.length)
    (hphase : ∀ wait asked tids batch, s.phase ≠ .active wait asked tids batch) : Progress s :=
  ⟨hcalled, fun wait asked tids batch h => absurd h (hphase wait asked tids batch)⟩

variable (h : Progress s)

include h

theorem drainActive {wait : Bool} {asked tids : List Int32} {batch : List RingRecord}
    (hphase : s.phase = .active wait asked tids batch) : Progress (s.drainActive wait asked tids batch) := by
  obtain ⟨hretired, hall, hdrained⟩ := h.asked _ _ _ _ hphase
  cases tids with
  | nil => exact of_not_active h.called nofun
  | cons tid tids =>
    unfold PerfSystem.drainActive
    dsimp only
    cases hl : s.collector.events.lookup tid with
    | none =>
      refine ⟨h.called, fun wait' asked' tids' batch' hphase' => ?_⟩
      cases hphase'
      refine ⟨hretired, hall, fun other hasked hleft event hevent => ?_⟩
      refine hdrained other hasked (fun hmem => ?_) event hevent
      rcases List.mem_cons.mp hmem with rfl | hmem
      · cases hl.symm.trans hevent
      · exact hleft hmem
    | some event =>
      refine ⟨h.called, fun wait' asked' tids' batch' hphase' => ?_⟩
      cases hphase'
      refine ⟨hretired, hall, fun other hasked hleft event' hevent => ?_⟩
      change s.history.calledAt ≤ Function.update s.history.drainedAt event s.history.appended.length event'
      rw [Function.update_apply]
      split
      · exact h.called
      · rename_i hne
        refine hdrained other hasked (fun hmem => ?_) event' hevent
        rcases List.mem_cons.mp hmem with rfl | hmem
        · exact hne (Option.some.inj (hevent.symm.trans hl))
        · exact hleft hmem

theorem step {action : PerfStep} (hs : s.step action = some t) : Progress t := by
  unfold PerfSystem.step at hs
  cases action with
  | append event kind body =>
    obtain ⟨ring, -, rfl⟩ := Option.map_eq_some_iff.mp hs
    refine ⟨h.called.trans ?_, h.asked⟩
    rw [List.length_append]
    exact Nat.le_add_right _ _
  | reconcileThreadIds threads opens iter =>
    dsimp only at hs
    split at hs
    · rename_i hphase
      cases hs
      have hsame := reconcileThreadIds_sameCall s threads opens iter
      refine of_not_active ?_ fun _ _ _ _ hactive => ?_
      · rw [hsame.calledAt, hsame.appended]
        exact h.called
      · rw [hsame.phase, hphase] at hactive
        cases hactive
    · cases hs
  | drainInto =>
    dsimp only at hs
    split at hs
    · cases hs
      exact of_not_active (Nat.le_refl _) nofun
    · cases hs
  | waitAndDrainInto =>
    dsimp only at hs
    split at hs
    · cases hs
      exact of_not_active (Nat.le_refl _) nofun
    · cases hs
  | drainRetired =>
    dsimp only at hs
    split at hs
    · unfold PerfSystem.drainRetired at hs
      split at hs
      · cases hs
      · cases hs
        exact of_not_active h.called nofun
    · cases hs
  | closeRetired =>
    dsimp only at hs
    split at hs
    · cases hs
      exact of_not_active h.called nofun
    · cases hs
  | drainEvents iter =>
    dsimp only at hs
    split at hs
    · split at hs
      · rename_i hretired
        cases hs
        refine ⟨h.called, fun wait asked tids batch hphase => ?_⟩
        cases hphase
        -- the loop begins with every thread of the map
        exact ⟨hretired, fun _ tid hmem => (iter.perm _).mem_iff.mpr (AList.mem_keys.mp hmem),
          fun tid hasked hleft => absurd hasked hleft⟩
      · cases hs
    · cases hs
  | poll outcome =>
    dsimp only at hs
    split at hs
    · split at hs
      · rename_i hretired
        cases hs
        unfold PerfSystem.poll
        split
        · exact of_not_active h.called nofun
        · cases outcome with
          | timeout => exact of_not_active h.called nofun
          | interrupted => exact of_not_active h.called nofun
          | ready revents =>
            refine ⟨h.called, fun wait asked tids batch hphase => ?_⟩
            cases hphase
            -- and here with those that are ready
            exact ⟨hretired, nofun, fun tid hasked hleft => absurd hasked hleft⟩
      · cases hs
    · cases hs
  | drainActive =>
    dsimp only at hs
    split at hs
    · rename_i wait asked tids batch hphase
      cases hs
      exact h.drainActive hphase
    · cases hs

end Progress

/-! ## Every run -/

/-- **Every record is delivered once.** A record that was appended before its event was last drained is in
exactly one batch. Any other is in the ring of an event that is open, unless it came to a retired event
between its last drain and its closing. An event that was closed had been drained since it was retired, and a
call that returns has drained, since it began, every event that it was to. -/
theorem records_delivered_once {maxThreads : ℕ} {steps : List PerfStep} {s : PerfSystem}
    (hrun : run PerfSystem.step (.start maxThreads) steps = some s) :
    (∀ record ∈ s.history.appended,
      (record.number < s.history.drainedAt record.event →
        s.delivered.count record = 1 ∧ record ∉ unread s.rings ∧ record ∉ s.history.lost) ∧
      (s.history.drainedAt record.event ≤ record.number → record ∉ s.delivered ∧
        ((s.Holds record.event ∨ record.event ∈ s.phase.owned) ∧
            (∃ ring, s.rings.lookup record.event = some ring ∧ record ∈ ring) ∨
          record ∈ s.history.lost))) ∧
    (∀ record ∈ s.delivered, record ∈ s.history.appended) ∧
    (∀ record ∈ s.history.lost, record ∈ s.history.appended ∧ record.event ∈ s.history.closed ∧
      s.history.drainedAt record.event ≤ record.number) ∧
    (∀ event ∈ s.history.closed, ¬ s.Holds event ∧ s.history.Finished event) ∧
    ∀ wait asked batch, s.phase = .active wait asked [] batch → s.collector.retiredEvents = [] ∧
      (wait = false → ∀ tid ∈ s.collector.events, tid ∈ asked) ∧
      ∀ tid ∈ asked, ∀ event, s.collector.events.lookup tid = some event →
        s.history.calledAt ≤ s.history.drainedAt event := by
  have h : DeliversOnce s := run_inv' PerfSystem.step (fun _ _ _ h hs => h.step hs) (.start maxThreads) hrun
  have hprogress : Progress s := run_inv' PerfSystem.step (fun _ _ _ h hs => h.step hs) (.start maxThreads) hrun
  have hnodup := h.accounted.nodup_iff.mpr h.numbers_nodup
  obtain ⟨hdelivered, -, hdisjoint⟩ := List.nodup_append'.mp hnodup
  have hunread : ∀ record ∈ unread s.rings, (s.Holds record.event ∨ record.event ∈ s.phase.owned) ∧
      s.history.drainedAt record.event ≤ record.number ∧
      ∃ ring, s.rings.lookup record.event = some ring ∧ record ∈ ring := by
    intro record hmem
    obtain ⟨event, ring, hl, hring⟩ := mem_unread.mp hmem
    obtain ⟨rfl, hlate⟩ := h.own event ring hl record hring
    have hopen := List.mem_append.mp (h.held.mem_iff.mpr (Table.mem_of_lookup hl))
    exact ⟨hopen.imp_left PerfSystem.holds_iff.mpr, hlate, ring, hl, hring⟩
  refine ⟨fun record hrecord => ⟨fun hearly => ?_, fun hlate => ?_⟩, fun record hmem => ?_, fun record hlost => ?_,
    fun event hclosed => ?_, fun wait asked batch hphase => ?_⟩
  · have hmem : record ∈ s.delivered := by
      rcases List.mem_append.mp (h.accounted.mem_iff.mpr hrecord) with hmem | hmem
      · exact hmem
      · rcases List.mem_append.mp hmem with hmem | hmem
        · exact absurd hearly (not_lt.mpr (hunread record hmem).2.1)
        · exact absurd hearly (not_lt.mpr (h.lost record hmem).2)
    exact ⟨List.count_eq_one_of_mem hdelivered hmem, fun hring => hdisjoint hmem (List.mem_append_left _ hring),
      fun hlost => hdisjoint hmem (List.mem_append_right _ hlost)⟩
  · refine ⟨fun hmem => absurd (h.drained record hmem) (not_lt.mpr hlate), ?_⟩
    rcases List.mem_append.mp (h.accounted.mem_iff.mpr hrecord) with hmem | hmem
    · exact absurd (h.drained record hmem) (not_lt.mpr hlate)
    · refine (List.mem_append.mp hmem).imp_left fun hring => ?_
      obtain ⟨hheld, -, hring⟩ := hunread record hring
      exact ⟨hheld, hring⟩
  · exact h.accounted.mem_iff.mp (List.mem_append_left _ hmem)
  · exact ⟨h.accounted.mem_iff.mp (List.mem_append_right _ (List.mem_append_right _ hlost)), h.lost record hlost⟩
  · obtain ⟨hnot, -, hfinished⟩ := h.closed event hclosed
    refine ⟨fun hholds => hnot (h.held.mem_iff.mp ?_), hfinished⟩
    exact List.mem_append_left _ (PerfSystem.holds_iff.mp hholds)
  · obtain ⟨hretired, hall, hdrained⟩ := hprogress.asked wait asked [] batch hphase
    exact ⟨hretired, hall, fun tid hasked => hdrained tid hasked List.not_mem_nil⟩

/-- Thread 7 exits with a record that has not been read; the poll list still has it when the next call waits. -/
def staleThread : List PerfStep :=
  [.reconcileThreadIds [7] (fun _ => .opened) .stored, .append 0 9 [], .append 0 9 [1],
    .reconcileThreadIds [8] (fun _ => .failed "too many open files") .stored, .waitAndDrainInto, .drainRetired,
    .closeRetired, .poll (.ready [true]), .drainActive, .drainActive]

theorem records_delivered_once_staleThread : ∃ s,
    run PerfSystem.step (.start 4) staleThread = some s ∧ s.phase = .idle ∧ s.history.closed = [0] ∧
      s.delivered.count ⟨0, 0, 9, []⟩ = 1 ∧ s.delivered.count ⟨0, 1, 9, [1]⟩ = 1 := by
  have hrecords := (@records_delivered_once 4 staleThread _ rfl).1
  exact ⟨_, rfl, rfl, rfl, ((hrecords ⟨0, 0, 9, []⟩ List.mem_cons_self).1 (Nat.le_succ 1)).1,
    ((hrecords ⟨0, 1, 9, [1]⟩ (List.mem_cons_of_mem _ List.mem_cons_self)).1 (Nat.le_refl 2)).1⟩

/-- Thread 7 still runs when it is no longer listed: its event gets a record after it has been drained, before it
is closed. -/
def lateRecord : List PerfStep :=
  [.reconcileThreadIds [7] (fun _ => .opened) .stored, .reconcileThreadIds [] (fun _ => .opened) .stored,
    .drainInto, .drainRetired, .append 0 9 [], .closeRetired, .drainEvents .stored, .drainActive]

/-- The record is in no batch, and no event is left that could hold it. -/
theorem lateRecord_lost : ∃ s, run PerfSystem.step (.start 4) lateRecord = some s ∧ s.phase = .idle ∧
    (⟨0, 0, 9, []⟩ : RingRecord) ∈ s.history.appended ∧ s.delivered = [] ∧ unread s.rings = [] ∧
      ¬ s.Holds 0 := by
  refine ⟨_, rfl, rfl, List.mem_cons_self, rfl, rfl, fun hholds => ?_⟩
  have hnone := PerfSystem.holds_iff.mp hholds
  exact absurd hnone List.not_mem_nil

end RustProfile
