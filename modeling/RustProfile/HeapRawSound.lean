import RustProfile.HeapRaw
import RustProfile.HeapCollectorSound

/-!
# Raw heap events are handled safely

No record makes the collector panic, whatever its bytes. A stack waits until the
next allocation with its token takes it, or a newer usable stack replaces it, or
the older half is given up.
-/

namespace RustProfile

/-! ## Parsing -/

theorem sliceBytes_of_le {bytes : List UInt8} {start stop : ℕ} (h : start ≤ stop) (h' : stop ≤ bytes.length) :
    sliceBytes bytes start stop = some ((bytes.drop start).take (stop - start)) := if_pos ⟨h, h'⟩

theorem readAt_of_le {bytes : List UInt8} {width offset : ℕ} (h : offset + width ≤ bytes.length) :
    ∃ n, Bytes.readAt width offset bytes = some n := by
  unfold Bytes.readAt Bytes.take?
  rw [if_pos (by rw [List.length_drop]; omega)]
  exact ⟨_, rfl⟩

namespace RawHeader

theorem readU32_of_le {bytes : List UInt8} {offset : ℕ} (h : offset + 4 ≤ bytes.length) :
    ∃ n, readU32 bytes offset = some n := by
  obtain ⟨n, hn⟩ := readAt_of_le h
  exact ⟨UInt32.ofNat n, by rw [readU32, hn]; rfl⟩

theorem readU64_of_le {bytes : List UInt8} {offset : ℕ} (h : offset + 8 ≤ bytes.length) :
    ∃ n, readU64 bytes offset = some n := by
  obtain ⟨n, hn⟩ := readAt_of_le h
  exact ⟨UInt64.ofNat n, by rw [readU64, hn]; rfl⟩

/-- Records with a whole header are parsed, shorter ones are refused. -/
theorem parse_total (bytes : List UInt8) : ∃ header, parse bytes = some header := by
  unfold parse
  split
  · rename_i hlength
    have h : 88 ≤ bytes.length := hlength
    obtain ⟨kind, hkind⟩ := @readU32_of_le bytes 0 (by omega)
    obtain ⟨mode, hmode⟩ := @readU32_of_le bytes 4 (by omega)
    obtain ⟨token, htoken⟩ := @readU64_of_le bytes 16 (by omega)
    obtain ⟨pointer, hpointer⟩ := @readU64_of_le bytes 24 (by omega)
    obtain ⟨size, hsize⟩ := @readU64_of_le bytes 32 (by omega)
    obtain ⟨weight, hweight⟩ := @readU64_of_le bytes 40 (by omega)
    obtain ⟨ip, hip⟩ := @readU64_of_le bytes 48 (by omega)
    obtain ⟨sp, hsp⟩ := @readU64_of_le bytes 56 (by omega)
    obtain ⟨fp, hfp⟩ := @readU64_of_le bytes 64 (by omega)
    obtain ⟨lr, hlr⟩ := @readU64_of_le bytes 72 (by omega)
    have hstack := @sliceBytes_of_le bytes 80 84 (by omega) (by omega)
    rw [hkind, hmode, htoken, hpointer, hsize, hweight, hip, hsp, hfp, hlr, hstack]
    exact ⟨_, rfl⟩
  · exact ⟨none, rfl⟩

theorem length_of_parse {bytes : List UInt8} {header : RawHeader} (h : parse bytes = some (some header)) :
    heapHeaderSize ≤ bytes.length := by
  unfold parse at h
  split at h
  · assumption
  · cases h

theorem slice_of_readAt {bytes : List UInt8} {width offset n : ℕ} (hwidth : 0 < width)
    (h : Bytes.readAt width offset bytes = some n) :
    ∃ slice, sliceBytes bytes offset (offset + width) = some slice ∧ Bytes.toNat slice = n := by
  unfold Bytes.readAt Bytes.take? at h
  split at h
  · rename_i hlength
    rw [List.length_drop] at hlength
    refine ⟨(bytes.drop offset).take width, ?_, Option.some.inj h⟩
    rw [sliceBytes_of_le (Nat.le_add_right _ _) (by omega), Nat.add_sub_cancel_left]
  · cases h

theorem layout_widths (self : RawHeader) : self.layout.map Prod.fst = [4, 4, 4, 4, 8, 8, 8, 8, 8, 8, 8, 8, 4, 4] := rfl

theorem length_layout (self : RawHeader) : (Bytes.fields self.layout).length = heapHeaderSize := by
  rw [Bytes.length_fields, layout_widths]
  decide

theorem readAt_layout (self : RawHeader) {i offset width n : ℕ} (hi : self.layout[i]? = some (width, n))
    (ho : ([4, 4, 4, 4, 8, 8, 8, 8, 8, 8, 8, 8, 4, 4].take i).sum = offset) (hn : n < 256 ^ width)
      (stack : List UInt8) :
    Bytes.readAt width offset (Bytes.fields self.layout ++ stack) = some n := by
  refine Bytes.readAt_fields hi ?_ hn stack
  rw [List.map_take, layout_widths]
  exact ho

theorem parse_layout (self : RawHeader) (htoken : self.token < 2 ^ 64) {length : ℕ} (hlength : length < 2 ^ 31)
    (hstack : self.stackLength = length) (stack : List UInt8) :
    parse (Bytes.fields self.layout ++ stack) = some (some self) := by
  have h32 : ∀ (i offset : ℕ) (x : UInt32), self.layout[i]? = some (4, x.toNat) →
      ([4, 4, 4, 4, 8, 8, 8, 8, 8, 8, 8, 8, 4, 4].take i).sum = offset →
        readU32 (Bytes.fields self.layout ++ stack) offset = some x := by
    intro i offset x hi ho
    rw [readU32, self.readAt_layout hi ho x.toNat_lt]
    exact congrArg some UInt32.ofNat_toNat
  have h64 : ∀ (i offset : ℕ) (x : UInt64), self.layout[i]? = some (8, x.toNat) →
      ([4, 4, 4, 4, 8, 8, 8, 8, 8, 8, 8, 8, 4, 4].take i).sum = offset →
        readU64 (Bytes.fields self.layout ++ stack) offset = some x := by
    intro i offset x hi ho
    rw [readU64, self.readAt_layout hi ho x.toNat_lt]
    exact congrArg some UInt64.ofNat_toNat
  have htokenNat : (UInt64.ofNat self.token).toNat = self.token := by
    rw [UInt64.toNat_ofNat', Nat.mod_eq_of_lt htoken]
  have htoNat : self.stackLength.toNat = length := by rw [hstack, Int.toNat_natCast]
  obtain ⟨slice, hslice, hvalue⟩ := slice_of_readAt (by decide)
    (@readAt_layout self 12 80 4 length (by rw [layout, htoNat]; rfl) (by decide) (by omega) stack)
  have hfrom : i32FromBytes slice = self.stackLength := by
    rw [i32FromBytes, hvalue, hstack, BitVec.toInt_eq_toNat_cond, BitVec.toNat_ofNat,
      Nat.mod_eq_of_lt (by omega), if_pos (by omega)]
  unfold parse
  rw [if_pos (by rw [List.length_append, length_layout]; exact Nat.le_add_right _ _),
    h32 0 0 self.kind rfl (by decide), h32 1 4 self.unwindMode rfl (by decide),
    h64 4 16 (UInt64.ofNat self.token) (by rw [htokenNat]; rfl) (by decide), h64 5 24 self.pointer rfl (by decide),
    h64 6 32 self.size rfl (by decide), h64 7 40 self.weight rfl (by decide), h64 8 48 self.ip rfl (by decide),
    h64 9 56 self.sp rfl (by decide), h64 10 64 self.fp rfl (by decide), h64 11 72 self.lr rfl (by decide), hslice]
  simp only [Option.map_some, Option.bind_eq_bind, Option.bind_some, Option.pure_def, hfrom, htokenNat]

theorem stackBytes_total {bytes : List UInt8} (h : heapHeaderSize ≤ bytes.length) (self : RawHeader) (limit : ℕ) :
    ∃ stack, self.stackBytes bytes limit = some stack := by
  unfold stackBytes
  rw [sliceBytes_of_le (Nat.le_add_right _ _) (by omega)]
  exact ⟨_, rfl⟩

end RawHeader

/-! ## Giving up the older half -/

/-- In a strictly sorted list, the elements from the one at `middle` on are those not below it. -/
theorem filter_le_getElem {tokens : List ℕ} (h : tokens.Pairwise (· < ·)) {middle : ℕ} (hm : middle < tokens.length) :
    tokens.filter (tokens[middle] ≤ ·) = tokens.drop middle := by
  have hsplit : tokens.take middle ++ tokens[middle] :: tokens.drop (middle + 1) = tokens := by
    rw [List.getElem_cons_drop, List.take_append_drop]
  have hpair := h
  rw [← hsplit, List.pairwise_append, List.pairwise_cons] at hpair
  obtain ⟨-, ⟨hrest, -⟩, hbefore⟩ := hpair
  have hlow : (tokens.take middle).filter (tokens[middle] ≤ ·) = [] :=
    List.filter_eq_nil_iff.mpr fun token hmem => by
      have := hbefore token hmem tokens[middle] List.mem_cons_self
      simpa using this
  have hhigh : (tokens[middle] :: tokens.drop (middle + 1)).filter (tokens[middle] ≤ ·) =
      tokens[middle] :: tokens.drop (middle + 1) :=
    List.filter_eq_self.mpr fun token hmem => by
      rcases List.mem_cons.mp hmem with rfl | hmem
      · simp
      · simpa using (hrest token hmem).le
  calc tokens.filter (tokens[middle] ≤ ·)
      = (tokens.take middle ++ tokens[middle] :: tokens.drop (middle + 1)).filter (tokens[middle] ≤ ·) := by rw [hsplit]
    _ = tokens.drop middle := by rw [List.filter_append, hlow, hhigh, List.nil_append, List.getElem_cons_drop]

theorem size_retain_le {V : Type} (table : Table ℕ V) (cutoff : ℕ) :
    (table.retain fun token _ => cutoff ≤ token).size = (table.keys.filter (cutoff ≤ ·)).length := by
  unfold AList.size AList.retain AList.keys List.keys
  rw [List.filter_map, List.length_map]
  rfl

inductive RawOutcome where
  | malformed
  | failed
  | usable (token : ℕ) (frames : List UInt64)
  | unmatched
  | alloc (token : ℕ) (event : HeapEvent)
  | free (event : HeapEvent)
  | ignored

namespace HeapCollector

section
variable {δ : Type} {unwinder : UnwindBytes δ} {self : HeapCollector δ}

def sortedTokens (self : HeapCollector δ) : List ℕ := self.pendingStacks.keys.insertionSort (· ≤ ·)

theorem sortedTokens_perm (self : HeapCollector δ) : self.sortedTokens.Perm self.pendingStacks.keys :=
  List.perm_insertionSort _ _

theorem length_sortedTokens (self : HeapCollector δ) : self.sortedTokens.length = self.pendingStacks.size :=
  self.sortedTokens_perm.length_eq.trans (List.length_map _)

theorem sortedTokens_sorted (self : HeapCollector δ) : self.sortedTokens.Pairwise (· < ·) := by
  have hsorted : self.sortedTokens.Pairwise (· ≤ ·) := List.pairwise_insertionSort _ _
  have hnodup : self.sortedTokens.Nodup := self.sortedTokens_perm.nodup_iff.mpr self.pendingStacks.keys_nodup
  exact (hsorted.and hnodup).imp fun h => lt_of_le_of_ne h.1 h.2

/-- The cutoff is an index in range, so the checked limit is the limit. -/
theorem limitPendingStacksAt_eq (self : HeapCollector δ) :
    self.limitPendingStacksAt = some self.limitPendingStacks := by
  unfold limitPendingStacksAt limitPendingStacks
  split
  · rename_i hsize
    have hmiddle : self.sortedTokens.length / 2 < self.sortedTokens.length := by
      rw [length_sortedTokens]
      unfold pendingStacksMax at hsize
      omega
    have hget : self.sortedTokens[self.sortedTokens.length / 2]? =
        some (self.sortedTokens.getD (self.sortedTokens.length / 2) 0) := by
      rw [List.getD_eq_getElem?_getD, List.getElem?_eq_getElem hmiddle]
      rfl
    unfold sortedTokens at hget
    dsimp only
    rw [hget]
    rfl
  · rfl

structure Evicts (before after : Table ℕ (List UInt64)) : Prop where
  kept : ∀ token frames, after.lookup token = some frames → before.lookup token = some frames
  newer : ∀ token ∈ before, token ∉ after → ∀ other ∈ after, token < other

theorem Evicts.refl (table : Table ℕ (List UInt64)) : Evicts table table :=
  ⟨fun _ _ h => h, fun _ hmem hout => absurd hmem hout⟩

theorem evicts_retain (table : Table ℕ (List UInt64)) (cutoff : ℕ) :
    Evicts table (table.retain fun token _ => cutoff ≤ token) := by
  refine ⟨fun token frames h => ?_, fun token hmem hout other hother => ?_⟩
  · rw [Table.lookup_retain, Option.filter_eq_some_iff] at h
    exact h.1
  · obtain ⟨frames, hframes⟩ := Table.mem_iff.mp hmem
    obtain ⟨-, -, hother⟩ := Table.mem_retain.mp hother
    have hlow : ¬ cutoff ≤ token := fun hle => hout (Table.mem_retain.mpr ⟨frames, hframes, by simpa using hle⟩)
    have hle : cutoff ≤ other := by simpa using hother
    omega

theorem size_halved (h : self.pendingStacks.size > 0) :
    (self.pendingStacks.retain fun token _ =>
      self.sortedTokens.getD (self.sortedTokens.length / 2) 0 ≤ token).size =
        self.pendingStacks.size - self.pendingStacks.size / 2 := by
  have hmiddle : self.sortedTokens.length / 2 < self.sortedTokens.length := by
    rw [length_sortedTokens]
    omega
  have hget : self.sortedTokens.getD (self.sortedTokens.length / 2) 0 =
      self.sortedTokens[self.sortedTokens.length / 2] := by
    rw [List.getD_eq_getElem?_getD, List.getElem?_eq_getElem hmiddle]
    rfl
  rw [size_retain_le, ← (self.sortedTokens_perm.filter _).length_eq, hget,
    filter_le_getElem self.sortedTokens_sorted hmiddle, List.length_drop, length_sortedTokens]

/-- The limit gives up the older half when there is one stack too many, and counts it. -/
theorem limitPendingStacks_spec (h : self.pendingStacks.size ≤ pendingStacksMax + 1) :
    ∃ pending failures,
      self.limitPendingStacks = { self with pendingStacks := pending, localStackFailures := failures } ∧
      pending.size ≤ pendingStacksMax ∧ Evicts self.pendingStacks pending ∧
      (self.pendingStacks.size ≤ pendingStacksMax → pending = self.pendingStacks ∧ failures = self.localStackFailures) ∧
      (pendingStacksMax < self.pendingStacks.size →
        pending.size = self.pendingStacks.size - self.pendingStacks.size / 2 ∧
          failures =
            .ofNat (saturatingAddU64 self.localStackFailures.toNat (self.pendingStacks.size - pending.size))) := by
  unfold limitPendingStacks
  by_cases hsize : self.pendingStacks.size > pendingStacksMax
  · rw [if_pos hsize]
    have hhalf := @size_halved δ self (by omega)
    refine ⟨_, _, rfl, ?_, evicts_retain _ _, fun hle => absurd hle (not_le.mpr hsize), fun _ => ⟨hhalf, rfl⟩⟩
    refine hhalf.le.trans ?_
    unfold pendingStacksMax at hsize h ⊢
    omega
  · rw [if_neg hsize]
    have hle := not_lt.mp hsize
    exact ⟨self.pendingStacks, self.localStackFailures, rfl, hle, Evicts.refl _, fun _ => ⟨rfl, rfl⟩,
      fun hlt => absurd hlt hsize⟩

theorem storeStackAt_eq (self : HeapCollector δ) (token : ℕ) (frames : List UInt64) :
    self.storeStackAt token frames = some (self.storeStack token frames) := by
  unfold storeStackAt storeStack
  dsimp only
  split
  · rfl
  · exact limitPendingStacksAt_eq _

end

/-! ## What a record does -/

section
variable {δ : Type} (unwinder : UnwindBytes δ) (self : HeapCollector δ) (bytes : List UInt8)

def stackFramesOf (header : RawHeader) : List UInt64 :=
  ((self.stackFramesBytes unwinder bytes header).map (·.1)).getD []

def outcome : RawOutcome :=
  match (RawHeader.parse bytes).getD none with
  | none => .malformed
  | some header =>
    if header.kind = eventStack then
      let frames := self.stackFramesOf unwinder bytes header
      if frames = [] ∨ hasAddressCycle frames ∨ frames.any fun address => !self.executableRanges.contains address then
        .failed
      else .usable header.token frames
    else if header.kind = eventAlloc then
      match self.pendingStacks.lookup header.token with
      | none => .unmatched
      | some frames =>
        .alloc header.token
          { kind := .alloc, pointer := header.pointer, size := header.size, weight := header.weight, frames := frames }
    else if header.kind = eventFree then
      .free { kind := .free, pointer := header.pointer, size := 0, weight := 0, frames := [] }
    else .ignored

def withStack (token : ℕ) (frames : List UInt64) (dwarf : Option δ) (fatal : Option String) : HeapCollector δ :=
  { self with
    localStackSamples := self.localStackSamples + 1
    localUsableStacks := self.localUsableStacks + 1
    localDepthSum := saturatingAddU64 self.localDepthSum frames.length
    pendingStacks := self.pendingStacks.insert token frames
    dwarf := dwarf
    fatalUnwindError := fatal }

def Becomes (after : HeapCollector δ) : RawOutcome → Prop
  | .malformed => after = { self with localStackFailures := self.localStackFailures + 1 }
  | .failed => ∃ dwarf fatal, after = { self with
      localStackSamples := self.localStackSamples + 1, localStackFailures := self.localStackFailures + 1
      dwarf := dwarf, fatalUnwindError := fatal }
  | .usable token frames => ∃ dwarf fatal, after = (self.withStack token frames dwarf fatal).limitPendingStacks
  | .unmatched => after = { self with localStackFailures := self.localStackFailures + 1 }
  | .alloc token event => event.kind = .alloc ∧ self.pendingStacks.lookup token = some event.frames ∧
      after = { self with pendingStacks := self.pendingStacks.erase token, state := self.state.apply event }
  | .free event => event.kind = .free ∧ after = { self with state := self.state.apply event }
  | .ignored => after = self

theorem stackFramesBytes_spec {header : RawHeader} (h : heapHeaderSize ≤ bytes.length) : ∃ frames dwarf fatal, ∀ n,
    ({ self with localStackSamples := n } : HeapCollector δ).stackFramesBytes unwinder bytes header =
      some (frames, { self with localStackSamples := n, dwarf := dwarf, fatalUnwindError := fatal }) := by
  unfold stackFramesBytes
  by_cases hmode : header.unwindMode = 1
  · obtain ⟨stack, hstack⟩ := RawHeader.stackBytes_total h header (defaultMaxFrames * 8)
    simp only [if_pos hmode, RawHeader.fpStack, hstack]
    exact ⟨parseFpStack (header.event .stack stack), self.dwarf, self.fatalUnwindError, fun n => rfl⟩
  · obtain ⟨stack, hstack⟩ := RawHeader.stackBytes_total h header header.stackLength.toNat
    simp only [if_neg hmode]
    unfold unwindStackBytes
    cases hdwarf : self.dwarf with
    | none =>
      obtain ⟨frames, dwarf, fatal, -, heq⟩ := self.unwindStack_spec unwinder (header.event .stack [])
      simp only [hdwarf] at heq
      exact ⟨frames, dwarf, fatal, fun n => congrArg some (heq n)⟩
    | some walker =>
      obtain ⟨frames, dwarf, fatal, -, heq⟩ := self.unwindStack_spec unwinder (header.event .stack stack)
      simp only [hdwarf] at heq
      simp only [hstack, Option.map_some]
      exact ⟨frames, dwarf, fatal, fun n => congrArg some (heq n)⟩

/-- **No record panics**, and each does what its outcome says. -/
theorem applyRawBytes_becomes :
    ∃ after, self.applyRawBytes unwinder bytes = some after ∧ self.Becomes after (self.outcome unwinder bytes) := by
  obtain ⟨parsed, hparsed⟩ := RawHeader.parse_total bytes
  unfold applyRawBytes outcome
  rw [hparsed]
  cases parsed with
  | none => exact ⟨_, rfl, rfl⟩
  | some header =>
    dsimp only [Option.bind_some, Option.getD_some]
    by_cases hstack : header.kind = eventStack
    · obtain ⟨frames, dwarf, fatal, heq⟩ :=
        stackFramesBytes_spec unwinder self bytes (RawHeader.length_of_parse hparsed)
      have hframes : self.stackFramesOf unwinder bytes header = frames := by
        unfold stackFramesOf
        rw [show self.stackFramesBytes unwinder bytes header = _ from heq self.localStackSamples]
        rfl
      rw [if_pos hstack, if_pos hstack, heq, hframes]
      dsimp only [Option.bind_some]
      rw [storeStackAt_eq]
      refine ⟨_, rfl, ?_⟩
      unfold storeStack
      dsimp only
      split
      · exact ⟨dwarf, fatal, rfl⟩
      · exact ⟨dwarf, fatal, rfl⟩
    rw [if_neg hstack, if_neg hstack]
    by_cases halloc : header.kind = eventAlloc
    · rw [if_pos halloc, if_pos halloc]
      cases hl : self.pendingStacks.lookup header.token with
      | none => exact ⟨_, rfl, rfl⟩
      | some frames => exact ⟨_, rfl, rfl, hl, rfl⟩
    rw [if_neg halloc, if_neg halloc]
    by_cases hfree : header.kind = eventFree
    · rw [if_pos hfree, if_pos hfree]
      exact ⟨_, rfl, rfl, rfl⟩
    · rw [if_neg hfree, if_neg hfree]
      exact ⟨_, rfl, rfl⟩

end

end HeapCollector

/-! ## The records of the kernel -/

def EventKind.number : EventKind → UInt32
  | .stack => eventStack
  | .alloc => eventAlloc
  | .free => eventFree

section
variable {header : RawHeader}

theorem stackBytes_layout (header : RawHeader) (stack : List UInt8) (limit : ℕ) :
    header.stackBytes (Bytes.fields header.layout ++ stack) limit =
      some ((header.event .stack stack).stackSlice limit) := by
  have hlength := header.length_layout
  unfold RawHeader.stackBytes RawEvent.stackSlice
  rw [sliceBytes_of_le (Nat.le_add_right _ _) (by rw [List.length_append]; omega), List.drop_left' hlength,
    Nat.add_sub_cancel_left, List.length_append, hlength, Nat.add_sub_cancel_left, ← List.take_eq_take_min]
  rfl

theorem parseFpStack_congr {a b : RawEvent} (hheader : a.header = b.header)
    (hslice : a.stackSlice (defaultMaxFrames * 8) = b.stackSlice (defaultMaxFrames * 8)) :
    parseFpStack a = parseFpStack b := by
  unfold parseFpStack
  rw [hheader, hslice]

variable {δ : Type} (unwinder : UnwindBytes δ) (self : HeapCollector δ)

theorem unwindStack_congr {a b : RawEvent} (hheader : a.header = b.header)
    (hslice : a.stackSlice a.stack.length = b.stackSlice b.stack.length) :
    self.unwindStack unwinder a = self.unwindStack unwinder b := by
  unfold HeapCollector.unwindStack
  rw [hheader, hslice]

theorem stackFramesBytes_layout (stack : List UInt8) :
    self.stackFramesBytes unwinder (Bytes.fields header.layout ++ stack) header =
      some (self.stackFrames unwinder (header.event .stack stack)) := by
  unfold HeapCollector.stackFramesBytes HeapCollector.stackFrames
  rw [show (header.event .stack stack).header.unwindMode = header.unwindMode from rfl]
  by_cases hmode : header.unwindMode = 1
  · rw [if_pos hmode, if_pos hmode, RawHeader.fpStack, stackBytes_layout]
    refine congrArg some (Prod.ext (parseFpStack_congr rfl ?_) rfl)
    change (stack.take (min header.stackLength.toNat _)).take (min header.stackLength.toNat _) = stack.take _
    rw [List.take_take, min_self]
    rfl
  · rw [if_neg hmode, if_neg hmode]
    unfold HeapCollector.unwindStackBytes
    cases hdwarf : self.dwarf with
    | none =>
      simp only [HeapCollector.unwindStack, hdwarf]
      rfl
    | some dwarf =>
      dsimp only
      rw [stackBytes_layout]
      refine congrArg some (unwindStack_congr unwinder self rfl ?_)
      change (stack.take (min header.stackLength.toNat header.stackLength.toNat)).take
        (min header.stackLength.toNat (stack.take (min header.stackLength.toNat header.stackLength.toNat)).length) =
          stack.take (min header.stackLength.toNat stack.length)
      rw [List.take_take, List.length_take, List.take_eq_take_iff]
      omega

/-- A record of the kernel does what its event does. -/
theorem applyRawBytes_layout {kind : EventKind} (hkind : header.kind = kind.number) (htoken : header.token < 2 ^ 64)
    {length : ℕ} (hlength : length < 2 ^ 31) (hstack : header.stackLength = length) (stack : List UInt8) :
    self.applyRawBytes unwinder (Bytes.fields header.layout ++ stack) =
      some (self.applyRawEvent unwinder (header.event kind stack)) := by
  unfold HeapCollector.applyRawBytes HeapCollector.applyRawEvent
  rw [header.parse_layout htoken hlength hstack stack]
  dsimp only [Option.bind_some]
  rw [hkind]
  cases kind with
  | stack =>
    rw [if_pos (show EventKind.stack.number = eventStack from rfl), stackFramesBytes_layout, Option.bind_some,
      HeapCollector.storeStackAt_eq]
    rfl
  | alloc =>
    rw [if_neg (by decide), if_pos (show EventKind.alloc.number = eventAlloc from rfl)]
    dsimp only [RawHeader.event]
    cases self.pendingStacks.lookup header.token <;> rfl
  | free =>
    rw [if_neg (by decide), if_neg (by decide), if_pos (show EventKind.free.number = eventFree from rfl)]
    rfl

end

/-! ## Any sequence of records -/

/-- A usable `STACK` record, numbered in the order of arrival. -/
structure StackEntry where
  serial : ℕ
  token : ℕ
  frames : List UInt64
  deriving DecidableEq

/-- An allocation that reached the state, and the usable stacks before it, newest first. -/
structure PassedAlloc where
  token : ℕ
  event : HeapEvent
  stacksBefore : List StackEntry

/-- The newest usable stack with the allocation's token. -/
def PassedAlloc.entry (self : PassedAlloc) : Option StackEntry :=
  self.stacksBefore.find? fun entry => entry.token = self.token

structure RawRun (δ : Type) where
  collector : HeapCollector δ
  usableStacks : List StackEntry := []
  failedStacks : ℕ := 0
  passed : List PassedAlloc := []
  applied : List HeapEvent := []

namespace RawRun

section
variable {δ : Type} (unwinder : UnwindBytes δ)

def record (r : RawRun δ) (after : HeapCollector δ) : RawOutcome → RawRun δ
  | .failed => { r with collector := after, failedStacks := r.failedStacks + 1 }
  | .usable token frames =>
    { r with collector := after, usableStacks := ⟨r.usableStacks.length, token, frames⟩ :: r.usableStacks }
  | .alloc token event =>
    { r with collector := after, passed := ⟨token, event, r.usableStacks⟩ :: r.passed
             applied := r.applied ++ [event] }
  | .free event => { r with collector := after, applied := r.applied ++ [event] }
  | _ => { r with collector := after }

def next (r : RawRun δ) (bytes : List UInt8) : Option (RawRun δ) :=
  (r.collector.applyRawBytes unwinder bytes).map fun after => r.record after (r.collector.outcome unwinder bytes)

end

def consumed {δ : Type} (r : RawRun δ) : List ℕ := r.passed.filterMap fun alloc => alloc.entry.map StackEntry.serial

structure Balanced {δ : Type} (initial : HeapState) (r : RawRun δ) : Prop where
  bounded : r.collector.pendingStacks.size ≤ pendingStacksMax
  samples : r.collector.localStackSamples = r.collector.localUsableStacks + .ofNat r.failedStacks
  usable : r.collector.localUsableStacks = .ofNat r.usableStacks.length
  serials : (r.usableStacks.map StackEntry.serial).Nodup
  recent : ∀ entry ∈ r.usableStacks, entry.serial < r.usableStacks.length
  waiting : ∀ token frames, r.collector.pendingStacks.lookup token = some frames →
    ∃ entry, r.usableStacks.find? (fun entry => entry.token = token) = some entry ∧ entry.frames = frames ∧
      entry.serial ∉ r.consumed
  passed : ∀ alloc ∈ r.passed, ∃ entry, alloc.entry = some entry ∧ alloc.event.frames = entry.frames
  consumed : r.consumed.Nodup
  taken : ∀ serial ∈ r.consumed, serial < r.usableStacks.length
  state : r.collector.state = r.applied.foldl HeapState.apply initial
  allocs : r.applied.filter (·.kind = .alloc) = (r.passed.map PassedAlloc.event).reverse

section
variable {δ : Type} {unwinder : UnwindBytes δ} {initial : HeapState} {r : RawRun δ}

theorem balanced_start {collector : HeapCollector δ} (hpending : collector.pendingStacks = ∅)
    (hsamples : collector.localStackSamples = 0) (husable : collector.localUsableStacks = 0) :
    Balanced collector.state { collector := collector } := by
  refine ⟨?_, ?_, husable, List.nodup_nil, by simp, fun token frames hl => ?_, by simp,
    List.nodup_nil, by simp [consumed], rfl, rfl⟩
  · rw [hpending]
    exact Nat.zero_le _
  · rw [hsamples, husable]
    rfl
  · rw [hpending] at hl
    cases hl

theorem Balanced.insert_size (h : Balanced initial r) (token : ℕ) (frames : List UInt64) :
    (r.collector.pendingStacks.insert token frames).size ≤ pendingStacksMax + 1 := by
  have hbounded := h.bounded
  by_cases hmem : token ∈ r.collector.pendingStacks
  · rw [Table.size_insert_of_mem hmem]
    omega
  · rw [Table.size_insert_of_notMem hmem]
    omega

/-- A usable stack becomes the newest of its token. -/
theorem Balanced.usable_next (h : Balanced initial r) {token : ℕ} {frames : List UInt64} {after : HeapCollector δ}
    (hafter : r.collector.Becomes after (.usable token frames)) :
    Balanced initial (r.record after (.usable token frames)) := by
  obtain ⟨dwarf, fatal, hafter⟩ := hafter
  obtain ⟨pending, failures, hlimit, hbounded, hevicts, -, -⟩ :=
    @HeapCollector.limitPendingStacks_spec δ (r.collector.withStack token frames dwarf fatal)
      (h.insert_size token frames)
  rw [hlimit] at hafter
  subst hafter
  unfold record
  have husable := (congrArg (· + 1) h.usable).trans (UInt64.ofNat_add _ 1).symm
  refine ⟨hbounded, ?_, husable, ?_, ?_, ?_, h.passed, h.consumed, ?_, h.state, h.allocs⟩
  · exact (congrArg (· + 1) h.samples).trans (by ac_rfl)
  · refine List.nodup_cons.mpr ⟨fun hmem => ?_, h.serials⟩
    obtain ⟨entry, hentry, heq⟩ := List.mem_map.mp hmem
    exact absurd heq (h.recent entry hentry).ne
  · refine List.forall_mem_cons.mpr ⟨Nat.lt_succ_self _, fun entry hmem => ?_⟩
    exact (h.recent entry hmem).trans (Nat.lt_succ_self _)
  · intro token' frames' hl
    have hheld := hevicts.kept token' frames' hl
    rcases Table.lookup_insert_eq_some.mp hheld with ⟨rfl, rfl⟩ | ⟨hne, hheld⟩
    · refine ⟨_, List.find?_cons_of_pos (by simp), rfl, fun hmem => ?_⟩
      exact absurd (h.taken _ hmem) (Nat.lt_irrefl _)
    · obtain ⟨entry, hfind, hframes, hfree⟩ := h.waiting token' frames' hheld
      refine ⟨entry, ?_, hframes, hfree⟩
      rw [List.find?_cons_of_neg (by simpa using Ne.symm hne)]
      exact hfind
  · exact fun serial hmem => (h.taken serial hmem).trans (Nat.lt_succ_self _)

/-- An allocation takes the newest stack with its token, which no other has taken. -/
theorem Balanced.alloc_next (h : Balanced initial r) {token : ℕ} {event : HeapEvent} {after : HeapCollector δ}
    (hafter : r.collector.Becomes after (.alloc token event)) :
    Balanced initial (r.record after (.alloc token event)) := by
  obtain ⟨hkind, hlookup, rfl⟩ := hafter
  obtain ⟨entry, hfind, hframes, hfree⟩ := h.waiting token event.frames hlookup
  have hmem : entry ∈ r.usableStacks := List.mem_of_find?_eq_some hfind
  have hconsumed : (r.record { r.collector with
      pendingStacks := r.collector.pendingStacks.erase token
      state := r.collector.state.apply event } (.alloc token event)).consumed = entry.serial :: r.consumed := by
    unfold RawRun.consumed record
    rw [List.filterMap_cons_some]
    rw [PassedAlloc.entry, hfind]
    rfl
  refine ⟨?_, h.samples, h.usable, h.serials, h.recent, ?_, ?_, ?_, ?_, ?_, ?_⟩
  · have hbounded := h.bounded
    have hsize := (Table.entries_perm hlookup).length_eq
    rw [List.length_cons] at hsize
    unfold AList.size at hbounded
    change (r.collector.pendingStacks.erase token).entries.length ≤ _
    omega
  · intro token' frames' hl
    obtain ⟨hne, hheld⟩ := Table.lookup_erase_eq_some.mp hl
    obtain ⟨entry', hfind', hframes', hfree'⟩ := h.waiting token' frames' hheld
    refine ⟨entry', hfind', hframes', fun hin => ?_⟩
    rw [hconsumed] at hin
    rcases List.mem_cons.mp hin with heq | hin
    -- Entries of one serial number are one entry, which would have both tokens.
    · have hsame := List.inj_on_of_nodup_map h.serials (List.mem_of_find?_eq_some hfind') hmem heq
      have htoken : entry.token = token := by simpa using List.find?_some hfind
      have htoken' : entry'.token = token' := by simpa using List.find?_some hfind'
      exact hne (htoken'.symm.trans (hsame ▸ htoken))
    · exact hfree' hin
  · exact List.forall_mem_cons.mpr ⟨⟨entry, hfind, hframes.symm⟩, h.passed⟩
  · rw [hconsumed]
    exact List.nodup_cons.mpr ⟨hfree, h.consumed⟩
  · rw [hconsumed]
    exact List.forall_mem_cons.mpr ⟨h.recent entry hmem, h.taken⟩
  · change r.collector.state.apply event = _
    rw [h.state]
    exact (List.foldl_concat _ _ _ _).symm
  · change (r.applied ++ [event]).filter _ = _
    rw [List.filter_append, h.allocs]
    simp [record, hkind]

theorem Balanced.next (h : Balanced initial r) (bytes : List UInt8) :
    ∃ r', r.next unwinder bytes = some r' ∧ Balanced initial r' := by
  obtain ⟨after, happly, hafter⟩ := r.collector.applyRawBytes_becomes unwinder bytes
  refine ⟨r.record after (r.collector.outcome unwinder bytes), by rw [RawRun.next, happly]; rfl, ?_⟩
  cases houtcome : r.collector.outcome unwinder bytes with
  | malformed =>
    rw [houtcome] at hafter
    cases hafter
    exact ⟨h.bounded, h.samples, h.usable, h.serials, h.recent, h.waiting, h.passed, h.consumed, h.taken, h.state,
      h.allocs⟩
  | failed =>
    rw [houtcome] at hafter
    obtain ⟨dwarf, fatal, rfl⟩ := hafter
    refine ⟨h.bounded, ?_, h.usable, h.serials, h.recent, h.waiting, h.passed, h.consumed, h.taken, h.state, h.allocs⟩
    -- The counters wrap together: this is the sum of u64s.
    calc r.collector.localStackSamples + 1
        = r.collector.localUsableStacks + .ofNat r.failedStacks + 1 := by rw [h.samples]
      _ = r.collector.localUsableStacks + .ofNat (r.failedStacks + 1) := by
        rw [UInt64.ofNat_add, UInt64.add_assoc]
        rfl
  | usable token frames => exact h.usable_next (houtcome ▸ hafter)
  | unmatched =>
    rw [houtcome] at hafter
    cases hafter
    exact ⟨h.bounded, h.samples, h.usable, h.serials, h.recent, h.waiting, h.passed, h.consumed, h.taken, h.state,
      h.allocs⟩
  | alloc token event => exact h.alloc_next (houtcome ▸ hafter)
  | free event =>
    rw [houtcome] at hafter
    obtain ⟨hkind, rfl⟩ := hafter
    refine ⟨h.bounded, h.samples, h.usable, h.serials, h.recent, h.waiting, h.passed, h.consumed, h.taken, ?_, ?_⟩
    · change r.collector.state.apply event = _
      rw [h.state]
      exact (List.foldl_concat _ _ _ _).symm
    · change (r.applied ++ [event]).filter _ = _
      rw [List.filter_append, h.allocs]
      simp [record, hkind]
  | ignored =>
    rw [houtcome] at hafter
    cases hafter
    exact ⟨h.bounded, h.samples, h.usable, h.serials, h.recent, h.waiting, h.passed, h.consumed, h.taken, h.state,
      h.allocs⟩

def LimitCounted (before : HeapCollector δ) (held : Table ℕ (List UInt64)) (after : HeapCollector δ) : Prop :=
  HeapCollector.Evicts held after.pendingStacks ∧
    (held.size ≤ pendingStacksMax →
      after.pendingStacks = held ∧ after.localStackFailures = before.localStackFailures) ∧
    (pendingStacksMax < held.size →
      after.localStackFailures =
        .ofNat (saturatingAddU64 before.localStackFailures.toNat (held.size - after.pendingStacks.size)))

theorem Balanced.limit_counted (h : Balanced initial r) {token : ℕ} {frames : List UInt64} {after : HeapCollector δ}
    (hafter : r.collector.Becomes after (.usable token frames)) :
    LimitCounted r.collector (r.collector.pendingStacks.insert token frames) after := by
  obtain ⟨dwarf, fatal, hafter⟩ := hafter
  obtain ⟨pending, failures, hlimit, -, hevicts, hsame, hcounted⟩ :=
    @HeapCollector.limitPendingStacks_spec δ (r.collector.withStack token frames dwarf fatal)
      (h.insert_size token frames)
  rw [hlimit] at hafter
  subst hafter
  exact ⟨hevicts, hsame, fun hlt => (hcounted hlt).2⟩

/-- **Raw events are handled safely.** Any records, and any unwinder. -/
theorem rawRecords_safe (unwinder : UnwindBytes δ) (kernel : HeapBpf) (maps : List MapEntry) (dwarf : Option δ)
    (allowPartial : Bool) (maxStacks : ℕ) (records : List (List UInt8)) :
    ∃ r, Run.run (RawRun.next unwinder) { collector := .attach kernel maps dwarf allowPartial maxStacks } records =
        some r ∧
      r.collector.pendingStacks.size ≤ pendingStacksMax ∧
      r.collector.localStackSamples = r.collector.localUsableStacks + .ofNat r.failedStacks ∧
      r.collector.localUsableStacks = .ofNat r.usableStacks.length ∧
      (∀ bytes, r.collector.outcome unwinder bytes = .failed → ∃ after,
        r.collector.applyRawBytes unwinder bytes = some after ∧
          after.localStackFailures = r.collector.localStackFailures + 1) ∧
      (∀ bytes token frames, r.collector.outcome unwinder bytes = .usable token frames → ∃ after,
        r.collector.applyRawBytes unwinder bytes = some after ∧
          LimitCounted r.collector (r.collector.pendingStacks.insert token frames) after) ∧
      r.collector.state = r.applied.foldl HeapState.apply (.withMaxStacks maxStacks) ∧
      r.applied.filter (·.kind = .alloc) = (r.passed.map PassedAlloc.event).reverse ∧
      (∀ alloc ∈ r.passed, ∃ entry, alloc.entry = some entry ∧ alloc.event.frames = entry.frames) ∧
      r.consumed.Nodup := by
  have hstart : Balanced (.withMaxStacks maxStacks)
      ({ collector := .attach kernel maps dwarf allowPartial maxStacks } : RawRun δ) :=
    @balanced_start δ (.attach kernel maps dwarf allowPartial maxStacks) rfl rfl rfl
  obtain ⟨r, hrun, h⟩ := Run.run_total (RawRun.next unwinder) (fun _ bytes hr => hr.next bytes) records hstart
  refine ⟨r, hrun, h.bounded, h.samples, h.usable, ?_, ?_, h.state, h.allocs, h.passed, h.consumed⟩
  · intro bytes houtcome
    obtain ⟨after, happly, hafter⟩ := r.collector.applyRawBytes_becomes unwinder bytes
    rw [houtcome] at hafter
    obtain ⟨dwarf, fatal, rfl⟩ := hafter
    exact ⟨_, happly, rfl⟩
  · intro bytes token frames houtcome
    obtain ⟨after, happly, hafter⟩ := r.collector.applyRawBytes_becomes unwinder bytes
    rw [houtcome] at hafter
    exact ⟨after, happly, h.limit_counted hafter⟩

end

/-! ## The failure counter saturates -/

def oneFrame (token : ℕ) : RawHeader where
  kind := eventStack
  unwindMode := 1
  token := token
  pointer := 0
  size := 0
  weight := 0
  ip := 0x1000
  sp := 0
  fp := 0
  lr := 0
  stackLength := 0

def oneFrameRecord (token : ℕ) : List UInt8 := Bytes.fields (oneFrame token).layout

theorem outcome_oneFrame {collector : HeapCollector Unit}
    (hranges : collector.executableRanges = .fromMaps [textMapping]) {token : ℕ} (htoken : token < 2 ^ 64) :
    collector.outcome noUnwinder (oneFrameRecord token) = .usable token [0x1000] := by
  have hparse : RawHeader.parse (oneFrameRecord token) = some (some (oneFrame token)) := by
    have h := (oneFrame token).parse_layout htoken (show 0 < 2 ^ 31 by decide) rfl []
    rwa [List.append_nil] at h
  have hframes : collector.stackFramesOf noUnwinder (oneFrameRecord token) (oneFrame token) = [0x1000] := by
    have hlength : (oneFrameRecord token).length = 88 := (oneFrame token).length_layout
    unfold HeapCollector.stackFramesOf HeapCollector.stackFramesBytes RawHeader.fpStack RawHeader.stackBytes sliceBytes
    rw [hlength]
    rfl
  unfold HeapCollector.outcome
  rw [hparse, Option.getD_some]
  dsimp only
  rw [hframes, hranges, if_pos (show (oneFrame token).kind = eventStack from rfl), if_neg (by decide +kernel)]
  rfl

theorem run_short (r : RawRun Unit) : ∀ n : ℕ,
    Run.run (RawRun.next noUnwinder) r (List.replicate n []) =
      some { r with
        collector := { r.collector with localStackFailures := r.collector.localStackFailures + .ofNat n } }
  | 0 => by simp
  | n + 1 => by
    rw [List.replicate_succ', Run.run_append, run_short r n, UInt64.ofNat_add, ← UInt64.add_assoc]
    rfl

/-- With distinct tokens up to the limit, every stack waits. -/
theorem run_oneFrames {r : RawRun Unit} (hpending : r.collector.pendingStacks = ∅)
    (hranges : r.collector.executableRanges = .fromMaps [textMapping]) : ∀ n ≤ pendingStacksMax, ∃ r',
      Run.run (RawRun.next noUnwinder) r ((List.range n).map oneFrameRecord) = some r' ∧
        r'.collector.pendingStacks.size = n ∧ (∀ token ∈ r'.collector.pendingStacks, token < n) ∧
        r'.collector.localStackFailures = r.collector.localStackFailures ∧
        r'.collector.executableRanges = .fromMaps [textMapping]
  | 0, _ => by
    refine ⟨r, rfl, ?_, ?_, rfl, hranges⟩
    · rw [hpending]
      rfl
    · intro token hmem
      rw [hpending] at hmem
      exact absurd hmem (AList.notMem_empty token)
  | n + 1, hn => by
    obtain ⟨r', hrun, hsize, hkeys, hfailures, hranges'⟩ := run_oneFrames hpending hranges n (by omega)
    have hout := outcome_oneFrame hranges' (show n < 2 ^ 64 by unfold pendingStacksMax at hn; omega)
    obtain ⟨after, happly, hafter⟩ := r'.collector.applyRawBytes_becomes noUnwinder (oneFrameRecord n)
    have hnext : r'.next noUnwinder (oneFrameRecord n) = some (r'.record after (.usable n [0x1000])) := by
      rw [RawRun.next, happly, hout]
      rfl
    rw [hout] at hafter
    obtain ⟨dwarf, fatal, hafter⟩ := hafter
    have hnew : (r'.collector.pendingStacks.insert n [0x1000]).size = n + 1 := by
      rw [Table.size_insert_of_notMem fun hmem => absurd (hkeys n hmem) (Nat.lt_irrefl n), hsize]
    have hroom : ¬ (r'.collector.withStack n [0x1000] dwarf fatal).pendingStacks.size > pendingStacksMax := by
      change ¬ (r'.collector.pendingStacks.insert n [0x1000]).size > pendingStacksMax
      omega
    rw [HeapCollector.limitPendingStacks, if_neg hroom] at hafter
    have hpending : after.pendingStacks = r'.collector.pendingStacks.insert n [0x1000] := by rw [hafter]; rfl
    refine ⟨r'.record after (.usable n [0x1000]), ?_, ?_, ?_, ?_, ?_⟩
    · rw [List.range_succ, List.map_append, List.map_singleton, Run.run_append, hrun, Option.bind_some, Run.run_cons,
        hnext, Option.bind_some, Run.run_nil]
    · exact (congrArg AList.size hpending).trans hnew
    · intro token hmem
      change token ∈ after.pendingStacks at hmem
      rw [hpending] at hmem
      rcases (AList.mem_insert _).mp hmem with rfl | hmem
      · exact Nat.lt_succ_self _
      · exact (hkeys token hmem).trans (Nat.lt_succ_self _)
    · refine Eq.trans ?_ hfailures
      change after.localStackFailures = _
      rw [hafter]
      rfl
    · refine Eq.trans ?_ hranges'
      change after.executableRanges = _
      rw [hafter]
      rfl

/-- One stack too many, after `n` short records. -/
theorem run_eviction (n : ℕ) : ∃ r after,
    Run.run (RawRun.next noUnwinder) { collector := .attach .loaded [textMapping] none false 16 }
        (List.replicate n [] ++ (List.range pendingStacksMax).map oneFrameRecord) = some r ∧
      r.collector.applyRawBytes noUnwinder (oneFrameRecord pendingStacksMax) = some after ∧
      r.collector.pendingStacks.size + 1 - after.pendingStacks.size = 32768 ∧
      r.collector.localStackFailures = .ofNat n ∧
      after.localStackFailures = .ofNat (saturatingAddU64 (UInt64.ofNat n).toNat 32768) := by
  obtain ⟨r₀, hr₀⟩ : ∃ r₀ : RawRun Unit, r₀ = { collector :=
    { (HeapCollector.attach .loaded [textMapping] none false 16 : HeapCollector Unit) with
      localStackFailures := 0 + .ofNat n } } := ⟨_, rfl⟩
  have hshort : Run.run (RawRun.next noUnwinder) { collector := .attach .loaded [textMapping] none false 16 }
      (List.replicate n []) = some r₀ := by
    rw [run_short, hr₀]
    rfl
  obtain ⟨r, hrun, hsize, hkeys, hfailures, hranges⟩ :=
    @run_oneFrames r₀ (by rw [hr₀]; rfl) (by rw [hr₀]; rfl) pendingStacksMax (le_refl _)
  have hnew : (r.collector.pendingStacks.insert pendingStacksMax [0x1000]).size = pendingStacksMax + 1 := by
    rw [Table.size_insert_of_notMem fun hmem => absurd (hkeys pendingStacksMax hmem) (Nat.lt_irrefl _), hsize]
  have hcount : r.collector.localStackFailures = .ofNat n := by
    rw [hfailures, hr₀]
    exact UInt64.zero_add _
  obtain ⟨after, happly, hafter⟩ := r.collector.applyRawBytes_becomes noUnwinder (oneFrameRecord pendingStacksMax)
  rw [outcome_oneFrame hranges (by decide)] at hafter
  obtain ⟨dwarf, fatal, hafter⟩ := hafter
  obtain ⟨pending, failures, hlimit, -, -, -, hcounted⟩ :=
    @HeapCollector.limitPendingStacks_spec Unit (r.collector.withStack pendingStacksMax [0x1000] dwarf fatal) hnew.le
  obtain ⟨hhalf, hcounted⟩ := hcounted (hnew.symm ▸ Nat.lt_succ_self _)
  dsimp only [HeapCollector.withStack] at hhalf hcounted
  rw [hnew] at hhalf hcounted
  rw [hlimit] at hafter
  refine ⟨r, after, ?_, happly, ?_, hcount, ?_⟩
  · rw [Run.run_append, hshort, Option.bind_some]
    exact hrun
  · rw [hafter, hsize, hhalf]
    rfl
  · rw [hafter, hcounted, hhalf, hcount]
    rfl

/-- After enough short records, an eviction adds nothing to the counter. -/
theorem eviction_saturates : ∃ r after,
    Run.run (RawRun.next noUnwinder) { collector := .attach .loaded [textMapping] none false 16 }
        (List.replicate u64Max [] ++ (List.range pendingStacksMax).map oneFrameRecord) = some r ∧
      r.collector.applyRawBytes noUnwinder (oneFrameRecord pendingStacksMax) = some after ∧
      r.collector.pendingStacks.size + 1 - after.pendingStacks.size = 32768 ∧
      after.localStackFailures = r.collector.localStackFailures := by
  obtain ⟨r, after, hrun, happly, hremoved, hbefore, hafter⟩ := run_eviction u64Max
  refine ⟨r, after, hrun, happly, hremoved, ?_⟩
  rw [hafter, hbefore, show (UInt64.ofNat u64Max).toNat = u64Max by decide, saturatingAddU64, Sat.add,
    min_eq_right (Nat.le_add_right _ _)]

end RawRun

end RustProfile
