import RustProfile.HeapTotals

/-!
# The heap state against the map of live allocations

`LiveModel` is what the state is for: a partial map from pointers to the sampled
allocations that are in use. `heapState_refines` follows any sequence of
operations in both.
-/

namespace RustProfile

/-! ## The model -/

/-- A sampled allocation: its stack, and the objects and bytes it stands for. -/
structure Sampled where
  stack : Stack
  weight : ℕ
  space : ℕ

abbrev LiveModel := UInt64 → Option Sampled

def HeapEvent.sampled (event : HeapEvent) : Sampled where
  stack := event.stack
  weight := event.weight.toNat
  space := min (event.size.toNat * event.weight.toNat) u64Max

namespace LiveModel

def apply (M : LiveModel) (event : HeapEvent) : LiveModel :=
  match event.kind with
  | .alloc => if event.valid then Function.update M event.pointer (some event.sampled) else M
  | .free => Function.update M event.pointer none

def perform (M : LiveModel) : HeapOp → LiveModel
  | .apply event => M.apply event
  | .snapshotWindow _ => M
  | .clearLive => fun _ => none
  | .retainLivePointers pointers _ => fun p => if p ∈ pointers then M p else none

def performAll (ops : List HeapOp) : LiveModel := ops.foldl perform fun _ => none

noncomputable def sumOn (M : LiveModel) (g : Sampled → ℕ) (s : Stack) : ℕ :=
  ∑ᶠ p, ((M p).map fun a => if a.stack = s then g a else 0).getD 0

end LiveModel

def LiveAllocation.sampled (a : LiveAllocation) : Sampled := ⟨a.stack, a.weight.toNat, a.weightedSpace.toNat⟩

theorem allocation_sampled (event : HeapEvent) : (event.allocation event.stack).sampled = event.sampled := by
  simp only [LiveAllocation.sampled, HeapEvent.allocation, HeapEvent.sampled, HeapEvent.weightedSpace,
    toNat_saturatingMulU64]

def Represents (live : Table UInt64 LiveAllocation) (M : LiveModel) : Prop :=
  ∀ p, (live.lookup p).map LiveAllocation.sampled = M p

theorem exactTotals_model {live : Table UInt64 LiveAllocation} {M : LiveModel} (h : Represents live M) (s : Stack) :
    (exactTotals live s).objects = M.sumOn Sampled.weight s ∧
      (exactTotals live s).space = M.sumOn Sampled.space s := by
  -- Both totals are a sum over the live entries, in the table and in the abstract map.
  have hsum : ∀ (f : LiveAllocation → ℕ) (g : Sampled → ℕ), (∀ a, f a = g a.sampled) →
      Table.sumOver (fun _ a => if a.stack = s then f a else 0) live = M.sumOn g s := by
    intro f g hfg
    rw [Table.sumOver_eq_finsum]
    unfold LiveModel.sumOn
    refine finsum_congr fun p => ?_
    rw [← h p, Option.map_map]
    congr 2
    funext a
    simp only [Function.comp, hfg]
    rfl
  unfold exactTotals Table.sumOver
  rw [LiveTotals.sum_objects, LiveTotals.sum_space]
  constructor
  · rw [← hsum (·.weight.toNat) _ fun _ => rfl]
    unfold Table.sumOver share
    congr 2
    funext e
    dsimp only
    split <;> rfl
  · rw [← hsum (·.weightedSpace.toNat) _ fun _ => rfl]
    unfold Table.sumOver share
    congr 2
    funext e
    dsimp only
    split <;> rfl

/-! ## The invariant -/

/-- The totals are exact, and no live allocation weighs nothing. -/
structure HeapState.Balanced (st : HeapState) : Prop where
  totals : ∀ s, totalsOf st.liveTotals s = exactTotals st.live s
  nonzero : NonzeroTotals st.liveTotals
  weighed : ∀ p a, st.live.lookup p = some a → a.totals ≠ 0

theorem totals_ne_zero {event : HeapEvent} (h : event.valid = true) : (event.allocation event.stack).totals ≠ 0 := by
  intro h0
  have hw : event.weight.toNat = 0 := congrArg LiveTotals.objects h0
  have : event.weight = 0 := UInt64.toNat_inj.mp hw
  simp [HeapEvent.valid, this] at h

theorem withMaxStacks_balanced (maxStacks : ℕ) : (HeapState.withMaxStacks maxStacks).Balanced :=
  ⟨fun _ => rfl, fun s t h => by simp [HeapState.withMaxStacks] at h,
    fun p a h => by simp [HeapState.withMaxStacks] at h⟩

theorem free_balanced {self : HeapState} (h : self.Balanced) {p : UInt64} {a : LiveAllocation}
    (ha : self.live.lookup p = some a) :
    ({ self with live := self.live.erase p }.removeLiveTotals a).Balanced := by
  refine ⟨?_, removeLiveTotals_nonzero { self with live := self.live.erase p } h.nonzero a, fun q b hb => ?_⟩
  · rw [removeLiveTotals_live]
    exact removeLiveTotals_totals (fun s => (h.totals s).trans (exactTotals_erase ha s)) (h.weighed p a ha)
  · rw [removeLiveTotals_live] at hb
    exact h.weighed q b (Table.lookup_erase_eq_some.mp hb).2

theorem insertLive_totals {self : HeapState} (h : self.Balanced) (p : UInt64) (a : LiveAllocation) :
    (∀ s, totalsOf (self.insertLive p a).liveTotals s = exactTotals (self.live.erase p) s) ∧
      NonzeroTotals (self.insertLive p a).liveTotals := by
  unfold HeapState.insertLive
  cases hp : self.live.lookup p with
  | none =>
    rw [Table.erase_of_notMem (Table.notMem_iff.mpr hp)]
    exact ⟨h.totals, h.nonzero⟩
  | some previous =>
    exact ⟨removeLiveTotals_totals (fun s => (h.totals s).trans (exactTotals_erase hp s)) (h.weighed p previous hp),
      removeLiveTotals_nonzero { self with live := self.live.insert p a } h.nonzero previous⟩

theorem insertLive_addExact {self : HeapState} (h : self.Balanced) (p : UInt64) (a : LiveAllocation) :
    (totalsOf (self.insertLive p a).liveTotals a.stack).AddExact a := by
  rw [(insertLive_totals h p a).1]
  exact addExact_of_fits (u := 0) (by rw [add_zero, add_comm]; exact exactTotals_fits _ _ a)

theorem allocate_balanced {self : HeapState} (h : self.Balanced) (event : HeapEvent) :
    (self.allocate event).Balanced := by
  unfold HeapState.allocate
  split
  · rename_i hv
    simp only [internStack_eq]
    obtain ⟨hl, ht, -⟩ := recordWindowAllocation_live self event.stack (saturatingI64 event.weight.toNat)
      (saturatingI64 event.weightedSpace.toNat)
    have h' := @HeapState.Balanced.mk (self.recordWindowAllocation _ _ _)
      (by rw [hl, ht]; exact h.totals) (by rw [ht]; exact h.nonzero) (by rw [hl]; exact h.weighed)
    have hx := insertLive_addExact h' event.pointer (event.allocation event.stack)
    obtain ⟨htot, hn⟩ := insertLive_totals h' event.pointer (event.allocation event.stack)
    refine ⟨fun s => ?_, addLiveTotals_nonzero hn hx (totals_ne_zero hv), fun q b hb => ?_⟩
    · rw [addLiveTotals_totals hx, htot, insertLive_live, exactTotals_insert]
    · rw [insertLive_live] at hb
      rcases Table.lookup_insert_eq_some.mp hb with ⟨-, rfl⟩ | ⟨-, hb⟩
      · exact totals_ne_zero hv
      · exact h'.weighed q b hb
  · exact h

theorem apply_balanced {self : HeapState} (h : self.Balanced) (event : HeapEvent) : (self.apply event).Balanced := by
  unfold HeapState.apply
  split
  · exact allocate_balanced h event
  · split
    · rename_i a ha; exact free_balanced h ha
    · exact h

theorem rebuild_sum (live : Table UInt64 LiveAllocation) (iter : IterOrder) (s : Stack) :
    ((iter.order (live.entries.map (·.2))).map (share s)).sum = exactTotals live s := by
  rw [exactTotals_values]
  exact ((iter.perm _).map _).sum_eq

theorem rebuild_fits (live : Table UInt64 LiveAllocation) (iter : IterOrder) (s : Stack) :
    (((iter.order (live.entries.map (·.2))).map (share s)).sum + totalsOf ∅ s).Fits := by
  rw [rebuild_sum]
  exact (exactTotals_fits live s ⟨0, 0, s⟩).left

theorem retain_balanced {self : HeapState} (h : self.Balanced) (pointers : Finset UInt64) (iter : IterOrder) :
    (self.retainLivePointers pointers iter).Balanced := by
  have hw : ∀ p a, (self.live.retain fun pointer _ => pointer ∈ pointers).lookup p = some a → a.totals ≠ 0 :=
    fun p a ha => by
      rw [Table.lookup_retain, Option.filter_eq_some_iff] at ha
      exact h.weighed p a ha.1
  obtain ⟨ht, hn⟩ := foldl_addLiveTotals (rebuild_fits (self.live.retain fun pointer _ => pointer ∈ pointers) iter)
  refine ⟨fun s => ?_, hn (fun s t ht => by simp at ht) fun a ha => ?_, hw⟩
  · refine (ht s).trans ?_
    rw [rebuild_sum]
    exact add_zero _
  · obtain ⟨e, he, rfl⟩ := List.mem_map.mp ((iter.perm _).subset ha)
    exact hw e.1 e.2 (Table.mem_entries.mp he)

theorem perform_balanced {self : HeapState} (h : self.Balanced) (op : HeapOp) : (self.perform op).Balanced := by
  cases op with
  | apply event => exact apply_balanced h event
  | snapshotWindow iter => exact ⟨h.totals, h.nonzero, h.weighed⟩
  | clearLive =>
    exact ⟨fun _ => rfl, fun s t ht => by simp [HeapState.perform, HeapState.clearLive] at ht,
      fun p a ha => by simp [HeapState.perform, HeapState.clearLive] at ha⟩
  | retainLivePointers pointers iter => exact retain_balanced h pointers iter

theorem performAll_balanced {self : HeapState} (h : self.Balanced) (ops : List HeapOp) :
    (self.performAll ops).Balanced := by
  induction ops generalizing self with
  | nil => exact h
  | cons op ops ih => exact ih (perform_balanced h op)

/-! ## The live table -/

theorem update_represents {live : Table UInt64 LiveAllocation} {M : LiveModel} (h : Represents live M) (p : UInt64)
    (a : LiveAllocation) : Represents (live.insert p a) (Function.update M p (some a.sampled)) := by
  intro q
  rw [Table.lookup_insert, Function.update_apply]
  split
  · rfl
  · exact h q

theorem erase_represents {live : Table UInt64 LiveAllocation} {M : LiveModel} (h : Represents live M) (p : UInt64) :
    Represents (live.erase p) (Function.update M p none) := by
  intro q
  rw [Table.lookup_erase, Function.update_apply]
  split
  · rfl
  · exact h q

theorem allocate_represents {self : HeapState} {M : LiveModel} (h : Represents self.live M) {event : HeapEvent}
    (hv : event.valid = true) :
    Represents (self.allocate event).live (Function.update M event.pointer (some event.sampled)) := by
  unfold HeapState.allocate
  rw [if_pos hv]
  simp only [insertLive_live, internStack_eq, recordWindowAllocation_live]
  rw [← allocation_sampled]
  exact update_represents h _ _

theorem apply_represents {self : HeapState} {M : LiveModel} (h : Represents self.live M) (event : HeapEvent) :
    Represents (self.apply event).live (M.apply event) := by
  cases hk : event.kind with
  | alloc =>
    simp only [HeapState.apply, LiveModel.apply, hk]
    by_cases hv : event.valid = true
    · rw [if_pos hv]
      exact allocate_represents h hv
    · rw [if_neg hv]
      unfold HeapState.allocate
      rw [if_neg hv]
      exact h
  | free =>
    simp only [HeapState.apply, LiveModel.apply, hk]
    cases hp : self.live.lookup event.pointer with
    | some a =>
      simp only [removeLiveTotals_live]
      exact erase_represents h _
    | none =>
      rw [show Function.update M event.pointer none = M by
        rw [Function.update_eq_self_iff, ← h event.pointer, hp]; rfl]
      exact h

theorem perform_represents {self : HeapState} {M : LiveModel} (h : Represents self.live M) (op : HeapOp) :
    Represents (self.perform op).live (M.perform op) := by
  cases op with
  | apply event => exact apply_represents h event
  | snapshotWindow iter => exact h
  | clearLive => exact fun _ => rfl
  | retainLivePointers pointers iter =>
    intro p
    change ((self.live.retain fun pointer _ => pointer ∈ pointers).lookup p).map _ = if p ∈ pointers then M p else none
    rw [Table.lookup_retain, ← h p]
    by_cases hp : p ∈ pointers <;> cases self.live.lookup p <;> simp [hp]

theorem performAll_represents {self : HeapState} {M : LiveModel} (h : Represents self.live M) (ops : List HeapOp) :
    Represents (self.performAll ops).live (ops.foldl LiveModel.perform M) := by
  induction ops generalizing self M with
  | nil => exact h
  | cons op ops ih => exact ih (perform_represents h op)

/-! ## Saturation -/

def HeapState.SubExact (self : HeapState) (a : LiveAllocation) : Prop :=
  ∀ t, self.liveTotals.lookup a.stack = some t → t.SubExact a

def HeapState.NeverSaturates (self : HeapState) : HeapOp → Prop
  | .apply event =>
    (∀ a, self.live.lookup event.pointer = some a → self.SubExact a) ∧
      (totalsOf (self.insertLive event.pointer (event.allocation event.stack)).liveTotals event.stack).AddExact
        (event.allocation event.stack)
  | .retainLivePointers pointers iter =>
    ∀ pre a post, iter.order ((self.live.retain fun pointer _ => pointer ∈ pointers).entries.map (·.2)) =
      pre ++ a :: post → (totalsOf (pre.foldl addLiveTotals ∅) a.stack).AddExact a
  | _ => True

theorem Balanced.subExact {self : HeapState} (h : self.Balanced) {p : UInt64} {a : LiveAllocation}
    (ha : self.live.lookup p = some a) : self.SubExact a := by
  intro t ht
  have hs := (h.totals a.stack).trans (exactTotals_erase ha a.stack)
  rw [totalsOf, ht, Option.getD_some, share_self] at hs
  subst hs
  exact ⟨Nat.le_add_right _ _, Nat.le_add_right _ _⟩

theorem Balanced.neverSaturates {self : HeapState} (h : self.Balanced) (op : HeapOp) : self.NeverSaturates op := by
  cases op with
  | apply event => exact ⟨fun a ha => Balanced.subExact h ha, insertLive_addExact h _ _⟩
  | retainLivePointers pointers iter =>
    intro pre a post hord
    have hf := rebuild_fits (self.live.retain fun pointer _ => pointer ∈ pointers) iter
    rw [hord] at hf
    have hpre : ∀ s, ((pre.map (share s)).sum + totalsOf ∅ s).Fits := fun s => by
      have := hf s
      rw [List.map_append, List.sum_append, add_right_comm] at this
      exact this.left
    rw [(foldl_addLiveTotals hpre).1]
    have := hf a.stack
    rw [List.map_append, List.sum_append, List.map_cons, List.sum_cons, share_self, add_right_comm,
      add_comm _ (a.totals + _)] at this
    exact addExact_of_fits this
  | _ => trivial

/-! ## The refinement -/

theorem mem_liveTotals_iff {self : HeapState} (h : self.Balanced) (s : Stack) :
    s ∈ self.liveTotals ↔ ∃ p a, self.live.lookup p = some a ∧ a.stack = s := by
  constructor
  · intro hs
    obtain ⟨t, ht⟩ := Table.mem_iff.mp hs
    by_contra hno
    have h0 : exactTotals self.live s = 0 := by
      unfold exactTotals Table.sumOver
      refine List.sum_eq_zero fun x hx => ?_
      obtain ⟨e, he, rfl⟩ := List.mem_map.mp hx
      exact share_of_ne fun hes => hno ⟨e.1, e.2, Table.mem_entries.mp he, hes⟩
    have := h.totals s
    rw [totalsOf, ht, Option.getD_some, h0] at this
    exact h.nonzero s t ht this
  · rintro ⟨p, a, ha, rfl⟩
    by_contra hno
    have := (h.totals a.stack).trans (exactTotals_erase ha a.stack)
    rw [totalsOf, Table.notMem_iff.mp hno, Option.getD_none, share_self] at this
    exact h.weighed p a ha (LiveTotals.left_eq_zero this.symm)

/-- **The heap state refines the map of live allocations.** The live table is
that map, a stack has totals exactly while some allocation has it, its totals
are the exact sums, and no `u128` operation saturates on the way. -/
theorem heapState_refines (maxStacks : ℕ) (ops : List HeapOp) :
    let self := (HeapState.withMaxStacks maxStacks).performAll ops
    let M := LiveModel.performAll ops
    (∀ p, (self.live.lookup p).map LiveAllocation.sampled = M p) ∧
    (∀ s, s ∈ self.liveTotals ↔ ∃ p a, M p = some a ∧ a.stack = s) ∧
    (∀ s t, self.liveTotals.lookup s = some t →
      t.objects = M.sumOn Sampled.weight s ∧ t.space = M.sumOn Sampled.space s) ∧
    ∀ pre op post, ops = pre ++ op :: post →
      ((HeapState.withMaxStacks maxStacks).performAll pre).NeverSaturates op := by
  intro self M
  have hb : self.Balanced := performAll_balanced (withMaxStacks_balanced maxStacks) ops
  have hr : Represents self.live M := performAll_represents (fun _ => rfl) ops
  refine ⟨hr, fun s => ?_, fun s t ht => ?_, fun pre op post _ => ?_⟩
  · rw [mem_liveTotals_iff hb]
    constructor
    · rintro ⟨p, a, ha, rfl⟩
      exact ⟨p, a.sampled, by rw [← hr p, ha]; rfl, rfl⟩
    · rintro ⟨p, b, hM, rfl⟩
      rw [← hr p] at hM
      obtain ⟨a, ha, rfl⟩ := Option.map_eq_some_iff.mp hM
      exact ⟨p, a, ha, rfl⟩
  · obtain ⟨ho, hs⟩ := exactTotals_model hr s
    have := hb.totals s
    rw [totalsOf, ht, Option.getD_some] at this
    rw [this]
    exact ⟨ho, hs⟩
  · exact Balanced.neverSaturates (performAll_balanced (withMaxStacks_balanced maxStacks) pre) op

end RustProfile
