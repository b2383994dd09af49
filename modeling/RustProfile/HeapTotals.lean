import RustProfile.HeapState
import Mathlib.Tactic.Abel

/-!
# Per-stack totals

The totals of a stack are the sum of what its live allocations weigh. They are
maintained by addition and subtraction; both are exact, because a table keyed by
`u64` pointers has fewer than `2 ^ 64` entries of less than `2 ^ 64` each.
-/

namespace RustProfile

/-! ## Totals as sums -/

namespace LiveTotals

instance : Zero LiveTotals := ⟨{}⟩
instance : Add LiveTotals := ⟨fun a b => ⟨a.objects + b.objects, a.space + b.space⟩⟩

@[simp] theorem zero_objects : (0 : LiveTotals).objects = 0 := rfl
@[simp] theorem zero_space : (0 : LiveTotals).space = 0 := rfl
@[simp] theorem add_objects (a b : LiveTotals) : (a + b).objects = a.objects + b.objects := rfl
@[simp] theorem add_space (a b : LiveTotals) : (a + b).space = a.space + b.space := rfl

@[ext] theorem ext' {a b : LiveTotals} (ho : a.objects = b.objects) (hs : a.space = b.space) : a = b := by
  cases a; cases b; simp_all

instance : AddCommMonoid LiveTotals where
  add_assoc a b c := ext' (Nat.add_assoc ..) (Nat.add_assoc ..)
  zero_add a := ext' (Nat.zero_add _) (Nat.zero_add _)
  add_zero _ := rfl
  add_comm a b := ext' (Nat.add_comm ..) (Nat.add_comm ..)
  nsmul := nsmulRec

theorem sum_objects {ι : Type*} (l : List ι) (f : ι → LiveTotals) :
    (l.map f).sum.objects = (l.map fun i => (f i).objects).sum := by
  induction l with
  | nil => rfl
  | cons i l ih => simp [ih]

theorem sum_space {ι : Type*} (l : List ι) (f : ι → LiveTotals) :
    (l.map f).sum.space = (l.map fun i => (f i).space).sum := by
  induction l with
  | nil => rfl
  | cons i l ih => simp [ih]

theorem left_eq_zero {a b : LiveTotals} (h : a + b = 0) : a = 0 := by
  have ho : a.objects + b.objects = 0 := congrArg LiveTotals.objects h
  have hs : a.space + b.space = 0 := congrArg LiveTotals.space h
  exact ext' (Nat.eq_zero_of_add_eq_zero_right ho) (Nat.eq_zero_of_add_eq_zero_right hs)

def Fits (t : LiveTotals) : Prop := t.objects ≤ u128Max ∧ t.space ≤ u128Max

theorem Fits.left {a b : LiveTotals} (h : (a + b).Fits) : a.Fits :=
  ⟨Nat.le_trans (Nat.le_add_right _ _) h.1, Nat.le_trans (Nat.le_add_right _ _) h.2⟩

end LiveTotals

def LiveAllocation.totals (a : LiveAllocation) : LiveTotals := ⟨a.weight.toNat, a.weightedSpace.toNat⟩

/-- What `a` contributes to the totals of `s`. -/
def share (s : Stack) (a : LiveAllocation) : LiveTotals := if a.stack = s then a.totals else 0

@[simp] theorem share_self (a : LiveAllocation) : share a.stack a = a.totals := if_pos rfl

theorem share_of_ne {s : Stack} {a : LiveAllocation} (h : a.stack ≠ s) : share s a = 0 := if_neg h

def exactTotals (live : Table UInt64 LiveAllocation) (s : Stack) : LiveTotals :=
  Table.sumOver (fun _ a => share s a) live

theorem exactTotals_erase {live : Table UInt64 LiveAllocation} {p : UInt64} {a : LiveAllocation}
    (h : live.lookup p = some a) (s : Stack) : exactTotals live s = share s a + exactTotals (live.erase p) s :=
  Table.sumOver_erase _ h

theorem exactTotals_insert (live : Table UInt64 LiveAllocation) (p : UInt64) (a : LiveAllocation) (s : Stack) :
    exactTotals (live.insert p a) s = share s a + exactTotals (live.erase p) s := rfl

theorem exactTotals_values (live : Table UInt64 LiveAllocation) (s : Stack) :
    exactTotals live s = ((live.entries.map (·.2)).map (share s)).sum := by
  rw [List.map_map]; rfl

theorem size_le (live : Table UInt64 LiveAllocation) : live.size ≤ 2 ^ 64 := by
  have hn : (live.keys.map UInt64.toNat).Nodup :=
    live.keys_nodup.map fun a b h => UInt64.toNat_inj.mp h
  have hs : (live.keys.map UInt64.toNat) ⊆ List.range (2 ^ 64) := fun n hn => by
    obtain ⟨a, -, rfl⟩ := List.mem_map.mp hn
    exact List.mem_range.mpr a.toNat_lt
  have := (hn.subperm hs).length_le
  simpa [AList.size, AList.keys, List.keys] using this

/-- No sum over live pointers leaves room for overflow by one more allocation. -/
theorem exactTotals_fits (live : Table UInt64 LiveAllocation) (s : Stack) (a : LiveAllocation) :
    (exactTotals live s + a.totals).Fits := by
  have hb : ∀ f : LiveAllocation → ℕ, (∀ b, f b ≤ u64Max) → Table.sumOver (fun _ b => f b) live ≤ 2 ^ 64 * u64Max :=
    fun f hf => Nat.le_trans (Table.sumOver_le _ fun _ b _ => hf b) (Nat.mul_le_mul_right _ (size_le live))
  have ho : (exactTotals live s).objects ≤ 2 ^ 64 * u64Max := by
    unfold exactTotals Table.sumOver
    rw [LiveTotals.sum_objects]
    refine hb (fun b => (share s b).objects) fun b => ?_
    unfold share
    split
    · exact toNat_le_u64Max _
    · exact Nat.zero_le _
  have hs : (exactTotals live s).space ≤ 2 ^ 64 * u64Max := by
    unfold exactTotals Table.sumOver
    rw [LiveTotals.sum_space]
    refine hb (fun b => (share s b).space) fun b => ?_
    unfold share
    split
    · exact toNat_le_u64Max _
    · exact Nat.zero_le _
  have hw := toNat_le_u64Max a.weight
  have hp := toNat_le_u64Max a.weightedSpace
  refine ⟨?_, ?_⟩
  · simp only [LiveTotals.add_objects, LiveAllocation.totals, u64Max, u128Max] at *; omega
  · simp only [LiveTotals.add_space, LiveAllocation.totals, u64Max, u128Max] at *; omega

/-! ## Exact operations -/

namespace LiveTotals

def AddExact (t : LiveTotals) (a : LiveAllocation) : Prop :=
  t.objects + a.weight.toNat ≤ u128Max ∧ t.space + a.weightedSpace.toNat ≤ u128Max

def SubExact (t : LiveTotals) (a : LiveAllocation) : Prop :=
  a.weight.toNat ≤ t.objects ∧ a.weightedSpace.toNat ≤ t.space

theorem saturatingAdd_eq {t : LiveTotals} {a : LiveAllocation} (h : t.AddExact a) :
    t.saturatingAdd a = a.totals + t :=
  ext' ((Sat.clamp_of_le u128Max h.1).trans (Nat.add_comm _ _)) ((Sat.clamp_of_le u128Max h.2).trans (Nat.add_comm _ _))

theorem saturatingSub_eq (t : LiveTotals) (a : LiveAllocation) : (a.totals + t).saturatingSub a = t :=
  ext' (Nat.add_sub_cancel_left ..) (Nat.add_sub_cancel_left ..)

end LiveTotals

/-- The totals a table holds for `s`, zero when it has none. -/
def totalsOf (liveTotals : Table Stack LiveTotals) (s : Stack) : LiveTotals := (liveTotals.lookup s).getD 0

def NonzeroTotals (liveTotals : Table Stack LiveTotals) : Prop := ∀ s t, liveTotals.lookup s = some t → t ≠ 0

theorem addLiveTotals_totals {tbl : Table Stack LiveTotals} {a : LiveAllocation}
    (h : (totalsOf tbl a.stack).AddExact a) (s : Stack) :
    totalsOf (addLiveTotals tbl a) s = share s a + totalsOf tbl s := by
  unfold addLiveTotals totalsOf
  rw [Table.lookup_insert]
  by_cases hs : s = a.stack
  · subst hs
    rw [if_pos rfl, Option.getD_some, share_self]
    exact LiveTotals.saturatingAdd_eq h
  · rw [if_neg hs, share_of_ne (Ne.symm hs), zero_add]

theorem addLiveTotals_nonzero {tbl : Table Stack LiveTotals} {a : LiveAllocation} (hn : NonzeroTotals tbl)
    (h : (totalsOf tbl a.stack).AddExact a) (ha : a.totals ≠ 0) : NonzeroTotals (addLiveTotals tbl a) := by
  intro s t ht h0
  have hs := addLiveTotals_totals h s
  rw [totalsOf, ht, Option.getD_some, h0] at hs
  unfold addLiveTotals at ht
  rcases Table.lookup_insert_eq_some.mp ht with ⟨rfl, -⟩ | ⟨-, ht⟩
  · rw [share_self] at hs
    exact ha (LiveTotals.left_eq_zero hs.symm)
  · exact hn s t ht h0

theorem addExact_of_fits {t u : LiveTotals} {a : LiveAllocation} (h : (a.totals + u + t).Fits) : t.AddExact a := by
  rw [add_right_comm] at h
  exact ⟨Nat.add_comm .. ▸ h.left.1, Nat.add_comm .. ▸ h.left.2⟩

theorem foldl_addLiveTotals {l : List LiveAllocation} {tbl : Table Stack LiveTotals}
    (h : ∀ s, ((l.map (share s)).sum + totalsOf tbl s).Fits) :
    (∀ s, totalsOf (l.foldl addLiveTotals tbl) s = (l.map (share s)).sum + totalsOf tbl s) ∧
      (NonzeroTotals tbl → (∀ a ∈ l, a.totals ≠ 0) → NonzeroTotals (l.foldl addLiveTotals tbl)) := by
  induction l generalizing tbl with
  | nil => exact ⟨fun s => (zero_add _).symm, fun hn _ => hn⟩
  | cons a l ih =>
    have hx : (totalsOf tbl a.stack).AddExact a := addExact_of_fits (by
      have := h a.stack
      rwa [List.map_cons, List.sum_cons, share_self] at this)
    have heq := addLiveTotals_totals hx
    have hcons : ∀ s, ((a :: l).map (share s)).sum + totalsOf tbl s =
        (l.map (share s)).sum + totalsOf (addLiveTotals tbl a) s := fun s => by
      rw [heq, List.map_cons, List.sum_cons]; abel
    obtain ⟨ht, hn⟩ := ih fun s => hcons s ▸ h s
    refine ⟨fun s => by rw [List.foldl_cons, ht, hcons], fun h0 hl => ?_⟩
    exact hn (addLiveTotals_nonzero h0 hx (hl a (by simp))) fun b hb => hl b (by simp [hb])

theorem removeLiveTotals_totals {self : HeapState} {a : LiveAllocation} {T : Stack → LiveTotals}
    (h : ∀ s, totalsOf self.liveTotals s = share s a + T s) (ha : a.totals ≠ 0) (s : Stack) :
    totalsOf (self.removeLiveTotals a).liveTotals s = T s := by
  have hs := h a.stack
  rw [share_self] at hs
  unfold HeapState.removeLiveTotals
  cases hl : self.liveTotals.lookup a.stack with
  | none =>
    rw [totalsOf, hl, Option.getD_none] at hs
    exact absurd (LiveTotals.left_eq_zero hs.symm) ha
  | some t =>
    rw [totalsOf, hl, Option.getD_some] at hs
    subst hs
    simp only [LiveTotals.saturatingSub_eq]
    split
    · rename_i h0
      rw [totalsOf, Table.lookup_erase]
      split
      · rename_i e; subst e; exact (LiveTotals.ext' h0.1 h0.2).symm
      · rename_i e
        have := h s
        rwa [share_of_ne (Ne.symm e), zero_add] at this
    · rw [totalsOf, Table.lookup_insert]
      split
      · rename_i e; subst e; rfl
      · rename_i e
        have := h s
        rwa [share_of_ne (Ne.symm e), zero_add] at this

theorem removeLiveTotals_nonzero (self : HeapState) (hn : NonzeroTotals self.liveTotals) (a : LiveAllocation) :
    NonzeroTotals (self.removeLiveTotals a).liveTotals := by
  unfold HeapState.removeLiveTotals
  split
  · rename_i t ht
    dsimp only
    split
    · exact fun s u hu => hn s u (Table.lookup_erase_eq_some.mp hu).2
    · rename_i h0
      intro s u hu
      rcases Table.lookup_insert_eq_some.mp hu with ⟨-, rfl⟩ | ⟨-, hu⟩
      · intro he
        exact h0 ⟨congrArg LiveTotals.objects he, congrArg LiveTotals.space he⟩
      · exact hn s u hu
  · exact hn

end RustProfile
