import Mathlib.Data.List.Sort
import Mathlib.Order.Lattice

/-!
# Queues by key

A map from keys to FIFO queues, kept in the order of its keys, hands its items
out by key and, among equal keys, in the order they came. `items` lists them in
that order: an arriving item goes behind every item of its key or a smaller one,
and the oldest leaves at the head. `StablySorted` says that a list is a stable
sort of another, of which there is only one.
-/

namespace Queues

/-! ## Ordered maps -/

/-- A map kept in the order of its keys. -/
structure OrdMap (κ ν : Type*) [LinearOrder κ] where
  entries : List (κ × ν)
  sorted : entries.Pairwise fun a b => a.1 < b.1

section
variable {κ ν : Type*} [LinearOrder κ]

def upsert (k : κ) (init : ν) (f : ν → ν) : List (κ × ν) → List (κ × ν)
  | [] => [(k, f init)]
  | (k', v) :: rest =>
    if k < k' then (k, f init) :: (k', v) :: rest
    else if k = k' then (k', f v) :: rest
    else (k', v) :: upsert k init f rest

theorem key_of_mem_upsert {k : κ} {init : ν} {f : ν → ν} {e : κ × ν} : ∀ {l : List (κ × ν)},
    e ∈ upsert k init f l → e.1 = k ∨ ∃ e' ∈ l, e.1 = e'.1
  | [], h => by
    rw [upsert, List.mem_singleton] at h
    exact Or.inl (h ▸ rfl)
  | (k', v) :: rest, h => by
    rw [upsert] at h
    split at h
    · rcases List.mem_cons.mp h with h | h
      · exact Or.inl (h ▸ rfl)
      · exact Or.inr ⟨e, h, rfl⟩
    · split at h
      · rcases List.mem_cons.mp h with h | h
        · exact Or.inr ⟨(k', v), List.mem_cons_self, h ▸ rfl⟩
        · exact Or.inr ⟨e, List.mem_cons_of_mem _ h, rfl⟩
      · rcases List.mem_cons.mp h with h | h
        · exact Or.inr ⟨(k', v), List.mem_cons_self, h ▸ rfl⟩
        · rcases key_of_mem_upsert h with h | ⟨e', he, h⟩
          · exact Or.inl h
          · exact Or.inr ⟨e', List.mem_cons_of_mem _ he, h⟩

theorem upsert_sorted {k : κ} {init : ν} {f : ν → ν} : ∀ {l : List (κ × ν)},
    l.Pairwise (fun a b => a.1 < b.1) → (upsert k init f l).Pairwise fun a b => a.1 < b.1
  | [], _ => List.pairwise_singleton _ _
  | (k', v) :: rest, h => by
    obtain ⟨hk, hr⟩ := List.pairwise_cons.mp h
    rw [upsert]
    split
    · rename_i hlt
      refine List.pairwise_cons.mpr ⟨fun e he => ?_, h⟩
      rcases List.mem_cons.mp he with rfl | he
      · exact hlt
      · exact hlt.trans (hk e he)
    · rename_i hlt
      split
      · exact List.pairwise_cons.mpr ⟨hk, hr⟩
      · rename_i hne
        refine List.pairwise_cons.mpr ⟨fun e he => ?_, upsert_sorted hr⟩
        rcases key_of_mem_upsert he with h | ⟨e', he', h⟩
        · rw [h]; exact lt_of_le_of_ne (not_lt.mp hlt) (Ne.symm hne)
        · rw [h]; exact hk e' he'

theorem length_upsert_le (k : κ) (init : ν) (f : ν → ν) : ∀ l : List (κ × ν),
    (upsert k init f l).length ≤ l.length + 1
  | [] => Nat.le_refl _
  | (k', v) :: rest => by
    rw [upsert]
    split
    · exact Nat.le_refl _
    · split
      · exact Nat.le_succ _
      · exact Nat.succ_le_succ (length_upsert_le k init f rest)

theorem key_upsert (k : κ) (init : ν) (f : ν → ν) {k' : κ} : ∀ {l : List (κ × ν)},
    (k' = k ∨ ∃ v, (k', v) ∈ l) → ∃ v, (k', v) ∈ upsert k init f l
  | [], h => by
    rcases h with rfl | ⟨v, h⟩
    · exact ⟨f init, List.mem_cons_self⟩
    · cases h
  | (k₀, v₀) :: rest, h => by
    rw [upsert]
    split
    · rcases h with rfl | ⟨v, h⟩
      · exact ⟨f init, List.mem_cons_self⟩
      · exact ⟨v, List.mem_cons_of_mem _ h⟩
    · split
      · rename_i he
        rcases h with rfl | ⟨v, h⟩
        · exact ⟨f v₀, he ▸ List.mem_cons_self⟩
        · rcases List.mem_cons.mp h with h | h
          · cases h
            exact ⟨f v₀, List.mem_cons_self⟩
          · exact ⟨v, List.mem_cons_of_mem _ h⟩
      · rcases h with rfl | ⟨v, h⟩
        · obtain ⟨w, hw⟩ := key_upsert k' init f (Or.inl rfl)
          exact ⟨w, List.mem_cons_of_mem _ hw⟩
        · rcases List.mem_cons.mp h with h | h
          · exact ⟨v, h ▸ List.mem_cons_self⟩
          · obtain ⟨w, hw⟩ := key_upsert k init f (Or.inr ⟨v, h⟩)
            exact ⟨w, List.mem_cons_of_mem _ hw⟩

/-- Where the values are those of a family, updating a key updates the family there. -/
theorem upsert_family {k : κ} {init : ν} {f : ν → ν} {g g' : κ → ν} (hk : g' k = f (g k))
    (hne : ∀ k', k' ≠ k → g' k' = g k') : ∀ {l : List (κ × ν)}, l.Pairwise (fun a b => a.1 < b.1) →
    (∀ e ∈ l, e.2 = g e.1) → ((∀ e ∈ l, e.1 ≠ k) → init = g k) → ∀ e ∈ upsert k init f l, e.2 = g' e.1
  | [], _, _, hinit, e, he => by
    rw [upsert, List.mem_singleton] at he
    rw [he, hk, ← hinit (by simp)]
  | (k₀, v₀) :: rest, hs, hg, hinit, e, he => by
    obtain ⟨hlt, hs'⟩ := List.pairwise_cons.mp hs
    rw [upsert] at he
    split at he
    · rename_i hk₀
      -- The key is below the first one, so the list does not have it yet.
      have hother : ∀ e ∈ (k₀, v₀) :: rest, e.1 ≠ k := by
        intro e he
        rcases List.mem_cons.mp he with rfl | he
        · exact hk₀.ne'
        · exact (hk₀.trans (hlt e he)).ne'
      rcases List.mem_cons.mp he with rfl | he
      · rw [hk, ← hinit hother]
      · rw [hg e he, hne _ (hother e he)]
    · split at he
      · rename_i heq
        subst heq
        rcases List.mem_cons.mp he with rfl | he
        · rw [hk, ← hg _ List.mem_cons_self]
        · rw [hg e (List.mem_cons_of_mem _ he), hne _ (hlt e he).ne']
      · rename_i heq
        rcases List.mem_cons.mp he with rfl | he
        · rw [hg _ List.mem_cons_self, hne _ (Ne.symm heq)]
        · refine upsert_family hk hne hs' (fun e he => hg e (List.mem_cons_of_mem _ he)) ?_ e he
          intro hrest
          refine hinit fun e he => ?_
          rcases List.mem_cons.mp he with rfl | he
          · exact Ne.symm heq
          · exact hrest e he

namespace OrdMap

def empty : OrdMap κ ν := ⟨[], List.Pairwise.nil⟩

def first (m : OrdMap κ ν) : Option (κ × ν) := m.entries.head?

/-- Apply `f` to the value at `k`, or to `init` if there is none. -/
def update (m : OrdMap κ ν) (k : κ) (init : ν) (f : ν → ν) : OrdMap κ ν :=
  ⟨upsert k init f m.entries, upsert_sorted m.sorted⟩

def set (m : OrdMap κ ν) (k : κ) (v : ν) : OrdMap κ ν := m.update k v fun _ => v

def erase (m : OrdMap κ ν) (k : κ) : OrdMap κ ν :=
  ⟨m.entries.filter (·.1 ≠ k), m.sorted.sublist List.filter_sublist⟩

variable {m : OrdMap κ ν} {k : κ} {v : ν} {rest : List (κ × ν)}

theorem entries_set_first (h : m.entries = (k, v) :: rest) (w : ν) : (m.set k w).entries = (k, w) :: rest := by
  simp [set, update, h, upsert]

theorem entries_erase_first (h : m.entries = (k, v) :: rest) : (m.erase k).entries = rest := by
  have hs := m.sorted
  rw [h, List.pairwise_cons] at hs
  simp only [erase, h]
  rw [List.filter_cons_of_neg (by simp), List.filter_eq_self]
  intro e he
  simpa using (hs.1 e he).ne'

end OrdMap

end

/-! ## Stable sorts -/

section
variable {κ α : Type*} [LinearOrder κ] (key : α → κ)

/-- `out` is `l` ordered by key, with the items of each key in the order of `l`. -/
structure StablySorted (out l : List α) : Prop where
  sorted : out.Pairwise fun a b => key a ≤ key b
  stable : ∀ k, out.filter (key · = k) = l.filter (key · = k)

/-- Put `a` behind every item of its key or a smaller one. -/
def insertBehind (a : α) : List α → List α
  | [] => [a]
  | b :: l => if key a < key b then a :: b :: l else b :: insertBehind a l

def oldest (l : List α) : Option α := l.find? fun a => l.all fun b => key a ≤ key b

variable {key} {out out' l : List α} {a : α}

theorem StablySorted.nil : StablySorted key [] [] := ⟨List.Pairwise.nil, fun _ => rfl⟩

theorem StablySorted.mem_iff (h : StablySorted key out l) (b : α) : b ∈ out ↔ b ∈ l := by
  have hb := congrArg (b ∈ ·) (h.stable (key b))
  simpa using hb

/-- A list has one stable sort. -/
theorem StablySorted.unique : ∀ {out out' l : List α}, StablySorted key out l → StablySorted key out' l → out = out'
  | [], [], _, _, _ => rfl
  | [], b :: _, _, h, h' => by cases (h.mem_iff b).mpr ((h'.mem_iff b).mp List.mem_cons_self)
  | a :: _, [], _, h, h' => by cases (h'.mem_iff a).mpr ((h.mem_iff a).mp List.mem_cons_self)
  | a :: out, b :: out', l, h, h' => by
    have hle : ∀ {c d : α} {t t' : List α}, StablySorted key (c :: t) l → StablySorted key (d :: t') l →
        key c ≤ key d := by
      intro c d t t' hc hd
      rcases List.mem_cons.mp ((hc.mem_iff d).mpr ((hd.mem_iff d).mp List.mem_cons_self)) with rfl | hm
      · exact le_refl _
      · exact (List.pairwise_cons.mp hc.sorted).1 d hm
    have hk : key a = key b := le_antisymm (hle h h') (hle h' h)
    have hf : ∀ k, (a :: out).filter (key · = k) = (b :: out').filter (key · = k) := fun k =>
      (h.stable k).trans (h'.stable k).symm
    have hab : a = b := by
      have := hf (key a)
      rw [List.filter_cons_of_pos (by simp), List.filter_cons_of_pos (by simp [hk])] at this
      exact (List.cons.inj this).1
    subst hab
    have ht : StablySorted key out out' := by
      refine ⟨(List.pairwise_cons.mp h.sorted).2, fun k => ?_⟩
      have := hf k
      by_cases hka : key a = k
      · rw [List.filter_cons_of_pos (by simpa using hka), List.filter_cons_of_pos (by simpa using hka)] at this
        exact (List.cons.inj this).2
      · rwa [List.filter_cons_of_neg (by simpa using hka), List.filter_cons_of_neg (by simpa using hka)] at this
    have he : out = out' := ht.unique ⟨(List.pairwise_cons.mp h'.sorted).2, fun _ => rfl⟩
    rw [he]

theorem perm_of_filter_key : ∀ {out l : List α}, (∀ k, out.filter (key · = k) = l.filter (key · = k)) → out.Perm l
  | [], l, h => by
    have : l = [] := List.eq_nil_iff_forall_not_mem.mpr fun b hb => by
      have := congrArg (b ∈ ·) (h (key b))
      simp [hb] at this
    rw [this]
  | a :: out, l, h => by
    have ha := h (key a)
    rw [List.filter_cons_of_pos (by simp)] at ha
    obtain ⟨l₁, l₂, rfl, hl₁, -, hl₂⟩ := List.filter_eq_cons_iff.mp ha.symm
    refine (List.Perm.cons a (perm_of_filter_key fun k => ?_)).trans List.perm_middle.symm
    by_cases hk : key a = k
    · subst hk
      rw [← hl₂, List.filter_append, List.filter_eq_nil_iff.mpr hl₁, List.nil_append]
    · have := h k
      rwa [List.filter_cons_of_neg (by simpa using hk), List.filter_append,
        List.filter_cons_of_neg (by simpa using hk), ← List.filter_append] at this

theorem StablySorted.perm (h : StablySorted key out l) : out.Perm l := perm_of_filter_key h.stable

theorem stablySorted_mergeSort (l : List α) : StablySorted key (l.mergeSort fun a b => key a ≤ key b) l := by
  have htrans : ∀ a b c : α, decide (key a ≤ key b) = true → decide (key b ≤ key c) = true →
      decide (key a ≤ key c) = true := by
    intro a b c hab hbc
    rw [decide_eq_true_eq] at *
    exact hab.trans hbc
  have htotal : ∀ a b : α, (decide (key a ≤ key b) || decide (key b ≤ key a)) = true := by
    intro a b
    simpa using le_total (key a) (key b)
  refine ⟨(List.pairwise_mergeSort htrans htotal l).imp of_decide_eq_true, fun k => ?_⟩
  have hs : (l.filter (key · = k)).Pairwise fun a b => decide (key a ≤ key b) = true := by
    refine List.pairwise_iff_forall_sublist.mpr fun {a b} hab => ?_
    have ha := List.mem_filter.mp (hab.subset (by simp : a ∈ [a, b]))
    have hb := List.mem_filter.mp (hab.subset (by simp : b ∈ [a, b]))
    simp only [decide_eq_true_eq] at ha hb ⊢
    exact (ha.2.trans hb.2.symm).le
  have hsub := (List.sublist_mergeSort htrans htotal hs List.filter_sublist).filter fun a => decide (key a = k)
  rw [List.filter_filter] at hsub
  simp only [Bool.and_self] at hsub
  exact (hsub.eq_of_length ((List.mergeSort_perm l _).filter _).length_eq.symm).symm

theorem mem_insertBehind {b : α} : ∀ {l : List α}, b ∈ insertBehind key a l ↔ b = a ∨ b ∈ l
  | [] => by simp [insertBehind]
  | c :: l => by
    rw [insertBehind]
    split
    · exact List.mem_cons
    · rw [List.mem_cons, mem_insertBehind, List.mem_cons]; tauto

theorem length_insertBehind : ∀ l : List α, (insertBehind key a l).length = l.length + 1
  | [] => rfl
  | b :: l => by
    rw [insertBehind]
    split
    · rfl
    · rw [List.length_cons, length_insertBehind l, List.length_cons]

theorem insertBehind_sorted : ∀ {l : List α}, l.Pairwise (fun a b => key a ≤ key b) →
    (insertBehind key a l).Pairwise fun a b => key a ≤ key b
  | [], _ => List.pairwise_singleton _ _
  | b :: l, h => by
    obtain ⟨hb, hl⟩ := List.pairwise_cons.mp h
    rw [insertBehind]
    split
    · rename_i hlt
      refine List.pairwise_cons.mpr ⟨fun c hc => ?_, h⟩
      rcases List.mem_cons.mp hc with rfl | hc
      · exact hlt.le
      · exact hlt.le.trans (hb c hc)
    · rename_i hlt
      refine List.pairwise_cons.mpr ⟨fun c hc => ?_, insertBehind_sorted hl⟩
      rcases mem_insertBehind.mp hc with rfl | hc
      · exact not_lt.mp hlt
      · exact hb c hc

theorem insertBehind_append : ∀ {q l : List α}, (∀ b ∈ q, key b ≤ key a) →
    insertBehind key a (q ++ l) = q ++ insertBehind key a l
  | [], _, _ => rfl
  | b :: q, l, h => by
    rw [List.cons_append, insertBehind, if_neg (not_lt.mpr (h b List.mem_cons_self)),
      insertBehind_append fun c hc => h c (List.mem_cons_of_mem _ hc), List.cons_append]

theorem insertBehind_of_lt : ∀ {l : List α}, (∀ b ∈ l, key a < key b) → insertBehind key a l = a :: l
  | [], _ => rfl
  | b :: _, h => by rw [insertBehind, if_pos (h b List.mem_cons_self)]

theorem filter_insertBehind (k : κ) : ∀ {l : List α}, l.Pairwise (fun a b => key a ≤ key b) →
    (insertBehind key a l).filter (key · = k) = (l ++ [a]).filter (key · = k)
  | [], _ => rfl
  | b :: l, h => by
    obtain ⟨hb, hl⟩ := List.pairwise_cons.mp h
    rw [insertBehind]
    split
    · rename_i hlt
      by_cases hk : key a = k
      · have hnil : (b :: l).filter (key · = k) = [] := List.filter_eq_nil_iff.mpr fun c hc => by
          rw [decide_eq_true_eq, ← hk]
          rcases List.mem_cons.mp hc with rfl | hc
          · exact hlt.ne'
          · exact (hlt.trans_le (hb c hc)).ne'
        rw [List.filter_append, List.filter_cons_of_pos (by simpa using hk), hnil]
        simp [hk]
      · rw [List.filter_append, List.filter_cons_of_neg (by simpa using hk)]
        simp [hk]
    · by_cases hk : key b = k
      · rw [List.filter_cons_of_pos (by simpa using hk), filter_insertBehind k hl, List.cons_append,
          List.filter_cons_of_pos (by simpa using hk)]
      · rw [List.filter_cons_of_neg (by simpa using hk), filter_insertBehind k hl, List.cons_append,
          List.filter_cons_of_neg (by simpa using hk)]

theorem lt_of_mem_dropWhile {k : κ} {b : α} : ∀ {l : List α}, l.Pairwise (fun a b => key a ≤ key b) →
    b ∈ l.dropWhile (key · ≤ k) → k < key b
  | [], _, hb => absurd hb List.not_mem_nil
  | a :: l, h, hb => by
    obtain ⟨ha, hl⟩ := List.pairwise_cons.mp h
    by_cases hk : key a ≤ k
    · rw [List.dropWhile_cons_of_pos (by simpa using hk)] at hb
      exact lt_of_mem_dropWhile hl hb
    · rw [List.dropWhile_cons_of_neg (by simpa using hk)] at hb
      rcases List.mem_cons.mp hb with rfl | hb
      · exact not_le.mp hk
      · exact (not_le.mp hk).trans_le (ha b hb)

/-- An item that is not before any that left earlier keeps the sort when it is put behind its equals. -/
theorem StablySorted.arrive {gone : List α} (h : StablySorted key (gone ++ out) l) (hg : ∀ b ∈ gone, key b ≤ key a) :
    StablySorted key (gone ++ insertBehind key a out) (l ++ [a]) := by
  rw [← insertBehind_append hg]
  refine ⟨insertBehind_sorted h.sorted, fun k => ?_⟩
  rw [filter_insertBehind k h.sorted, List.filter_append, h.stable, ← List.filter_append]

theorem StablySorted.leave [DecidableEq α] (h : StablySorted key (a :: out) l) :
    oldest key l = some a ∧ StablySorted key out (l.erase a) := by
  have ha := h.stable (key a)
  rw [List.filter_cons_of_pos (by simp)] at ha
  obtain ⟨l₁, l₂, rfl, hl₁, -, hl₂⟩ := List.filter_eq_cons_iff.mp ha.symm
  have hne : ∀ b ∈ l₁, key b ≠ key a := fun b hb => by simpa using hl₁ b hb
  have hmin : ∀ b ∈ l₁ ++ a :: l₂, key a ≤ key b := by
    intro b hb
    rcases List.mem_cons.mp ((h.mem_iff b).mpr hb) with rfl | hb
    · exact le_refl _
    · exact (List.pairwise_cons.mp h.sorted).1 b hb
  constructor
  · have hall : ((l₁ ++ a :: l₂).all fun b => decide (key a ≤ key b)) = true :=
      List.all_eq_true.mpr fun b hb => decide_eq_true (hmin b hb)
    refine List.find?_eq_some_iff_append.mpr ⟨hall, l₁, l₂, rfl, fun b hb => ?_⟩
    have hlt : key a < key b := lt_of_le_of_ne (hmin b (List.mem_append_left _ hb)) (hne b hb).symm
    simp only [Bool.not_eq_true', List.all_eq_false, decide_eq_true_eq]
    exact ⟨a, by simp, not_le.mpr hlt⟩
  · have hmem : a ∉ l₁ := fun hm => hne a hm rfl
    rw [List.erase_append_right _ hmem, List.erase_cons_head]
    refine ⟨(List.pairwise_cons.mp h.sorted).2, fun k => ?_⟩
    by_cases hk : key a = k
    · subst hk
      rw [← hl₂, List.filter_append, List.filter_eq_nil_iff.mpr hl₁, List.nil_append]
    · have := h.stable k
      rwa [List.filter_cons_of_neg (by simpa using hk), List.filter_append,
        List.filter_cons_of_neg (by simpa using hk), ← List.filter_append] at this

end

/-! ## Queues -/

section
variable {κ α : Type*} [LinearOrder κ]

def items (m : OrdMap κ (List α)) : List α := m.entries.flatMap (·.2)

/-- No queue is empty and each holds items of its key. -/
def Keyed (key : α → κ) (m : OrdMap κ (List α)) : Prop := ∀ e ∈ m.entries, e.2 ≠ [] ∧ ∀ a ∈ e.2, key a = e.1

variable {key : α → κ} {m : OrdMap κ (List α)}

theorem keyed_empty : Keyed key (OrdMap.empty : OrdMap κ (List α)) := fun _ h => absurd h List.not_mem_nil

theorem flatMap_upsert (a : α) : ∀ {l : List (κ × List α)}, l.Pairwise (fun a b => a.1 < b.1) →
    (∀ e ∈ l, e.2 ≠ [] ∧ ∀ a ∈ e.2, key a = e.1) →
    (upsert (key a) [] (· ++ [a]) l).flatMap (·.2) = insertBehind key a (l.flatMap (·.2))
  | [], _, _ => rfl
  | (k, q) :: rest, hs, hk => by
    obtain ⟨hlt, hs'⟩ := List.pairwise_cons.mp hs
    obtain ⟨hq, hkq⟩ := hk (k, q) List.mem_cons_self
    have hk' : ∀ e ∈ rest, e.2 ≠ [] ∧ ∀ a ∈ e.2, key a = e.1 := fun e he => hk e (List.mem_cons_of_mem _ he)
    have hrest : ∀ b ∈ rest.flatMap (·.2), k < key b := by
      intro b hb
      obtain ⟨e, he, hbe⟩ := List.mem_flatMap.mp hb
      rw [(hk' e he).2 b hbe]
      exact hlt e he
    rw [upsert]
    split
    -- A new queue before all others: `a` is below every element.
    · rename_i h
      have hall : ∀ b ∈ ((k, q) :: rest).flatMap (·.2), key a < key b := by
        intro b hb
        rw [List.flatMap_cons, List.mem_append] at hb
        rcases hb with hb | hb
        · rw [hkq b hb]; exact h
        · exact h.trans (hrest b hb)
      rw [insertBehind_of_lt hall]; rfl
    · rename_i h
      have hqa : ∀ b ∈ q, key b ≤ key a := fun b hb => (hkq b hb).le.trans (not_lt.mp h)
      split
      · rename_i he
        rw [List.flatMap_cons, List.flatMap_cons, insertBehind_append hqa,
          insertBehind_of_lt fun b hb => he ▸ hrest b hb, List.append_assoc]
        rfl
      · rw [List.flatMap_cons, List.flatMap_cons, flatMap_upsert a hs' hk', insertBehind_append hqa]

theorem keyed_upsert (a : α) : ∀ {l : List (κ × List α)}, (∀ e ∈ l, e.2 ≠ [] ∧ ∀ a ∈ e.2, key a = e.1) →
    ∀ e ∈ upsert (key a) [] (· ++ [a]) l, e.2 ≠ [] ∧ ∀ a ∈ e.2, key a = e.1
  | [], _, e, he => by
    rw [upsert, List.mem_singleton] at he
    subst he
    simp
  | (k, q) :: rest, hk, e, he => by
    rw [upsert] at he
    split at he
    · rcases List.mem_cons.mp he with rfl | he
      · simp
      · exact hk e he
    · split at he
      · rename_i h
        rcases List.mem_cons.mp he with rfl | he
        · refine ⟨by simp, fun b hb => ?_⟩
          rcases List.mem_append.mp hb with hb | hb
          · exact (hk (k, q) List.mem_cons_self).2 b hb
          · rw [List.mem_singleton.mp hb]; exact h
        · exact hk e (List.mem_cons_of_mem _ he)
      · rcases List.mem_cons.mp he with rfl | he
        · exact hk _ List.mem_cons_self
        · exact keyed_upsert a (fun e he => hk e (List.mem_cons_of_mem _ he)) e he

/-- An item joins its queue behind every item of its key or a smaller one. -/
theorem items_enqueue (h : Keyed key m) (a : α) :
    items (m.update (key a) [] (· ++ [a])) = insertBehind key a (items m) := flatMap_upsert a m.sorted h

theorem Keyed.enqueue (h : Keyed key m) (a : α) : Keyed key (m.update (key a) [] (· ++ [a])) := keyed_upsert a h

theorem Keyed.entries_of_items_nil (h : Keyed key m) (hi : items m = []) : m.entries = [] := by
  cases he : m.entries with
  | nil => rfl
  | cons e rest =>
    have hne := (h e (he ▸ List.mem_cons_self)).1
    rw [items, he, List.flatMap_cons, List.append_eq_nil_iff] at hi
    exact absurd hi.1 hne

end

end Queues
