import RustProfile.Lib.Table

/-!
# Capped aggregation

Items are aggregated by key into a table that takes new keys only below a cap;
an item whose key finds no room is dropped. `feed_spec` says which: the table
keeps its old keys and the first new ones up to the cap, an item is dropped
exactly when its key is not in the final table, and a kept key has aggregated
all of its items, before and after the cap was reached.
-/

namespace Capped

section
variable {K : Type*} [DecidableEq K]

def firsts (l : List K) : List K := l.foldl (fun acc k => if k ∈ acc then acc else acc ++ [k]) []

theorem firsts_snoc (l : List K) (k : K) :
    firsts (l ++ [k]) = if k ∈ firsts l then firsts l else firsts l ++ [k] := by
  rw [firsts, List.foldl_append]; rfl

theorem mem_firsts {l : List K} {k : K} : k ∈ firsts l ↔ k ∈ l := by
  induction l using List.reverseRecOn with
  | nil => simp [firsts]
  | append_singleton l a ih =>
    rw [firsts_snoc]
    have hs : ∀ h : a ∈ firsts l, k ∈ firsts l ↔ k ∈ l ++ [a] := fun h => by
      rw [ih, List.mem_append, List.mem_singleton]
      exact ⟨Or.inl, fun hk => hk.elim id fun e => ih.mp (e ▸ h)⟩
    split
    · rename_i ha; exact hs ha
    · simp [ih]

theorem nodup_firsts (l : List K) : (firsts l).Nodup := by
  induction l using List.reverseRecOn with
  | nil => simp [firsts]
  | append_singleton l a ih =>
    rw [firsts_snoc]
    split
    · exact ih
    · rename_i ha
      exact List.nodup_append.mpr ⟨ih, by simp, fun x hx y hy e => by
        rw [List.mem_singleton] at hy; subst hy; subst e; exact ha hx⟩

end

section
variable {ι K V : Type*} [DecidableEq K] (cap : ℕ) (init : V)

/-- Update `k` in place, or insert it while there is room. -/
def offer (f : V → V) (m : Table K V) (k : K) : Option (Table K V) :=
  match m.lookup k with
  | some v => some (m.insert k (f v))
  | none => if m.size < cap then some (m.insert k (f init)) else none

variable (key : ι → K) (upd : ι → V → V)

/-- Offer the items in order, keeping those that were dropped. -/
def feed (m : Table K V) (items : List ι) : Table K V × List ι :=
  items.foldl (fun r i => match offer cap init (upd i) r.1 (key i) with
    | some m' => (m', r.2)
    | none => (r.1, r.2 ++ [i])) (m, [])

@[simp] theorem feed_nil (m : Table K V) : feed cap init key upd m [] = (m, []) := rfl

theorem feed_snoc (m : Table K V) (items : List ι) (i : ι) :
    feed cap init key upd m (items ++ [i]) =
      match offer cap init (upd i) (feed cap init key upd m items).1 (key i) with
      | some m' => (m', (feed cap init key upd m items).2)
      | none => ((feed cap init key upd m items).1, (feed cap init key upd m items).2 ++ [i]) := by
  simp only [feed, List.foldl_append, List.foldl_cons, List.foldl_nil]

/-- A loop that drops each refused item into an accumulator of its own is a feed. -/
theorem foldl_feed {δ : Type*} (dr : δ → ι → δ) {g : Table K V × δ → ι → Table K V × δ}
    (hg : ∀ m d i, g (m, d) i = match offer cap init (upd i) m (key i) with
      | some m' => (m', d)
      | none => (m, dr d i)) (m : Table K V) (d : δ) (items : List ι) :
    items.foldl g (m, d) = ((feed cap init key upd m items).1, (feed cap init key upd m items).2.foldl dr d) := by
  induction items using List.reverseRecOn with
  | nil => rfl
  | append_singleton items i ih =>
    rw [List.foldl_append, ih, List.foldl_cons, List.foldl_nil, hg, feed_snoc]
    split
    · rfl
    · rw [List.foldl_append]; rfl

def news (m : Table K V) (items : List ι) : List K := firsts ((items.map key).filter (· ∉ m))

theorem news_snoc (m : Table K V) (items : List ι) (i : ι) :
    news key m (items ++ [i]) =
      if key i ∈ m ∨ key i ∈ news key m items then news key m items else news key m items ++ [key i] := by
  unfold news
  rw [List.map_append, List.map_singleton, List.filter_append]
  by_cases hm : key i ∈ m
  · simp [hm]
  · simp only [hm, not_false_eq_true, decide_true, List.filter_cons_of_pos, List.filter_nil, false_or]
    exact firsts_snoc _ _

theorem mem_news {m : Table K V} {items : List ι} {k : K} :
    k ∈ news key m items ↔ (∃ i ∈ items, key i = k) ∧ k ∉ m := by
  simp [news, mem_firsts]

/-- What feeding `items` to `m` leaves: the final table and the dropped items. -/
structure Fed (m : Table K V) (items : List ι) (r : Table K V × List ι) : Prop where
  mem : ∀ k, k ∈ r.1 ↔ k ∈ m ∨ k ∈ (news key m items).take (cap - m.size)
  size : r.1.size = m.size + min (cap - m.size) (news key m items).length
  dropped : r.2 = items.filter (key · ∉ r.1)
  value : ∀ k v, r.1.lookup k = some v →
    v = (items.filter (key · = k)).foldl (fun v i => upd i v) ((m.lookup k).getD init)

variable {cap init key upd} {m : Table K V} {items : List ι} {r : Table K V × List ι} {i : ι}

theorem Fed.nil : Fed cap init key upd m [] (m, []) :=
  ⟨fun k => by simp [news, firsts], by simp [news, firsts], rfl, fun k v h => by simp [h]⟩

theorem Fed.update (h : Fed cap init key upd m items r) {v : V} (hv : r.1.lookup (key i) = some v) :
    Fed cap init key upd m (items ++ [i]) (r.1.insert (key i) (upd i v), r.2) := by
  have hi : key i ∈ r.1 := Table.mem_of_lookup hv
  have hn : news key m (items ++ [i]) = news key m items := by
    rw [news_snoc, if_pos]
    exact ((h.mem _).mp hi).imp id List.mem_of_mem_take
  have hmem : ∀ k, k ∈ r.1.insert (key i) (upd i v) ↔ k ∈ r.1 := fun k => by
    rw [AList.mem_insert]
    exact ⟨fun hk => hk.elim (fun e => e ▸ hi) id, Or.inr⟩
  refine ⟨fun k => ?_, ?_, ?_, fun k w hw => ?_⟩
  · rw [hmem, h.mem, hn]
  · rw [Table.size_insert_of_mem hi, h.size, hn]
  · simp only [hmem, List.filter_append]
    rw [← h.dropped]
    simp [hi]
  · rw [Table.lookup_insert] at hw
    rw [List.filter_append, List.foldl_append]
    by_cases hk : k = key i
    · subst hk
      simp only [ite_true, Option.some.injEq] at hw
      simp [← hw, ← h.value _ _ hv]
    · rw [if_neg hk] at hw
      simp [Ne.symm hk, ← h.value _ _ hw]

/-- A key that the table lacks has had no item while there was room. -/
theorem Fed.fresh (h : Fed cap init key upd m items r) {k : K} (hi : k ∉ r.1) (hs : r.1.size < cap) :
    (news key m items).length < cap - m.size ∧ k ∉ m ∧ k ∉ news key m items ∧ ∀ j ∈ items, key j ≠ k := by
  have hl : (news key m items).length < cap - m.size := by
    have := h.size
    omega
  rw [h.mem, List.take_of_length_le (Nat.le_of_lt hl), not_or] at hi
  refine ⟨hl, hi.1, hi.2, fun j hj e => hi.2 ?_⟩
  exact mem_news key |>.mpr ⟨⟨j, hj, e⟩, hi.1⟩

theorem Fed.insert (h : Fed cap init key upd m items r) (hi : key i ∉ r.1) (hs : r.1.size < cap) :
    Fed cap init key upd m (items ++ [i]) (r.1.insert (key i) (upd i init), r.2) := by
  obtain ⟨hl, hm, hnew, hfresh⟩ := h.fresh hi hs
  have hn : news key m (items ++ [i]) = news key m items ++ [key i] := by
    rw [news_snoc, if_neg (not_or.mpr ⟨hm, hnew⟩)]
  refine ⟨fun k => ?_, ?_, ?_, fun k w hw => ?_⟩
  · rw [AList.mem_insert, h.mem, hn, List.take_of_length_le (Nat.le_of_lt hl),
      List.take_of_length_le (by simp; omega), List.mem_append, List.mem_singleton]
    tauto
  · rw [Table.size_insert_of_notMem hi, h.size, hn, List.length_append, List.length_singleton]
    omega
  · have hf : ∀ j ∈ items, (decide (key j ∉ r.1.insert (key i) (upd i init))) = decide (key j ∉ r.1) :=
      fun j hj => by simp [AList.mem_insert, hfresh j hj]
    rw [List.filter_append, List.filter_congr hf, ← h.dropped]
    simp [AList.mem_insert]
  · rw [Table.lookup_insert] at hw
    rw [List.filter_append, List.foldl_append]
    by_cases hk : k = key i
    · subst hk
      simp only [ite_true, Option.some.injEq] at hw
      have he : items.filter (key · = key i) = [] := List.filter_eq_nil_iff.mpr fun j hj => by simp [hfresh j hj]
      simp [he, ← hw, Table.notMem_iff.mp hm]
    · rw [if_neg hk] at hw
      simp [Ne.symm hk, ← h.value _ _ hw]

theorem Fed.drop (h : Fed cap init key upd m items r) (hi : key i ∉ r.1) (hs : ¬ r.1.size < cap) :
    Fed cap init key upd m (items ++ [i]) (r.1, r.2 ++ [i]) := by
  have hl : cap - m.size ≤ (news key m items).length := by
    have := h.size
    omega
  have hn : (news key m (items ++ [i])).take (cap - m.size) = (news key m items).take (cap - m.size) := by
    rw [news_snoc]
    split
    · rfl
    · exact List.take_append_of_le_length hl
  have hlen : cap - m.size ≤ (news key m (items ++ [i])).length := by
    rw [news_snoc]
    split
    · exact hl
    · rw [List.length_append]; omega
  refine ⟨fun k => ?_, ?_, ?_, fun k w hw => ?_⟩
  · rw [h.mem, hn]
  · rw [h.size, Nat.min_eq_left hl, Nat.min_eq_left hlen]
  · rw [List.filter_append, ← h.dropped]
    simp [hi]
  · have hk : k ≠ key i := fun e => hi (e ▸ Table.mem_of_lookup hw)
    rw [List.filter_append, List.foldl_append]
    simp [Ne.symm hk, ← h.value _ _ hw]

theorem Fed.mem_of_mem (h : Fed cap init key upd m items r) {k : K} (hk : k ∈ m) : k ∈ r.1 := (h.mem k).mpr (Or.inl hk)

/-- At the cap a feed adds no key. -/
theorem Fed.mem_iff_of_full (h : Fed cap init key upd m items r) (hm : cap ≤ m.size) {k : K} : k ∈ r.1 ↔ k ∈ m := by
  rw [h.mem, Nat.sub_eq_zero_of_le hm, List.take_zero]
  simp

theorem Fed.size_le (h : Fed cap init key upd m items r) (hm : m.size ≤ cap) : r.1.size ≤ cap := by
  have := h.size
  omega

variable (cap init key upd m items)

/-- **Capped aggregation.** -/
theorem feed_spec : Fed cap init key upd m items (feed cap init key upd m items) := by
  induction items using List.reverseRecOn with
  | nil => exact Fed.nil
  | append_singleton items i ih =>
    rw [feed_snoc]
    unfold offer
    cases hl : (feed cap init key upd m items).1.lookup (key i) with
    | some v => exact ih.update hl
    | none =>
      have hi := Table.notMem_iff.mpr hl
      by_cases hs : (feed cap init key upd m items).1.size < cap
      · simp only [hs, ite_true]; exact ih.insert hi hs
      · simp only [hs, ite_false]; exact ih.drop hi hs

end

/-! ## Sums by key -/

section
variable {ι K : Type*} [DecidableEq K] (key : ι → K) (w : ι → ℕ)

theorem sum_by_key (p : K → Prop) [DecidablePred p] (items : List ι) :
    ((items.filter fun i => p (key i)).map w).sum =
      ∑ᶠ k, if p k then ((items.filter (key · = k)).map w).sum else 0 := by
  have hfin : ∀ l : List ι,
      (Function.support fun k => if p k then ((l.filter (key · = k)).map w).sum else 0).Finite := fun l => by
    refine ((l.map key).toFinset.finite_toSet).subset fun k hk => ?_
    rw [List.coe_toFinset, Set.mem_ofPred_eq, List.mem_map]
    by_contra hno
    have : l.filter (key · = k) = [] :=
      List.filter_eq_nil_iff.mpr fun j hj => by simpa using fun e => hno ⟨j, hj, e⟩
    simp [this] at hk
  induction items with
  | nil => simp
  | cons i l ih =>
    have hsplit : (fun k => if p k then (((i :: l).filter (key · = k)).map w).sum else 0) =
        fun k => (if k = key i then (if p k then w i else 0) else 0) +
          if p k then ((l.filter (key · = k)).map w).sum else 0 := by
      funext k
      by_cases hk : k = key i
      · subst hk; by_cases hp : p (key i) <;> simp [hp]
      · simp [hk, Ne.symm hk]
    have hone : ∑ᶠ k, (if k = key i then (if p k then w i else 0) else 0) = if p (key i) then w i else 0 := by
      rw [finsum_eq_single _ (key i) fun k hk => if_neg hk, if_pos rfl]
    rw [hsplit, finsum_add_distrib ((Set.finite_singleton (key i)).subset fun k hk => by
      by_contra hne
      simp [show k ≠ key i from hne] at hk) (hfin l), hone, ← ih]
    by_cases hp : p (key i) <;> simp [hp]

theorem sumOver_sum_by_key {V : Type*} (m : Table K V) (items : List ι) :
    Table.sumOver (fun k _ => ((items.filter (key · = k)).map w).sum) m =
      ((items.filter (key · ∈ m)).map w).sum := by
  rw [Table.sumOver_eq_finsum, sum_by_key key w (· ∈ m) items]
  refine finsum_congr fun k => ?_
  by_cases hk : k ∈ m
  · obtain ⟨v, hv⟩ := Table.mem_iff.mp hk
    simp [hk, hv]
  · simp [hk, Table.notMem_iff.mp hk]

end

end Capped
