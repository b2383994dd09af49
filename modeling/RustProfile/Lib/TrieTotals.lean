import RustProfile.Lib.Trie
import Mathlib.Algebra.BigOperators.Group.List.Basic
import Mathlib.Data.List.Nodup

/-!
# What the nodes of a trie collect

Whether or not a walk gets to its end, what a node has collected comes from just
the paths that begin with its own. While all walks get there, what a node keeps
of its own comes from the paths that are its own, and what the nodes of one name
have collected counts a path as often as it has the name.
-/

namespace Trie

/-! ## What nodes collect -/

section
variable {α P M : Type*} [DecidableEq α] [AddCommMonoid M]

/-- A visit adds the weight to the total. -/
structure Additive (walk : Walk α P M) (total : P → M) : Prop where
  visit : ∀ w p, total (walk.visit w p) = total p + w
  stop : ∀ w p, total (walk.stop w p) = total p
  fresh : total walk.fresh = 0

def weightBelow (inserted : List (List α × M)) (q : List α) : M :=
  ((inserted.filter fun s => q <+: s.1).map Prod.snd).sum

theorem weightBelow_append (inserted : List (List α × M)) (path q : List α) (w : M) :
    weightBelow (inserted ++ [(path, w)]) q = weightBelow inserted q + if q <+: path then w else 0 := by
  unfold weightBelow
  rw [List.filter_append, List.map_append, List.sum_append]
  by_cases hq : q <+: path
  · simp [hq]
  · simp [hq]

/-- A tree, with its budget, that has collected the weights of the paths inserted; `start` was counted at first. -/
structure Collects (walk : Walk α P M) (total : P → M) (start : ℕ) (inserted : List (List α × M))
    (tree : (P × Trie α P) × Budget) : Prop where
  size : tree.2.count = start + tree.1.2.size
  bound : tree.2.count ≤ walk.maxNodes
  sum : ∀ q p, find tree.1 q = some p → total p = weightBelow inserted q
  room : tree.2.count < walk.maxNodes → ∀ s ∈ inserted, ∀ q, q <+: s.1 → (find tree.1 q).isSome
  truncated : tree.2.truncated = true ↔ ∃ s ∈ inserted, ∃ q, q <+: s.1 ∧ find tree.1 q = none
  distinct : tree.1.2.Distinct

variable {walk : Walk α P M} {total : P → M} {start : ℕ} {inserted : List (List α × M)} {tree : (P × Trie α P) × Budget}

theorem arrive_total (hadd : Additive walk total) (w : M) (reached path : List α) (p : P) :
    total (arrive walk w reached path p) = total p + w := by
  unfold arrive
  split
  · rw [hadd.stop, hadd.visit]
  · exact hadd.visit w p

theorem collects_start {p : P} (hp : total p = 0) (hstart : start ≤ walk.maxNodes) :
    Collects walk total start [] ((p, nil), { count := start }) := by
  refine ⟨rfl, hstart, fun q p' hfind => ?_, fun _ s hs => absurd hs List.not_mem_nil, by simp, trivial⟩
  rw [find_fresh] at hfind
  split at hfind
  · cases hfind
    exact hp
  · cases hfind

/-- **An insertion collects its weight**, whether or not it is truncated. -/
theorem Collects.insert (hadd : Additive walk total) (h : Collects walk total start inserted tree) (path : List α)
    (w : M) : Collects walk total start (inserted ++ [(path, w)]) (Trie.insert walk w path tree.1 tree.2) := by
  obtain ⟨hsize, hcount, hbound, hend, hshort⟩ := budget_insert walk w path tree.1 tree.2
  have hfind := find_insert walk w path tree.1 tree.2
  have hinside := reached_prefix walk path tree.1 tree.2.count
  -- no node is lost
  have hkept : ∀ q, (find tree.1 q).isSome → (find (Trie.insert walk w path tree.1 tree.2).1 q).isSome := by
    intro q hq
    rw [hfind]
    split
    · rfl
    · exact hq
  refine ⟨?_, hbound h.bound, fun q p hq => ?_, fun hroom s hs q hq => ?_, ?_, h.distinct.insert walk w path tree.2⟩
  · have := h.size
    omega
  · rw [weightBelow_append]
    rw [hfind] at hq
    split at hq
    · rename_i hreached
      cases hq
      rw [arrive_total hadd, if_pos (hreached.trans hinside)]
      congr 1
      cases hold : find tree.1 q with
      | some old => exact h.sum q old hold
      | none =>
        -- the node is new, so the budget was not used up and no earlier path goes here
        have hroom := room_of_created walk hreached hold
        have hnone : inserted.filter (fun s => q <+: s.1) = [] := List.filter_eq_nil_iff.mpr fun s hs hq => by
          have hsome := h.room hroom s hs q (by simpa using hq)
          rw [hold] at hsome
          cases hsome
        rw [weightBelow, hnone]
        exact hadd.fresh
    · rename_i hreached
      have hnot : ¬ q <+: path := fun hpath => hreached (prefix_reached walk _ hpath (by rw [hq]; rfl))
      rw [if_neg hnot, add_zero]
      exact h.sum q p hq
  · rcases List.mem_append.mp hs with hs | hs
    · exact hkept q (h.room (hcount.trans_lt hroom) s hs q hq)
    · rw [List.mem_singleton.mp hs] at hq
      have hreached : reached walk path tree.1 tree.2.count = path := by
        by_contra hne
        exact absurd hroom (not_lt.mpr (hshort hne).2)
      rw [hfind, hreached, if_pos hq]
      rfl
  · by_cases hreached : reached walk path tree.1 tree.2.count = path
    · rw [hend hreached, h.truncated]
      constructor
      · rintro ⟨s, hs, q, hq, hnone⟩
        refine ⟨s, List.mem_append_left _ hs, q, hq, ?_⟩
        have hnew : ¬ q <+: reached walk path tree.1 tree.2.count := fun hnew => by
          have hsome := h.room (room_of_created walk hnew hnone) s hs q hq
          rw [hnone] at hsome
          cases hsome
        rw [hfind, if_neg hnew]
        exact hnone
      · rintro ⟨s, hs, q, hq, hnone⟩
        rcases List.mem_append.mp hs with hs | hs
        · refine ⟨s, hs, q, hq, ?_⟩
          by_contra hsome
          have := hkept q (Option.isSome_iff_ne_none.mpr hsome)
          rw [hnone] at this
          cases this
        · rw [List.mem_singleton.mp hs] at hq
          rw [hfind, hreached, if_pos hq] at hnone
          cases hnone
    · refine iff_of_true (hshort hreached).1 ⟨(path, w), List.mem_append_right _ (List.mem_singleton_self _), path,
        List.prefix_rfl, ?_⟩
      have hnot : ¬ path <+: reached walk path tree.1 tree.2.count := fun hpath =>
        hreached (hinside.eq_of_length (le_antisymm hinside.length_le hpath.length_le))
      rw [hfind, if_neg hnot]
      by_contra hsome
      exact hnot (prefix_reached walk _ List.prefix_rfl (Option.isSome_iff_ne_none.mpr hsome))

def insertAll (walk : Walk α P M) (paths : List (List α × M)) (tree : (P × Trie α P) × Budget) :
    (P × Trie α P) × Budget :=
  paths.foldl (fun tree s => Trie.insert walk s.2 s.1 tree.1 tree.2) tree

theorem Collects.insertAll (hadd : Additive walk total) : ∀ (paths : List (List α × M)) {inserted : List (List α × M)}
    {tree : (P × Trie α P) × Budget}, Collects walk total start inserted tree →
      Collects walk total start (inserted ++ paths) (Trie.insertAll walk paths tree)
  | [], _, _, h => by rwa [List.append_nil]
  | (path, w) :: paths, inserted, tree, h => by
    have hrest := Collects.insertAll hadd paths (h.insert hadd path w)
    rwa [List.append_assoc, List.singleton_append] at hrest

end

/-! ## What nodes keep of their own -/

section
variable {α P M : Type*} [DecidableEq α] [AddCommMonoid M]

/-- Only a stop adds the weight to what a node keeps of its own. -/
structure Keeps (walk : Walk α P M) (own : P → M) : Prop where
  visit : ∀ w p, own (walk.visit w p) = own p
  stop : ∀ w p, own (walk.stop w p) = own p + w
  fresh : own walk.fresh = 0

def weightAt (inserted : List (List α × M)) (q : List α) : M :=
  ((inserted.filter fun s => q = s.1).map Prod.snd).sum

theorem weightAt_append (inserted : List (List α × M)) (path q : List α) (w : M) :
    weightAt (inserted ++ [(path, w)]) q = weightAt inserted q + if q = path then w else 0 := by
  unfold weightAt
  rw [List.filter_append, List.map_append, List.sum_append]
  by_cases hq : q = path
  · simp [hq]
  · simp [hq]

/-- A tree where each path was walked to its end. -/
def Ends (own : P → M) (inserted : List (List α × M)) (tree : (P × Trie α P) × Budget) : Prop :=
  tree.2.truncated = false → ∀ q p, find tree.1 q = some p → own p = weightAt inserted q

variable {walk : Walk α P M} {total own : P → M} {start : ℕ} {inserted : List (List α × M)}
  {tree : (P × Trie α P) × Budget}

theorem ends_start {p : P} (hp : own p = 0) : Ends own ([] : List (List α × M)) ((p, nil), { count := start }) := by
  intro _ q p' hfind
  rw [find_fresh] at hfind
  split at hfind
  · cases hfind
    exact hp
  · cases hfind

theorem Ends.insert (hkeeps : Keeps walk own) (h : Collects walk total start inserted tree)
    (hends : Ends own inserted tree)
    (path : List α) (w : M) : Ends own (inserted ++ [(path, w)]) (Trie.insert walk w path tree.1 tree.2) := by
  intro htruncated q p hfind
  obtain ⟨-, -, -, hend, hshort⟩ := budget_insert walk w path tree.1 tree.2
  have hreached : reached walk path tree.1 tree.2.count = path := by
    by_contra hne
    rw [(hshort hne).1] at htruncated
    cases htruncated
  rw [hend hreached] at htruncated
  rw [find_insert, hreached] at hfind
  rw [weightAt_append]
  have hold : own ((find tree.1 q).getD walk.fresh) = weightAt inserted q := by
    cases hq : find tree.1 q with
    | some old => exact hends htruncated q old hq
    | none =>
      -- a path that ends here would have made the node
      have hnone : inserted.filter (fun s => q = s.1) = [] := List.filter_eq_nil_iff.mpr fun s hs heq => by
        have hinside : q <+: s.1 := of_decide_eq_true heq ▸ List.prefix_rfl
        rw [h.truncated.mpr ⟨s, hs, q, hinside, hq⟩] at htruncated
        cases htruncated
      rw [weightAt, hnone]
      exact hkeeps.fresh
  by_cases hinside : q <+: path
  · rw [if_pos hinside, Option.some.injEq] at hfind
    rw [← hfind, ← hold]
    unfold arrive
    by_cases hq : q = path
    · rw [if_pos hq, if_pos hq, hkeeps.stop, hkeeps.visit]
    · rw [if_neg hq, if_neg hq, hkeeps.visit, add_zero]
  · have hq : q ≠ path := fun hq => hinside (hq ▸ List.prefix_rfl)
    rw [if_neg hinside] at hfind
    rw [hfind] at hold
    rw [if_neg hq, add_zero]
    exact hold

theorem Ends.insertAll (hadd : Additive walk total) (hkeeps : Keeps walk own) : ∀ (paths : List (List α × M))
    {inserted : List (List α × M)} {tree : (P × Trie α P) × Budget}, Collects walk total start inserted tree →
      Ends own inserted tree → Ends own (inserted ++ paths) (Trie.insertAll walk paths tree)
  | [], _, _, _, hends => by rwa [List.append_nil]
  | (path, w) :: paths, inserted, tree, h, hends => by
    have hrest := Ends.insertAll hadd hkeeps paths (h.insert hadd path w) (hends.insert hkeeps h path w)
    rwa [List.append_assoc, List.singleton_append] at hrest

end

/-! ## Walks that do not always add -/

section
variable {α P M : Type*} [DecidableEq α] [AddCommMonoid M]

/-- All weights and all sums that the nodes collect on the way are good. -/
structure GoodSums (good : M → Prop) (inserted : List (List α × M)) : Prop where
  weight : ∀ s ∈ inserted, good s.2
  below : ∀ first, first <+: inserted → ∀ q, good (weightBelow first q)
  own : ∀ first, first <+: inserted → ∀ q, good (weightAt first q)

variable {walk : Walk α P M} {total own : P → M} {start : ℕ} {inserted : List (List α × M)}
  {tree : (P × Trie α P) × Budget}

omit [AddCommMonoid M] in
theorem truncated_insertAll (walk : Walk α P M) : ∀ (paths : List (List α × M)) (tree : (P × Trie α P) × Budget),
    tree.2.truncated = true → (insertAll walk paths tree).2.truncated = true
  | [], _, h => h
  | (path, w) :: paths, tree, h => by
    obtain ⟨-, -, -, hend, hshort⟩ := budget_insert walk w path tree.1 tree.2
    refine truncated_insertAll walk paths _ ?_
    by_cases hreached : reached walk path tree.1 tree.2.count = path
    · rw [hend hreached, h]
    · exact (hshort hreached).1

/-- **A walk that adds where the sums are good** does the same as one that always adds, if it gets to the end of all
paths and all sums are good. -/
theorem insertAll_of_good {good : M → Prop} {visit' stop' : M → P → P} (hadd : Additive walk total)
    (hkeeps : Keeps walk own) (hvisit : ∀ w p, good (total p + w) → visit' w p = walk.visit w p)
    (hstop : ∀ w p, good (own p + w) → stop' w p = walk.stop w p) :
    ∀ (paths : List (List α × M)) {inserted : List (List α × M)} {tree : (P × Trie α P) × Budget},
      Collects walk total start inserted tree → Ends own inserted tree → GoodSums good (inserted ++ paths) →
      (insertAll { walk with visit := visit', stop := stop' } paths tree).2.truncated = false →
        insertAll { walk with visit := visit', stop := stop' } paths tree = insertAll walk paths tree
  | [], _, _, _, _, _, _ => rfl
  | (path, w) :: paths, inserted, tree, h, hends, hgood, hwhole => by
    have hsplit : inserted ++ (path, w) :: paths = inserted ++ [(path, w)] ++ paths := by
      rw [List.append_assoc, List.singleton_append]
    have hfirst : inserted ++ [(path, w)] <+: inserted ++ (path, w) :: paths := hsplit ▸ List.prefix_append _ _
    have hweight : good w := hgood.weight (path, w) (List.mem_append_right _ List.mem_cons_self)
    obtain ⟨-, -, -, hend, hshort⟩ := budget_insert { walk with visit := visit', stop := stop' } w path tree.1 tree.2
    rw [reached_congr] at hend hshort
    have hstep : (Trie.insert { walk with visit := visit', stop := stop' } w path tree.1 tree.2).2.truncated =
        false := by
      by_contra htruncated
      have hlater := truncated_insertAll { walk with visit := visit', stop := stop' } paths _
        ((Bool.not_eq_false _).mp htruncated)
      exact absurd (hlater.symm.trans hwhole) (by decide)
    have hreached : reached walk path tree.1 tree.2.count = path := by
      by_contra hne
      rw [(hshort hne).1] at hstep
      cases hstep
    have hnow : tree.2.truncated = false := (hend hreached).symm.trans hstep
    have heq : Trie.insert { walk with visit := visit', stop := stop' } w path tree.1 tree.2 =
        Trie.insert walk w path tree.1 tree.2 := by
      refine insert_congr walk w visit' stop' ?_ ?_ path tree.2 (fun q p hq hp => ?_) fun p hp => ?_
      · exact hvisit w _ (by rwa [hadd.fresh, zero_add])
      · exact hstop w _ (by rwa [hkeeps.visit, hkeeps.fresh, zero_add])
      · have hsum := hgood.below _ hfirst q
        rw [weightBelow_append, if_pos hq] at hsum
        exact hvisit w p (h.sum q p hp ▸ hsum)
      · have hsum := hgood.own _ hfirst path
        rw [weightAt_append, if_pos rfl] at hsum
        rw [hreached] at hp
        exact hstop w _ (by rwa [hkeeps.visit, hends hnow path p hp])
    change insertAll _ paths (Trie.insert { walk with visit := visit', stop := stop' } w path tree.1 tree.2) =
      insertAll walk paths (Trie.insert walk w path tree.1 tree.2)
    change (insertAll _ paths (Trie.insert _ w path tree.1 tree.2)).2.truncated = false at hwhole
    rw [heq] at hwhole ⊢
    exact insertAll_of_good hadd hkeeps hvisit hstop paths (h.insert hadd path w) (hends.insert hkeeps h path w)
      (hsplit ▸ hgood) hwhole

end

/-! ## Nodes with a name -/

section
variable {α P : Type*} [DecidableEq α]

theorem nodup_paths : ∀ {t : Trie α P} (path : List α), t.Distinct → ((t.nodes path).map Prod.fst).Nodup
  | nil, _, _ => List.nodup_nil
  | cons a p children rest, path, h => by
    have hchildren : ∀ q ∈ (children.nodes (path ++ [a])).map Prod.fst, ∃ b suffix, q = path ++ a :: b :: suffix := by
      intro q hq
      obtain ⟨node, hnode, rfl⟩ := List.mem_map.mp hq
      obtain ⟨b, suffix, hpath⟩ := path_of_mem_nodes hnode
      exact ⟨b, suffix, by rw [hpath, List.append_assoc]; rfl⟩
    have hrest : ∀ q ∈ (rest.nodes path).map Prod.fst, ∃ b suffix, b ≠ a ∧ q = path ++ b :: suffix := by
      intro q hq
      obtain ⟨node, hnode, rfl⟩ := List.mem_map.mp hq
      obtain ⟨b, suffix, hpath, hfind⟩ := (mem_nodes path h.2.2).mp hnode
      refine ⟨b, suffix, fun hb => ?_, hpath⟩
      rw [hb, h.1] at hfind
      cases hfind
    rw [nodes, List.map_cons, List.map_append, List.nodup_cons, List.nodup_append]
    refine ⟨fun hmem => ?_, nodup_paths (path ++ [a]) h.2.1, nodup_paths path h.2.2, fun q hq q' hq' heq => ?_⟩
    · rcases List.mem_append.mp hmem with hmem | hmem
      · obtain ⟨b, suffix, heq⟩ := hchildren _ hmem
        simp at heq
      · obtain ⟨b, suffix, hb, heq⟩ := hrest _ hmem
        simp only [List.append_cancel_left_eq, List.cons.injEq] at heq
        exact hb heq.1.symm
    · obtain ⟨b, suffix, rfl⟩ := hchildren q hq
      obtain ⟨c, suffix', hc, rfl⟩ := hrest q' hq'
      simp only [List.append_cancel_left_eq, List.cons.injEq] at heq
      exact hc heq.1.symm

end

section
variable {α M : Type*} [DecidableEq α] [AddCommMonoid M]

omit [DecidableEq α] in
/-- Sums over what some paths select come from how many of the paths select each. -/
theorem sum_selected {β : Type*} (selects : β → List α → Bool) (inserted : List (List α × M)) : ∀ paths : List β,
    (paths.map fun q => ((inserted.filter fun s => selects q s.1).map Prod.snd).sum).sum =
      (inserted.map fun s => paths.countP (selects · s.1) • s.2).sum
  | [] => by simp
  | q :: paths => by
    have hfilter : ∀ l : List (List α × M), ((l.filter fun s => selects q s.1).map Prod.snd).sum =
        (l.map fun s => (if selects q s.1 then 1 else 0) • s.2).sum := by
      intro l
      induction l with
      | nil => rfl
      | cons s l ih =>
        rw [List.filter_cons]
        by_cases hs : selects q s.1 = true
        · rw [if_pos hs, List.map_cons, List.map_cons, List.sum_cons, List.sum_cons, ih, if_pos hs, one_nsmul]
        · rw [if_neg hs, ih, List.map_cons, List.sum_cons, if_neg hs, zero_nsmul, zero_add]
    rw [List.map_cons, List.sum_cons, sum_selected selects inserted paths, hfilter, ← List.sum_map_add]
    refine congrArg List.sum (List.map_congr_left fun s _ => ?_)
    rw [List.countP_cons, add_nsmul, add_comm]

omit [DecidableEq α] in
theorem nodup_inits : ∀ path : List α, path.inits.Nodup
  | [] => List.nodup_singleton []
  | a :: path => by
    rw [List.inits_cons, List.nodup_cons]
    exact ⟨by simp, (nodup_inits path).map (List.cons_injective)⟩

omit [DecidableEq α] in
theorem mem_tail_inits {path q : List α} : q ∈ path.inits.tail ↔ q ≠ [] ∧ q <+: path := by
  cases path with
  | nil => simp [List.prefix_nil]
  | cons a path =>
    rw [List.inits_cons, List.tail_cons, List.mem_map]
    constructor
    · rintro ⟨q, hq, rfl⟩
      exact ⟨List.cons_ne_nil a q, List.cons_prefix_cons.mpr ⟨rfl, (List.mem_inits _ _).mp hq⟩⟩
    · rintro ⟨hne, hq⟩
      obtain ⟨b, q, rfl⟩ := List.exists_cons_of_ne_nil hne
      obtain ⟨rfl, htail⟩ := List.cons_prefix_cons.mp hq
      exact ⟨q, (List.mem_inits _ _).mpr htail, rfl⟩

/-- The prefixes of a path that end in a name are as many as its occurrences. -/
theorem countP_prefixes (name : α) : ∀ path : List α,
    path.inits.tail.countP (fun q => q.getLast? = some name) = path.count name
  | [] => rfl
  | a :: path => by
    have ih := countP_prefixes name path
    have hinits : path.inits = [] :: path.inits.tail := by cases path <;> rfl
    rw [List.inits, List.tail_cons, List.countP_map, hinits, List.countP_cons, List.count_cons, ← ih]
    congr 1
    · refine List.countP_congr fun q hq => ?_
      have hne : q ≠ [] := (mem_tail_inits.mp hq).1
      simp [List.getLast?_cons, List.getLast?_eq_some_getLast hne]
    · simp

end

section
variable {α P M : Type*} [DecidableEq α] [AddCommMonoid M] {walk : Walk α P M} {total own : P → M} {start : ℕ}
  {inserted : List (List α × M)} {tree : (P × Trie α P) × Budget}

def named (name : α) (t : Trie α P) : List (List α × P) := (t.nodes []).filter fun node => node.1.getLast? = some name

theorem Collects.mem_paths (h : Collects walk total start inserted tree) (htruncated : tree.2.truncated = false)
    {s : List α × M} (hs : s ∈ inserted) {q : List α} (hq : q <+: s.1) (hne : q ≠ []) :
    q ∈ (tree.1.2.nodes []).map Prod.fst := by
  cases hfind : find tree.1 q with
  | none =>
    rw [h.truncated.mpr ⟨s, hs, q, hq, hfind⟩] at htruncated
    cases htruncated
  | some p => exact List.mem_map_of_mem ((mem_nodes_iff_find h.distinct tree.1.1).mpr ⟨hne, hfind⟩)

theorem nodup_named (h : tree.1.2.Distinct) (name : α) : ((named name tree.1.2).map Prod.fst).Nodup :=
  (nodup_paths [] h).sublist (List.filter_sublist.map _)

theorem mem_named {t : Trie α P} {name : α} {q : List α} :
    q ∈ (named name t).map Prod.fst ↔ q ∈ (t.nodes []).map Prod.fst ∧ q.getLast? = some name := by
  unfold named
  simp only [List.mem_map, List.mem_filter, decide_eq_true_eq]
  constructor
  · rintro ⟨node, ⟨hnode, hlast⟩, rfl⟩
    exact ⟨⟨node, hnode, rfl⟩, hlast⟩
  · rintro ⟨⟨node, hnode, rfl⟩, hlast⟩
    exact ⟨node, ⟨hnode, hlast⟩, rfl⟩

theorem Collects.find_of_named (h : Collects walk total start inserted tree) {name : α} {node : List α × P}
    (hnode : node ∈ named name tree.1.2) : find tree.1 node.1 = some node.2 :=
  ((mem_nodes_iff_find h.distinct tree.1.1).mp (List.mem_of_mem_filter hnode)).2

/-- **The totals of a name's nodes** count a weight as often as the name is on its path. -/
theorem sum_named_total (h : Collects walk total start inserted tree) (htruncated : tree.2.truncated = false)
    (name : α) :
    ((named name tree.1.2).map fun node => total node.2).sum = (inserted.map fun s => s.1.count name • s.2).sum := by
  let paths := (named name tree.1.2).map Prod.fst
  have htotal : (named name tree.1.2).map (fun node => total node.2) = paths.map (weightBelow inserted) := by
    rw [List.map_map]
    exact List.map_congr_left fun node hnode => h.sum node.1 node.2 (h.find_of_named hnode)
  rw [htotal]
  refine (sum_selected (fun q s => decide (q <+: s)) inserted paths).trans ?_
  refine congrArg List.sum (List.map_congr_left fun s hs => ?_)
  congr 1
  rw [← countP_prefixes name s.1, List.countP_eq_length_filter, List.countP_eq_length_filter]
  refine List.Perm.length_eq ((List.perm_ext_iff_of_nodup ?_ ?_).mpr fun q => ?_)
  · exact (nodup_named h.distinct name).filter _
  · exact ((nodup_inits s.1).sublist (List.tail_sublist _)).filter _
  · rw [List.mem_filter, List.mem_filter, mem_named, mem_tail_inits, decide_eq_true_eq, decide_eq_true_eq]
    constructor
    · rintro ⟨⟨-, hlast⟩, hq⟩
      exact ⟨⟨fun hnil => by simp [hnil] at hlast, hq⟩, hlast⟩
    · rintro ⟨⟨hne, hq⟩, hlast⟩
      exact ⟨⟨h.mem_paths htruncated hs hq hne, hlast⟩, hq⟩

/-- **What a name's nodes keep** is the weight of the paths that end in it. -/
theorem sum_named_own (h : Collects walk total start inserted tree) (hends : Ends own inserted tree)
    (htruncated : tree.2.truncated = false) (name : α) :
    ((named name tree.1.2).map fun node => own node.2).sum =
      ((inserted.filter fun s => s.1.getLast? = some name).map Prod.snd).sum := by
  let paths := (named name tree.1.2).map Prod.fst
  have hown : (named name tree.1.2).map (fun node => own node.2) = paths.map (weightAt inserted) := by
    rw [List.map_map]
    exact List.map_congr_left fun node hnode => hends htruncated node.1 node.2 (h.find_of_named hnode)
  have hlast := sum_selected (fun (_ : Unit) s => decide (s.getLast? = some name)) inserted [()]
  rw [List.map_singleton, List.sum_singleton] at hlast
  rw [hown, hlast]
  refine (sum_selected (fun q s => decide (q = s)) inserted paths).trans ?_
  refine congrArg List.sum (List.map_congr_left fun s hs => ?_)
  congr 1
  have hcount : paths.countP (fun q => decide (q = s.1)) = paths.count s.1 := List.countP_congr fun q _ => by simp
  rw [hcount, List.countP_singleton]
  by_cases hname : s.1.getLast? = some name
  · have hne : s.1 ≠ [] := fun hnil => by simp [hnil] at hname
    have hmem : s.1 ∈ paths := mem_named.mpr ⟨h.mem_paths htruncated hs List.prefix_rfl hne, hname⟩
    rw [List.count_eq_one_of_mem (nodup_named h.distinct name) hmem, if_pos (decide_eq_true hname)]
  · have hmem : s.1 ∉ paths := fun hmem => hname (mem_named.mp hmem).2
    rw [List.count_eq_zero_of_not_mem hmem, if_neg (by simpa using hname)]

end
/-! ## Nodes and their children -/

section
variable {α P M : Type*} [DecidableEq α] [AddCommMonoid M]

/-- The children's totals and a slack add up to the node's total. -/
def Covers (total : P → M) (slack : P → M → Prop) (p : P) (children : Trie α P) : Prop :=
  ∃ rest, slack p rest ∧ total p = rest + children.childSum total

/-- A visit leaves the slack, and the node where the walk stops takes the weight. -/
structure Slackens (walk : Walk α P M) (slack : P → M → Prop) : Prop where
  visit : ∀ {w p rest}, slack p rest → slack (walk.visit w p) rest
  stop : ∀ {w p rest}, slack p rest → slack (walk.stop w (walk.visit w p)) (rest + w)
  fresh : slack walk.fresh 0

variable {walk : Walk α P M} {total : P → M} {slack : P → M → Prop}

theorem total_insert (hadd : Additive walk total) (w : M) (path : List α) (node : P × Trie α P) (budget : Budget) :
    total (insert walk w path node budget).1.1 = total node.1 + w := by
  have hfind := find_insert walk w path node budget []
  rw [if_pos List.nil_prefix, find_nil, find_nil, Option.some.injEq] at hfind
  rw [hfind]
  exact arrive_total hadd w _ _ _

theorem Covers.insert (hadd : Additive walk total) (hslack : Slackens walk slack) (w : M) :
    ∀ (path : List α) {node : P × Trie α P} (budget : Budget), Covers total slack node.1 node.2 →
      node.2.Below (Covers total slack) →
        Covers total slack (Trie.insert walk w path node budget).1.1 (Trie.insert walk w path node budget).1.2 ∧
          (Trie.insert walk w path node budget).1.2.Below (Covers total slack)
  | [], node, budget, h, hbelow => by
    obtain ⟨rest, hrest, hsum⟩ := h
    refine ⟨⟨rest + w, hslack.stop hrest, ?_⟩, hbelow⟩
    change total (walk.stop w (walk.visit w node.1)) = _
    rw [hadd.stop, hadd.visit, hsum, add_right_comm]
    rfl
  | a :: path, node, budget, h, hbelow => by
    obtain ⟨rest, hrest, hsum⟩ := h
    unfold Trie.insert
    cases hl : node.2.lookup a with
    | some child =>
      obtain ⟨hchild, hchildBelow⟩ := hbelow.child hl
      obtain ⟨hnew, hnewBelow⟩ := Covers.insert hadd hslack w path budget hchild hchildBelow
      refine ⟨⟨rest, hslack.visit hrest, ?_⟩, hbelow.replace hnew hnewBelow⟩
      dsimp only
      rw [childSum_replace total hl (total_insert hadd w path child budget), hadd.visit, hsum, add_assoc]
    | none =>
      dsimp only
      split
      · refine ⟨⟨rest + w, hslack.stop hrest, ?_⟩, hbelow⟩
        rw [hadd.stop, hadd.visit, hsum, add_right_comm]
      · have hfresh : Covers total slack walk.fresh (nil : Trie α P) :=
          ⟨0, hslack.fresh, by rw [hadd.fresh]; exact (add_zero 0).symm⟩
        obtain ⟨hnew, hnewBelow⟩ := @Covers.insert hadd hslack w path (walk.fresh, nil)
          { budget with count := budget.count + 1 } hfresh trivial
        refine ⟨⟨rest, hslack.visit hrest, ?_⟩, hbelow.add walk.before hnew hnewBelow⟩
        rw [hadd.visit, childSum_add, total_insert hadd, hadd.fresh, zero_add, hsum, add_assoc]

theorem Covers.insertAll (hadd : Additive walk total) (hslack : Slackens walk slack) :
    ∀ (paths : List (List α × M)) {tree : (P × Trie α P) × Budget}, Covers total slack tree.1.1 tree.1.2 →
      tree.1.2.Below (Covers total slack) →
        Covers total slack (Trie.insertAll walk paths tree).1.1 (Trie.insertAll walk paths tree).1.2 ∧
          (Trie.insertAll walk paths tree).1.2.Below (Covers total slack)
  | [], _, h, hbelow => ⟨h, hbelow⟩
  | (path, w) :: paths, tree, h, hbelow => by
    obtain ⟨hnext, hnextBelow⟩ := h.insert hadd hslack w path tree.2 hbelow
    exact Covers.insertAll hadd hslack paths hnext hnextBelow

end

end Trie