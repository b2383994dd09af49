import RustProfile.ViewerZoom
import RustProfile.Lib.Grouping

/-!
# The viewer's table of functions

The row of a function adds up the totals of all its nodes, so a sample counts
as often as the function is on its stack. What a row has of its own counts each
sample once, as a stack has one leaf. That is so as long as no sum is rounded,
and also while the weights stay below `2 ^ 53`: a row that gets there is too
heavy.
-/

namespace RustProfile

open Binary64

/-! ## Rows -/

/-- The row of a name and its nodes. -/
def rowOf (nat : ℕ → ℕ) (group : String × List Totals) : String × Totals :=
  (group.1, ⟨roundedSum nat (group.2.map Totals.total), roundedSum nat (group.2.map Totals.self)⟩)

theorem addHotspot_rowOf (nat : ℕ → ℕ) (node : String × Totals) : ∀ groups : List (String × List Totals),
    addHotspot nat (groups.map (rowOf nat)) node = (Grouping.add groups node).map (rowOf nat)
  | [] => rfl
  | group :: groups => by
    unfold Grouping.add
    rw [List.map_cons, addHotspot]
    by_cases hname : group.1 = node.1
    · rw [if_pos hname, if_pos (show (rowOf nat group).1 = node.1 from hname)]
      simp [rowOf, roundedSum_snoc]
    · rw [if_neg hname, if_neg (show ¬ (rowOf nat group).1 = node.1 from hname), addHotspot_rowOf nat node groups]
      rfl

theorem foldl_addHotspot (nat : ℕ → ℕ) : ∀ (nodes : List (String × Totals)) (groups : List (String × List Totals)),
    nodes.foldl (addHotspot nat) (groups.map (rowOf nat)) = (nodes.foldl Grouping.add groups).map (rowOf nat)
  | [], _ => rfl
  | node :: nodes, groups => by
    rw [List.foldl_cons, List.foldl_cons, addHotspot_rowOf, foldl_addHotspot nat nodes]

theorem hotspotRows_eq (round : ℚ → ℚ) (root : ViewerNode) : hotspotRows round root =
    (Grouping.group ((root.2.nodes []).map fun node => (node.1.getLastD "", node.2))).map (rowOf (roundNat round)) :=
  foldl_addHotspot _ _ []

theorem lastName_iff {t : Trie String Totals} {node : List String × Totals} (h : node ∈ t.nodes []) (name : String) :
    node.1.getLastD "" = name ↔ node.1.getLast? = some name := by
  obtain ⟨a, suffix, hpath⟩ := Trie.path_of_mem_nodes h
  rw [hpath, List.nil_append, List.getLastD_eq_getLast?, List.getLast?_cons]
  simp

theorem valuesOf_nodes (t : Trie String Totals) (name : String) :
    Grouping.valuesOf name ((t.nodes []).map fun node => (node.1.getLastD "", node.2)) =
      (Trie.named name t).map Prod.snd := by
  unfold Grouping.valuesOf Trie.named
  rw [List.filter_map, List.map_map]
  have hfilter : (t.nodes []).filter (fun node => decide (node.1.getLastD "" = name)) =
      (t.nodes []).filter fun node => decide (node.1.getLast? = some name) :=
    List.filter_congr fun node hnode => decide_eq_decide.mpr (lastName_iff hnode name)
  exact congrArg _ hfilter

theorem hotspotRows_sums {round : ℚ → ℚ} {root : ViewerNode} {row : String × Totals}
    (h : row ∈ hotspotRows round root) :
    row.2.total = roundedSum (roundNat round) ((Trie.named row.1 root.2).map fun node => node.2.total) ∧
      row.2.self = roundedSum (roundNat round) ((Trie.named row.1 root.2).map fun node => node.2.self) := by
  rw [hotspotRows_eq] at h
  obtain ⟨group, hgroup, rfl⟩ := List.mem_map.mp h
  have hvalues := (Grouping.group_spec _).values group hgroup
  rw [valuesOf_nodes] at hvalues
  unfold rowOf
  dsimp only
  rw [hvalues, List.map_map, List.map_map]
  exact ⟨rfl, rfl⟩

theorem exists_row {round : ℚ → ℚ} {root : ViewerNode} {node : List String × Totals} (h : node ∈ root.2.nodes [])
    {name : String} (hname : node.1.getLast? = some name) : ∃ row ∈ hotspotRows round root, row.1 = name := by
  rw [hotspotRows_eq]
  have hkey : name ∈ ((root.2.nodes []).map fun node => (node.1.getLastD "", node.2)).map Prod.fst :=
    List.mem_map.mpr ⟨_, List.mem_map_of_mem h, (lastName_iff h name).mpr hname⟩
  obtain ⟨group, hgroup, rfl⟩ := List.mem_map.mp (((Grouping.group_spec _).keys name).mpr hkey)
  exact ⟨rowOf (roundNat round) group, List.mem_map_of_mem hgroup, rfl⟩

/-! ## Samples -/

/-- The weight of the samples that have the name on their stack. -/
def inclusiveWeight (samples : List SelectedSample) (name : String) : ℕ :=
  ((samples.filter fun s => name ∈ s.names).map SelectedSample.weight).sum

/-- The weight of the samples that have the name at their leaf. -/
def leafWeight (samples : List SelectedSample) (name : String) : ℕ :=
  ((samples.filter fun s => s.names.getLast? = some name).map SelectedSample.weight).sum

theorem inclusiveWeight_eq (samples : List SelectedSample) (name : String) :
    inclusiveWeight samples name = (samples.map fun s => min 1 (s.names.count name) * s.weight).sum := by
  unfold inclusiveWeight
  induction samples with
  | nil => rfl
  | cons s samples ih =>
    rw [List.filter_cons, List.map_cons, List.sum_cons, ← ih]
    by_cases hname : name ∈ s.names
    · have hcount : min 1 (s.names.count name) = 1 := min_eq_left (List.count_pos_iff.mpr hname)
      rw [if_pos (decide_eq_true hname), hcount, one_mul]
      rfl
    · rw [if_neg (by simpa using hname), List.count_eq_zero_of_not_mem hname]
      simp

theorem inclusiveWeight_le (samples : List SelectedSample) (name : String) :
    inclusiveWeight samples name ≤ (samples.map SelectedSample.weight).sum :=
  (List.filter_sublist.map SelectedSample.weight).sum_le_sum fun _ _ => Nat.zero_le _

theorem sum_eq_sum_iff {α : Type} {f g : α → ℕ} : ∀ {l : List α}, (∀ a ∈ l, f a ≤ g a) →
    ((l.map g).sum = (l.map f).sum ↔ ∀ a ∈ l, g a = f a)
  | [], _ => by simp
  | a :: l, h => by
    obtain ⟨ha, hl⟩ := List.forall_mem_cons.mp h
    have hle : (l.map f).sum ≤ (l.map g).sum := List.sum_le_sum hl
    rw [List.forall_mem_cons, ← sum_eq_sum_iff hl, List.map_cons, List.map_cons, List.sum_cons, List.sum_cons]
    omega

/-- Counting each sample as often as the name is on its stack is right when that is at most once. -/
theorem sum_count_iff (samples : List SelectedSample) (name : String) :
    (samples.map fun s => s.names.count name * s.weight).sum = inclusiveWeight samples name ↔
      ∀ s ∈ samples, 0 < s.weight → s.names.count name ≤ 1 := by
  rw [inclusiveWeight_eq, sum_eq_sum_iff fun s _ => Nat.mul_le_mul_right _ (min_le_right 1 _)]
  refine forall₂_congr fun s _ => ?_
  rcases Nat.eq_zero_or_pos s.weight with hzero | hpos
  · simp [hzero]
  · rw [Nat.mul_left_inj hpos.ne']
    exact ⟨fun h _ => by omega, fun h => by have := h hpos; omega⟩

/-! ## Sums that are not rounded -/

/-- Neither the weights nor the sums in the tree are rounded. -/
structure ExactTree (nat : ℕ → ℕ) (samples : List SelectedSample) : Prop where
  weights : ∀ s ∈ samples, nat s.weight = s.weight
  totals : ∀ path : List String, ExactSums nat ((samples.filter fun s => path <+: s.names).map SelectedSample.weight)
  selfs : ∀ path : List String, ExactSums nat ((samples.filter fun s => path = s.names).map SelectedSample.weight)

/-- Nothing that the page reads or adds up is rounded. -/
structure Unrounded (nat : ℕ → ℕ) (samples : List SelectedSample) : Prop extends ExactTree nat samples where
  rowTotals : ∀ name, ExactSums nat ((Trie.named name (treeOf id samples).1.2).map fun node => node.2.total)
  rowSelfs : ∀ name, ExactSums nat ((Trie.named name (treeOf id samples).1.2).map fun node => node.2.self)

theorem exactTree_of_lt {nat : ℕ → ℕ} {bound : ℕ} (hbelow : ExactBelow nat bound) {samples : List SelectedSample}
    (hsum : (samples.map SelectedSample.weight).sum < bound) : ExactTree nat samples := by
  have hpart : ∀ keep : SelectedSample → Bool, ((samples.filter keep).map SelectedSample.weight).sum < bound :=
    fun keep => lt_of_le_of_lt
      ((List.filter_sublist.map SelectedSample.weight).sum_le_sum fun _ _ => Nat.zero_le _) hsum
  refine ⟨fun s hs => hbelow.exact _ ?_, fun path => hbelow.exactSums (hpart _), fun path => hbelow.exactSums (hpart _)⟩
  exact lt_of_le_of_lt (List.single_le_sum (fun _ _ => Nat.zero_le _) _ (List.mem_map_of_mem hs)) hsum

theorem viewerWalk_keeps : Trie.Keeps (viewerWalk id) Totals.self := ⟨fun _ _ => rfl, fun _ _ => rfl, rfl⟩

theorem emptyTree_collects : Trie.Collects (viewerWalk id) Totals.total 1 [] (({}, .nil), { count := 1 }) :=
  Trie.collects_start rfl (by decide)

theorem emptyTree_ends : Trie.Ends Totals.self [] ((({}, .nil) : ViewerNode), { count := 1 }) := Trie.ends_start rfl

/-- The rounded tree is the exact one. -/
theorem ExactTree.treeOf_eq {nat : ℕ → ℕ} {samples : List SelectedSample} (h : ExactTree nat samples)
    (htruncated : (treeOf nat samples).2.truncated = false) : treeOf nat samples = treeOf id samples := by
  have hpaths : samples.map (SelectedSample.path nat) = samples.map (SelectedSample.path id) := by
    refine List.map_congr_left fun s hs => ?_
    unfold SelectedSample.path
    rw [h.weights s hs]
    rfl
  have hgood : Trie.GoodSums (fun n => nat n = n) ([] ++ samples.map (SelectedSample.path id)) := by
    refine ⟨fun s hs => ?_, fun first hfirst q => ?_, fun first hfirst q => ?_⟩
    · obtain ⟨sample, hsample, rfl⟩ := List.mem_map.mp hs
      exact h.weights sample hsample
    · refine h.totals q _ ?_
      have hkept := (hfirst.filter fun s => decide (q <+: s.1)).map Prod.snd
      rwa [List.nil_append, List.filter_map, List.map_map] at hkept
    · refine h.selfs q _ ?_
      have hkept := (hfirst.filter fun s => decide (q = s.1)).map Prod.snd
      rwa [List.nil_append, List.filter_map, List.map_map] at hkept
  unfold treeOf at htruncated ⊢
  rw [hpaths] at htruncated ⊢
  refine Trie.insertAll_of_good viewerWalk_additive viewerWalk_keeps (fun w p hw => ?_) (fun w p hw => ?_) _
    emptyTree_collects emptyTree_ends hgood htruncated
  · exact congrArg (fun total => { p with total := total }) hw
  · exact congrArg (fun own => { p with self := own }) hw

/-! ## The table -/

/-- A row that says what the samples say of its name. -/
structure RowRight (samples : List SelectedSample) (rootTotal : ℕ) (row : String × Totals) : Prop where
  total : row.2.total = inclusiveWeight samples row.1
  bounded : row.2.total ≤ rootTotal
  self : row.2.self = leafWeight samples row.1

section
variable (samples : List SelectedSample)

theorem treeOf_collects : Trie.Collects (viewerWalk id) Totals.total 1 (samples.map (SelectedSample.path id))
    (treeOf id samples) :=
  emptyTree_collects.insertAll viewerWalk_additive _

theorem root_total : (treeOf id samples).1.1.total = (samples.map SelectedSample.weight).sum := by
  have hroot := (treeOf_collects samples).sum [] _ rfl
  rw [hroot, Trie.weightBelow, List.filter_eq_self.mpr fun s _ => by simp, List.map_map]
  rfl

variable {samples} (htruncated : (treeOf id samples).2.truncated = false) (name : String)

include htruncated

theorem sum_named_totals : ((Trie.named name (treeOf id samples).1.2).map fun node => node.2.total).sum =
    (samples.map fun s => s.names.count name * s.weight).sum := by
  rw [Trie.sum_named_total (treeOf_collects samples) htruncated, List.map_map]
  rfl

theorem sum_named_selfs : ((Trie.named name (treeOf id samples).1.2).map fun node => node.2.self).sum =
    leafWeight samples name := by
  have hends := Trie.Ends.insertAll viewerWalk_additive viewerWalk_keeps (samples.map (SelectedSample.path id))
    emptyTree_collects emptyTree_ends
  have hown := Trie.sum_named_own (treeOf_collects samples) hends htruncated name
  rw [hown, List.filter_map, List.map_map]
  rfl

end

section
variable {samples : List SelectedSample} {round : ℚ → ℚ} (htruncated : (treeOf id samples).2.truncated = false)
  {row : String × Totals} (h : row ∈ hotspotRows round (treeOf id samples).1)

/-- A row whose total is exact, or too large because the exact one is. -/
theorem rowRight_iff (hself : row.2.self = leafWeight samples row.1)
    (htotal : row.2.total = (samples.map fun s => s.names.count row.1 * s.weight).sum ∨
      (treeOf id samples).1.1.total < (samples.map fun s => s.names.count row.1 * s.weight).sum ∧
        (treeOf id samples).1.1.total < row.2.total) :
    RowRight samples (treeOf id samples).1.1.total row ↔
      ∀ s ∈ samples, 0 < s.weight → s.names.count row.1 ≤ 1 := by
  have hle := inclusiveWeight_le samples row.1
  rw [← root_total] at hle
  rw [← sum_count_iff]
  rcases htotal with htotal | ⟨hsum, hrow⟩
  · rw [← htotal]
    exact ⟨fun hright => hright.total, fun heq => ⟨heq, heq.trans_le hle, hself⟩⟩
  · exact iff_of_false (fun hright => absurd hright.bounded (not_le.mpr hrow)) fun heq =>
      absurd (heq.trans_le hle) (not_le.mpr hsum)

include htruncated h

theorem Unrounded.rowRight_iff (hexact : Unrounded (roundNat round) samples) :
    RowRight samples (treeOf id samples).1.1.total row ↔
      ∀ s ∈ samples, 0 < s.weight → s.names.count row.1 ≤ 1 := by
  obtain ⟨htotal, hself⟩ := hotspotRows_sums h
  rw [roundedSum_of_exact (hexact.rowTotals row.1), sum_named_totals htruncated] at htotal
  rw [roundedSum_of_exact (hexact.rowSelfs row.1), sum_named_selfs htruncated] at hself
  exact RustProfile.rowRight_iff hself (Or.inl htotal)

theorem rowRight_iff_of_lt {bound : ℕ} (hbelow : ExactBelow (roundNat round) bound)
    (hsum : (samples.map SelectedSample.weight).sum < bound) :
    RowRight samples (treeOf id samples).1.1.total row ↔
      ∀ s ∈ samples, 0 < s.weight → s.names.count row.1 ≤ 1 := by
  obtain ⟨htotal, hself⟩ := hotspotRows_sums h
  have hleaf : leafWeight samples row.1 < bound :=
    lt_of_le_of_lt ((List.filter_sublist.map SelectedSample.weight).sum_le_sum fun _ _ => Nat.zero_le _) hsum
  rw [← sum_named_selfs htruncated] at hleaf
  rw [roundedSum_of_exact (hbelow.exactSums hleaf), sum_named_selfs htruncated] at hself
  refine RustProfile.rowRight_iff hself ?_
  rw [root_total, ← sum_named_totals htruncated]
  rcases lt_or_ge ((Trie.named row.1 (treeOf id samples).1.2).map fun node => node.2.total).sum bound with hlt | hge
  · exact Or.inl (htotal.trans (roundedSum_of_exact (hbelow.exactSums hlt)))
  · have hlarge := hbelow.le_roundedSum hge (Nat.zero_lt_of_lt hsum)
    rw [← htotal] at hlarge
    exact Or.inr ⟨lt_of_lt_of_le hsum hge, lt_of_lt_of_le hsum hlarge⟩

end

/-- If each row is right just when its name is not repeated, the table is right just when no name is. -/
theorem table_right_iff {samples : List SelectedSample} {round : ℚ → ℚ}
    (htruncated : (treeOf id samples).2.truncated = false)
    (hrows : ∀ row ∈ hotspotRows round (treeOf id samples).1,
      RowRight samples (treeOf id samples).1.1.total row ↔ ∀ s ∈ samples, 0 < s.weight → s.names.count row.1 ≤ 1) :
    (∀ row ∈ hotspotRows round (treeOf id samples).1, RowRight samples (treeOf id samples).1.1.total row) ↔
      ∀ s ∈ samples, 0 < s.weight → s.names.Nodup := by
  constructor
  · intro hright s hs hweight
    rw [List.nodup_iff_count_le_one]
    intro name
    by_cases hname : name ∈ s.names
    · -- the name ends a prefix of the stack, where the tree has a node
      obtain ⟨before, after, hnames⟩ := List.append_of_mem hname
      have hprefix : before ++ [name] <+: (s.path id).1 := ⟨after, by rw [List.append_assoc]; exact hnames.symm⟩
      have hpath := (treeOf_collects samples).mem_paths htruncated (List.mem_map_of_mem hs) hprefix (by simp)
      obtain ⟨node, hnode, hnodePath⟩ := List.mem_map.mp hpath
      obtain ⟨row, hrow, rfl⟩ := exists_row hnode (by rw [hnodePath]; exact List.getLast?_concat)
      exact (hrows row hrow).mp (hright row hrow) s hs hweight
    · rw [List.count_eq_zero_of_not_mem hname]
      exact Nat.zero_le 1
  · intro hnodup row hrow
    rw [hrows row hrow]
    intro s hs hweight
    exact List.nodup_iff_count_le_one.mp (hnodup s hs hweight) row.1

/-- **The function table is right** for the functions that no sample of some weight is in twice, if nothing is
rounded or the weights are small. -/
theorem hotspots_right_iff {state : ViewerState} (htruncated : (state.buildTree Binary64.round).treeTruncated = false)
    (hexact : Unrounded (roundNat Binary64.round) (state.selected Binary64.round) ∨
      ((state.selected Binary64.round).map SelectedSample.weight).sum < 2 ^ 53) :
    let samples := state.selected Binary64.round
    let root := (state.buildTree Binary64.round).root
    let rows := hotspotRows Binary64.round root
    SumsUp root.1 root.2 ∧ root.2.Below SumsUp ∧
      (∀ row ∈ rows, RowRight samples root.1.total row ↔ ∀ s ∈ samples, 0 < s.weight → s.names.count row.1 ≤ 1) ∧
      ((∀ row ∈ rows, RowRight samples root.1.total row) ↔ ∀ s ∈ samples, 0 < s.weight → s.names.Nodup) := by
  intro samples root rows
  have htree : treeOf (roundNat Binary64.round) samples = treeOf id samples := by
    rcases hexact with hexact | hsum
    · exact hexact.toExactTree.treeOf_eq htruncated
    · exact (exactTree_of_lt exactBelow_roundNat hsum).treeOf_eq htruncated
  have hroot : root = (treeOf id samples).1 := congrArg Prod.fst htree
  have hwhole : (treeOf id samples).2.truncated = false := htree ▸ htruncated
  obtain ⟨hsums, hbelow⟩ := treeOf_sumsUp samples
  have hrows : ∀ row ∈ hotspotRows Binary64.round (treeOf id samples).1,
      RowRight samples (treeOf id samples).1.1.total row ↔ ∀ s ∈ samples, 0 < s.weight → s.names.count row.1 ≤ 1 := by
    intro row hrow
    rcases hexact with hexact | hsum
    · exact hexact.rowRight_iff hwhole hrow
    · exact rowRight_iff_of_lt hwhole hrow exactBelow_roundNat hsum
  subst rows
  rw [hroot]
  exact ⟨hsums, hbelow, hrows, table_right_iff hwhole hrows⟩

theorem hotspots_right_iff_twoCallers :
    let samples := twoCallers.selected Binary64.round
    let root := (twoCallers.buildTree Binary64.round).root
    (∀ row ∈ hotspotRows Binary64.round root, RowRight samples root.1.total row) ↔
      ∀ s ∈ samples, 0 < s.weight → s.names.Nodup :=
  (@hotspots_right_iff twoCallers (by decide +kernel) (Or.inr (by decide +kernel))).2.2.2

/-- One sample of a function that called itself. -/
def recursion : ViewerState where
  profile := {
    startTimeUnixMillis := none
    intervalMillis := none
    functions := ["walk"]
    stackTable := [[0, 0]]
    threads := [{
      pid := "1", tid := "1", name := "main", timesMillis := [1], weights := [1]
      cpuDeltaMicros := [], stackIndices := [some 0] }]
    sampleCount := 1
    truncated := false }

/-- It is shown with twice the weight of all samples. -/
theorem recursive_function_counted_twice :
    ¬ ∀ state : ViewerState, (state.buildTree Binary64.round).treeTruncated = false →
      ∀ row ∈ drawHotspots Binary64.round (state.buildTree Binary64.round).root,
        RowRight (state.selected Binary64.round) (state.buildTree Binary64.round).root.1.total row := by
  intro h
  have hright := h recursion (by decide +kernel) ("walk", ⟨2, 1⟩) (by decide +kernel)
  exact absurd hright.bounded (by decide +kernel)

/-- A heavy sample of the function, and one of it calling itself. -/
def roundedRecursion : ViewerState where
  profile := {
    startTimeUnixMillis := none
    intervalMillis := none
    functions := ["walk"]
    stackTable := [[0], [0, 0]]
    threads := [{
      pid := "1", tid := "1", name := "main", timesMillis := [1, 2], weights := [2 ^ 53 - 1, 1]
      cpuDeltaMicros := [], stackIndices := [some 0, some 1] }]
    sampleCount := 2
    truncated := false }

-- the row's sum is `2 ^ 53 + 1`, and rounding takes back what was counted twice
example : hotspotRows Binary64.round (roundedRecursion.buildTree Binary64.round).root = [("walk", ⟨2 ^ 53, 2 ^ 53⟩)] ∧
    inclusiveWeight (roundedRecursion.selected Binary64.round) "walk" = 2 ^ 53 := by
  decide +kernel

end RustProfile
