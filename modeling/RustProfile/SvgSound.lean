import RustProfile.Lib.Nested
import RustProfile.Lib.TrieTotals
import RustProfile.Svg
import Mathlib.Algebra.Order.BigOperators.Group.List
import Mathlib.Tactic.FieldSimp
import Mathlib.Tactic.Linarith
import Mathlib.Tactic.Positivity

/-!
# The flame graph shows what the samples say

While the values add up to less than `2^64` no node saturates, so each collects
the values of the samples that begin with its path. The children of a node have
at most its value, so the frames of a parent fit next to each other above it.
-/

namespace RustProfile

/-! ## The tree -/

def exactWalk : Trie.Walk String ℕ ℕ := { flameWalk with visit := fun value total => total + value }

theorem exactWalk_additive : Trie.Additive exactWalk id := ⟨fun _ _ => rfl, fun _ _ => rfl, rfl⟩

theorem exactWalk_slackens : Trie.Slackens exactWalk fun (_ : ℕ) (_ : ℕ) => True :=
  ⟨fun _ => trivial, fun _ => trivial, trivial⟩

theorem weightBelow_le (inserted : List (List String × ℕ)) (q : List String) :
    Trie.weightBelow inserted q ≤ (inserted.map Prod.snd).sum :=
  (List.filter_sublist.map Prod.snd).sum_le_sum fun _ _ => Nat.zero_le _

theorem insertSample_exact {inserted : List (List String × ℕ)} {tree : FlameNode × Trie.Budget}
    (h : Trie.Collects exactWalk id 0 inserted tree) (frames : List String) (value : ℕ)
    (hsum : (inserted.map Prod.snd).sum + value ≤ u64Max) :
    insertSample tree.1 frames value tree.2 = Trie.insert exactWalk value frames tree.1 tree.2 := by
  have hvisit : ∀ total, total + value ≤ u64Max → total + value = saturatingAddU64 total value :=
    fun total hle => (min_eq_left hle).symm
  refine (Trie.insert_congr flameWalk value (fun value total => total + value) flameWalk.stop ?_ rfl frames tree.2
    ?_ fun _ _ => rfl).symm
  · exact hvisit 0 (by omega)
  · intro q total _ hfind
    have htotal : total = Trie.weightBelow inserted q := h.sum q total hfind
    have hle := weightBelow_le inserted q
    exact hvisit total (by omega)

theorem foldl_insertSample : ∀ (samples : List (List String × ℕ)) {inserted : List (List String × ℕ)}
    {tree : FlameNode × Trie.Budget}, Trie.Collects exactWalk id 0 inserted tree →
      ((inserted ++ samples).map Prod.snd).sum ≤ u64Max →
        samples.foldl (fun tree s => insertSample tree.1 s.1 s.2 tree.2) tree =
          Trie.insertAll exactWalk samples tree
  | [], _, _, _, _ => rfl
  | (frames, value) :: samples, inserted, tree, h, hsum => by
    have hfirst : (inserted.map Prod.snd).sum + value ≤ u64Max := by
      rw [List.map_append, List.sum_append, List.map_cons, List.sum_cons] at hsum
      omega
    have hrest := foldl_insertSample samples (h.insert exactWalk_additive frames value) (by
      rwa [List.append_assoc, List.singleton_append])
    rw [List.foldl_cons, insertSample_exact h frames value hfirst, hrest]
    rfl

/-! ## The geometry -/

def Fits (value : ℕ) (children : Trie String ℕ) : Prop := children.childSum id ≤ value

/-- Where a frame of the loop lies, when a unit of value is `scale` wide. -/
structure Placed (scale : ℚ) (maxDepth : ℕ) (t : Trie String ℕ) (path : List String) (depth : ℕ) (cursor : ℚ)
    (frame : DrawnFrame) : Prop where
  node : (frame.path, frame.value) ∈ t.nodes path
  width : frame.width = scale * frame.value
  left : cursor ≤ frame.x
  right : frame.x + frame.width ≤ cursor + scale * (t.childSum id : ℕ)
  row : (maxDepth : ℤ) - depth - treeDepth t ≤ frame.row

def DrawnFrame.Within (inner outer : DrawnFrame) : Prop :=
  outer.x ≤ inner.x ∧ inner.x + inner.width ≤ outer.x + outer.width

def Apart (f g : DrawnFrame) : Prop := f.path.dropLast = g.path.dropLast → f.x + f.width ≤ g.x

section
variable {scale : ℚ} (hscale : 0 ≤ scale) {maxDepth : ℕ}

include hscale

theorem placed_child {label : String} {value : ℕ} {children rest : Trie String ℕ} (hfits : Fits value children)
    {path : List String} {depth : ℕ} {cursor : ℚ} {frame : DrawnFrame}
    (h : Placed scale maxDepth children (path ++ [label]) (depth + 1) cursor frame) :
    Placed scale maxDepth (.cons label value children rest) path depth cursor frame := by
  obtain ⟨hnode, hwidth, hleft, hright, hrow⟩ := h
  refine ⟨List.mem_cons_of_mem _ (List.mem_append_left _ hnode), hwidth, hleft, hright.trans ?_, ?_⟩
  · have hle : children.childSum id ≤ (Trie.cons label value children rest).childSum id :=
      hfits.trans (Nat.le_add_right _ _)
    have hcast : ((children.childSum id : ℕ) : ℚ) ≤ ((Trie.cons label value children rest).childSum id : ℕ) := by
      exact_mod_cast hle
    have := mul_le_mul_of_nonneg_left hcast hscale
    linarith
  · have hdepth : 1 + treeDepth children ≤ treeDepth (.cons label value children rest) := le_max_left _ _
    push_cast at hrow
    omega

theorem placed_rest {label : String} {value : ℕ} {children rest : Trie String ℕ} {path : List String} {depth : ℕ}
    {cursor : ℚ} {frame : DrawnFrame}
    (h : Placed scale maxDepth rest path depth (cursor + scale * value) frame) :
    Placed scale maxDepth (.cons label value children rest) path depth cursor frame := by
  obtain ⟨hnode, hwidth, hleft, hright, hrow⟩ := h
  refine ⟨List.mem_cons_of_mem _ (List.mem_append_right _ hnode), hwidth, ?_, hright.trans_eq ?_, ?_⟩
  · have : 0 ≤ scale * value := mul_nonneg hscale (Nat.cast_nonneg _)
    linarith
  · rw [Trie.childSum, id]
    push_cast
    ring
  · have hdepth : treeDepth rest ≤ treeDepth (.cons label value children rest) := le_max_right _ _
    omega

structure Arranged (scale : ℚ) (maxDepth : ℕ) (t : Trie String ℕ) (path : List String) (depth : ℕ) (cursor : ℚ)
    (frames : List DrawnFrame) : Prop where
  placed : ∀ f ∈ frames, Placed scale maxDepth t path depth cursor f
  parent : ∀ f ∈ frames, f.path.dropLast = path ∨ ∃ g ∈ frames, g.path = f.path.dropLast ∧ f.Within g
  apart : frames.Pairwise Apart

omit hscale in
/-- One turn of the loop: a child that is too narrow is left out, with what is over it. -/
theorem renderChildren_cons {label : String} {child value : ℕ} {children rest : Trie String ℕ} {path : List String}
    {depth : ℕ} {cursor width : ℚ} (hvalue : 0 < value) (hwidth : width = scale * value) :
    renderChildren id maxDepth (.cons label child children rest) value path depth cursor width =
      (if scale * child ≤ 1 / 100 then []
        else ⟨path ++ [label], child, maxDepth - depth - 1, cursor, scale * child⟩ ::
          renderChildren id maxDepth children child (path ++ [label]) (depth + 1) cursor (scale * child)) ++
        renderChildren id maxDepth rest value path depth (cursor + scale * child) width := by
  have hchild : frameWidth id width child value = scale * child := by
    have hne : (value : ℚ) ≠ 0 := Nat.cast_ne_zero.mpr hvalue.ne'
    change width * child / value = scale * child
    rw [hwidth]
    field_simp
  rw [renderChildren, hchild]
  dsimp only [id]
  by_cases hzero : child = 0
  · simp [hzero]
  · rw [if_neg hzero]

omit hscale in
theorem pos_of_wide {child : ℕ} (h : ¬ scale * child ≤ 1 / 100) : 0 < child := by
  refine Nat.pos_of_ne_zero fun hzero => h ?_
  rw [hzero, Nat.cast_zero, mul_zero]
  norm_num

theorem renderChildren_placed : ∀ (t : Trie String ℕ) {value : ℕ} (path : List String) (depth : ℕ) (cursor : ℚ)
    {width : ℚ}, t.Below Fits → 0 < value → width = scale * value →
      ∀ f ∈ renderChildren id maxDepth t value path depth cursor width, Placed scale maxDepth t path depth cursor f
  | .nil, _, _, _, _, _, _, _, _ => fun _ h => absurd h List.not_mem_nil
  | .cons label child children rest, value, path, depth, cursor, width, hbelow, hvalue, hwidth => by
    obtain ⟨hfits, hchildren, hbelowRest⟩ := hbelow
    have hrest := renderChildren_placed rest path depth (cursor + scale * child) hbelowRest hvalue hwidth
    rw [renderChildren_cons hvalue hwidth, List.forall_mem_append]
    refine ⟨?_, fun f hf => placed_rest hscale (hrest f hf)⟩
    by_cases hnarrow : scale * child ≤ 1 / 100
    · rw [if_pos hnarrow]
      exact fun f hf => absurd hf List.not_mem_nil
    have hsub := renderChildren_placed children (path ++ [label]) (depth + 1) cursor hchildren (pos_of_wide hnarrow)
      (rfl : scale * child = _)
    rw [if_neg hnarrow, List.forall_mem_cons]
    refine ⟨⟨List.mem_cons_self, rfl, le_refl _, ?_, ?_⟩, fun f hf => placed_child hscale hfits (hsub f hf)⟩
    · have hle : (child : ℚ) ≤ ((Trie.cons label child children rest).childSum id : ℕ) := by
        exact_mod_cast Nat.le_add_right child _
      have := mul_le_mul_of_nonneg_left hle hscale
      dsimp only
      linarith
    · have hdepth : 1 ≤ treeDepth (.cons label child children rest) := (Nat.le_add_right 1 _).trans (le_max_left _ _)
      dsimp only
      omega

def flameFrames : Frames DrawnFrame String ℚ := ⟨DrawnFrame.path, DrawnFrame.x, fun f => f.x + f.width⟩

theorem renderChildren_nested : ∀ (t : Trie String ℕ) {value : ℕ} (path : List String) (depth : ℕ) (cursor : ℚ)
    {width : ℚ}, t.Below Fits → 0 < value → width = scale * value →
      flameFrames.Nested path cursor (cursor + scale * (t.childSum id : ℕ))
        (renderChildren id maxDepth t value path depth cursor width)
  | .nil, _, _, _, _, _, _, _, _ => Frames.nested_nil
  | .cons label child children rest, value, path, depth, cursor, width, hbelow, hvalue, hwidth => by
    obtain ⟨hfits, hchildren, hbelowRest⟩ := hbelow
    have hchild : 0 ≤ scale * child := mul_nonneg hscale (Nat.cast_nonneg _)
    have hsum : 0 ≤ scale * (rest.childSum id : ℕ) := mul_nonneg hscale (Nat.cast_nonneg _)
    have hrest := renderChildren_nested rest path depth (cursor + scale * child) hbelowRest hvalue hwidth
    have hright : cursor + scale * child + scale * (rest.childSum id : ℕ) =
        cursor + scale * ((Trie.cons label child children rest).childSum id : ℕ) := by
      rw [Trie.childSum, id]
      push_cast
      ring
    rw [renderChildren_cons hvalue hwidth, ← hright]
    -- A frame that is too narrow still takes its room: the next one starts to its right.
    by_cases hnarrow : scale * child ≤ 1 / 100
    · rw [if_pos hnarrow, List.nil_append]
      exact hrest.mono (le_add_of_nonneg_right hchild) (le_refl _)
    rw [if_neg hnarrow]
    have hsub := renderChildren_nested children (path ++ [label]) (depth + 1) cursor hchildren (pos_of_wide hnarrow)
      (rfl : scale * child = _)
    let frame : DrawnFrame := ⟨path ++ [label], child, maxDepth - depth - 1, cursor, scale * child⟩
    have hcast : ((children.childSum id : ℕ) : ℚ) ≤ child := by exact_mod_cast hfits
    have hwithin : flameFrames.Nested (path ++ [label]) (flameFrames.left frame) (flameFrames.right frame) _ :=
      hsub.mono (le_refl _) (add_le_add_right (mul_le_mul_of_nonneg_left hcast hscale) cursor)
    have hover : flameFrames.Nested path cursor (cursor + scale * child) (frame :: _) := hwithin.over rfl
    exact hover.append hrest (le_add_of_nonneg_right hchild) (le_add_of_nonneg_right hsum)

theorem renderChildren_arranged (t : Trie String ℕ) {value : ℕ} (path : List String) (depth : ℕ) (cursor : ℚ)
    {width : ℚ} (hbelow : t.Below Fits) (hvalue : 0 < value) (hwidth : width = scale * value) :
    Arranged scale maxDepth t path depth cursor (renderChildren id maxDepth t value path depth cursor width) := by
  have hnested := @renderChildren_nested scale hscale maxDepth t value path depth cursor width hbelow hvalue hwidth
  exact ⟨renderChildren_placed hscale t path depth cursor hbelow hvalue hwidth, hnested.parent, hnested.apart⟩

end

/-! ## What is drawn -/

theorem wide_of_drawn {scale : ℚ} (maxDepth : ℕ) : ∀ (t : Trie String ℕ) {value : ℕ} (path : List String) (depth : ℕ)
    (cursor : ℚ) {width : ℚ}, 0 < value → width = scale * value →
      ∀ f ∈ renderChildren id maxDepth t value path depth cursor width, 1 / 100 < f.width
  | .nil, _, _, _, _, _, _, _ => fun _ h => absurd h List.not_mem_nil
  | .cons label child children rest, value, path, depth, cursor, width, hvalue, hwidth => by
    have hrest := wide_of_drawn maxDepth rest path depth (cursor + scale * child) hvalue hwidth
    rw [renderChildren_cons hvalue hwidth, List.forall_mem_append]
    refine ⟨?_, hrest⟩
    by_cases hnarrow : scale * child ≤ 1 / 100
    · rw [if_pos hnarrow]
      exact fun f hf => absurd hf List.not_mem_nil
    · rw [if_neg hnarrow, List.forall_mem_cons]
      exact ⟨not_le.mp hnarrow, wide_of_drawn maxDepth children _ _ _ (pos_of_wide hnarrow) rfl⟩

theorem value_le_childSum : ∀ {t : Trie String ℕ} {path : List String} {node : List String × ℕ}, t.Below Fits →
    node ∈ t.nodes path → node.2 ≤ t.childSum id
  | .cons label child children rest, path, node, hbelow, hnode => by
    obtain ⟨hfits, hchildren, hrest⟩ := hbelow
    rcases List.mem_cons.mp hnode with rfl | hnode
    · exact Nat.le_add_right _ _
    · rcases List.mem_append.mp hnode with hnode | hnode
      · exact ((value_le_childSum hchildren hnode).trans hfits).trans (Nat.le_add_right _ _)
      · exact (value_le_childSum hrest hnode).trans (Nat.le_add_left _ _)

/-- A wide node is drawn: the nodes above it are no narrower. -/
theorem drawn_of_wide {scale : ℚ} (hscale : 0 ≤ scale) {maxDepth : ℕ} : ∀ (t : Trie String ℕ) {value : ℕ}
    (path : List String) (depth : ℕ) (cursor : ℚ) {width : ℚ}, t.Below Fits → 0 < value → width = scale * value →
      ∀ node ∈ t.nodes path, 1 / 100 < scale * node.2 →
        ∃ f ∈ renderChildren id maxDepth t value path depth cursor width, f.path = node.1
  | .nil, _, _, _, _, _, _, _, _ => fun _ h => absurd h List.not_mem_nil
  | .cons label child children rest, value, path, depth, cursor, width, hbelow, hvalue, hwidth => by
    obtain ⟨hfits, hchildren, hbelowRest⟩ := hbelow
    intro node hnode hwide
    rw [renderChildren_cons hvalue hwidth]
    rcases List.mem_cons.mp hnode with rfl | hnode
    · rw [if_neg (not_le.mpr hwide)]
      exact ⟨_, List.mem_append_left _ List.mem_cons_self, rfl⟩
    rcases List.mem_append.mp hnode with hnode | hnode
    · have hle : (node.2 : ℚ) ≤ child := by exact_mod_cast (value_le_childSum hchildren hnode).trans hfits
      have hchild : ¬ scale * child ≤ 1 / 100 :=
        not_le.mpr (hwide.trans_le (mul_le_mul_of_nonneg_left hle hscale))
      obtain ⟨f, hf, hpath⟩ := drawn_of_wide hscale children (path ++ [label]) (depth + 1) cursor hchildren
        (pos_of_wide hchild) rfl node hnode hwide
      rw [if_neg hchild]
      exact ⟨f, List.mem_append_left _ (List.mem_cons_of_mem _ hf), hpath⟩
    · obtain ⟨f, hf, hpath⟩ := drawn_of_wide hscale rest path depth (cursor + scale * child) hbelowRest hvalue hwidth
        node hnode hwide
      exact ⟨f, List.mem_append_right _ hf, hpath⟩

/-! ## The flame graph -/

/-- **The flame graph shows the right totals and geometry.** -/
theorem flamegraph_shows_totals (profile : FlameProfile) (valueIndex : ℕ)
    (hsum : ((profile.counted valueIndex).map Prod.snd).sum < 2 ^ 64) :
    let tree := profile.flameTree valueIndex
    let samples := profile.counted valueIndex
    let nodes := tree.1.2.nodes []
    let drawn := renderFlamegraph id tree.1
    tree.1.1 = (samples.map Prod.snd).sum ∧
      (∀ node ∈ nodes, node.2 = ((samples.filter fun s => node.1 <+: s.1).map Prod.snd).sum) ∧
      nodes.length ≤ maxSvgNodes ∧
      (tree.2.truncated = true ↔
        ∃ s ∈ samples, ∃ path, path ≠ [] ∧ path <+: s.1 ∧ path ∉ nodes.map Prod.fst) ∧
      (∀ frame ∈ drawn, (frame.path, frame.value) ∈ nodes ∧ frame.width = svgWidth * frame.value / tree.1.1 ∧
        0 ≤ frame.row ∧
        (frame.path.dropLast = [] ∧ 0 ≤ frame.x ∧ frame.x + frame.width ≤ svgWidth ∨
          ∃ outer ∈ drawn, outer.path = frame.path.dropLast ∧ frame.Within outer)) ∧
      drawn.Pairwise Apart ∧
      ∀ node ∈ nodes, (∃ frame ∈ drawn, frame.path = node.1) ↔ 1 / 100 < svgWidth * node.2 / tree.1.1 := by
  intro tree samples nodes drawn
  have hstart : Trie.Collects exactWalk id 0 [] ((0, .nil), {}) := Trie.collects_start rfl (Nat.zero_le _)
  have htree : tree = Trie.insertAll exactWalk samples ((0, .nil), {}) :=
    foldl_insertSample samples hstart (Nat.le_of_lt_succ hsum)
  have h : Trie.Collects exactWalk id 0 samples tree := by
    rw [htree]
    exact hstart.insertAll exactWalk_additive samples
  obtain ⟨hcovers, hbelow⟩ : Trie.Covers id (fun _ _ => True) tree.1.1 tree.1.2 ∧
      tree.1.2.Below (Trie.Covers id fun _ _ => True) := by
    rw [htree]
    exact Trie.Covers.insertAll exactWalk_additive exactWalk_slackens samples ⟨0, trivial, rfl⟩ trivial
  have hfit : ∀ value children, Trie.Covers id (fun _ _ => True) value children → Fits value children := by
    rintro value children ⟨rest, -, hvalue⟩
    exact (Nat.le_add_left _ rest).trans_eq hvalue.symm
  have hmem : ∀ path value, (path, value) ∈ nodes ↔ path ≠ [] ∧ Trie.find tree.1 path = some value :=
    fun path value => Trie.mem_nodes_iff_find h.distinct tree.1.1
  refine ⟨?_, ?_, ?_, ?_, ?_⟩
  · have hroot : tree.1.1 = Trie.weightBelow samples [] := h.sum [] tree.1.1 rfl
    rw [hroot, Trie.weightBelow, List.filter_eq_self.mpr fun s _ => by simp]
  · intro node hnode
    exact h.sum node.1 node.2 ((hmem node.1 node.2).mp hnode).2
  · have hsize := h.size
    have hbound := h.bound
    change _ ≤ maxSvgNodes at hbound
    have hlength : nodes.length = tree.1.2.size := Trie.length_nodes _ _
    omega
  · rw [h.truncated]
    refine exists_congr fun s => and_congr_right fun _ => exists_congr fun path => ?_
    constructor
    · rintro ⟨hpath, hnone⟩
      refine ⟨fun hnil => absurd (hnil ▸ hnone) (by simp), hpath, fun hin => ?_⟩
      obtain ⟨⟨path', value⟩, hnode, rfl⟩ := List.mem_map.mp hin
      rw [((hmem path' value).mp hnode).2] at hnone
      cases hnone
    · rintro ⟨hne, hpath, hout⟩
      refine ⟨hpath, ?_⟩
      cases hfind : Trie.find tree.1 path with
      | none => rfl
      | some value => exact absurd (List.mem_map_of_mem ((hmem path value).mpr ⟨hne, hfind⟩)) hout
  · by_cases hzero : tree.1.1 = 0
    · have hnothing : drawn = [] := if_pos hzero
      rw [hnothing]
      refine ⟨fun _ hin => absurd hin List.not_mem_nil, List.Pairwise.nil, fun node _ => iff_of_false ?_ ?_⟩
      · rintro ⟨_, hframe, -⟩
        cases hframe
      · rw [hzero, Nat.cast_zero, div_zero]
        norm_num
    have hpositive : (0 : ℚ) < tree.1.1 := Nat.cast_pos.mpr (Nat.pos_of_ne_zero hzero)
    have hscale : (0 : ℚ) ≤ svgWidth / tree.1.1 := div_nonneg (by norm_num [svgWidth]) hpositive.le
    have hwidth : svgWidth = svgWidth / tree.1.1 * tree.1.1 := (div_mul_cancel₀ _ hpositive.ne').symm
    obtain ⟨hplaced, hparent, hapart⟩ := @renderChildren_arranged (svgWidth / tree.1.1) hscale
      (max (treeDepth tree.1.2) 1) tree.1.2 tree.1.1 [] 0 0 svgWidth (hbelow.imp hfit) (Nat.pos_of_ne_zero hzero) hwidth
    have hdrawn : drawn = renderChildren id (max (treeDepth tree.1.2) 1) tree.1.2 tree.1.1 [] 0 0 svgWidth :=
      if_neg hzero
    rw [hdrawn]
    have hshown : ∀ node ∈ nodes,
        (∃ frame ∈ renderChildren id (max (treeDepth tree.1.2) 1) tree.1.2 tree.1.1 [] 0 0 svgWidth,
          frame.path = node.1) ↔ 1 / 100 < svgWidth * node.2 / tree.1.1 := by
      intro node hnode
      constructor
      · rintro ⟨frame, hframe, hpath⟩
        obtain ⟨hframeNode, hframeWidth, -⟩ := hplaced frame hframe
        have hvalue : node.2 = frame.value := by
          have hfind := ((hmem _ _).mp hframeNode).2
          rw [hpath, ((hmem node.1 node.2).mp hnode).2] at hfind
          exact Option.some.inj hfind
        have hwide := wide_of_drawn _ tree.1.2 [] 0 0 (Nat.pos_of_ne_zero hzero) hwidth frame hframe
        rw [hframeWidth, div_mul_eq_mul_div] at hwide
        rwa [hvalue]
      · rw [← div_mul_eq_mul_div]
        exact drawn_of_wide hscale tree.1.2 [] 0 0 (hbelow.imp hfit) (Nat.pos_of_ne_zero hzero) hwidth node hnode
    refine ⟨fun frame hframe => ?_, hapart, hshown⟩
    obtain ⟨hnode, hframeWidth, hleft, hright, hrow⟩ := hplaced frame hframe
    refine ⟨hnode, hframeWidth.trans (by ring), ?_, (hparent frame hframe).imp (fun htop => ⟨htop, hleft, ?_⟩) id⟩
    · have := le_max_left (treeDepth tree.1.2) 1
      push_cast at hrow
      omega
    · have hfits : ((tree.1.2.childSum id : ℕ) : ℚ) ≤ (tree.1.1 : ℕ) := by exact_mod_cast hfit _ _ hcovers
      have := mul_le_mul_of_nonneg_left hfits hscale
      linarith

def sharedRoot : FlameProfile where
  sample := [⟨[2, 1], [30], []⟩, ⟨[1], [10], []⟩]
  location := [⟨1, 0, 0x1000, [], false⟩, ⟨2, 0, 0x2000, [⟨1, 0, 0⟩], false⟩]
  function := [⟨1, 1⟩]
  stringTable := ["", "work"]

theorem flamegraph_shows_totals_sharedRoot :
    let tree := sharedRoot.flameTree 0
    tree.1.1 = 40 ∧ (∀ node ∈ tree.1.2.nodes [], node.2 =
        (((sharedRoot.counted 0).filter fun s => node.1 <+: s.1).map Prod.snd).sum) ∧
      (renderFlamegraph id tree.1).Pairwise Apart := by
  obtain ⟨htotal, hnodes, -, -, -, hapart, -⟩ := flamegraph_shows_totals sharedRoot 0 (by decide +kernel)
  exact ⟨htotal.trans (by decide +kernel), hnodes, hapart⟩

end RustProfile
