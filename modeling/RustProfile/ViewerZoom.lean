import RustProfile.Viewer
import RustProfile.Lib.Nested
import Mathlib.Algebra.Order.BigOperators.Group.List
import Mathlib.Tactic.FieldSimp
import Mathlib.Tactic.Linarith
import Mathlib.Tactic.Positivity
import Mathlib.Tactic.Ring

/-!
# Zooming in the viewer

The width of a frame is its parent's width times its share of the zoomed node,
where its share of the parent is meant. Frames still lie over their parents and
next to each other, but the deeper ones are too narrow as soon as their parent
is lighter than the zoomed node.
-/

namespace RustProfile

/-! ## The tree -/

theorem viewerWalk_additive : Trie.Additive (viewerWalk id) Totals.total := ⟨fun _ _ => rfl, fun _ _ => rfl, rfl⟩

theorem viewerWalk_slackens : Trie.Slackens (viewerWalk id) fun node rest => node.self = rest :=
  ⟨id, fun h => congrArg (· + _) h, rfl⟩

/-- A node's total is its own and its children's. -/
abbrev SumsUp : Totals → Trie String Totals → Prop := Trie.Covers Totals.total fun node rest => node.self = rest

theorem treeOf_sumsUp (samples : List SelectedSample) :
    SumsUp (treeOf id samples).1.1 (treeOf id samples).1.2 ∧ (treeOf id samples).1.2.Below SumsUp :=
  Trie.Covers.insertAll viewerWalk_additive viewerWalk_slackens _ ⟨0, rfl, rfl⟩ trivial

theorem buildTree_id (state : ViewerState) : (state.buildTree id).root = (treeOf id (state.selected id)).1 := by
  unfold ViewerState.buildTree
  rw [Binary64.roundNat_id]

/-- The children have at most the node's total. -/
def Holds (node : Totals) (children : Trie String Totals) : Prop := children.childSum Totals.total ≤ node.total

theorem SumsUp.holds {node : Totals} {children : Trie String Totals} (h : SumsUp node children) :
    Holds node children := by
  obtain ⟨rest, -, hsum⟩ := h
  unfold Holds
  omega

/-! ## The drawing -/

/-- What is drawn when nothing is left out. -/
def layout (rootTotal : ℕ) : Trie String Totals → (path : List String) → (cursor : ℚ) → (y : ℕ) → (w : ℚ) →
    List DrawnNode
  | .nil, _, _, _, _ => []
  | .cons name child children rest, path, cursor, y, w =>
    ⟨path ++ [name], child, cursor, y, w * child.total / rootTotal⟩ ::
      (layout rootTotal children (path ++ [name]) cursor (y + 1) (w * child.total / rootTotal) ++
        layout rootTotal rest path (cursor + w * child.total / rootTotal) y w)

def noCutOff : CutOff := fun _ _ => false

theorem drawChildren_layout (rootTotal : ℕ) : ∀ (t : Trie String Totals) (path : List String) (cursor : ℚ) (y : ℕ)
    (w : ℚ) (nodes : List DrawnNode), drawChildren noCutOff rootTotal t path cursor y w nodes =
      nodes ++ layout rootTotal t path cursor y w
  | .nil, _, _, _, _, nodes => (List.append_nil nodes).symm
  | .cons name child children rest, path, cursor, y, w, nodes => by
    unfold drawChildren layout
    dsimp only [noCutOff]
    simp only [Bool.false_eq_true, if_false]
    rw [drawChildren_layout rootTotal rest, drawChildren_layout rootTotal children]
    simp

theorem layout_nodes (rootTotal : ℕ) : ∀ (t : Trie String Totals) (path : List String) (cursor : ℚ) (y : ℕ) (w : ℚ),
    (layout rootTotal t path cursor y w).map (fun d => (d.path, d.node)) = t.nodes path
  | .nil, _, _, _, _ => rfl
  | .cons name child children rest, path, cursor, y, w => by
    unfold layout Trie.nodes
    rw [List.map_cons, List.map_append, layout_nodes rootTotal children, layout_nodes rootTotal rest]

/-! ## Where frames lie -/

def drawnFrames : Frames DrawnNode String ℚ := ⟨DrawnNode.path, DrawnNode.x, fun f => f.x + f.w⟩

theorem share_le {w : ℚ} {part whole : ℕ} (hw : 0 ≤ w) (h : part ≤ whole) : w * part / whole ≤ w := by
  rcases Nat.eq_zero_or_pos whole with hzero | hpos
  · rw [hzero, Nat.cast_zero, div_zero]
    exact hw
  · have hpart : (part : ℚ) ≤ whole := by exact_mod_cast h
    rw [div_le_iff₀ (by exact_mod_cast hpos)]
    exact mul_le_mul_of_nonneg_left hpart hw

theorem layout_nested {rootTotal : ℕ} : ∀ (t : Trie String Totals) (path : List String) (cursor : ℚ) (y : ℕ) {w : ℚ},
    0 ≤ w → t.childSum Totals.total ≤ rootTotal → t.Below Holds →
      drawnFrames.Nested path cursor (cursor + w * (t.childSum Totals.total : ℕ) / rootTotal)
        (layout rootTotal t path cursor y w)
  | .nil, _, _, _, _, _, _, _ => Frames.nested_nil
  | .cons name child children rest, path, cursor, y, w, hw, hsum, hbelow => by
    obtain ⟨hchild, hchildren, hrest⟩ := hbelow
    have hle : child.total + rest.childSum Totals.total ≤ rootTotal := hsum
    have hcw : 0 ≤ w * child.total / rootTotal := by positivity
    have hrw : 0 ≤ w * (rest.childSum Totals.total : ℕ) / rootTotal := by positivity
    have hfits : children.childSum Totals.total ≤ rootTotal := le_trans hchild (by omega)
    have hsub := layout_nested children (path ++ [name]) cursor (y + 1) hcw hfits hchildren
    let frame : DrawnNode := ⟨path ++ [name], child, cursor, y, w * child.total / rootTotal⟩
    have hwithin : drawnFrames.Nested (path ++ [name]) (drawnFrames.left frame) (drawnFrames.right frame) _ :=
      hsub.mono (le_refl _) (add_le_add_right (share_le hcw hfits) cursor)
    have hover : drawnFrames.Nested path cursor (cursor + w * child.total / rootTotal) (frame :: _) :=
      hwithin.over rfl
    have hrestFits : rest.childSum Totals.total ≤ rootTotal := by omega
    have hnext := layout_nested rest path (cursor + w * child.total / rootTotal) y hw hrestFits hrest
    have hright : cursor + w * child.total / rootTotal + w * (rest.childSum Totals.total : ℕ) / rootTotal =
        cursor + w * ((Trie.cons name child children rest).childSum Totals.total : ℕ) / rootTotal := by
      rw [Trie.childSum]
      push_cast
      ring
    rw [← hright]
    exact hover.append hnext (le_add_of_nonneg_right hcw) (le_add_of_nonneg_right hrw)

/-! ## How wide frames are -/

/-- Each frame takes its share of the whole width. -/
def Proportional (rootTotal : ℕ) (width : ℚ) (drawn : List DrawnNode) : Prop :=
  ∀ f ∈ drawn, f.w = width * f.node.total / rootTotal

theorem proportional_cons {rootTotal : ℕ} {width w cursor : ℚ} {y : ℕ} {name : String} {child : Totals}
    {children rest : Trie String Totals} {path : List String} :
    Proportional rootTotal width (layout rootTotal (.cons name child children rest) path cursor y w) ↔
      w * child.total / rootTotal = width * child.total / rootTotal ∧
        Proportional rootTotal width
          (layout rootTotal children (path ++ [name]) cursor (y + 1) (w * child.total / rootTotal)) ∧
        Proportional rootTotal width (layout rootTotal rest path (cursor + w * child.total / rootTotal) y w) := by
  unfold Proportional
  rw [layout, List.forall_mem_cons, List.forall_mem_append]

theorem proportional_of_weightless {rootTotal : ℕ} {width : ℚ} : ∀ {t : Trie String Totals} {path : List String}
    {cursor : ℚ} {y : ℕ} {w : ℚ}, t.childSum Totals.total = 0 → t.Below Holds →
      Proportional rootTotal width (layout rootTotal t path cursor y w)
  | .nil, _, _, _, _, _, _ => fun _ h => absurd h List.not_mem_nil
  | .cons name child children rest, path, cursor, y, w, hsum, hbelow => by
    obtain ⟨hchild, hchildren, hrest⟩ := hbelow
    obtain ⟨hzero, hsum⟩ := Nat.add_eq_zero_iff.mp hsum
    refine proportional_cons.mpr ⟨by simp [hzero], ?_, ?_⟩
    · exact proportional_of_weightless (Nat.le_zero.mp (hchild.trans_eq hzero)) hchildren
    · exact proportional_of_weightless hsum hrest

/-- Under a frame of another width only frames of no weight are right. -/
theorem proportional_iff_weightless {rootTotal : ℕ} (hroot : 0 < rootTotal) {width : ℚ} :
    ∀ {t : Trie String Totals} {path : List String} {cursor : ℚ} {y : ℕ} {w : ℚ}, w ≠ width → t.Below Holds →
      (Proportional rootTotal width (layout rootTotal t path cursor y w) ↔ t.childSum Totals.total = 0)
  | .nil, _, _, _, _, _, hbelow => iff_of_true (proportional_of_weightless rfl hbelow) rfl
  | .cons name child children rest, path, cursor, y, w, hw, hbelow => by
    refine ⟨fun h => ?_, fun h => proportional_of_weightless h hbelow⟩
    obtain ⟨hself, -, hrest⟩ := proportional_cons.mp h
    have hzero : child.total = 0 := by
      by_contra hne
      have hroot : (rootTotal : ℚ) ≠ 0 := Nat.cast_ne_zero.mpr hroot.ne'
      have hmul := (div_left_inj' hroot).mp hself
      exact hw (mul_right_cancel₀ (Nat.cast_ne_zero.mpr hne) hmul)
    have hsum := (proportional_iff_weightless hroot hw hbelow.2.2).mp hrest
    exact Nat.add_eq_zero_iff.mpr ⟨hzero, hsum⟩

/-- A node with children of some weight is as heavy as the node zoomed to. -/
def FullWidth (rootTotal : ℕ) (node : Totals) (children : Trie String Totals) : Prop :=
  children.childSum Totals.total ≠ 0 → node.total = rootTotal

theorem fullWidth_of_weightless {rootTotal : ℕ} : ∀ {t : Trie String Totals}, t.childSum Totals.total = 0 →
    t.Below Holds → t.Below (FullWidth rootTotal)
  | .nil, _, _ => trivial
  | .cons name child children rest, hsum, hbelow => by
    obtain ⟨hchild, hchildren, hrest⟩ := hbelow
    obtain ⟨hzero, hsum⟩ := Nat.add_eq_zero_iff.mp hsum
    have hchildrenZero := Nat.le_zero.mp (hchild.trans_eq hzero)
    exact ⟨fun hne => absurd hchildrenZero hne, fullWidth_of_weightless hchildrenZero hchildren,
      fullWidth_of_weightless hsum hrest⟩

theorem proportional_iff {rootTotal : ℕ} (hroot : 0 < rootTotal) {width : ℚ} (hwidth : width ≠ 0) :
    ∀ {t : Trie String Totals} {path : List String} {cursor : ℚ} {y : ℕ}, t.Below Holds →
      (Proportional rootTotal width (layout rootTotal t path cursor y width) ↔ t.Below (FullWidth rootTotal))
  | .nil, _, _, _, hbelow => iff_of_true (proportional_of_weightless rfl hbelow) trivial
  | .cons name child children rest, path, cursor, y, hbelow => by
    obtain ⟨hchild, hchildren, hrest⟩ := hbelow
    have hrootNe : (rootTotal : ℚ) ≠ 0 := Nat.cast_ne_zero.mpr hroot.ne'
    rw [proportional_cons, proportional_iff hroot hwidth hrest]
    by_cases hfull : child.total = rootTotal
    · have hcw : width * child.total / rootTotal = width := by
        rw [hfull, mul_div_assoc, div_self hrootNe, mul_one]
      rw [hcw, proportional_iff hroot hwidth hchildren]
      exact ⟨fun h => ⟨fun _ => hfull, h.2⟩, fun h => ⟨rfl, h.2⟩⟩
    · have hcw : width * child.total / rootTotal ≠ width := fun hcw => by
        rw [div_eq_iff hrootNe] at hcw
        exact hfull (by exact_mod_cast mul_left_cancel₀ hwidth hcw)
      rw [proportional_iff_weightless hroot hcw hchildren]
      constructor
      · intro h
        exact ⟨fun hne => absurd h.2.1 hne, fullWidth_of_weightless h.2.1 hchildren, h.2.2⟩
      · intro h
        exact ⟨rfl, by_contra fun hne => hfull (h.1 hne), h.2.2⟩

/-! ## Zooming -/

theorem flameWidth_pos (clientWidth : ℤ) : 0 < flameWidth clientWidth :=
  lt_of_lt_of_le (by norm_num) (le_max_left (900 : ℚ) (clientWidth - 2))

theorem drawZoom_noCutOff {clientWidth : ℤ} {zoom : ViewerNode} (h : 0 < zoom.1.total) :
    drawZoom noCutOff clientWidth zoom =
      layout zoom.1.total (zoom.2.sort heavierFirst) [] 0 0 (flameWidth clientWidth) := by
  unfold drawZoom
  rw [if_neg h.ne', drawChildren_layout, List.nil_append]

theorem holds_sort (node : Totals) (children : Trie String Totals) :
    Holds node (children.sort heavierFirst) ↔ Holds node children := by
  unfold Holds
  rw [Trie.childSum_sort]

theorem fullWidth_sort (rootTotal : ℕ) (node : Totals) (children : Trie String Totals) :
    FullWidth rootTotal node (children.sort heavierFirst) ↔ FullWidth rootTotal node children := by
  unfold FullWidth
  rw [Trie.childSum_sort]

/-- **Zooming keeps widths proportional** just when no frame under a lighter one has any weight. -/
theorem drawZoom_proportional_iff (state : ViewerState) (clientWidth : ℤ) (path : List String) (zoom : ViewerNode)
    (hzoom : Trie.subtree (state.buildTree id).root path = some zoom) (hpos : 0 < zoom.1.total) :
    let width := flameWidth clientWidth
    let drawn := drawZoom noCutOff clientWidth zoom
    (drawn.map fun f => (f.path, f.node)).Perm (zoom.2.nodes []) ∧
      (Proportional zoom.1.total width drawn ∧ drawnFrames.Nested [] 0 width drawn ↔
        zoom.2.Below (FullWidth zoom.1.total)) := by
  intro width drawn
  obtain ⟨hroot, hbelow⟩ := treeOf_sumsUp (state.selected id)
  rw [buildTree_id] at hzoom
  obtain ⟨hnode, hchildren⟩ := Trie.Below.subtree hroot hbelow hzoom
  have hdrawn : drawn = layout zoom.1.total (zoom.2.sort heavierFirst) [] 0 0 width := drawZoom_noCutOff hpos
  have hsorted : (zoom.2.sort heavierFirst).Below Holds :=
    (Trie.below_sort heavierFirst holds_sort zoom.2).mpr (hchildren.imp fun _ _ h => h.holds)
  have hsum : (zoom.2.sort heavierFirst).childSum Totals.total ≤ zoom.1.total := by
    rw [Trie.childSum_sort]
    exact hnode.holds
  have hwidth : 0 < width := flameWidth_pos clientWidth
  rw [hdrawn]
  refine ⟨?_, ?_⟩
  · rw [layout_nodes]
    exact Trie.nodes_sort heavierFirst zoom.2 []
  · have hnested := layout_nested (zoom.2.sort heavierFirst) [] 0 0 hwidth.le hsum hsorted
    rw [zero_add] at hnested
    rw [and_iff_left (hnested.mono (le_refl 0) (share_le hwidth.le hsum)), proportional_iff hpos hwidth.ne' hsorted]
    exact Trie.below_sort heavierFirst (fullWidth_sort zoom.1.total) zoom.2

/-- Two samples with different outermost functions, the first of which called another. -/
def twoCallers : ViewerState where
  profile := {
    startTimeUnixMillis := none
    intervalMillis := none
    functions := ["serve", "parse", "idle"]
    stackTable := [[0, 1], [2]]
    threads := [{
      pid := "1", tid := "1", name := "main", timesMillis := [1, 2], weights := [1, 1]
      cpuDeltaMicros := [], stackIndices := [some 0, some 1] }]
    sampleCount := 2
    truncated := false }

theorem drawZoom_proportional_iff_twoCallers :
    let zoom := (twoCallers.buildTree id).root
    (Proportional zoom.1.total (flameWidth 800) (drawZoom noCutOff 800 zoom) ∧
      drawnFrames.Nested [] 0 (flameWidth 800) (drawZoom noCutOff 800 zoom) ↔
        zoom.2.Below (FullWidth zoom.1.total)) :=
  (drawZoom_proportional_iff twoCallers 800 [] _ rfl (by decide +kernel)).2

/-- The inner function has half of all samples and is drawn on a quarter of the width. -/
theorem nested_frame_too_narrow : ¬ ∀ (state : ViewerState) (clientWidth : ℤ) (path : List String) (zoom : ViewerNode),
    Trie.subtree (state.buildTree id).root path = some zoom → 0 < zoom.1.total →
      Proportional zoom.1.total (flameWidth clientWidth) (drawZoom noCutOff clientWidth zoom) ∧
        drawnFrames.Nested [] 0 (flameWidth clientWidth) (drawZoom noCutOff clientWidth zoom) := by
  intro h
  obtain ⟨hwidths, -⟩ := h twoCallers 800 [] _ rfl (by decide +kernel)
  have hinner := hwidths ⟨["serve", "parse"], ⟨1, 1⟩, 0, 1, 225⟩ (by decide +kernel)
  exact absurd hinner (by decide +kernel)

end RustProfile
