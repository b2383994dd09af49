import RustProfile.Pprof
import RustProfile.DwarfUnwinder
import RustProfile.Lib.Table
import RustProfile.Lib.Trie
import Mathlib.Data.Rat.Cast.Order

/-!
# SVG flame graphs

The samples of a profile go into a tree by their labels, root first, until the
tree has `maxSvgNodes` frames. A frame is as wide as its share of its parent.
`round` makes an `f64` of an exact result, or is `id` where widths are exact.
-/

namespace RustProfile

def svgWidth : ℚ := 1200
def maxSvgNodes : ℕ := 100000

/-- A function whose name can be any number. -/
structure FlameFunction where
  id : ℕ
  name : ℤ
  deriving DecidableEq, Repr

/-- What a flame graph reads of a profile. -/
structure FlameProfile where
  sample : List Sample
  location : List Location
  function : List FlameFunction
  stringTable : List String

def Profile.flame (self : Profile) : FlameProfile where
  sample := self.sample
  location := self.location
  function := self.function.map fun function => ⟨function.id, function.name⟩
  stringTable := self.stringTable

/-- A map collected from entries, of which the last with a key counts. -/
def collectTable {K V : Type} [DecidableEq K] (entries : List (K × V)) : Table K V :=
  entries.foldl (fun table entry => table.insert entry.1 entry.2) ∅

namespace FlameProfile

section
variable (self : FlameProfile)

def locations : Table ℕ Location := collectTable (self.location.map fun location => (location.id, location))

def functions : Table ℕ FlameFunction := collectTable (self.function.map fun function => (function.id, function))

/-- `usize::try_from`. -/
def tryIndex (n : ℤ) : Option ℕ := if 0 ≤ n then some n.toNat else none

def lineLabel (location : Location) (line : Line) : String :=
  ((((self.functions.lookup line.functionId).bind fun function => tryIndex function.name).bind
    (self.stringTable[·]?)).filter (· ≠ "")).getD (lowerHex location.address)

/-- The labels of a sample, root first. -/
def sampleFrames (sample : Sample) : List String :=
  sample.locationId.reverse.flatMap fun id =>
    match self.locations.lookup id with
    | none => []
    | some location =>
      if location.line = [] then [lowerHex location.address] else location.line.reverse.map (self.lineLabel location)

def sampleValue (valueIndex : ℕ) (sample : Sample) : Option ℕ :=
  (sample.value[valueIndex]?.bind tryIndex).filter (· ≠ 0)

def counted (valueIndex : ℕ) : List (List String × ℕ) :=
  self.sample.filterMap fun sample =>
    (sampleValue valueIndex sample).map fun value => (self.sampleFrames sample, value)

end

end FlameProfile

/-! ## The tree -/

/-- A node's value and its children, in the order of their labels. -/
abbrev FlameNode := ℕ × Trie String ℕ

def flameWalk : Trie.Walk String ℕ ℕ where
  before a b := a < b
  fresh := 0
  visit value total := saturatingAddU64 total value
  stop _ total := total
  maxNodes := maxSvgNodes

def insertSample (root : FlameNode) (frames : List String) (value : ℕ) (budget : Trie.Budget) :
    FlameNode × Trie.Budget := Trie.insert flameWalk value frames root budget

def FlameProfile.flameTree (self : FlameProfile) (valueIndex : ℕ) : FlameNode × Trie.Budget :=
  (self.counted valueIndex).foldl (fun tree s => insertSample tree.1 s.1 s.2 tree.2) ((0, .nil), {})

def treeDepth : Trie String ℕ → ℕ
  | .nil => 0
  | .cons _ _ children rest => max (1 + treeDepth children) (treeDepth rest)

/-! ## Rendering -/

/-- A frame drawn, with the labels that lead to it; `row` counts from the top. -/
structure DrawnFrame where
  path : List String
  value : ℕ
  row : ℤ
  x : ℚ
  width : ℚ
  deriving DecidableEq

def frameWidth (round : ℚ → ℚ) (width : ℚ) (child value : ℕ) : ℚ :=
  round (round (width * round child) / round value)

/-- The loop of `render_children` from `cursor` on, for a node of the given value and width. -/
def renderChildren (round : ℚ → ℚ) (maxDepth : ℕ) : Trie String ℕ → (value : ℕ) → (path : List String) →
    (depth : ℕ) → (cursor : ℚ) → (width : ℚ) → List DrawnFrame
  | .nil, _, _, _, _, _ => []
  | .cons label child children rest, value, path, depth, cursor, width =>
    let childWidth := frameWidth round width child value
    (if childWidth ≤ round (1 / 100) then []
      else ⟨path ++ [label], child, maxDepth - depth - 1, cursor, childWidth⟩ ::
        if child = 0 then []
        else renderChildren round maxDepth children child (path ++ [label]) (depth + 1) cursor childWidth) ++
      renderChildren round maxDepth rest value path depth (round (cursor + childWidth)) width

/-- Nothing is drawn without a positive sample. -/
def renderFlamegraph (round : ℚ → ℚ) (root : FlameNode) : List DrawnFrame :=
  if root.1 = 0 then []
  else renderChildren round (max (treeDepth root.2) 1) root.2 root.1 [] 0 0 svgWidth

end RustProfile
