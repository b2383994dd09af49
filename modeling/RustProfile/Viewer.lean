import RustProfile.ServeGallery
import RustProfile.Lib.Binary64
import RustProfile.Lib.TrieTotals
import Mathlib.Algebra.Order.Field.Rat
import Mathlib.Data.Rat.Cast.Order

/-!
# The viewer page

The page builds a tree of the samples of the chosen threads between two times,
draws it below a node and lists the functions with most samples. The page adds
doubles: `round` makes a double of an exact result, or is `id` where numbers are
exact. The positions of the drawing are exact rationals.
-/

namespace RustProfile

open Binary64 (roundNat)

def maxTreeNodes : ℕ := 50000
def maxRenderedFrames : ℕ := 20000

/-- What the page has loaded and what is chosen in it; no thread is all of them. -/
structure ViewerState where
  profile : ViewerProfile ℚ
  thread : Option ℕ := none
  rangeStart : ℚ := 0
  rangeEnd : ℚ := 1

/-- What the profile says of a sample: the names on its stack from the root, and its numbers. -/
structure SelectedSample where
  names : List String
  weight : ℕ
  cpu : ℚ
  deriving DecidableEq

namespace ViewerState

section
variable (round : ℚ → ℚ) (self : ViewerState)

def chosenThreads : List (ViewerThread ℚ) :=
  match self.thread with
  | none => self.profile.threads
  | some i => self.profile.threads[i]?.toList

def bounds : ℚ × ℚ :=
  match self.chosenThreads.flatMap ViewerThread.timesMillis with
  | [] => (0, 1)
  | time :: times =>
    let lo := times.foldl min time
    (lo, max (round (lo + round (1 / 10000))) (times.foldl max time))

def selectedBounds : ℚ × ℚ :=
  let lo := (self.bounds round).1
  let span := round ((self.bounds round).2 - lo)
  (round (lo + round (span * self.rangeStart)), round (lo + round (span * self.rangeEnd)))

/-- An empty name is not shown either. -/
def functionName (functionIndex : ℕ) : String :=
  ((self.profile.functions[functionIndex]?).filter (· ≠ "")).getD "<unknown>"

def selectSample (thread : ViewerThread ℚ) (time : ℚ) (i : ℕ) : Option SelectedSample :=
  if time < (self.selectedBounds round).1 ∨ time > (self.selectedBounds round).2 then none
  else
    ((thread.stackIndices[i]?).join.bind (self.profile.stackTable[·]?)).map fun functions =>
      { names := functions.map self.functionName
        weight := ((thread.weights[i]?).getD 0).toNat
        cpu := (thread.cpuDeltaMicros[i]?).getD 0 }

def selected : List SelectedSample :=
  self.chosenThreads.flatMap fun thread =>
    thread.timesMillis.zipIdx.filterMap fun sample => self.selectSample round thread sample.1 sample.2

end

end ViewerState

/-! ## The tree -/

structure Totals where
  total : ℕ := 0
  self : ℕ := 0
  deriving DecidableEq, Repr

/-- A node's numbers and its children, in the order they came. -/
abbrev ViewerNode := Totals × Trie String Totals

def viewerWalk (nat : ℕ → ℕ) : Trie.Walk String Totals ℕ where
  before _ _ := false
  fresh := {}
  visit weight node := { node with total := nat (node.total + weight) }
  stop weight node := { node with self := nat (node.self + weight) }
  maxNodes := maxTreeNodes

structure BuiltTree where
  root : ViewerNode
  count : ℕ
  cpu : ℚ
  bounds : ℚ × ℚ
  treeTruncated : Bool

/-- The weight is rounded when the page reads it. -/
def SelectedSample.path (nat : ℕ → ℕ) (sample : SelectedSample) : List String × ℕ := (sample.names, nat sample.weight)

/-- The root is counted as a node. -/
def treeOf (nat : ℕ → ℕ) (samples : List SelectedSample) : ViewerNode × Trie.Budget :=
  Trie.insertAll (viewerWalk nat) (samples.map (SelectedSample.path nat)) (({}, .nil), { count := 1 })

def ViewerState.buildTree (round : ℚ → ℚ) (self : ViewerState) : BuiltTree :=
  let tree := treeOf (roundNat round) (self.selected round)
  { root := tree.1
    count := (self.selected round).length
    cpu := (self.selected round).foldl (fun cpu sample => round (cpu + sample.cpu)) 0
    bounds := self.selectedBounds round
    treeTruncated := tree.2.truncated }

/-! ## The flame graph -/

/-- A node drawn, with the names that lead to it from the node zoomed to. -/
structure DrawnNode where
  path : List String
  node : Totals
  x : ℚ
  y : ℕ
  w : ℚ
  deriving DecidableEq

/-- When a node so wide is left out, with so many drawn. -/
abbrev CutOff := ℚ → ℕ → Bool

def pageCutOff : CutOff := fun w drawn => w < 7 / 10 || drawn ≥ maxRenderedFrames

/-- The loop over the children of a node `w` wide, from `cursor` on; `rootTotal` is that of the node zoomed to. The
children of the root are drawn by the same loop. -/
def drawChildren (cutOff : CutOff) (rootTotal : ℕ) : Trie String Totals → (path : List String) → (cursor : ℚ) →
    (y : ℕ) → (w : ℚ) → (nodes : List DrawnNode) → List DrawnNode
  | .nil, _, _, _, _, nodes => nodes
  | .cons name child children rest, path, cursor, y, w, nodes =>
    let cw := w * child.total / rootTotal
    let drawn :=
      if cutOff cw nodes.length then nodes
      else
        drawChildren cutOff rootTotal children (path ++ [name]) cursor (y + 1) cw
          (nodes ++ [⟨path ++ [name], child, cursor, y, cw⟩])
    drawChildren cutOff rootTotal rest path (cursor + cw) y w drawn

def flameWidth (clientWidth : ℤ) : ℚ := max 900 (clientWidth - 2)

/-- The heaviest child is drawn first. -/
def heavierFirst (a b : Totals) : Bool := b.total ≤ a.total

def drawZoom (cutOff : CutOff) (clientWidth : ℤ) (root : ViewerNode) : List DrawnNode :=
  if root.1.total = 0 then []
  else drawChildren cutOff root.1.total (root.2.sort heavierFirst) [] 0 0 (flameWidth clientWidth) []

/-! ## The functions -/

/-- Add a node to the row of its name. -/
def addHotspot (nat : ℕ → ℕ) : List (String × Totals) → String × Totals → List (String × Totals)
  | [], node => [(node.1, ⟨nat (0 + node.2.total), nat (0 + node.2.self)⟩)]
  | row :: rows, node =>
    if row.1 = node.1 then (row.1, ⟨nat (row.2.total + node.2.total), nat (row.2.self + node.2.self)⟩) :: rows
    else row :: addHotspot nat rows node

/-- The rows of all names. -/
def hotspotRows (round : ℚ → ℚ) (root : ViewerNode) : List (String × Totals) :=
  ((root.2.nodes []).map fun node => (node.1.getLastD "", node.2)).foldl (addHotspot (roundNat round)) []

/-- The rows shown. -/
def drawHotspots (round : ℚ → ℚ) (root : ViewerNode) : List (String × Totals) :=
  ((hotspotRows round root).mergeSort fun a b => b.2.total ≤ a.2.total).take 24

end RustProfile
