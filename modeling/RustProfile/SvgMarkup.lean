import RustProfile.Lib.Binary64
import RustProfile.Record
import RustProfile.Svg

/-!
# The markup of a flame graph

The document that `render_flamegraph_to` writes around the frames that it
draws, with `f64` throughout. Rows stand at whole numbers, and half ones, that
are exact. The decimals of a number are those of its exact value.
-/

namespace RustProfile

open Record (FlameValue)

/-! ## Numbers -/

def roundHalfEven (x : ℚ) : ℕ :=
  let quotient := x.num.natAbs / x.den
  let twice := 2 * (x.num.natAbs % x.den)
  if x.den < twice ∨ (x.den = twice ∧ quotient % 2 = 1) then quotient + 1 else quotient

/-- The number with so many decimals. -/
def fixed (decimals : ℕ) (x : ℚ) : List Char :=
  let scaled := roundHalfEven (x * 10 ^ decimals)
  let fraction := Nat.toDigits 10 (scaled % 10 ^ decimals)
  (if x < 0 then ['-'] else []) ++ Nat.toDigits 10 (scaled / 10 ^ decimals) ++
    if decimals = 0 then [] else '.' :: (List.replicate (decimals - fraction.length) '0' ++ fraction)

def hexByte (n : ℕ) : List Char := [Nat.digitChar (n / 16), Nat.digitChar (n % 16)]

/-! ## Texts -/

def quotient (value unit : ℕ) : ℚ := Binary64.round (Binary64.round value / unit)

def formatValue (value : ℕ) : FlameValue → List Char
  | .nanoseconds =>
    if 1000000000 ≤ value then fixed 2 (quotient value 1000000000) ++ " s".toList
    else if 1000000 ≤ value then fixed 2 (quotient value 1000000) ++ " ms".toList
    else if 1000 ≤ value then fixed 2 (quotient value 1000) ++ " µs".toList
    else Nat.toDigits 10 value ++ " ns".toList
  | .bytes =>
    if 1024 * 1024 * 1024 ≤ value then fixed 2 (quotient value (1024 * 1024 * 1024)) ++ " GiB".toList
    else if 1024 * 1024 ≤ value then fixed 2 (quotient value (1024 * 1024)) ++ " MiB".toList
    else if 1024 ≤ value then fixed 2 (quotient value 1024) ++ " KiB".toList
    else Nat.toDigits 10 value ++ " B".toList

/-- A hash of the label's bytes, as a warm colour. -/
def frameColor (label : String) : List Char :=
  let hash : UInt32 := label.toUTF8.data.foldl (fun hash byte => (hash * 16777619) ^^^ byte.toUInt32) 2166136261
  let red := 210 + hash.toNat % 35
  let green := 80 + (hash.toNat >>> 8) % 95
  let blue := 55 + (hash.toNat >>> 16) % 45
  '#' :: (hexByte red ++ hexByte green ++ hexByte blue)

/-- `char::is_control`. -/
def isControl (c : Char) : Bool := c.toNat < 0x20 || (0x7F ≤ c.toNat && c.toNat < 0xA0)

def escapeChar (c : Char) : List Char :=
  if c = '&' then "&amp;".toList
  else if c = '<' then "&lt;".toList
  else if c = '>' then "&gt;".toList
  else if c = '\x22' then "&quot;".toList
  else if c = '\x27' then "&apos;".toList
  else if isControl c ∧ c ∉ ['\t', '\n', '\r'] then ['\uFFFD']
  else [c]

def escapeXml (value : List Char) : List Char := value.flatMap escapeChar

def labelCapacity (width : ℚ) : ℕ := (Binary64.round (width / 7)).floor.toNat

/-- A label that is too long ends in an ellipsis. -/
def fittedLabel (label : List Char) (width : ℚ) : Option (List Char) :=
  let capacity := labelCapacity width
  if capacity < 3 then none
  else if label.length ≤ capacity then some label
  else some (label.take (capacity - 1) ++ ['…'])

/-! ## The document -/

def headerHeight : ℚ := 54
def frameHeight : ℚ := 18

namespace DrawnFrame

variable (frame : DrawnFrame)

def label : String := frame.path.getLastD ""

def y : ℚ := headerHeight + frame.row * frameHeight

def tooltip (total : ℕ) (unit : FlameValue) : List Char :=
  frame.label.toList ++ " — ".toList ++ formatValue frame.value unit ++ " (".toList ++
    fixed 2 (Binary64.round (Binary64.round (Binary64.round frame.value * 100) / Binary64.round total)) ++ "%)".toList

def rect : List Char :=
  "<rect x=\"".toList ++ fixed 2 frame.x ++ "\" y=\"".toList ++ fixed 2 frame.y ++ "\" width=\"".toList ++
    fixed 2 frame.width ++ "\" height=\"".toList ++ fixed 2 (frameHeight - 1) ++ "\" fill=\"".toList ++
    frameColor frame.label ++ "\"/>\n".toList

def captionX : ℚ := Binary64.round (frame.x + 3)

def caption : List Char :=
  match fittedLabel frame.label.toList frame.width with
  | some label =>
    "<text x=\"".toList ++ fixed 2 frame.captionX ++ "\" y=\"".toList ++ fixed 2 (frame.y + 25 / 2) ++
      "\" font-size=\"11\">".toList ++ escapeXml label ++ "</text></g>\n".toList
  | none => "</g>\n".toList

def markup (total : ℕ) (unit : FlameValue) : List Char :=
  "<g><title>".toList ++ escapeXml (frame.tooltip total unit) ++ "</title>".toList ++ frame.rect ++ frame.caption

end DrawnFrame

def truncationNote (truncated : Bool) : List Char :=
  if truncated then "; visualization limited to ".toList ++ Nat.toDigits 10 maxSvgNodes ++ " frames".toList else []

def svgOpening (height : ℚ) : List Char :=
  "<svg xmlns=\"http://www.w3.org/2000/svg\" viewBox=\"0 0 ".toList ++ fixed 0 svgWidth ++ " ".toList ++
    fixed 0 height ++ "\" width=\"".toList ++ fixed 0 svgWidth ++ "\" height=\"".toList ++ fixed 0 height ++
    "\" role=\"img\" aria-labelledby=\"title description\">\n".toList

def svgDescription (escapedTitle total truncation : List Char) : List Char :=
  "<title id=\"title\">".toList ++ escapedTitle ++ "</title>\n".toList ++
    "<desc id=\"description\">Flame graph with total ".toList ++ total ++ truncation ++ "</desc>\n".toList

def styleText : List Char :=
  "text\x7bfont-family:ui-monospace,SFMono-Regular,".toList ++ "Menlo,Consolas,monospace;fill:#172033\x7d".toList ++
    ".heading\x7bfont:600 18px system-ui,sans-serif\x7d".toList ++
      ".summary\x7bfont:12px system-ui,sans-serif;".toList ++
    "fill:#536078\x7drect\x7bstroke:#fff;stroke-width:.5\x7d".toList

def svgStyle : List Char :=
  "<style>".toList ++ styleText ++ "</style>\n".toList ++
    "<rect width=\"100%\" height=\"100%\" fill=\"#f7f8fb\"/>\n".toList

def svgHeading (escapedTitle total truncation : List Char) : List Char :=
  "<text class=\"heading\" x=\"8\" y=\"22\">".toList ++ escapedTitle ++ "</text>\n".toList ++
    "<text class=\"summary\" x=\"8\" y=\"42\">Total: ".toList ++ total ++ truncation ++ "</text>\n".toList

def noSamplesNote : List Char :=
  "<text class=\"summary\" x=\"8\" y=\"72\">No positive samples in this window</text>\n".toList

def flameDocument (root : FlameNode) (truncated : Bool) (title : List Char) (unit : FlameValue) : List Char :=
  let depth := max (treeDepth root.2) 1
  let height := headerHeight + depth * frameHeight + 8
  let escapedTitle := escapeXml title
  let total := formatValue root.1 unit
  let truncation := truncationNote truncated
  svgOpening height ++ svgDescription escapedTitle total truncation ++ svgStyle ++
    svgHeading escapedTitle total truncation ++
    (if root.1 = 0 then noSamplesNote
      else (renderFlamegraph Binary64.round root).flatMap fun frame => frame.markup root.1 unit) ++
    "</svg>\n".toList

def renderFlamegraphTo (profile : FlameProfile) (valueIndex : ℕ) (title : String) (unit : FlameValue) : List Char :=
  let tree := profile.flameTree valueIndex
  flameDocument tree.1 tree.2.truncated title.toList unit

end RustProfile
