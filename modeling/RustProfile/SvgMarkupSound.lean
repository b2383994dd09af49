import RustProfile.Lib.Xml
import RustProfile.SvgMarkup
import RustProfile.SvgSound

/-!
# When flame graphs are well-formed

Escaping leaves no markup in a text and can be undone. It replaces the control
characters that XML does not allow, but not the noncharacters `U+FFFE` and
`U+FFFF`, which XML does not allow either. A document is well-formed when the
title and the labels that it shows have neither.
-/

namespace RustProfile

open Xml
open Record (FlameValue)

/-! ## Numbers and colours -/

theorem plain_of_isDigit {c : Char} (h : c.isDigit = true) : PlainChar c := by
  have hrange : 48 ≤ c.toNat ∧ c.toNat ≤ 57 := by
    simpa [Char.isDigit, UInt32.le_iff_toNat_le] using h
  refine ⟨Or.inr (Or.inl (by omega)), fun hin => ?_⟩
  simp only [List.mem_cons, List.not_mem_nil, or_false] at hin
  rcases hin with rfl | rfl | rfl | rfl
  · exact absurd hrange (by decide)
  · exact absurd hrange (by decide)
  · exact absurd hrange (by decide)
  · exact absurd hrange (by decide)

theorem plainText_hexByte {n : ℕ} (h : n < 256) : PlainText (hexByte n) := by
  have hdigit : ∀ m < 16, PlainChar (Nat.digitChar m) := by decide
  exact List.forall_mem_cons.mpr ⟨hdigit _ (by omega), List.forall_mem_singleton.mpr (hdigit _ (by omega))⟩

theorem plainText_toDigits (n : ℕ) : PlainText (Nat.toDigits 10 n) := fun _ hc =>
  plain_of_isDigit (Nat.isDigit_of_mem_toDigits (by decide) (by decide) hc)

theorem plainText_fixed (decimals : ℕ) (x : ℚ) : PlainText (fixed decimals x) := by
  unfold fixed
  extract_lets scaled fraction
  refine PlainText.append (PlainText.append ?_ (plainText_toDigits _)) ?_
  · split
    · exact fun c hc => List.mem_singleton.mp hc ▸ (by decide)
    · exact List.forall_mem_nil _
  · split
    · exact List.forall_mem_nil _
    · refine List.forall_mem_cons.mpr ⟨by decide, PlainText.append (fun c hc => ?_) (plainText_toDigits _)⟩
      rw [List.eq_of_mem_replicate hc]
      decide

theorem plainText_formatValue (value : ℕ) (unit : FlameValue) : PlainText (formatValue value unit) := by
  have hs : PlainText " s".toList := plainText_ofList (by decide)
  have hms : PlainText " ms".toList := plainText_ofList (by decide)
  have hus : PlainText " µs".toList := plainText_ofList (by decide)
  have hns : PlainText " ns".toList := plainText_ofList (by decide)
  have hgib : PlainText " GiB".toList := plainText_ofList (by decide)
  have hmib : PlainText " MiB".toList := plainText_ofList (by decide)
  have hkib : PlainText " KiB".toList := plainText_ofList (by decide)
  have hb : PlainText " B".toList := plainText_ofList (by decide)
  have hnumber := plainText_fixed 2
  have hdigits := plainText_toDigits value
  cases unit with
  | nanoseconds =>
    rw [formatValue]
    split_ifs
    · exact (hnumber _).append hs
    · exact (hnumber _).append hms
    · exact (hnumber _).append hus
    · exact hdigits.append hns
  | bytes =>
    rw [formatValue]
    split_ifs
    · exact (hnumber _).append hgib
    · exact (hnumber _).append hmib
    · exact (hnumber _).append hkib
    · exact hdigits.append hb

theorem plainText_frameColor (label : String) : PlainText (frameColor label) := by
  unfold frameColor
  extract_lets hash red green blue
  have hred := plainText_hexByte (by omega : red < 256)
  have hgreen := plainText_hexByte (by omega : green < 256)
  have hblue := plainText_hexByte (by omega : blue < 256)
  exact List.forall_mem_cons.mpr ⟨by decide, (hred.append hgreen).append hblue⟩

/-! ## Escaping -/

def Clean (s : List Char) : Prop := '\uFFFE' ∉ s ∧ '\uFFFF' ∉ s

theorem clean_iff {s : List Char} : Clean s ↔ ∀ c ∈ s, c.toNat ≠ 0xFFFE ∧ c.toNat ≠ 0xFFFF := by
  constructor
  · rintro ⟨hfffe, hffff⟩ c hc
    refine ⟨fun h => hfffe ?_, fun h => hffff ?_⟩
    · rwa [← (Char.toNat_inj.mp h : c = '\uFFFE')]
    · rwa [← (Char.toNat_inj.mp h : c = '\uFFFF')]
  · intro h
    exact ⟨fun hin => (h _ hin).1 rfl, fun hin => (h _ hin).2 rfl⟩

/-- A control character that is no whitespace of XML. -/
def Control (c : Char) : Prop := isControl c = true ∧ c ∉ ['\t', '\n', '\r']

def substituted (c : Char) : Char := if isControl c ∧ c ∉ ['\t', '\n', '\r'] then '\uFFFD' else c

theorem escapeChar_cases (c : Char) : (∃ name, (name, c) ∈ predefined ∧ escapeChar c = reference name) ∨
    (c ∉ ['&', '<', '>', '\x22', '\x27'] ∧ escapeChar c = [substituted c]) := by
  by_cases hmarkup : c ∈ ['&', '<', '>', '\x22', '\x27']
  · simp only [List.mem_cons, List.not_mem_nil, or_false] at hmarkup
    rcases hmarkup with rfl | rfl | rfl | rfl | rfl
    · exact Or.inl ⟨"amp".toList, by decide, rfl⟩
    · exact Or.inl ⟨"lt".toList, by decide, rfl⟩
    · exact Or.inl ⟨"gt".toList, by decide, rfl⟩
    · exact Or.inl ⟨"quot".toList, by decide, rfl⟩
    · exact Or.inl ⟨"apos".toList, by decide, rfl⟩
  · refine Or.inr ⟨hmarkup, ?_⟩
    simp only [List.mem_cons, List.not_mem_nil, or_false, not_or] at hmarkup
    obtain ⟨hamp, hlt, hgt, hquot, hapos⟩ := hmarkup
    unfold escapeChar substituted
    rw [if_neg hamp, if_neg hlt, if_neg hgt, if_neg hquot, if_neg hapos]
    split <;> rfl

theorem escapeXml_cons (c : Char) (s : List Char) :
    escapeXml (c :: s) = escapeChar c ++ escapeXml s := List.flatMap_cons

theorem substituted_cases (c : Char) :
    (Control c ∧ substituted c = '\uFFFD') ∨ (¬ Control c ∧ substituted c = c) := by
  unfold substituted Control
  split
  · rename_i h
    exact Or.inl ⟨h, rfl⟩
  · rename_i h
    exact Or.inr ⟨h, rfl⟩

theorem substituted_unmarked {c : Char} (h : c ∉ ['&', '<', '>', '\x22', '\x27']) :
    substituted c ∉ ['&', '<', '>', '\x22', '\x27'] := by
  rcases substituted_cases c with ⟨-, hc⟩ | ⟨-, hc⟩
  · rw [hc]
    decide
  · rwa [hc]

/-- Only the noncharacters are illegal and no control characters. -/
theorem legal_substituted_iff (c : Char) : Legal (substituted c) ↔ c.toNat ≠ 0xFFFE ∧ c.toNat ≠ 0xFFFF := by
  rcases substituted_cases c with ⟨hcontrol, hc⟩ | ⟨hcontrol, hc⟩
  · have hlow : c.toNat < 0xA0 := by
      have h := hcontrol.1
      simp only [isControl, Bool.or_eq_true, Bool.and_eq_true, decide_eq_true_eq] at h
      omega
    rw [hc]
    exact iff_of_true (by decide) ⟨by omega, by omega⟩
  · rw [hc, ← not_or, ← not_iff_not, not_legal_iff, not_not]
    refine ⟨fun h => h.resolve_left ?_, Or.inr⟩
    rintro ⟨hlow, hwhite⟩
    exact hcontrol ⟨by simp [isControl, hlow], hwhite⟩

theorem escaped_escapeXml (s : List Char) : Escaped (escapeXml s) := by
  induction s with
  | nil => exact Escaped.nil
  | cons c s ih =>
    rw [escapeXml_cons]
    rcases escapeChar_cases c with ⟨name, hname, hc⟩ | ⟨hmarkup, hc⟩
    · rw [hc]
      exact (Escaped.reference hname).append ih
    · rw [hc]
      exact (Escaped.singleton (substituted_unmarked hmarkup)).append ih

theorem unescape_escapeXml (s : List Char) : unescape (escapeXml s) = s.map substituted := by
  induction s with
  | nil => exact unescape_nil
  | cons c s ih =>
    rw [escapeXml_cons, List.map_cons, ← ih]
    rcases escapeChar_cases c with ⟨name, hname, hc⟩ | ⟨hmarkup, hc⟩
    · have hkept : ∀ entity ∈ predefined, substituted entity.2 = entity.2 := by decide
      rw [hc, unescape_reference hname]
      exact congrArg (· :: unescape (escapeXml s)) (hkept (name, c) hname).symm
    · rw [hc]
      exact unescape_cons (fun h => substituted_unmarked hmarkup (h ▸ List.mem_cons_self)) _

theorem plainContent_escapeXml {s : List Char} (h : Clean s) : PlainContent (escapeXml s) := by
  rw [clean_iff] at h
  induction s with
  | nil => exact PlainContent.nil
  | cons c s ih =>
    obtain ⟨hclean, hs⟩ := List.forall_mem_cons.mp h
    rw [escapeXml_cons]
    refine PlainContent.append ?_ (ih hs)
    rcases escapeChar_cases c with ⟨name, hname, hc⟩ | ⟨hmarkup, hc⟩
    · rw [hc]
      exact PlainContent.reference hname
    · have hplain : PlainChar (substituted c) := by
        refine ⟨(legal_substituted_iff c).mpr hclean, fun hin => ?_⟩
        exact substituted_unmarked hmarkup (List.mem_append_left ['\x27'] hin)
      rw [hc]
      exact PlainText.content (List.forall_mem_singleton.mpr hplain)

/-- A noncharacter gets through. -/
theorem mem_escapeXml {s : List Char} {c : Char} (hc : escapeChar c = [c]) (h : c ∈ s) : c ∈ escapeXml s :=
  List.mem_flatMap.mpr ⟨c, h, by rw [hc]; exact List.mem_cons_self⟩

theorem clean_of_legal_escapeXml {s : List Char} (h : ∀ c ∈ escapeXml s, Legal c) : Clean s := by
  constructor
  · intro hin
    exact absurd (h _ (mem_escapeXml (by decide) hin)) (by decide)
  · intro hin
    exact absurd (h _ (mem_escapeXml (by decide) hin)) (by decide)

theorem legal_escapeXml_iff {s : List Char} : (∀ c ∈ escapeXml s, Legal c) ↔ Clean s :=
  ⟨clean_of_legal_escapeXml, fun h => Content.legal (fun _ ht c hc => (ht c hc).1) (plainContent_escapeXml h)⟩

/-- The characters that are to be replaced: those that XML does not allow, and other control characters. -/
def Replaced (c : Char) : Prop := ¬ Legal c ∨ Control c

instance Replaced.decidable : DecidablePred Replaced := fun _ =>
  inferInstanceAs (Decidable (¬ Legal _ ∨ (isControl _ = true ∧ _ ∉ ['\t', '\n', '\r'])))

structure EscapeSound (s : List Char) : Prop where
  escaped : Escaped (escapeXml s)
  legal : ∀ c ∈ escapeXml s, Legal c
  reads : unescape (escapeXml s) = s.map fun c => if Replaced c then '\uFFFD' else c

theorem escapeSound_iff (s : List Char) : EscapeSound s ↔ Clean s := by
  refine ⟨fun h => clean_of_legal_escapeXml h.legal, fun h => ⟨escaped_escapeXml s, legal_escapeXml_iff.mpr h, ?_⟩⟩
  rw [unescape_escapeXml]
  refine List.map_congr_left fun c hc => ?_
  have hlegal := (legal_substituted_iff c).mpr (clean_iff.mp h c hc)
  rcases substituted_cases c with ⟨hcontrol, hsub⟩ | ⟨hcontrol, hsub⟩
  · have hreplaced : Replaced c := Or.inr hcontrol
    rw [hsub, if_pos hreplaced]
  · rw [hsub] at hlegal
    have hkept : ¬ Replaced c := not_or.mpr ⟨not_not.mpr hlegal, hcontrol⟩
    rw [hsub, if_neg hkept]

/-! ## Labels -/

def keptPart (label : List Char) (width : ℚ) : List Char :=
  if label.length ≤ labelCapacity width then label else label.take (labelCapacity width - 1)

theorem fittedLabel_eq (label : List Char) (width : ℚ) : fittedLabel label width =
    if labelCapacity width < 3 then none
    else some (keptPart label width ++ if label.length ≤ labelCapacity width then [] else ['…']) := by
  unfold fittedLabel keptPart
  extract_lets capacity
  by_cases hnarrow : capacity < 3
  · rw [if_pos hnarrow, if_pos hnarrow]
  · rw [if_neg hnarrow, if_neg hnarrow]
    by_cases hfits : label.length ≤ capacity
    · rw [if_pos hfits, if_pos hfits, if_pos hfits, List.append_nil]
    · rw [if_neg hfits, if_neg hfits, if_neg hfits]

theorem fittedLabel_isSome (label : List Char) (width : ℚ) :
    (∃ fitted, fittedLabel label width = some fitted) ↔ 3 ≤ labelCapacity width := by
  rw [fittedLabel_eq]
  by_cases h : labelCapacity width < 3
  · rw [if_pos h]
    exact iff_of_false (fun ⟨_, hnone⟩ => Option.some_ne_none _ hnone.symm) (not_le.mpr h)
  · rw [if_neg h]
    exact iff_of_true ⟨_, rfl⟩ (not_lt.mp h)

theorem clean_fittedLabel {label fitted : List Char} {width : ℚ} (h : fittedLabel label width = some fitted) :
    Clean fitted ↔ Clean (keptPart label width) := by
  rw [fittedLabel_eq] at h
  split at h
  · cases h
  · obtain rfl := Option.some.inj h
    unfold Clean
    split <;> simp

theorem fittedLabel_sound_iff (label : List Char) (width : ℚ) :
    (∀ fitted, fittedLabel label width = some fitted → EscapeSound fitted) ↔
      (3 ≤ labelCapacity width → Clean (keptPart label width)) := by
  rw [← fittedLabel_isSome label]
  constructor
  · rintro h ⟨fitted, hfitted⟩
    exact (clean_fittedLabel hfitted).mp ((escapeSound_iff fitted).mp (h fitted hfitted))
  · intro h fitted hfitted
    exact (escapeSound_iff fitted).mpr ((clean_fittedLabel hfitted).mpr (h ⟨fitted, hfitted⟩))

theorem clean_of_clean_label {label fitted : List Char} {width : ℚ} (h : Clean label)
    (hfitted : fittedLabel label width = some fitted) : Clean fitted := by
  rw [clean_fittedLabel hfitted, keptPart]
  split
  · exact h
  · exact ⟨fun hin => h.1 (List.mem_of_mem_take hin), fun hin => h.2 (List.mem_of_mem_take hin)⟩

/-! ## Frames -/

theorem plainText_newline : PlainText ['\n'] := List.forall_mem_singleton.mpr (by decide)

namespace DrawnFrame

variable (frame : DrawnFrame) (total : ℕ) (unit : FlameValue)

def rectAttributes : List Attr :=
  [("x".toList, fixed 2 frame.x), ("y".toList, fixed 2 frame.y), ("width".toList, fixed 2 frame.width),
    ("height".toList, fixed 2 (frameHeight - 1)), ("fill".toList, frameColor frame.label)]

theorem rect_eq : frame.rect = emptyText "rect".toList frame.rectAttributes ++ ['\n'] := by
  unfold rect rectAttributes
  generalize fixed 2 frame.x = x, fixed 2 frame.y = y, fixed 2 frame.width = width, fixed 2 (frameHeight - 1) = height,
    frameColor frame.label = color
  simp [emptyText, tagText, attributeText]

theorem plainContent_rect : PlainContent frame.rect := by
  have htag : Tag "rect".toList frame.rectAttributes := by
    refine tag_of_plain ["x".toList, "y".toList, "width".toList, "height".toList, "fill".toList] rfl (by decide) ?_
    simp only [rectAttributes, List.forall_mem_cons]
    exact ⟨plainText_fixed _ _, plainText_fixed _ _, plainText_fixed _ _, plainText_fixed _ _,
      plainText_frameColor _, List.forall_mem_nil _⟩
  rw [rect_eq]
  exact (PlainContent.empty htag).append plainText_newline.content

def textAttributes : List Attr :=
  [("x".toList, fixed 2 frame.captionX), ("y".toList, fixed 2 (frame.y + 25 / 2)), ("font-size".toList, "11".toList)]

def captionText : List Char :=
  match fittedLabel frame.label.toList frame.width with
  | some label => elementText "text".toList frame.textAttributes (escapeXml label)
  | none => []

theorem caption_eq : frame.caption = frame.captionText ++ "</g>\n".toList := by
  unfold caption captionText
  cases fittedLabel frame.label.toList frame.width with
  | none => rfl
  | some label => simp [textAttributes, elementText, tagText, attributeText]

theorem plainContent_captionText (h : Clean frame.label.toList) : PlainContent frame.captionText := by
  have htag : Tag "text".toList frame.textAttributes := by
    refine tag_of_plain ["x".toList, "y".toList, "font-size".toList] rfl (by decide) ?_
    simp only [textAttributes, List.forall_mem_cons]
    exact ⟨plainText_fixed _ _, plainText_fixed _ _, plainText_ofList (by decide),
      List.forall_mem_nil _⟩
  unfold captionText
  cases hfitted : fittedLabel frame.label.toList frame.width with
  | none => exact PlainContent.nil
  | some label => exact PlainContent.element htag (plainContent_escapeXml (clean_of_clean_label h hfitted))

def inside : List Char :=
  elementText "title".toList [] (escapeXml (frame.tooltip total unit)) ++ (frame.rect ++ frame.captionText)

theorem markup_eq : frame.markup total unit = elementText "g".toList [] (frame.inside total unit) ++ ['\n'] := by
  unfold markup inside
  rw [caption_eq]
  simp [elementText, tagText]

theorem clean_tooltip_iff : Clean (frame.tooltip total unit) ↔ Clean frame.label.toList := by
  have hplain : ∀ {t : List Char}, PlainText t → '\uFFFE' ∉ t ∧ '\uFFFF' ∉ t := fun h =>
    ⟨fun hin => absurd (h _ hin).1 (by decide), fun hin => absurd (h _ hin).1 (by decide)⟩
  have hvalue := hplain (plainText_formatValue frame.value unit)
  have hpercent := fun percent => hplain (plainText_fixed 2 percent)
  simp [Clean, tooltip, hvalue, hpercent]

theorem plainContent_markup (h : Clean frame.label.toList) : PlainContent (frame.markup total unit) := by
  have htitle : Tag "title".toList [] := tag_bare (by decide)
  have hgroup : Tag "g".toList [] := tag_bare (by decide)
  have htooltip := PlainContent.element htitle (plainContent_escapeXml ((clean_tooltip_iff frame total unit).mpr h))
  have hinside := htooltip.append (frame.plainContent_rect.append (frame.plainContent_captionText h))
  rw [markup_eq]
  exact (PlainContent.element hgroup hinside).append plainText_newline.content

theorem mem_markup {c : Char} (hc : escapeChar c = [c]) (h : c ∈ frame.label.toList) : c ∈ frame.markup total unit := by
  have htooltip : c ∈ frame.tooltip total unit :=
    List.mem_append_left _ (List.mem_append_left _ (List.mem_append_left _ (List.mem_append_left _
      (List.mem_append_left _ h))))
  have hescaped := mem_escapeXml hc htooltip
  exact List.mem_append_left _ (List.mem_append_left _ (List.mem_append_left _ (List.mem_append_right _ hescaped)))

end DrawnFrame

/-! ## The document -/

theorem plainText_truncationNote (truncated : Bool) : PlainText (truncationNote truncated) := by
  unfold truncationNote
  split
  · refine PlainText.append (PlainText.append ?_ (plainText_toDigits _)) ?_
    · exact plainText_ofList (by decide)
    · exact plainText_ofList (by decide)
  · exact List.forall_mem_nil _

def svgAttributes (height : ℚ) : List Attr :=
  [("xmlns".toList, "http://www.w3.org/2000/svg".toList),
    ("viewBox".toList, "0 0 ".toList ++ fixed 0 svgWidth ++ " ".toList ++ fixed 0 height),
    ("width".toList, fixed 0 svgWidth), ("height".toList, fixed 0 height), ("role".toList, "img".toList),
    ("aria-labelledby".toList, "title description".toList)]

theorem svgOpening_eq (height : ℚ) :
    svgOpening height = tagText "svg".toList (svgAttributes height) ++ ['>', '\n'] := by
  unfold svgOpening svgAttributes
  generalize fixed 0 height = height, fixed 0 svgWidth = width
  simp [tagText, attributeText]

theorem tag_svg (height : ℚ) : Tag "svg".toList (svgAttributes height) := by
  have hxmlns : PlainText "http://www.w3.org/2000/svg".toList := plainText_ofList (by decide)
  have hzero : PlainText "0 0 ".toList := plainText_ofList (by decide)
  have hspace : PlainText " ".toList := plainText_ofList (by decide)
  have himg : PlainText "img".toList := plainText_ofList (by decide)
  have hlabel : PlainText "title description".toList := plainText_ofList (by decide)
  refine tag_of_plain ["xmlns".toList, "viewBox".toList, "width".toList, "height".toList, "role".toList,
    "aria-labelledby".toList] rfl ?_ ?_
  · simp only [String.reduceToList]
    decide
  · simp only [svgAttributes, List.forall_mem_cons]
    have hbox := ((hzero.append (plainText_fixed 0 svgWidth)).append hspace).append (plainText_fixed 0 height)
    exact ⟨hxmlns, hbox, plainText_fixed _ _, plainText_fixed _ _, himg, hlabel, List.forall_mem_nil _⟩

section
variable {escapedTitle total truncation : List Char}

theorem plainContent_svgDescription (htitle : PlainContent escapedTitle) (htotal : PlainText total)
    (htruncation : PlainText truncation) : PlainContent (svgDescription escapedTitle total truncation) := by
  have hid : PlainText "title".toList := plainText_ofList (by decide)
  have hdescription : PlainText "description".toList := plainText_ofList (by decide)
  have hintro : PlainText "Flame graph with total ".toList := plainText_ofList (by decide)
  have htitleTag : Tag "title".toList [("id".toList, "title".toList)] :=
    tag_of_plain ["id".toList] rfl (by decide) (List.forall_mem_singleton.mpr hid)
  have hdescTag : Tag "desc".toList [("id".toList, "description".toList)] :=
    tag_of_plain ["id".toList] rfl (by decide) (List.forall_mem_singleton.mpr hdescription)
  have hdesc := ((hintro.append htotal).append htruncation).content
  have heq : svgDescription escapedTitle total truncation =
      elementText "title".toList [("id".toList, "title".toList)] escapedTitle ++ ['\n'] ++
        (elementText "desc".toList [("id".toList, "description".toList)]
          ("Flame graph with total ".toList ++ total ++ truncation) ++ ['\n']) := by
    unfold svgDescription
    simp [elementText, tagText, attributeText]
  rw [heq]
  exact ((PlainContent.element htitleTag htitle).append plainText_newline.content).append
    ((PlainContent.element hdescTag hdesc).append plainText_newline.content)

def headingAttributes : List Attr :=
  [("class".toList, "heading".toList), ("x".toList, "8".toList), ("y".toList, "22".toList)]

def summaryAttributes (y : String) : List Attr :=
  [("class".toList, "summary".toList), ("x".toList, "8".toList), ("y".toList, y.toList)]

theorem tag_text {attributes : List Attr} (hnames : attributes.map Prod.fst = ["class".toList, "x".toList, "y".toList])
    (h : attributes.all (fun a => a.2.all fun c => decide (PlainChar c)) = true) : Tag "text".toList attributes :=
  tag_of_plain _ hnames (by decide) fun a ha => plainText_of_all (List.all_eq_true.mp h a ha)

theorem plainContent_svgHeading (htitle : PlainContent escapedTitle) (htotal : PlainText total)
    (htruncation : PlainText truncation) : PlainContent (svgHeading escapedTitle total truncation) := by
  have hintro : PlainText "Total: ".toList := plainText_ofList (by decide)
  have hheading : Tag "text".toList headingAttributes := tag_text rfl (by decide)
  have hsummary : Tag "text".toList (summaryAttributes "42") := tag_text rfl (by decide)
  have htotals := ((hintro.append htotal).append htruncation).content
  have heq : svgHeading escapedTitle total truncation =
      elementText "text".toList headingAttributes escapedTitle ++ ['\n'] ++
        (elementText "text".toList (summaryAttributes "42") ("Total: ".toList ++ total ++ truncation) ++ ['\n']) := by
    unfold svgHeading
    simp [headingAttributes, summaryAttributes, elementText, tagText, attributeText]
  rw [heq]
  exact ((PlainContent.element hheading htitle).append plainText_newline.content).append
    ((PlainContent.element hsummary htotals).append plainText_newline.content)

end

theorem plainContent_noSamplesNote : PlainContent noSamplesNote := by
  have htag : Tag "text".toList (summaryAttributes "72") := tag_text rfl (by decide)
  have htext : PlainText "No positive samples in this window".toList := plainText_ofList (by decide)
  have heq : noSamplesNote = elementText "text".toList (summaryAttributes "72")
      "No positive samples in this window".toList ++ ['\n'] := by
    unfold noSamplesNote
    simp [summaryAttributes, elementText, tagText, attributeText]
  rw [heq]
  exact (PlainContent.element htag htext.content).append plainText_newline.content

def backgroundAttributes : List Attr :=
  [("width".toList, "100%".toList), ("height".toList, "100%".toList), ("fill".toList, "#f7f8fb".toList)]

theorem svgStyle_eq : svgStyle = elementText "style".toList [] styleText ++ ['\n'] ++
    (emptyText "rect".toList backgroundAttributes ++ ['\n']) := by
  unfold svgStyle
  generalize styleText = style
  simp [backgroundAttributes, elementText, emptyText, tagText, attributeText]

theorem plainContent_svgStyle : PlainContent svgStyle := by
  have hstyle : Tag "style".toList [] := tag_bare (by decide)
  have hvalues : backgroundAttributes.all (fun a => a.2.all fun c => decide (PlainChar c)) = true := by decide
  have hrect : Tag "rect".toList backgroundAttributes :=
    tag_of_plain ["width".toList, "height".toList, "fill".toList] rfl (by decide) fun a ha =>
      plainText_of_all (List.all_eq_true.mp hvalues a ha)
  have htext : PlainText styleText := by
    refine PlainText.append (PlainText.append (PlainText.append (PlainText.append ?_ ?_) ?_) ?_) ?_
    · exact plainText_ofList (by decide)
    · exact plainText_ofList (by decide)
    · exact plainText_ofList (by decide)
    · exact plainText_ofList (by decide)
    · exact plainText_ofList (by decide)
  rw [svgStyle_eq]
  exact ((PlainContent.element hstyle htext.content).append plainText_newline.content).append
    ((PlainContent.empty hrect).append plainText_newline.content)

section
variable (root : FlameNode) (truncated : Bool) (title : List Char) (unit : FlameValue)

def documentFrames : List Char :=
  if root.1 = 0 then noSamplesNote
  else (renderFlamegraph Binary64.round root).flatMap fun frame => frame.markup root.1 unit

def documentInside : List Char :=
  let total := formatValue root.1 unit
  svgDescription (escapeXml title) total (truncationNote truncated) ++
    (svgStyle ++ (svgHeading (escapeXml title) total (truncationNote truncated) ++ documentFrames root unit))

def documentHeight : ℚ := headerHeight + (max (treeDepth root.2) 1 : ℕ) * frameHeight + 8

theorem flameDocument_eq : flameDocument root truncated title unit =
    elementText "svg".toList (svgAttributes (documentHeight root)) ('\n' :: documentInside root truncated title unit) ++
      ['\n'] := by
  have hclose : "</svg>\n".toList = '<' :: '/' :: ("svg".toList ++ ['>']) ++ ['\n'] := by decide
  unfold flameDocument documentInside documentFrames elementText documentHeight
  dsimp only
  rw [svgOpening_eq, hclose]
  simp only [List.append_assoc, List.cons_append, List.nil_append]

theorem plainContent_documentFrames (h : ∀ frame ∈ renderFlamegraph Binary64.round root, Clean frame.label.toList) :
    PlainContent (documentFrames root unit) := by
  unfold documentFrames
  split
  · exact plainContent_noSamplesNote
  · exact PlainContent.flatMap fun frame hframe => frame.plainContent_markup root.1 unit (h frame hframe)

theorem wellFormed_flameDocument (htitle : Clean title)
    (hframes : ∀ frame ∈ renderFlamegraph Binary64.round root, Clean frame.label.toList) :
    Document (flameDocument root truncated title unit) := by
  have hescaped := plainContent_escapeXml htitle
  have htotal := plainText_formatValue root.1 unit
  have hnote := plainText_truncationNote truncated
  have hinside : PlainContent (documentInside root truncated title unit) :=
    (plainContent_svgDescription hescaped htotal hnote).append (plainContent_svgStyle.append
      ((plainContent_svgHeading hescaped htotal hnote).append (plainContent_documentFrames root unit hframes)))
  exact ⟨_, _, _, _, tag_svg _, (plainText_newline.content.append hinside).charData,
    List.forall_mem_singleton.mpr (by decide), flameDocument_eq root truncated title unit⟩

theorem clean_of_legal_flameDocument (h : ∀ c ∈ flameDocument root truncated title unit, Legal c) :
    Clean title ∧ ∀ frame ∈ renderFlamegraph Binary64.round root, Clean frame.label.toList := by
  have hinside : ∀ c ∈ documentInside root truncated title unit, Legal c := by
    intro c hc
    refine h c ?_
    rw [flameDocument_eq]
    exact List.mem_append_left _ (List.mem_append_right _ (List.mem_cons_of_mem _
      (List.mem_append_left _ (List.mem_cons_of_mem _ hc))))
  refine ⟨clean_of_legal_escapeXml fun c hc => hinside c ?_, fun frame hframe => ?_⟩
  · exact List.mem_append_left _ (List.mem_append_left _ (List.mem_append_left _ (List.mem_append_left _
      (List.mem_append_left _ (List.mem_append_left _ (List.mem_append_right _ hc))))))
  · have hroot : root.1 ≠ 0 := by
      intro hzero
      rw [renderFlamegraph, if_pos hzero] at hframe
      cases hframe
    have hshown : ∀ c ∈ frame.markup root.1 unit, Legal c := by
      intro c hc
      have hin : c ∈ documentFrames root unit := by
        rw [documentFrames, if_neg hroot]
        exact List.mem_flatMap.mpr ⟨frame, hframe, hc⟩
      exact hinside c (List.mem_append_right _ (List.mem_append_right _ (List.mem_append_right _ hin)))
    constructor
    · intro hin
      exact absurd (hshown _ (frame.mem_markup root.1 unit (by decide) hin)) (by decide)
    · intro hin
      exact absurd (hshown _ (frame.mem_markup root.1 unit (by decide) hin)) (by decide)

end

/-! ## The labels that are shown -/

/-- A label of a frame that, like those below it, is more than a hundredth of a pixel wide. -/
def ShownLabel (round : ℚ → ℚ) : Trie String ℕ → (value : ℕ) → (width : ℚ) → String → Prop
  | .nil, _, _, _ => False
  | .cons label child children rest, value, width, l =>
    (round (1 / 100) < frameWidth round width child value ∧
      (l = label ∨ ShownLabel round children child (frameWidth round width child value) l)) ∨
      ShownLabel round rest value width l

theorem label_of_path (path : List String) (label : String) (value : ℕ) (row : ℤ) (x width : ℚ) :
    (DrawnFrame.mk (path ++ [label]) value row x width).label = label := List.getLastD_concat

section
variable {round : ℚ → ℚ} (hzero : round 0 = 0) (hcut : 0 ≤ round (1 / 100))

include hzero hcut

/-- A frame of no value is not drawn. -/
theorem pos_of_drawn {width : ℚ} {child value : ℕ} (h : round (1 / 100) < frameWidth round width child value) :
    child ≠ 0 := by
  rintro rfl
  unfold frameWidth at h
  rw [Nat.cast_zero, hzero, mul_zero, hzero, zero_div, hzero] at h
  exact absurd h (not_lt.mpr hcut)

theorem exists_drawn_iff (maxDepth : ℕ) (l : String) :
    ∀ (t : Trie String ℕ) (value : ℕ) (path : List String) (depth : ℕ) (cursor width : ℚ),
    (∃ frame ∈ renderChildren round maxDepth t value path depth cursor width, frame.label = l) ↔
      ShownLabel round t value width l
  | .nil, _, _, _, _, _ => by
    refine iff_of_false ?_ id
    rintro ⟨_, hframe, -⟩
    cases hframe
  | .cons label child children rest, value, path, depth, cursor, width => by
    have hrest := exists_drawn_iff maxDepth l rest value path depth
      (round (cursor + frameWidth round width child value)) width
    rw [renderChildren, ShownLabel, ← hrest]
    simp only [List.mem_append, or_and_right, exists_or]
    refine or_congr ?_ Iff.rfl
    by_cases hnarrow : frameWidth round width child value ≤ round (1 / 100)
    · rw [if_pos hnarrow]
      refine iff_of_false ?_ fun h => absurd h.1 (not_lt.mpr hnarrow)
      rintro ⟨_, hframe, -⟩
      cases hframe
    · have hwide := not_le.mp hnarrow
      have hchildren := exists_drawn_iff maxDepth l children child (path ++ [label]) (depth + 1) cursor
        (frameWidth round width child value)
      rw [if_neg hnarrow, if_neg (pos_of_drawn hzero hcut hwide)]
      simp only [List.mem_cons, exists_eq_or_imp, label_of_path, hwide, true_and, ← hchildren, @eq_comm _ l label]

/-- In `f64` a share of exactly a hundredth of a pixel can be drawn. -/
example : Binary64.round (1 / 100) <
    frameWidth Binary64.round (frameWidth Binary64.round svgWidth 15 360000) 3 15 := by decide +kernel

theorem clean_drawn_iff (root : FlameNode) : (∀ frame ∈ renderFlamegraph round root, Clean frame.label.toList) ↔
    (root.1 ≠ 0 → ∀ label, ShownLabel round root.2 root.1 svgWidth label → Clean label.toList) := by
  unfold renderFlamegraph
  by_cases hempty : root.1 = 0
  · simp [hempty]
  · have hdrawn := fun label => exists_drawn_iff hzero hcut (max (treeDepth root.2) 1) label root.2 root.1
      [] 0 0 svgWidth
    rw [if_neg hempty]
    constructor
    · intro h _ label hlabel
      obtain ⟨frame, hframe, rfl⟩ := (hdrawn label).mpr hlabel
      exact h frame hframe
    · intro h frame hframe
      exact h hempty frame.label ((hdrawn frame.label).mp ⟨frame, hframe, rfl⟩)

end

def ShowsClean (profile : FlameProfile) (valueIndex : ℕ) (title : String) : Prop :=
  let root := (profile.flameTree valueIndex).1
  Clean title.toList ∧
    (root.1 ≠ 0 → ∀ label, ShownLabel Binary64.round root.2 root.1 svgWidth label → Clean label.toList)

/-- Without the two noncharacters, and only then, escaping is sound and the document well-formed. -/
theorem flamegraph_wellFormed_iff (s label : List Char) (width : ℚ) (profile : FlameProfile) (valueIndex : ℕ)
    (title : String) (unit : FlameValue) :
    (EscapeSound s ↔ Clean s) ∧
    ((∀ fitted, fittedLabel label width = some fitted → EscapeSound fitted) ↔
      (3 ≤ labelCapacity width → Clean (keptPart label width))) ∧
    (Document (renderFlamegraphTo profile valueIndex title unit) ↔ ShowsClean profile valueIndex title) ∧
    ((∀ c ∈ renderFlamegraphTo profile valueIndex title unit, Legal c) ↔ ShowsClean profile valueIndex title) := by
  have hdrawn := clean_drawn_iff Binary64.round_zero (Binary64.round_nonneg (by norm_num : (0 : ℚ) ≤ 1 / 100))
    (profile.flameTree valueIndex).1
  have hwell : ShowsClean profile valueIndex title → Document (renderFlamegraphTo profile valueIndex title unit) := by
    rintro ⟨htitle, hlabels⟩
    exact wellFormed_flameDocument _ _ _ _ htitle (hdrawn.mpr hlabels)
  have hlegal : (∀ c ∈ renderFlamegraphTo profile valueIndex title unit, Legal c) →
      ShowsClean profile valueIndex title := by
    intro h
    obtain ⟨htitle, hframes⟩ := clean_of_legal_flameDocument _ _ _ _ h
    exact ⟨htitle, hdrawn.mp hframes⟩
  exact ⟨escapeSound_iff s, fittedLabel_sound_iff label width, ⟨fun h => hlegal h.legal, hwell⟩,
    ⟨hlegal, fun h => (hwell h).legal⟩⟩

def noncharacterName : FlameProfile where
  sample := [⟨[1], [7], []⟩]
  location := [⟨1, 0, 0x1000, [⟨1, 0, 0⟩], false⟩]
  function := [⟨1, 1⟩]
  stringTable := ["", "\uFFFE"]

theorem noncharacter_gets_through : ¬ EscapeSound ['\uFFFE'] ∧
    ¬ Document (renderFlamegraphTo noncharacterName 0 "CPU flame graph" .nanoseconds) := by
  refine ⟨fun h => absurd (h.legal '\uFFFE' (by decide)) (by decide), fun h => ?_⟩
  obtain ⟨-, hframes⟩ := clean_of_legal_flameDocument _ _ _ _ h.legal
  have hlabels : (renderFlamegraph Binary64.round (noncharacterName.flameTree 0).1).map DrawnFrame.label =
      ["\uFFFE"] := by
    decide +kernel
  obtain ⟨frame, hframe, hlabel⟩ := List.mem_map.mp (hlabels ▸ List.mem_cons_self : "\uFFFE" ∈ _)
  have hclean := hframes frame hframe
  rw [hlabel] at hclean
  exact hclean.1 (by decide)

end RustProfile
