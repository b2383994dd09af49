import Mathlib.Data.List.Infix

/-!
# XML 1.0

The productions for elements with attributes, character data and references to
the predefined entities. There are no comments, sections, instructions or
document types.
-/

namespace Xml

/-! ## Characters -/

/-- `Char`. -/
def Legal (c : Char) : Prop :=
  c ∈ ['\t', '\n', '\r'] ∨ (0x20 ≤ c.toNat ∧ c.toNat ≤ 0xD7FF) ∨ (0xE000 ≤ c.toNat ∧ c.toNat ≤ 0xFFFD) ∨
    (0x10000 ≤ c.toNat ∧ c.toNat ≤ 0x10FFFF)

scoped instance decidableLegal : DecidablePred Legal := fun _ => instDecidableOr

theorem legal_of_all {t : List Char} (h : t.all (fun c => decide (Legal c)) = true) : ∀ c ∈ t, Legal c :=
  fun c hc => of_decide_eq_true (List.all_eq_true.mp h c hc)

/-- What is no character of XML: controls, and two of the noncharacters. -/
theorem not_legal_iff (c : Char) :
    ¬ Legal c ↔ (c.toNat < 0x20 ∧ c ∉ ['\t', '\n', '\r']) ∨ c.toNat = 0xFFFE ∨ c.toNat = 0xFFFF := by
  have hvalid : c.toNat < 0xD800 ∨ 0xDFFF < c.toNat ∧ c.toNat < 0x110000 := c.valid
  have hwhite : c ∈ ['\t', '\n', '\r'] → c.toNat < 0x20 := by
    intro h
    simp only [List.mem_cons, List.not_mem_nil, or_false] at h
    rcases h with rfl | rfl | rfl <;> decide
  unfold Legal
  by_cases h : c ∈ ['\t', '\n', '\r']
  · have hlow := hwhite h
    simp only [h, true_or, not_true_eq_false, and_false, false_or, false_iff]
    omega
  · simp only [h, false_or, not_false_eq_true, and_true]
    omega

/-- Ranges of `NameStartChar`. -/
def nameStartRanges : List (ℕ × ℕ) :=
  [(0x3A, 0x3A), (0x41, 0x5A), (0x5F, 0x5F), (0x61, 0x7A), (0xC0, 0xD6), (0xD8, 0xF6), (0xF8, 0x2FF), (0x370, 0x37D),
    (0x37F, 0x1FFF), (0x200C, 0x200D), (0x2070, 0x218F), (0x2C00, 0x2FEF), (0x3001, 0xD7FF), (0xF900, 0xFDCF),
    (0xFDF0, 0xFFFD), (0x10000, 0xEFFFF)]

/-- Ranges of `NameChar` that no name starts with. -/
def nameRanges : List (ℕ × ℕ) := [(0x2D, 0x2E), (0x30, 0x39), (0xB7, 0xB7), (0x300, 0x36F), (0x203F, 0x2040)]

def InRanges (ranges : List (ℕ × ℕ)) (c : Char) : Prop := ∃ range ∈ ranges, range.1 ≤ c.toNat ∧ c.toNat ≤ range.2

def inRanges (ranges : List (ℕ × ℕ)) (c : Char) : Bool :=
  ranges.any fun range => range.1 ≤ c.toNat && c.toNat ≤ range.2

theorem inRanges_of_check {ranges : List (ℕ × ℕ)} {c : Char} (h : inRanges ranges c = true) : InRanges ranges c := by
  obtain ⟨range, hrange, hin⟩ := List.any_eq_true.mp h
  rw [Bool.and_eq_true, decide_eq_true_eq, decide_eq_true_eq] at hin
  exact ⟨range, hrange, hin⟩

theorem legal_of_inRanges {c : Char} (h : InRanges (nameStartRanges ++ nameRanges) c) : Legal c := by
  obtain ⟨range, hrange, hlow, hhigh⟩ := h
  have hall : ∀ range ∈ nameStartRanges ++ nameRanges, (0x20 ≤ range.1 ∧ range.2 ≤ 0xD7FF) ∨
      (0xE000 ≤ range.1 ∧ range.2 ≤ 0xFFFD) ∨ (0x10000 ≤ range.1 ∧ range.2 ≤ 0x10FFFF) := by decide
  have := hall range hrange
  unfold Legal
  omega

/-- `Name`. -/
structure Name (name : List Char) : Prop where
  ne_nil : name ≠ []
  start : ∀ c ∈ name.head?, InRanges nameStartRanges c
  rest : ∀ c ∈ name, InRanges (nameStartRanges ++ nameRanges) c

def isName (name : List Char) : Bool :=
  !name.isEmpty && name.head?.all (inRanges nameStartRanges) && name.all (inRanges (nameStartRanges ++ nameRanges))

theorem name_of_isName {name : List Char} (h : isName name = true) : Name name := by
  unfold isName at h
  rw [Bool.and_eq_true, Bool.and_eq_true] at h
  obtain ⟨⟨hne, hstart⟩, hrest⟩ := h
  refine ⟨by simpa using hne, fun c hc => ?_, fun c hc => inRanges_of_check (List.all_eq_true.mp hrest c hc)⟩
  rw [Option.mem_def.mp hc] at hstart
  exact inRanges_of_check hstart

/-- `S`. -/
def Space (s : List Char) : Prop := ∀ c ∈ s, c ∈ [' ', '\t', '\n', '\r']

theorem Space.legal {s : List Char} (h : Space s) : ∀ c ∈ s, Legal c := by
  intro c hc
  have hmem := h c hc
  simp only [List.mem_cons, List.not_mem_nil, or_false] at hmem
  rcases hmem with rfl | rfl | rfl | rfl <;> decide

/-! ## References -/

/-- The predefined entities, and what they stand for. -/
def predefined : List (List Char × Char) :=
  [("amp".toList, '&'), ("lt".toList, '<'), ("gt".toList, '>'), ("quot".toList, '\x22'), ("apos".toList, '\x27')]

def reference (name : List Char) : List Char := '&' :: (name ++ [';'])

/-- References replaced by what they stand for. -/
def unescape : List Char → List Char
  | [] => []
  | c :: rest =>
    match predefined.find? fun entity => reference entity.1 <+: c :: rest with
    | some entity => entity.2 :: unescape (rest.drop (entity.1.length + 1))
    | none => c :: unescape rest
  termination_by s => s.length
  decreasing_by
    · simp only [List.length_drop, List.length_cons]
      omega
    · exact Nat.lt_succ_self _

theorem unescape_nil : unescape [] = [] := by rw [unescape]

theorem unescape_cons {c : Char} (hc : c ≠ '&') (rest : List Char) : unescape (c :: rest) = c :: unescape rest := by
  have hnone : predefined.find? (fun entity => reference entity.1 <+: c :: rest) = none := by
    rw [List.find?_eq_none]
    intro entity _ hstarts
    obtain ⟨_, h⟩ := of_decide_eq_true hstarts
    exact hc (List.cons.inj h).1.symm
  rw [unescape, hnone]

theorem unescape_reference {name : List Char} {c : Char} (h : (name, c) ∈ predefined) (rest : List Char) :
    unescape (reference name ++ rest) = c :: unescape rest := by
  have hfind : predefined.find? (fun entity => reference entity.1 <+: reference name ++ rest) = some (name, c) := by
    simp only [predefined, List.mem_cons, Prod.mk.injEq, List.not_mem_nil, or_false] at h
    rcases h with ⟨rfl, rfl⟩ | ⟨rfl, rfl⟩ | ⟨rfl, rfl⟩ | ⟨rfl, rfl⟩ | ⟨rfl, rfl⟩ <;> rfl
  have hdrop : (name ++ [';'] ++ rest).drop (name.length + 1) = rest := by
    rw [List.drop_left' (by simp)]
  have hcons : reference name ++ rest = '&' :: (name ++ [';'] ++ rest) := rfl
  rw [hcons] at hfind ⊢
  rw [unescape, hfind]
  exact congrArg (fun tail => c :: unescape tail) hdrop

/-- `Reference`. -/
def Reference (r : List Char) : Prop := ∃ entity ∈ predefined, r = reference entity.1

theorem Reference.legal {r : List Char} (h : Reference r) : ∀ c ∈ r, Legal c := by
  obtain ⟨entity, hentity, rfl⟩ := h
  have hall : predefined.all (fun entity => (reference entity.1).all fun c => decide (Legal c)) = true := by decide
  exact legal_of_all (List.all_eq_true.mp hall entity hentity)

/-- No character that would be read as markup, but in references. -/
structure Escaped (t : List Char) : Prop where
  no_markup : ∀ c ∈ t, c ∉ ['<', '>', '\x22', '\x27']
  references : ∀ before rest, t = before ++ '&' :: rest → ∃ entity ∈ predefined, entity.1 ++ [';'] <+: rest

namespace Escaped

theorem nil : Escaped [] :=
  ⟨List.forall_mem_nil _, fun before _ h => absurd h (by simp)⟩

theorem append {s t : List Char} (hs : Escaped s) (ht : Escaped t) : Escaped (s ++ t) := by
  refine ⟨List.forall_mem_append.mpr ⟨hs.no_markup, ht.no_markup⟩, fun before rest h => ?_⟩
  rcases List.append_eq_append_iff.mp h with ⟨middle, rfl, hrest⟩ | ⟨middle, hs', hrest⟩
  · exact ht.references middle rest hrest
  · cases middle with
    | nil => exact ht.references [] rest hrest.symm
    | cons c middle =>
      obtain ⟨rfl, rfl⟩ := List.cons.inj hrest
      obtain ⟨entity, hentity, hstarts⟩ := hs.references before middle hs'
      exact ⟨entity, hentity, hstarts.trans (List.prefix_append _ _)⟩

theorem singleton {c : Char} (h : c ∉ ['&', '<', '>', '\x22', '\x27']) : Escaped [c] := by
  obtain ⟨hamp, hrest⟩ := not_or.mp (mt List.mem_cons.mpr h)
  refine ⟨List.forall_mem_singleton.mpr hrest, fun before rest heq => absurd ?_ hamp⟩
  cases before with
  | nil => exact (List.cons.inj heq).1
  | cons b before => simp at heq

theorem reference {name : List Char} {c : Char} (h : (name, c) ∈ predefined) : Escaped (reference name) := by
  have hplain : predefined.all (fun entity => (entity.1 ++ [';']).all fun c =>
      decide (c ∉ ['&', '<', '>', '\x22', '\x27'])) = true := by decide
  have hname : ∀ d ∈ name ++ [';'], d ∉ ['&', '<', '>', '\x22', '\x27'] := fun d hd =>
    of_decide_eq_true (List.all_eq_true.mp (List.all_eq_true.mp hplain (name, c) h) d hd)
  refine ⟨List.forall_mem_cons.mpr ⟨by decide, fun d hd hin => ?_⟩, fun before rest heq => ?_⟩
  · exact hname d hd (List.mem_cons_of_mem _ hin)
  · cases before with
    | nil =>
      obtain ⟨-, rfl⟩ := List.cons.inj heq
      exact ⟨(name, c), h, List.prefix_refl _⟩
    | cons b before =>
      obtain ⟨-, hinside⟩ := List.cons.inj heq
      -- A second ampersand would be one inside the name.
      have hamp : '&' ∈ name ++ [';'] := by rw [hinside]; simp
      exact absurd List.mem_cons_self (hname '&' hamp)

end Escaped

/-! ## Attributes -/

/-- `AttValue`, between double quotes. -/
inductive AttValue : List Char → Prop
  | nil : AttValue []
  | char {c : Char} {v : List Char} : Legal c → c ∉ ['<', '&', '\x22'] → AttValue v → AttValue (c :: v)
  | reference {r v : List Char} : Reference r → AttValue v → AttValue (r ++ v)

theorem AttValue.legal {v : List Char} (h : AttValue v) : ∀ c ∈ v, Legal c := by
  induction h with
  | nil => exact List.forall_mem_nil _
  | char hc _ _ ih => exact List.forall_mem_cons.mpr ⟨hc, ih⟩
  | reference hr _ ih => exact List.forall_mem_append.mpr ⟨hr.legal, ih⟩

abbrev Attr := List Char × List Char

def attributeText (a : Attr) : List Char := ' ' :: (a.1 ++ '=' :: '\x22' :: (a.2 ++ ['\x22']))

/-- What a tag begins with. -/
structure Tag (name : List Char) (attributes : List Attr) : Prop where
  name : Name name
  names : ∀ a ∈ attributes, Name a.1
  values : ∀ a ∈ attributes, AttValue a.2
  unique : (attributes.map Prod.fst).Nodup

def tagText (name : List Char) (attributes : List Attr) : List Char :=
  '<' :: (name ++ attributes.flatMap attributeText)

theorem Tag.legal {name : List Char} {attributes : List Attr} (h : Tag name attributes) :
    ∀ c ∈ tagText name attributes, Legal c := by
  have hname : ∀ {name : List Char}, Name name → ∀ c ∈ name, Legal c := fun h c hc => legal_of_inRanges (h.rest c hc)
  refine List.forall_mem_cons.mpr ⟨by decide, List.forall_mem_append.mpr ⟨hname h.name, fun c hc => ?_⟩⟩
  obtain ⟨a, ha, hc⟩ := List.mem_flatMap.mp hc
  have hquoted : ∀ c ∈ '=' :: '\x22' :: (a.2 ++ ['\x22']), Legal c :=
    List.forall_mem_cons.mpr ⟨by decide, List.forall_mem_cons.mpr ⟨by decide,
      List.forall_mem_append.mpr ⟨(h.values a ha).legal, List.forall_mem_singleton.mpr (by decide)⟩⟩⟩
  have hall : ∀ c ∈ attributeText a, Legal c :=
    List.forall_mem_cons.mpr ⟨by decide, List.forall_mem_append.mpr ⟨hname (h.names a ha), hquoted⟩⟩
  exact hall c hc

/-! ## Content -/

/-- `CharData`. -/
structure CharData (t : List Char) : Prop where
  legal : ∀ c ∈ t, Legal c
  no_markup : ∀ c ∈ t, c ∉ ['<', '&']
  no_section_end : ¬ [']', ']', '>'] <:+: t

def elementText (name : List Char) (attributes : List Attr) (inside : List Char) : List Char :=
  tagText name attributes ++ '>' :: (inside ++ '<' :: '/' :: (name ++ ['>']))

def emptyText (name : List Char) (attributes : List Attr) : List Char := tagText name attributes ++ ['/', '>']

/-- `content`, with `data` for the character data. -/
inductive Content (data : List Char → Prop) : List Char → Prop
  | text {t : List Char} : data t → Content data t
  | reference {t r rest : List Char} : data t → Reference r → Content data rest → Content data (t ++ (r ++ rest))
  | empty {t name rest : List Char} {attributes : List Attr} : data t → Tag name attributes → Content data rest →
      Content data (t ++ (emptyText name attributes ++ rest))
  | element {t name inside rest : List Char} {attributes : List Attr} : data t → Tag name attributes →
      Content data inside → Content data rest → Content data (t ++ (elementText name attributes inside ++ rest))

/-- A document: an element, and blank lines behind it. -/
def Document (document : List Char) : Prop :=
  ∃ name attributes inside blank, Tag name attributes ∧ Content CharData inside ∧ Space blank ∧
    document = elementText name attributes inside ++ blank

theorem elementText_legal {name inside : List Char} {attributes : List Attr} (htag : Tag name attributes)
    (h : ∀ c ∈ inside, Legal c) : ∀ c ∈ elementText name attributes inside, Legal c := by
  have hname : ∀ c ∈ name, Legal c := fun c hc => legal_of_inRanges (htag.name.rest c hc)
  have hend : ∀ c ∈ '<' :: '/' :: (name ++ ['>']), Legal c :=
    List.forall_mem_cons.mpr ⟨by decide, List.forall_mem_cons.mpr ⟨by decide,
      List.forall_mem_append.mpr ⟨hname, List.forall_mem_singleton.mpr (by decide)⟩⟩⟩
  exact List.forall_mem_append.mpr ⟨htag.legal,
    List.forall_mem_cons.mpr ⟨by decide, List.forall_mem_append.mpr ⟨h, hend⟩⟩⟩

namespace Content

variable {data : List Char → Prop} {s t : List Char}

theorem legal (hdata : ∀ t, data t → ∀ c ∈ t, Legal c) (h : Content data t) : ∀ c ∈ t, Legal c := by
  induction h with
  | text ht => exact hdata _ ht
  | reference ht hr _ ih => exact List.forall_mem_append.mpr ⟨hdata _ ht, List.forall_mem_append.mpr ⟨hr.legal, ih⟩⟩
  | empty ht htag _ ih =>
    have hempty := List.forall_mem_append.mpr ⟨htag.legal, legal_of_all (by decide : ['/', '>'].all _ = true)⟩
    exact List.forall_mem_append.mpr ⟨hdata _ ht, List.forall_mem_append.mpr ⟨hempty, ih⟩⟩
  | element ht htag _ _ ihInside ih =>
    exact List.forall_mem_append.mpr ⟨hdata _ ht, List.forall_mem_append.mpr ⟨elementText_legal htag ihInside, ih⟩⟩

theorem mono {data' : List Char → Prop} (hdata : ∀ t, data t → data' t) (h : Content data t) : Content data' t := by
  induction h with
  | text ht => exact text (hdata _ ht)
  | reference ht hr _ ih => exact reference (hdata _ ht) hr ih
  | empty ht htag _ ih => exact empty (hdata _ ht) htag ih
  | element ht htag _ _ ihInside ih => exact element (hdata _ ht) htag ihInside ih

theorem append (hdata : ∀ s t, data s → data t → data (s ++ t)) (hs : Content data s) (ht : Content data t) :
    Content data (s ++ t) := by
  induction hs with
  | text hs =>
    cases ht with
    | text ht => exact text (hdata _ _ hs ht)
    | reference hd hr hrest =>
      rw [← List.append_assoc]
      exact reference (hdata _ _ hs hd) hr hrest
    | empty hd htag hrest =>
      rw [← List.append_assoc]
      exact empty (hdata _ _ hs hd) htag hrest
    | element hd htag hinside hrest =>
      rw [← List.append_assoc]
      exact element (hdata _ _ hs hd) htag hinside hrest
  | reference hd hr _ ih =>
    rw [List.append_assoc, List.append_assoc]
    exact reference hd hr ih
  | empty hd htag _ ih =>
    rw [List.append_assoc, List.append_assoc]
    exact empty hd htag ih
  | element hd htag hinside _ _ ih =>
    rw [List.append_assoc, List.append_assoc]
    exact element hd htag hinside ih

end Content

theorem Document.legal {document : List Char} (h : Document document) : ∀ c ∈ document, Legal c := by
  obtain ⟨name, attributes, inside, blank, htag, hinside, hblank, rfl⟩ := h
  exact List.forall_mem_append.mpr
    ⟨elementText_legal htag (hinside.legal fun _ ht => ht.legal), hblank.legal⟩

/-! ## Plain text -/

/-- A character that can stand in character data and in the value of an attribute. -/
def PlainChar (c : Char) : Prop := Legal c ∧ c ∉ ['&', '<', '>', '\x22']

scoped instance decidablePlainChar : DecidablePred PlainChar := fun _ => instDecidableAnd

def PlainText (t : List Char) : Prop := ∀ c ∈ t, PlainChar c

theorem plainText_of_all {t : List Char} (h : t.all (fun c => decide (PlainChar c)) = true) : PlainText t :=
  fun c hc => of_decide_eq_true (List.all_eq_true.mp h c hc)

/-- For a literal, whose characters need not be decoded then. -/
theorem plainText_ofList {t : List Char} (h : t.all (fun c => decide (PlainChar c)) = true) :
    PlainText (String.ofList t).toList := by
  rw [String.toList_ofList]
  exact plainText_of_all h

theorem PlainText.append {s t : List Char} (hs : PlainText s) (ht : PlainText t) : PlainText (s ++ t) :=
  List.forall_mem_append.mpr ⟨hs, ht⟩

theorem PlainText.charData {t : List Char} (h : PlainText t) : CharData t := by
  refine ⟨fun c hc => (h c hc).1, fun c hc hin => (h c hc).2 ?_, fun hsection => ?_⟩
  · simp only [List.mem_cons, List.not_mem_nil, or_false] at hin ⊢
    tauto
  · have hclose : '>' ∈ t := hsection.subset (by simp)
    exact (h '>' hclose).2 (by simp)

theorem PlainText.attValue {v : List Char} (h : PlainText v) : AttValue v := by
  induction v with
  | nil => exact .nil
  | cons c v ih =>
    obtain ⟨hc, hv⟩ := List.forall_mem_cons.mp h
    refine .char hc.1 (fun hin => hc.2 ?_) (ih hv)
    simp only [List.mem_cons, List.not_mem_nil, or_false] at hin ⊢
    tauto

/-- A tag with the names of its attributes, whose values are plain. -/
theorem tag_of_plain {name : List Char} {attributes : List Attr} (names : List (List Char))
    (hnames : attributes.map Prod.fst = names) (h : (name :: names).all isName = true ∧ names.Nodup)
    (hvalues : ∀ a ∈ attributes, PlainText a.2) : Tag name attributes := by
  subst hnames
  have hall := List.all_eq_true.mp h.1
  exact ⟨name_of_isName (hall name List.mem_cons_self),
    fun a ha => name_of_isName (hall _ (List.mem_cons_of_mem _ (List.mem_map_of_mem ha))),
    fun a ha => (hvalues a ha).attValue, h.2⟩

theorem tag_bare {name : List Char} (h : isName name = true) : Tag name [] :=
  ⟨name_of_isName h, List.forall_mem_nil _, List.forall_mem_nil _, List.nodup_nil⟩

abbrev PlainContent : List Char → Prop := Content PlainText

theorem PlainText.content {t : List Char} (h : PlainText t) : PlainContent t := .text h

namespace PlainContent

variable {s t : List Char}

theorem append (hs : PlainContent s) (ht : PlainContent t) : PlainContent (s ++ t) :=
  Content.append (fun _ _ => PlainText.append) hs ht

theorem charData (h : PlainContent t) : Content CharData t := Content.mono (fun _ => PlainText.charData) h

theorem nil : PlainContent [] := .text (List.forall_mem_nil _)

theorem reference {name : List Char} {c : Char} (h : (name, c) ∈ predefined) : PlainContent (Xml.reference name) := by
  have := Content.reference (List.forall_mem_nil _) ⟨_, h, rfl⟩ nil
  rwa [List.append_nil] at this

theorem empty {name : List Char} {attributes : List Attr} (htag : Tag name attributes) :
    PlainContent (emptyText name attributes) := by
  have := Content.empty (List.forall_mem_nil _) htag nil
  rwa [List.append_nil] at this

theorem element {name inside : List Char} {attributes : List Attr} (htag : Tag name attributes)
    (h : PlainContent inside) : PlainContent (elementText name attributes inside) := by
  have := Content.element (List.forall_mem_nil _) htag h nil
  rwa [List.append_nil] at this

theorem flatMap {α : Type*} {f : α → List Char} {l : List α} (h : ∀ a ∈ l, PlainContent (f a)) :
    PlainContent (l.flatMap f) := by
  induction l with
  | nil => exact nil
  | cons a l ih =>
    obtain ⟨ha, hl⟩ := List.forall_mem_cons.mp h
    rw [List.flatMap_cons]
    exact append ha (ih hl)

end PlainContent

end Xml
