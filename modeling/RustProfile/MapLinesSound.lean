import RustProfile.HexDigits
import RustProfile.Lib.Words
import RustProfile.MapLines

/-!
# Which paths of mappings survive

The fields of a printed mapping are read back. Its path is read back just when
each whitespace in it is one space with something behind it.
-/

namespace RustProfile

open Words

/-! ## Printed mappings -/

structure DecNumber where
  digits : List (Fin 10)
  digits_ne : digits ≠ []
  fits : digits.foldl (fun n digit => n * 10 + digit.val) 0 ≤ u64Max

namespace DecNumber

variable (number : DecNumber)

def digitChar (digit : Fin 10) : Char := Char.ofNat (48 + digit)

def text : List Char := number.digits.map digitChar

def value : ℕ := number.digits.foldl (fun n digit => n * 10 + digit.val) 0

theorem digitChar_plain (digit : Fin 10) : (digitChar digit).isDigit = true ∧ digitChar digit ≠ '+' ∧
    isWhitespace (digitChar digit) = false ∧ (digitChar digit).toNat - '0'.toNat = digit.val := by
  revert digit
  decide

theorem text_ne : number.text ≠ [] := fun h => number.digits_ne (List.map_eq_nil_iff.mp h)

theorem text_word : ∀ c ∈ number.text, isWhitespace c = false := by
  intro c hc
  obtain ⟨digit, -, rfl⟩ := List.mem_map.mp hc
  exact (digitChar_plain digit).2.2.1

theorem parseU64_text : parseU64 number.text = some number.value := by
  have hplus : number.text.head? ≠ some '+' := by
    intro hhead
    obtain ⟨digit, -, hdigit⟩ := List.mem_map.mp (List.mem_of_mem_head? hhead)
    exact (digitChar_plain digit).2.1 hdigit
  have hdigits : number.text.all Char.isDigit = true := by
    rw [List.all_eq_true]
    intro c hc
    obtain ⟨digit, -, rfl⟩ := List.mem_map.mp hc
    exact (digitChar_plain digit).1
  have hvalue : number.text.foldl (fun n c => n * 10 + (c.toNat - '0'.toNat)) 0 = number.value := by
    unfold text value
    rw [List.foldl_map]
    congr 1
    funext n digit
    rw [(digitChar_plain digit).2.2.2]
  unfold parseU64 parseDigits
  rw [if_neg hplus, if_pos ⟨number.text_ne, hdigits⟩, hvalue]
  exact Option.filter_eq_some_iff.mpr ⟨rfl, decide_eq_true number.fits⟩

end DecNumber

structure Field where
  text : List Char
  text_ne : text ≠ []
  word : ∀ c ∈ text, isWhitespace c = false

theorem Field.word_of_all {text : List Char} (h : text.all (fun c => !isWhitespace c) = true) :
    ∀ c ∈ text, isWhitespace c = false := by
  simpa using h

structure FileMapping where
  start : HexNumber
  stop : HexNumber
  permissions : Field
  offset : HexNumber
  device : Field
  inode : DecNumber
  padding : ℕ
  path : List Char
  deleted : Bool
  ordered : start.value < stop.value
  absolute : path.head? = some '/'
  one_line : '\n' ∉ path
  kept : ¬ deletedSuffix <:+ path

namespace FileMapping

variable (mapping : FileMapping)

def range : List Char := mapping.start.text ++ '-' :: mapping.stop.text

def pathText : List Char := mapping.path ++ if mapping.deleted then deletedSuffix else []

def line : List Char :=
  mapping.range ++ ' ' :: (mapping.permissions.text ++ ' ' :: (mapping.offset.text ++ ' ' ::
    (mapping.device.text ++ ' ' :: (mapping.inode.text ++ ' ' ::
      (List.replicate mapping.padding ' ' ++ mapping.pathText)))))

def withPath (path : Option (List Char)) : MapLine where
  start := mapping.start.value
  stop := mapping.stop.value
  permissions := utf8 mapping.permissions.text
  offset := mapping.offset.value
  device := String.ofList mapping.device.text
  inode := UInt64.ofNat mapping.inode.value
  path := path.map fun path => ⟨utf8 path⟩

def entry : MapLine := mapping.withPath (some mapping.path)

theorem splitOnce_single {c : Char} : ∀ {before : List Char} (after : List Char), c ∉ before →
    splitOnce [c] (before ++ c :: after) = some (before, after)
  | [], after, _ => by
    rw [List.nil_append, splitOnce, if_pos ⟨after, rfl⟩]
    rfl
  | b :: before, after, h => by
    have hne : ¬ [c] <+: b :: (before ++ c :: after) := by
      rintro ⟨rest, hrest⟩
      exact h ((List.cons.inj hrest).1 ▸ List.mem_cons_self)
    rw [List.cons_append, splitOnce, if_neg hne, splitOnce_single after fun hmem => h (List.mem_cons_of_mem _ hmem)]
    rfl

theorem words_line : splitWhitespace mapping.line = mapping.range :: mapping.permissions.text :: mapping.offset.text ::
    mapping.device.text :: mapping.inode.text :: words isWhitespace mapping.pathText := by
  have hspace : isWhitespace ' ' = true := by decide
  have hrange : ∀ c ∈ mapping.range, isWhitespace c = false := by
    intro c hc
    unfold range at hc
    rcases List.mem_append.mp hc with hc | hc
    · exact (mapping.start.text_plain c hc).2
    · rcases List.mem_cons.mp hc with rfl | hc
      · decide
      · exact (mapping.stop.text_plain c hc).2
  have hrange_ne : mapping.range ≠ [] := List.append_ne_nil_of_right_ne_nil _ (List.cons_ne_nil _ _)
  change words isWhitespace mapping.line = _
  unfold line
  rw [words_word hrange hrange_ne hspace, words_word mapping.permissions.word mapping.permissions.text_ne hspace,
    words_word (fun c hc => (mapping.offset.text_plain c hc).2) mapping.offset.text_ne hspace,
    words_word mapping.device.word mapping.device.text_ne hspace,
    words_word mapping.inode.text_word mapping.inode.text_ne hspace, words_seps hspace]

/-- **All fields but the path are read back.** -/
theorem parseMapLine_line : parseMapLine mapping.line =
    .ok (mapping.withPath (mapPath (words isWhitespace mapping.pathText))) := by
  have hdash : splitOnce ['-'] mapping.range = some (mapping.start.text, mapping.stop.text) :=
    splitOnce_single _ fun hmem => (mapping.start.text_plain '-' hmem).1 rfl
  have hordered : ¬ mapping.start.value ≥ mapping.stop.value := UInt64.not_le.mpr mapping.ordered
  unfold parseMapLine parseHex
  rw [words_line]
  simp only [List.getElem?_cons_zero, List.getElem?_cons_succ, Except.context, Except.ok_bind, HexNumber.fromHex_text,
    DecNumber.parseU64_text, hdash, List.drop_succ_cons, List.drop_zero, if_neg hordered]
  rfl

end FileMapping

/-! ## Paths -/

theorem utf8_injective : Function.Injective utf8 := by
  intro a b h
  have hencode : a.utf8Encode = b.utf8Encode := congrArg List.toByteArray h
  have hdecode := congrArg ByteArray.utf8Decode? hencode
  rw [List.utf8Decode?_utf8Encode, List.utf8Decode?_utf8Encode, Option.some.injEq] at hdecode
  simpa using hdecode

theorem stripSuffix_append (text suffix : List Char) : stripSuffix suffix (text ++ suffix) = some text := by
  unfold stripSuffix
  rw [if_pos (List.suffix_append text suffix), List.length_append, Nat.add_sub_cancel, List.take_left' rfl]

theorem eq_append_of_stripSuffix {suffix text rest : List Char} (h : stripSuffix suffix text = some rest) :
    text = rest ++ suffix := by
  unfold stripSuffix at h
  split at h
  · rename_i hsuffix
    obtain ⟨before, rfl⟩ := hsuffix
    rw [List.length_append, Nat.add_sub_cancel, List.take_left' rfl, Option.some.injEq] at h
    rw [h]
  · cases h

theorem deletedSuffix_spaced : SingleSpaced isWhitespace ' ' deletedSuffix := by
  change SingleSpaced isWhitespace ' ' [' ', '(', 'd', 'e', 'l', 'e', 't', 'e', 'd', ')']
  refine ⟨fun _ => ⟨rfl, '(', rfl, by decide⟩, ?_⟩
  repeat refine SingleSpaced.cons_word (by decide) ?_
  trivial

theorem mapPath_words (text : List Char) : mapPath (words isWhitespace text) =
    if joined isWhitespace ' ' text = [] ∨ (joined isWhitespace ' ' text).head? = some '[' then none
    else some ((stripSuffix deletedSuffix (joined isWhitespace ' ' text)).getD (joined isWhitespace ' ' text)) := rfl

/-- **Every path that is read is single-spaced.** -/
theorem mapPath_spaced {text path : List Char} (h : mapPath (words isWhitespace text) = some path) :
    SingleSpaced isWhitespace ' ' path := by
  have hjoined := (@singleSpaced_joined Char isWhitespace ' ' text.length text (le_refl _)).1
  rw [mapPath_words] at h
  split at h
  · cases h
  rw [Option.some.injEq] at h
  cases hstrip : stripSuffix deletedSuffix (joined isWhitespace ' ' text) with
  | none =>
    rw [hstrip, Option.getD_none] at h
    exact h ▸ hjoined
  | some rest =>
    rw [hstrip, Option.getD_some] at h
    rw [eq_append_of_stripSuffix hstrip, h] at hjoined
    exact SingleSpaced.of_append (by decide) hjoined

namespace FileMapping

variable (mapping : FileMapping)

theorem mapPath_pathText (h : SingleSpaced isWhitespace ' ' mapping.path) :
    mapPath (words isWhitespace mapping.pathText) = some mapping.path := by
  obtain ⟨rest, hpath⟩ : ∃ rest, mapping.path = '/' :: rest := by
    have habsolute := mapping.absolute
    cases hcons : mapping.path with
    | nil => rw [hcons] at habsolute; cases habsolute
    | cons c rest => rw [hcons] at habsolute; cases habsolute; exact ⟨rest, rfl⟩
  have hspaced : SingleSpaced isWhitespace ' ' mapping.pathText := by
    refine h.append ?_
    split
    · exact deletedSuffix_spaced
    · trivial
  have hhead : mapping.pathText.head? = some '/' := by
    unfold pathText
    rw [hpath]
    rfl
  -- The path starts with a slash, so its words join to the text itself.
  have hword : ∀ c, mapping.pathText.head? = some c → isWhitespace c = false := by
    intro c hc
    rw [hhead] at hc
    cases hc
    decide
  have hjoined := joined_of_singleSpaced _ mapping.pathText (le_refl _) hspaced hword
  have hne : ¬ (mapping.pathText = [] ∨ mapping.pathText.head? = some '[') := by
    rintro (hnil | hbracket)
    · rw [hnil] at hhead
      cases hhead
    · rw [hhead] at hbracket
      exact absurd hbracket (by decide)
  rw [mapPath_words, hjoined, if_neg hne]
  unfold pathText
  cases mapping.deleted with
  | true =>
    rw [if_pos rfl, stripSuffix_append]
    rfl
  | false =>
    have hkept : stripSuffix deletedSuffix mapping.path = none := if_neg mapping.kept
    rw [if_neg Bool.false_ne_true, List.append_nil, hkept]
    rfl

/-- **A mapping is read back just when its path is single-spaced.** -/
theorem parseMapLine_exact_iff :
    parseMapLine mapping.line = .ok mapping.entry ↔ SingleSpaced isWhitespace ' ' mapping.path := by
  rw [parseMapLine_line, entry]
  constructor
  · intro h
    have hpath := congrArg MapLine.path (Except.ok.inj h)
    change (mapPath (words isWhitespace mapping.pathText)).map (fun path => ⟨utf8 path⟩) =
      some (⟨utf8 mapping.path⟩ : PathBuf) at hpath
    obtain ⟨path, hread, hutf8⟩ := Option.map_eq_some_iff.mp hpath
    rw [utf8_injective (congrArg PathBuf.bytes hutf8)] at hread
    exact mapPath_spaced hread
  · intro h
    rw [mapPath_pathText mapping h]

end FileMapping

namespace MapLines

theorem digit_fits (digit : HexDigit) : hexValue 0 [digit] < 2 ^ 64 := by
  simp only [hexValue, List.foldl_cons, List.foldl_nil]
  omega

def oneDigit (n : ℕ) (h : n < 16) : HexNumber := ⟨[⟨⟨n, h⟩, false⟩], List.cons_ne_nil _ _, digit_fits _⟩

theorem digits_fit (digit : Fin 10) : [digit].foldl (fun n digit => n * 10 + digit.val) 0 ≤ u64Max := by
  simp only [List.foldl_cons, List.foldl_nil, u64Max]
  omega

theorem one_below_two (h : 1 < 16) (h' : 2 < 16) : (oneDigit 1 h).value < (oneDigit 2 h').value :=
  UInt64.lt_iff_toNat_lt.mpr Nat.one_lt_two

theorem zero_hex : 0 < 16 := by decide

theorem one_hex : 1 < 16 := by decide

theorem two_hex : 2 < 16 := by decide

theorem no_newline : '\n' ∉ ['/', 'a', ' ', ' ', 'b'] := by decide

theorem not_deleted : ¬ deletedSuffix <:+ ['/', 'a', ' ', ' ', 'b'] := by decide

/-- `1-2 r-xp 0 08:01 7 /a  b`, of a file with two spaces in its name. -/
def twoSpaces : FileMapping where
  start := oneDigit 1 one_hex
  stop := oneDigit 2 two_hex
  permissions := ⟨['r', '-', 'x', 'p'], List.cons_ne_nil _ _, Field.word_of_all rfl⟩
  offset := oneDigit 0 zero_hex
  device := ⟨['0', '8', ':', '0', '1'], List.cons_ne_nil _ _, Field.word_of_all rfl⟩
  inode := ⟨[⟨7, Nat.le_of_ble_eq_true rfl⟩], List.cons_ne_nil _ _, digits_fit _⟩
  padding := 0
  path := ['/', 'a', ' ', ' ', 'b']
  deleted := false
  ordered := one_below_two one_hex two_hex
  absolute := rfl
  one_line := no_newline
  kept := not_deleted

end MapLines

open MapLines in
theorem spaces_collapsed : ¬ ∀ mapping : FileMapping, parseMapLine mapping.line = .ok mapping.entry := by
  intro h
  have hexact := h twoSpaces
  rw [FileMapping.parseMapLine_line, FileMapping.entry] at hexact
  have hpath := congrArg MapLine.path (Except.ok.inj hexact)
  exact absurd hpath (by decide)

end RustProfile
