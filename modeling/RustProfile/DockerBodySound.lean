import RustProfile.DockerBody
import RustProfile.HexDigits
import RustProfile.MapLines

/-!
# A chunked body is decoded exactly

An encoded body is decoded back, and no part of it is taken for the whole:
without the line of the last chunk there is an error. No bytes make the decoder
slice out of range.
-/

namespace RustProfile

/-! ## Size lines -/

theorem trim_chars (digits : List HexDigit) :
    trim (String.ofList (digits.map HexDigit.char)) = String.ofList (digits.map HexDigit.char) := by
  have hdrop : ∀ digits : List HexDigit, (digits.map HexDigit.char).dropWhile isWhitespace =
      digits.map HexDigit.char := by
    intro digits
    cases digits with
    | nil => rfl
    | cons digit digits => rw [List.map_cons, List.dropWhile_cons_of_neg (by simp [digit.char_plain.2.2.2])]
  unfold trim trimEnd
  simp only [String.toList_ofList, ← List.map_reverse, hdrop, List.reverse_reverse]

theorem fromUtf8_append (c : Char) (bytes : List UInt8) : fromUtf8 (String.utf8EncodeChar c ++ bytes) =
    (fromUtf8 bytes).map fun text => String.ofList (c :: text.toList) := by
  have hbytes : (String.utf8EncodeChar c ++ bytes).toByteArray = [c].utf8Encode ++ bytes.toByteArray := by
    rw [List.utf8Encode_singleton, List.toByteArray_append]
  unfold fromUtf8 String.fromUTF8?
  rw [hbytes]
  by_cases hvalid : bytes.toByteArray.IsValidUTF8
  · rw [dif_pos hvalid, dif_pos (ByteArray.isValidUTF8_utf8Encode_singleton_append_iff.mpr hvalid), Option.map_some]
    have hchars : (c :: (String.fromUTF8 bytes.toByteArray hvalid).toList).utf8Encode =
        [c].utf8Encode ++ bytes.toByteArray := by
      rw [List.utf8Encode_cons, String.utf8Encode_toList]
      rfl
    refine congrArg some (String.toByteArray_inj.mp ?_)
    rw [String.toByteArray_ofList, hchars]
    rfl
  · rw [dif_neg hvalid, dif_neg (mt ByteArray.isValidUTF8_utf8Encode_singleton_append_iff.mp hvalid)]
    rfl

theorem fromUtf8_utf8 : ∀ text : List Char, fromUtf8 (utf8 text) = some (String.ofList text)
  | [] => by decide
  | c :: text => by
    rw [utf8, List.flatMap_cons, fromUtf8_append, ← utf8, fromUtf8_utf8 text, Option.map_some, String.toList_ofList]

/-- Whether there is a text does not depend on the digits in front of it. -/
theorem fromUtf8_digits (digits : List HexDigit) (bytes : List UInt8) : fromUtf8 (digits.map HexDigit.byte ++ bytes) =
    (fromUtf8 bytes).map fun text => String.ofList (digits.map HexDigit.char ++ text.toList) := by
  induction digits with
  | nil =>
    change fromUtf8 bytes = (fromUtf8 bytes).map fun text => String.ofList text.toList
    simp
  | cons digit digits ih =>
    have hcons : (digit :: digits).map HexDigit.byte ++ bytes =
        String.utf8EncodeChar digit.char ++ (digits.map HexDigit.byte ++ bytes) := by
      rw [digit.utf8EncodeChar_char]
      rfl
    rw [hcons, fromUtf8_append, ih, Option.map_map]
    simp [Function.comp_def]

theorem lineSize_digits {digits : List HexDigit} (hne : digits ≠ []) (hsize : hexValue 0 digits < 2 ^ 64)
    {bytes : List UInt8} {text : String} (htext : fromUtf8 bytes = some text)
    (hbytes : text.toList = [] ∨ ∃ extension, text.toList = ';' :: extension) :
    lineSize (digits.map HexDigit.byte ++ bytes) = .ok (UInt64.ofNat (hexValue 0 digits)) := by
  have hsemicolon : ';' ∉ digits.map HexDigit.char := by
    intro hmem
    obtain ⟨digit, -, hdigit⟩ := List.mem_map.mp hmem
    exact digit.char_plain.2.1 hdigit
  have hhead : ((digits.map HexDigit.char ++ text.toList).splitOn ';').head?.getD [] = digits.map HexDigit.char := by
    rcases hbytes with hnil | ⟨extension, hcons⟩
    · rw [hnil, List.append_nil, List.splitOn_eq_singleton hsemicolon]
      rfl
    · rw [hcons, List.splitOn_append_cons_self_of_not_mem hsemicolon]
      rfl
  unfold lineSize
  rw [fromUtf8_digits, htext, Option.map_some, Except.context, Except.ok_bind, String.toList_ofList, hhead]
  dsimp only
  rw [trim_chars, String.toList_ofList, fromHex_chars hne hsize, Except.context]

theorem lineSize_error {digits : List HexDigit} {bytes : List UInt8} (h : fromUtf8 bytes = none) :
    lineSize (digits.map HexDigit.byte ++ bytes) = .error (.error "invalid Docker chunk size") := by
  unfold lineSize
  rw [fromUtf8_digits, h]
  rfl

/-- A size in hexadecimal digits and what may stand behind it: a semicolon and an extension, which has no line end. -/
structure SizeLine where
  digits : List HexDigit
  extension : Option (List UInt8)
  digits_ne : digits ≠ []
  extension_line : ∀ bytes ∈ extension, ¬ crlf <:+: bytes

namespace SizeLine

variable (line : SizeLine)

def size : ℕ := hexValue 0 line.digits

def bytes : List UInt8 := line.digits.map HexDigit.byte ++ (line.extension.map (59 :: ·)).getD []

def IsText : Prop := ∀ bytes ∈ line.extension, (fromUtf8 bytes).isSome

theorem fromUtf8_semicolon (bytes : List UInt8) :
    fromUtf8 (59 :: bytes) = (fromUtf8 bytes).map fun text => String.ofList (';' :: text.toList) :=
  fromUtf8_append ';' bytes

variable {line}

theorem lineSize_bytes (h : line.size < 2 ^ 64) (htext : line.IsText) :
    lineSize line.bytes = .ok (UInt64.ofNat line.size) := by
  unfold bytes
  cases hextension : line.extension with
  | none => exact lineSize_digits line.digits_ne h rfl (Or.inl rfl)
  | some bytes =>
    obtain ⟨text, hutf8⟩ := Option.isSome_iff_exists.mp (htext bytes hextension)
    have hline : fromUtf8 (59 :: bytes) = some (String.ofList (';' :: text.toList)) := by
      rw [fromUtf8_semicolon, hutf8]
      rfl
    exact lineSize_digits line.digits_ne h hline (Or.inr ⟨text.toList, String.toList_ofList⟩)

theorem lineSize_not_text (h : ¬ line.IsText) :
    lineSize line.bytes = .error (.error "invalid Docker chunk size") := by
  unfold IsText at h
  unfold bytes
  cases hextension : line.extension with
  | none => exact absurd (fun bytes hmem => by rw [hextension] at hmem; cases hmem) h
  | some bytes =>
    have hutf8 : fromUtf8 bytes = none := by
      refine Option.not_isSome_iff_eq_none.mp fun hsome => h fun bytes' hmem => ?_
      rw [hextension] at hmem
      cases hmem
      exact hsome
    have hline : fromUtf8 (59 :: bytes) = none := by
      rw [fromUtf8_semicolon, hutf8]
      rfl
    exact lineSize_error hline

end SizeLine

/-! ## Where a line ends -/

theorem crlf_head {b : UInt8} {bytes : List UInt8} (h : crlf <+: b :: bytes) : b = 13 := by
  obtain ⟨rest, hrest⟩ := h
  exact (List.cons.inj hrest).1.symm

theorem crlf_snoc {bytes : List UInt8} (h : ¬ crlf <:+: bytes) : ¬ crlf <:+: bytes ++ [13] := by
  rw [List.infix_concat_iff]
  rintro (hsuffix | hinfix)
  · obtain ⟨rest, hrest⟩ := hsuffix
    have hlast := congrArg List.getLast? hrest
    simp [crlf] at hlast
  · exact h hinfix

theorem windowPosition_crlf : ∀ {bytes : List UInt8} (rest : List UInt8), ¬ crlf <:+: bytes ++ [13] →
    windowPosition crlf (bytes ++ crlf ++ rest) = some bytes.length
  | [], rest, _ => by
    change windowPosition crlf (13 :: 10 :: rest) = some 0
    rw [windowPosition, if_pos ⟨rest, rfl⟩]
  | b :: bytes, rest, h => by
    rw [List.cons_append, List.infix_cons_iff, not_or] at h
    have hlong : b :: bytes ++ crlf ++ rest = b :: (bytes ++ [13]) ++ 10 :: rest := by simp [crlf]
    have hstarts : ¬ crlf <+: b :: bytes ++ crlf ++ rest := by
      intro hcrlf
      rw [hlong] at hcrlf
      exact h.1 (List.prefix_of_prefix_length_le hcrlf (List.prefix_append _ _) (by simp [crlf]))
    have hrest := windowPosition_crlf rest h.2
    rw [List.cons_append, List.cons_append] at hstarts
    rw [List.cons_append, List.cons_append, windowPosition, if_neg hstarts, hrest]
    rfl

theorem windowPosition_eq_none : ∀ {bytes : List UInt8}, ¬ crlf <:+: bytes → windowPosition crlf bytes = none
  | [], _ => rfl
  | b :: bytes, h => by
    rw [List.infix_cons_iff, not_or] at h
    rw [windowPosition, if_neg h.1, windowPosition_eq_none h.2]
    rfl

theorem SizeLine.not_crlf (line : SizeLine) : ¬ crlf <:+: line.bytes ++ [13] := by
  have hdigits : ∀ (digits : List HexDigit) {bytes : List UInt8}, ¬ crlf <:+: bytes →
      ¬ crlf <:+: digits.map HexDigit.byte ++ bytes := by
    intro digits bytes hbytes
    induction digits with
    | nil => exact hbytes
    | cons digit digits ih =>
      rw [List.map_cons, List.cons_append, List.infix_cons_iff]
      rintro (hstarts | hinfix)
      · exact digit.byte_ne_cr (crlf_head hstarts)
      · exact ih hinfix
  refine crlf_snoc (hdigits line.digits ?_)
  cases hextension : line.extension with
  | none => decide
  | some bytes =>
    change ¬ crlf <:+: 59 :: bytes
    rw [List.infix_cons_iff]
    rintro (hstarts | hinfix)
    · exact absurd (crlf_head hstarts) (by decide)
    · exact line.extension_line bytes hextension hinfix

/-! ## Chunks -/

/-- A part of a body behind the line with its size. A vector has at most `isize::MAX` bytes. -/
structure Chunk where
  line : SizeLine
  data : List UInt8
  data_ne : data ≠ []
  fits : data.length ≤ i64Max
  size_eq : line.size = data.length

def Chunk.encode (chunk : Chunk) : List UInt8 := chunk.line.bytes ++ crlf ++ (chunk.data ++ crlf)

/-- The chunks up to the line of the last one, which is empty. -/
def encodeBody (chunks : List Chunk) (last : SizeLine) : List UInt8 :=
  (chunks.map Chunk.encode).flatten ++ (last.bytes ++ crlf)

theorem readChunk_line (line : SizeLine) (rest : List UInt8) : readChunk (line.bytes ++ crlf ++ rest) = (do
    let size ← lineSize line.bytes
    if size = 0 then return none
    return some (← chunkData size rest)) := by
  have htake : (line.bytes ++ crlf ++ rest).take line.bytes.length = line.bytes := by
    rw [List.append_assoc, List.take_left']
    rfl
  have hdrop : (line.bytes ++ crlf ++ rest).drop (line.bytes.length + 2) = rest :=
    List.drop_left' (by simp [crlf])
  unfold readChunk
  rw [chunkSize_some (windowPosition_crlf rest line.not_crlf), htake, hdrop]
  cases lineSize line.bytes <;> rfl

/-- A line without its end is no line. -/
theorem readChunk_cut {line : SizeLine} {p : List UInt8} (h : p <+: line.bytes ++ crlf) (hne : p ≠ line.bytes ++ crlf) :
    ∃ e, readChunk p = .error e := by
  have hcut : p <+: line.bytes ++ [13] := by
    have hcrlf : line.bytes ++ crlf = line.bytes ++ [13] ++ [10] := by simp [crlf]
    rw [hcrlf] at h hne
    exact (List.prefix_concat_iff.mp h).resolve_left hne
  have hnone := windowPosition_eq_none fun hcrlf => line.not_crlf (hcrlf.trans hcut.isInfix)
  unfold readChunk
  rw [chunkSize_none hnone]
  exact ⟨_, rfl⟩

theorem readChunk_not_text {line : SizeLine} (h : ¬ line.IsText) (rest : List UInt8) :
    readChunk (line.bytes ++ crlf ++ rest) = .error (.error "invalid Docker chunk size") := by
  rw [readChunk_line, SizeLine.lineSize_not_text h]
  rfl

theorem readChunk_last {last : SizeLine} (hlast : last.size = 0) (htext : last.IsText) (rest : List UInt8) :
    readChunk (last.bytes ++ crlf ++ rest) = .ok none := by
  rw [readChunk_line, SizeLine.lineSize_bytes (by rw [hlast]; decide) htext, hlast]
  rfl

namespace Chunk

variable (chunk : Chunk)

theorem toNat_size : (UInt64.ofNat chunk.line.size).toNat = chunk.data.length := by
  have hfits := chunk.fits
  unfold i64Max at hfits
  rw [chunk.size_eq, UInt64.toNat_ofNat', Nat.mod_eq_of_lt (by omega)]

theorem readChunk_data (htext : chunk.line.IsText) (rest : List UInt8) :
    readChunk (chunk.line.bytes ++ crlf ++ rest) = (do
      return some (← chunkData (UInt64.ofNat chunk.line.size) rest)) := by
  have hfits := chunk.fits
  have hsize := chunk.size_eq
  unfold i64Max at hfits
  have hne : UInt64.ofNat chunk.line.size ≠ 0 := by
    intro hzero
    have hlength := chunk.toNat_size
    rw [hzero] at hlength
    exact chunk.data_ne (List.eq_nil_of_length_eq_zero hlength.symm)
  rw [readChunk_line, SizeLine.lineSize_bytes (by omega) htext, Except.ok_bind, if_neg hne]

theorem chunkData_encoded (rest : List UInt8) :
    chunkData (UInt64.ofNat chunk.line.size) (chunk.data ++ crlf ++ rest) = .ok (chunk.data, rest) := by
  have hfits : chunk.data.length + 2 ≤ u64Max := by
    have hfits := chunk.fits
    unfold i64Max at hfits
    unfold u64Max
    omega
  have hcrlf : ((chunk.data ++ crlf ++ rest).drop chunk.data.length).take 2 = crlf := by
    rw [List.append_assoc, List.drop_left']
    · rfl
    · rfl
  rw [chunkData_eq, chunk.toNat_size, if_pos hfits, if_pos ⟨by simp [crlf], hcrlf⟩, List.append_assoc,
    List.take_left' rfl, ← List.append_assoc, List.drop_left' (by simp [crlf])]

theorem reads (htext : chunk.line.IsText) : chunkReader.Reads chunk.encode chunk.data := by
  intro rest
  change readChunk (chunk.encode ++ rest) = _
  rw [encode, List.append_assoc, chunk.readChunk_data htext, chunk.chunkData_encoded]
  rfl

theorem delimits : chunkReader.Delimits chunk.encode := by
  intro rest result h
  by_cases htext : chunk.line.IsText
  · rw [chunk.reads htext rest] at h
    cases h
    exact ⟨chunk.data, rfl⟩
  · change readChunk (chunk.encode ++ rest) = _ at h
    rw [encode, List.append_assoc, readChunk_not_text htext] at h
    cases h

theorem uncut : chunkReader.Uncut chunk.encode := by
  intro p hp hne
  change ∃ e, readChunk p = .error e
  unfold encode at hp hne
  rcases FrameReader.prefix_append_cases hp with ⟨hcut, hpne⟩ | ⟨q, rfl, hq⟩
  · exact readChunk_cut hcut hpne
  have hlength : q.length < chunk.data.length + 2 := by
    have hle := hq.length_le
    have hqne : q.length ≠ (chunk.data ++ crlf).length := fun heq => hne (by rw [hq.eq_of_length heq])
    simp only [List.length_append, crlf, List.length_cons, List.length_nil] at hle hqne
    omega
  by_cases htext : chunk.line.IsText
  · rw [chunk.readChunk_data htext, chunkData_eq, chunk.toNat_size]
    rw [if_neg fun hwhole : chunk.data.length + 2 ≤ q.length ∧ _ => absurd hwhole.1 (Nat.not_le.mpr hlength)]
    split <;> exact ⟨_, rfl⟩
  · exact ⟨_, readChunk_not_text htext q⟩

end Chunk

/-! ## The whole body -/

/-- **No bytes make a turn slice out of range.** -/
theorem readChunk_no_panic (encoded : List UInt8) : readChunk encoded ≠ .error .panic := by
  intro h
  unfold readChunk at h
  rcases Except.bind_eq_error.mp h with hsize | ⟨⟨size, rest⟩, -, h⟩
  · cases hline : windowPosition crlf encoded with
    | none =>
      rw [chunkSize_none hline] at hsize
      cases hsize
    | some n =>
      rw [chunkSize_some hline] at hsize
      cases hvalue : lineSize (encoded.take n) with
      | ok size =>
        rw [hvalue] at hsize
        cases hsize
      | error e =>
        rw [hvalue] at hsize
        cases hsize
        unfold lineSize at hvalue
        rcases Except.bind_eq_error.mp hvalue with hutf8 | ⟨text, -, hhex⟩
        · cases Except.context_error hutf8
        · cases Except.context_error hhex
  · dsimp only at h
    split at h
    · cases h
    -- The slices of the data are behind the check of the length.
    · rcases Except.bind_eq_error.mp h with hdata | ⟨chunk, -, hlast⟩
      · rw [chunkData_eq] at hdata
        split at hdata
        · split at hdata
          · cases hdata
          · cases hdata
        · cases hdata
      · cases hlast

theorem decodeChunked_no_panic (encoded : List UInt8) : decodeChunked encoded ≠ .error .panic := by
  intro h
  obtain ⟨part, hpart⟩ := FrameReader.exists_read_error h
  exact readChunk_no_panic part hpart

theorem foldl_append_eq {α : Type} : ∀ (parts : List (List α)) (acc : List α),
    parts.foldl (· ++ ·) acc = acc ++ parts.flatten
  | [], acc => (List.append_nil acc).symm
  | part :: parts, acc => by
    rw [List.foldl_cons, foldl_append_eq parts, List.flatten_cons, List.append_assoc]

/-- **Chunked bodies decode exactly**, and a truncated one is never taken for a complete one. -/
theorem decodeChunked_exact (chunks : List Chunk) (last : SizeLine) (hlast : last.size = 0) :
    ((∀ chunk ∈ chunks, chunk.line.IsText) → last.IsText → ∀ trailers,
      decodeChunked (encodeBody chunks last ++ trailers) = .ok (chunks.map Chunk.data).flatten) ∧
    (∀ p, p <+: encodeBody chunks last → p ≠ encodeBody chunks last →
      ∃ message, decodeChunked p = .error (.error message)) ∧
    ∀ bytes, decodeChunked bytes ≠ .error .panic := by
  refine ⟨fun htexts htext trailers => ?_, fun p hp hne => ?_, decodeChunked_no_panic⟩
  · have hends : chunkReader.Ends (last.bytes ++ crlf) := readChunk_last hlast htext
    have hreads : ∀ frame ∈ chunks.map fun chunk => (chunk.encode, chunk.data), chunkReader.Reads frame.1 frame.2 := by
      intro frame hframe
      obtain ⟨chunk, hchunk, rfl⟩ := List.mem_map.mp hframe
      exact chunk.reads (htexts chunk hchunk)
    have hfold := FrameReader.fold_frames (f := (· ++ ·)) hends trailers [] hreads
    rw [List.map_map, List.map_map, foldl_append_eq, List.nil_append] at hfold
    exact hfold
  · have huncut : chunkReader.Uncut (last.bytes ++ crlf) := fun p => readChunk_cut
    have hframes : ∀ bytes ∈ chunks.map Chunk.encode, chunkReader.Uncut bytes ∧ chunkReader.Delimits bytes := by
      intro bytes hbytes
      obtain ⟨chunk, -, rfl⟩ := List.mem_map.mp hbytes
      exact ⟨chunk.uncut, chunk.delimits⟩
    obtain ⟨e, he⟩ := FrameReader.fold_cut huncut ([] : List UInt8) hframes hp hne
    cases e with
    | panic => exact absurd he (decodeChunked_no_panic p)
    | error message => exact ⟨message, he⟩

namespace DockerBody

theorem no_extension : ∀ bytes ∈ (none : Option (List UInt8)), ¬ crlf <:+: bytes := fun _ h => by cases h

theorem odd_extension : ∀ bytes ∈ some [(255 : UInt8)], ¬ crlf <:+: bytes := by
  intro bytes h
  cases h
  decide

def zeroDigit : HexDigit := ⟨⟨0, Nat.le_of_ble_eq_true rfl⟩, false⟩

def oneDigit : HexDigit := ⟨⟨1, Nat.le_of_ble_eq_true rfl⟩, false⟩

def zeroLine : SizeLine := ⟨[zeroDigit], none, List.cons_ne_nil _ _, no_extension⟩

theorem one_fits : [(65 : UInt8)].length ≤ i64Max := by decide

def oneByte : Chunk :=
  ⟨⟨[zeroDigit, oneDigit], none, List.cons_ne_nil _ _, no_extension⟩, [65], List.cons_ne_nil _ _, one_fits, rfl⟩

/-- `1;` with a byte behind it that is no UTF-8. -/
def oddExtension : Chunk :=
  ⟨⟨[oneDigit], some [255], List.cons_ne_nil _ _, odd_extension⟩, [65], List.cons_ne_nil _ _, one_fits, rfl⟩

end DockerBody

open DockerBody in
theorem decodeChunked_exact_oneByte : decodeChunked (encodeBody [oneByte, oneByte] zeroLine ++ crlf) = .ok [65, 65] :=
  (decodeChunked_exact [oneByte, oneByte] zeroLine rfl).1 (by simp [SizeLine.IsText, oneByte])
    (by simp [SizeLine.IsText, zeroLine]) crlf

open DockerBody in
/-- The whole line of a size must be UTF-8, with the extension. -/
theorem extension_must_be_utf8 : ¬ ∀ (chunks : List Chunk) (last : SizeLine), last.size = 0 → ∀ trailers,
    decodeChunked (encodeBody chunks last ++ trailers) = .ok (chunks.map Chunk.data).flatten := by
  intro h
  have hutf8 : fromUtf8 [255] = none := by decide +kernel
  have htext : ¬ oddExtension.line.IsText := fun htext => by
    have hsome := htext [255] rfl
    rw [hutf8] at hsome
    cases hsome
  have hok := h [oddExtension] zeroLine rfl []
  have hread := readChunk_not_text htext (oddExtension.data ++ crlf ++ (zeroLine.bytes ++ crlf))
  have hfails : decodeChunked (encodeBody [oddExtension] zeroLine ++ []) =
      .error (.error "invalid Docker chunk size") :=
    FrameReader.fold_error hread
  rw [hfails] at hok
  cases hok

end RustProfile
