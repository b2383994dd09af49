import RustProfile.DockerApi
import RustProfile.DockerBodySound
import RustProfile.KernelVersionSound
import RustProfile.MapLinesSound

/-!
# What Docker is asked and what it answers

The request is read by a server as one request for the container that was
asked for. Of a response with any head, its body is read back, whole or in
chunks; one that breaks off within its chunks is an error.
-/

namespace RustProfile

open Words

open KernelVersion (numberText isDigit_of_mem_numberText numberText_ne_nil head?_numberText_append
  parseDigits_numberText)

namespace DockerApi

/-! ## Lines -/

/-- A byte below 128 stands for itself only. -/
theorem eq_of_mem_utf8EncodeChar {c : Char} {byte : UInt8} (hbyte : byte < 128) (h : byte ∈ String.utf8EncodeChar c) :
    c = Char.ofNat byte.toNat := by
  have hhigh : ∀ a b : UInt8, 128 ≤ b → byte ≠ a ||| b := by
    intro a b hb heq
    have hle : b.toNat ≤ (a ||| b).toNat := by
      rw [UInt8.toNat_or]
      exact Nat.right_le_or
    have hlow : byte.toNat < 128 := UInt8.lt_iff_toNat_lt.mp hbyte
    have hhigh : 128 ≤ b.toNat := UInt8.le_iff_toNat_le.mp hb
    rw [← heq] at hle
    omega
  rcases c.utf8Size_eq with hsize | hsize | hsize | hsize
  · rw [String.utf8EncodeChar_eq_singleton hsize, List.mem_singleton] at h
    have hval : c.val ≤ 127 := Char.utf8Size_eq_one_iff.mp hsize
    have hnat : byte.toNat = c.toNat := by
      rw [h, UInt32.toNat_toUInt8]
      exact Nat.mod_eq_of_lt (Nat.lt_of_le_of_lt (UInt32.le_iff_toNat_le.mp hval) (by decide))
    rw [hnat, Char.ofNat_toNat]
  · rw [String.utf8EncodeChar_eq_cons_cons hsize] at h
    simp only [List.mem_cons, List.not_mem_nil, or_false] at h
    rcases h with h | h <;> exact absurd h (hhigh _ _ (by decide))
  · rw [String.utf8EncodeChar_eq_cons_cons_cons hsize] at h
    simp only [List.mem_cons, List.not_mem_nil, or_false] at h
    rcases h with h | h | h <;> exact absurd h (hhigh _ _ (by decide))
  · rw [String.utf8EncodeChar_eq_cons_cons_cons_cons hsize] at h
    simp only [List.mem_cons, List.not_mem_nil, or_false] at h
    rcases h with h | h | h | h <;> exact absurd h (hhigh _ _ (by decide))

theorem lines_cons {line : List Char} (hline : '\n' ∉ line) (rest : List Char) :
    lines (line ++ '\n' :: rest) = (if line.getLast? = some '\r' then line.dropLast else line) :: lines rest := by
  unfold lines
  rw [List.splitOn_append_cons_self_of_not_mem hline]
  have hne : rest.splitOn '\n' ≠ [] := List.splitOn_ne_nil _ _
  have hlast : (line :: rest.splitOn '\n').getLast? = (rest.splitOn '\n').getLast? := by
    cases hparts : rest.splitOn '\n' with
    | nil => exact absurd hparts hne
    | cons part parts => rfl
  dsimp only
  rw [hlast]
  split
  · rw [List.dropLast_cons_of_ne_nil hne, List.map_cons]
  · rw [List.map_cons]

theorem lines_crlf {line : List Char} (hline : '\n' ∉ line) (rest : List Char) :
    lines (line ++ '\r' :: '\n' :: rest) = line :: lines rest := by
  have hcr : '\n' ∉ line ++ ['\r'] := by simp [hline]
  have hcons := lines_cons hcr rest
  simp only [List.append_assoc, List.singleton_append] at hcons
  rw [hcons, if_pos (by simp), List.dropLast_concat]

theorem lines_last {line : List Char} (hline : '\n' ∉ line) (hne : line ≠ []) (hcr : '\r' ∉ line) :
    lines line = [line] := by
  unfold lines
  rw [List.splitOn_eq_singleton hline]
  have hlast : line.getLast? ≠ some '\r' := fun h => hcr (List.mem_of_getLast? h)
  simp [hne, hlast]

/-! ## Heads -/

structure HeadLine where
  text : List Char
  text_ne : text ≠ []
  plain : ∀ c ∈ text, c ≠ '\r' ∧ c ≠ '\n'

namespace HeadLine

variable (line : HeadLine)

theorem no_cr : '\r' ∉ line.text := fun h => (line.plain '\r' h).1 rfl

theorem no_lf : '\n' ∉ line.text := fun h => (line.plain '\n' h).2 rfl

end HeadLine

def headText : List HeadLine → List Char
  | [] => []
  | [line] => line.text
  | line :: next :: rest => line.text ++ '\r' :: '\n' :: headText (next :: rest)

theorem lines_headText : ∀ head : List HeadLine, lines (headText head) = head.map HeadLine.text
  | [] => rfl
  | [line] => lines_last line.no_lf line.text_ne line.no_cr
  | line :: next :: rest => by
    rw [headText, lines_crlf line.no_lf, lines_headText (next :: rest)]
    rfl

theorem utf8_append (a b : List Char) : utf8 (a ++ b) = utf8 a ++ utf8 b := List.flatMap_append

theorem utf8_crlf (text : List Char) : utf8 ('\r' :: '\n' :: text) = crlf ++ utf8 text := rfl

theorem cr_notMem_utf8 {text : List Char} (h : '\r' ∉ text) : (13 : UInt8) ∉ utf8 text := by
  intro hmem
  obtain ⟨c, hc, hbyte⟩ := List.mem_flatMap.mp hmem
  have hcr : c = '\r' := eq_of_mem_utf8EncodeChar (by decide) hbyte
  exact h (hcr ▸ hc)

theorem windowPosition_skip {bytes : List UInt8} (h : (13 : UInt8) ∉ bytes) (rest : List UInt8) :
    windowPosition crlfCrlf (bytes ++ rest) = (windowPosition crlfCrlf rest).map (· + bytes.length) := by
  induction bytes with
  | nil => simp
  | cons byte bytes ih =>
    obtain ⟨hbyte, hbytes⟩ := not_or.mp (mt List.mem_cons.mpr h)
    have hnot : ¬ crlfCrlf <+: byte :: (bytes ++ rest) := by
      rintro ⟨tail, htail⟩
      exact hbyte (List.cons.inj htail).1
    rw [List.cons_append, windowPosition, if_neg hnot, ih hbytes, Option.map_map]
    rfl

/-- A line end in front of a line is not the end of the head. -/
theorem windowPosition_line {byte : UInt8} (h : byte ≠ 13) (rest : List UInt8) :
    windowPosition crlfCrlf (crlf ++ byte :: rest) = (windowPosition crlfCrlf (byte :: rest)).map (· + 2) := by
  have hfirst : ¬ crlfCrlf <+: 13 :: 10 :: byte :: rest := by
    rintro ⟨tail, htail⟩
    simp only [crlfCrlf, List.cons_append, List.cons.injEq] at htail
    exact h htail.2.2.1.symm
  have hsecond : ¬ crlfCrlf <+: 10 :: byte :: rest := by
    rintro ⟨tail, htail⟩
    simp [crlfCrlf] at htail
  change windowPosition crlfCrlf (13 :: 10 :: byte :: rest) = _
  rw [windowPosition, if_neg hfirst, windowPosition, if_neg hsecond, Option.map_map]
  rfl

theorem HeadLine.utf8_eq (line : HeadLine) : ∃ byte bytes, utf8 line.text = byte :: bytes ∧ byte ≠ 13 := by
  have hcr := cr_notMem_utf8 line.no_cr
  cases hbytes : utf8 line.text with
  | nil =>
    exact absurd (utf8_injective (hbytes.trans rfl : utf8 line.text = utf8 [])) line.text_ne
  | cons byte bytes =>
    rw [hbytes] at hcr
    exact ⟨byte, bytes, rfl, fun h => hcr (h ▸ List.mem_cons_self)⟩

/-- The head ends at its first empty line, whatever follows. -/
theorem windowPosition_headText : ∀ {head : List HeadLine}, head ≠ [] → ∀ rest,
    windowPosition crlfCrlf (utf8 (headText head) ++ (crlfCrlf ++ rest)) = some (utf8 (headText head)).length
  | [], h, _ => absurd rfl h
  | [line], _, rest => by
    rw [headText, windowPosition_skip (cr_notMem_utf8 line.no_cr)]
    change Option.map _ (windowPosition crlfCrlf (13 :: 10 :: 13 :: 10 :: rest)) = _
    rw [windowPosition, if_pos ⟨rest, rfl⟩]
    simp
  | line :: next :: rest, _, body => by
    have hnext := windowPosition_headText (List.cons_ne_nil next rest) body
    obtain ⟨byte, bytes, hbytes, hbyte⟩ := next.utf8_eq
    have hstart : ∃ tail, utf8 (headText (next :: rest)) = byte :: tail := by
      cases rest with
      | nil => exact ⟨bytes, hbytes⟩
      | cons other rest => exact ⟨bytes ++ utf8 ('\r' :: '\n' :: headText (other :: rest)), by
          rw [headText, utf8_append, hbytes, List.cons_append]⟩
    obtain ⟨tail, htail⟩ := hstart
    rw [headText, utf8_append, utf8_crlf, List.append_assoc, List.append_assoc,
      windowPosition_skip (cr_notMem_utf8 line.no_cr), htail, List.cons_append, windowPosition_line hbyte,
      ← List.cons_append, ← htail, hnext]
    simp only [Option.map_some, List.length_append]
    rw [show crlf.length = 2 from rfl]
    congr 1
    omega

/-! ## The request -/

/-- `%` and two digits, or a character as it is. -/
def percentDecode : List Char → Option (List UInt8)
  | [] => some []
  | c :: rest =>
    if c = '%' then
      match rest with
      | high :: low :: rest => do
        let high ← hexDigit high
        let low ← hexDigit low
        (percentDecode rest).map (UInt8.ofNat (high * 16 + low) :: ·)
      | _ => none
    else (percentDecode rest).map (String.utf8EncodeChar c ++ ·)

structure RequestHead where
  method : List Char
  segments : List (List UInt8)
  version : List Char
  fields : List (List Char × List Char)
  deriving DecidableEq, Repr

/-- One head and nothing behind it. -/
def readRequest (bytes : List UInt8) : Option RequestHead := do
  let text ← fromUtf8 bytes
  match (lines text.toList).span (· ≠ []) with
  | (first :: fields, [[]]) =>
    match first.splitOn ' ' with
    | [method, target, version] =>
      match target.splitOn '/' with
      | [] :: segments =>
        let segments ← segments.mapM percentDecode
        let fields ← fields.mapM (splitOnce ": ".toList)
        return { method := method, segments := segments, version := version, fields := fields }
      | _ => none
    | _ => none
  | _ => none

theorem forall_byte {p : UInt8 → Prop} (h : ∀ n < 256, p (UInt8.ofNat n)) (byte : UInt8) : p byte := by
  have hbyte := h byte.toNat byte.toNat_lt
  rwa [UInt8.ofNat_toNat] at hbyte

theorem forall_of_all {p : Char → Prop} [DecidablePred p] {text : List Char}
    (h : text.all (fun c => decide (p c)) = true) : ∀ c ∈ text, p c := by
  simpa using h

theorem percentEncode_plain (byte : UInt8) : ∀ c ∈ percentEncode byte, c ≠ '/' ∧ c ≠ ' ' ∧ c ≠ '\n' := by
  have hall : ∀ byte : UInt8, (percentEncode byte).all (fun c => decide (c ≠ '/' ∧ c ≠ ' ' ∧ c ≠ '\n')) = true :=
    forall_byte (by decide +kernel)
  exact forall_of_all (hall byte)

theorem percentEncodePath_plain {value : String} {c : Char} (h : c ∈ percentEncodePath value) :
    c ≠ '/' ∧ c ≠ ' ' ∧ c ≠ '\n' := by
  obtain ⟨byte, -, hc⟩ := List.mem_flatMap.mp h
  exact percentEncode_plain byte c hc

theorem plain_byte : ∀ byte : UInt8, isPlain byte = true →
    Char.ofNat byte.toNat ≠ '%' ∧ String.utf8EncodeChar (Char.ofNat byte.toNat) = [byte] :=
  forall_byte (by decide +kernel)

theorem percentDecode_percentEncode (byte : UInt8) (rest : List Char) :
    percentDecode (percentEncode byte ++ rest) = (percentDecode rest).map (byte :: ·) := by
  unfold percentEncode
  by_cases hplain : isPlain byte = true
  · obtain ⟨hpercent, hbytes⟩ := plain_byte byte hplain
    rw [if_pos hplain, List.singleton_append, percentDecode.eq_def]
    dsimp only
    rw [if_neg hpercent, hbytes]
    rfl
  · have hvalue : UInt8.ofNat (byte.toNat / 16 * 16 + byte.toNat % 16) = byte := by
      rw [Nat.div_add_mod', UInt8.ofNat_toNat]
    rw [if_neg hplain]
    unfold upperHex
    rw [List.cons_append, List.cons_append, List.cons_append, List.nil_append, percentDecode.eq_def]
    dsimp only
    rw [if_pos rfl, HexDigit.hexDigit_char, HexDigit.hexDigit_char]
    simp only [Option.bind_eq_bind, Option.bind_some, hvalue]

theorem percentDecode_percentEncodePath (value : String) :
    percentDecode (percentEncodePath value) = some (utf8 value.toList) := by
  unfold percentEncodePath
  induction utf8 value.toList with
  | nil => rfl
  | cons byte bytes ih => rw [List.flatMap_cons, percentDecode_percentEncode, ih, Option.map_some]

/-- **The request names the container** that was asked for, whatever its reference has in it, and is one request. -/
theorem readRequest_dockerRequest (reference : String) : readRequest (dockerRequest reference) = some
    { method := "GET".toList
      segments := [utf8 "containers".toList, utf8 reference.toList, utf8 "json".toList]
      version := "HTTP/1.1".toList
      fields := [("Host".toList, "docker".toList), ("Connection".toList, "close".toList)] } := by
  have hslash : '/' ∉ percentEncodePath reference := fun h => (percentEncodePath_plain h).1 rfl
  have hspace : ' ' ∉ percentEncodePath reference := fun h => (percentEncodePath_plain h).2.1 rfl
  have hline : '\n' ∉ percentEncodePath reference := fun h => (percentEncodePath_plain h).2.2 rfl
  -- the words of the first line, and the parts of its path
  have htarget : (dockerPath reference).splitOn '/' =
      [[], "containers".toList, percentEncodePath reference, "json".toList] := by
    have hparts : dockerPath reference =
        [] ++ '/' :: ("containers".toList ++ '/' :: (percentEncodePath reference ++ '/' :: "json".toList)) := by
      have hcontainers : "/containers/".toList = '/' :: ("containers".toList ++ ['/']) := by decide +kernel
      have hjson : "/json".toList = '/' :: "json".toList := by decide +kernel
      unfold dockerPath
      rw [hcontainers, hjson]
      simp only [List.append_assoc, List.cons_append, List.nil_append]
    rw [hparts, List.splitOn_append_cons_self_of_not_mem (by simp),
      List.splitOn_append_cons_self_of_not_mem (by decide), List.splitOn_append_cons_self_of_not_mem hslash,
      List.splitOn_eq_singleton (by decide)]
  have hpath : ' ' ∉ dockerPath reference ∧ '\n' ∉ dockerPath reference := by
    unfold dockerPath
    simp [hspace, hline]
  have hwords : ("GET ".toList ++ dockerPath reference ++ " HTTP/1.1".toList).splitOn ' ' =
      ["GET".toList, dockerPath reference, "HTTP/1.1".toList] := by
    have hparts : "GET ".toList ++ dockerPath reference ++ " HTTP/1.1".toList =
        "GET".toList ++ ' ' :: (dockerPath reference ++ ' ' :: "HTTP/1.1".toList) := by
      have hget : "GET ".toList = "GET".toList ++ [' '] := by decide +kernel
      have hversion : " HTTP/1.1".toList = ' ' :: "HTTP/1.1".toList := by decide +kernel
      rw [hget, hversion]
      simp only [List.append_assoc, List.cons_append, List.nil_append]
    rw [hparts, List.splitOn_append_cons_self_of_not_mem (by decide),
      List.splitOn_append_cons_self_of_not_mem hpath.1, List.splitOn_eq_singleton (by decide)]
  have hlines : lines ("GET ".toList ++ dockerPath reference ++
        " HTTP/1.1\r\nHost: docker\r\nConnection: close\r\n\r\n".toList) =
      [("GET ".toList ++ dockerPath reference ++ " HTTP/1.1".toList), "Host: docker".toList,
        "Connection: close".toList, []] := by
    have hparts : "GET ".toList ++ dockerPath reference ++
          " HTTP/1.1\r\nHost: docker\r\nConnection: close\r\n\r\n".toList =
        ("GET ".toList ++ dockerPath reference ++ " HTTP/1.1".toList) ++
          '\r' :: '\n' :: "Host: docker\r\nConnection: close\r\n\r\n".toList := by
      have hversion : " HTTP/1.1\r\nHost: docker\r\nConnection: close\r\n\r\n".toList = " HTTP/1.1".toList ++
          '\r' :: '\n' :: "Host: docker\r\nConnection: close\r\n\r\n".toList := by decide +kernel
      rw [hversion]
      simp only [List.append_assoc]
    have hrest : lines "Host: docker\r\nConnection: close\r\n\r\n".toList =
        ["Host: docker".toList, "Connection: close".toList, []] := by decide +kernel
    rw [hparts, lines_crlf (by simp [hpath.2]), hrest]
  have hspan : [("GET ".toList ++ dockerPath reference ++ " HTTP/1.1".toList), "Host: docker".toList,
        "Connection: close".toList, []].span (· ≠ []) =
      ([("GET ".toList ++ dockerPath reference ++ " HTTP/1.1".toList), "Host: docker".toList,
        "Connection: close".toList], [[]]) := by
    rw [List.span_eq_takeWhile_dropWhile]
    simp
  have hcontainers : percentDecode "containers".toList = some (utf8 "containers".toList) := by decide +kernel
  have hjson : percentDecode "json".toList = some (utf8 "json".toList) := by decide +kernel
  have hfields : ["Host: docker".toList, "Connection: close".toList].mapM (splitOnce ": ".toList) =
      some [("Host".toList, "docker".toList), ("Connection".toList, "close".toList)] := by decide +kernel
  unfold readRequest dockerRequest
  rw [fromUtf8_utf8, Option.bind_eq_bind, Option.bind_some, String.toList_ofList, hlines, hspan]
  have hsegments : ["containers".toList, percentEncodePath reference, "json".toList].mapM percentDecode =
      some [utf8 "containers".toList, utf8 reference.toList, utf8 "json".toList] := by
    simp only [List.mapM_cons, List.mapM_nil, hcontainers, hjson, percentDecode_percentEncodePath]
    rfl
  dsimp only
  rw [hwords]
  dsimp only
  rw [htarget]
  dsimp only
  rw [hsegments, hfields]
  rfl

/-! ## The response -/

structure HeaderField where
  name : List Char
  value : List Char
  name_plain : ∀ c ∈ name, c ≠ ':' ∧ c ≠ '\r' ∧ c ≠ '\n'
  value_plain : ∀ c ∈ value, c ≠ '\r' ∧ c ≠ '\n'

def HeaderField.line (field : HeaderField) : HeadLine where
  text := field.name ++ ':' :: field.value
  text_ne := by simp
  plain := fun c hc => by
    rcases List.mem_append.mp hc with hc | hc
    · exact (field.name_plain c hc).2
    · rcases List.mem_cons.mp hc with rfl | hc
      · decide
      · exact field.value_plain c hc

def HeaderField.namesChunked (field : HeaderField) : Bool :=
  eqIgnoreAsciiCase field.name "transfer-encoding".toList && DockerApi.namesChunked field.value

structure HttpResponse where
  version : List Char
  status : UInt32
  reason : List Char
  fields : List HeaderField
  version_ne : version ≠ []
  version_word : ∀ c ∈ version, isWhitespace c = false ∧ c ≠ ':'
  status_fits : status.toNat < 2 ^ 16
  reason_plain : ∀ c ∈ reason, c ≠ '\r' ∧ c ≠ '\n'

theorem ofChunk_ok {α : Type} (a : α) : ofChunk (.ok a) = .ok a := rfl

namespace HttpResponse

variable (response : HttpResponse)

def statusLine : HeadLine where
  text := response.version ++ ' ' :: (numberText response.status ++ ' ' :: response.reason)
  text_ne := by simp
  plain := fun c hc => by
    have hblank : ∀ c : Char, isWhitespace c = false → c ≠ '\r' ∧ c ≠ '\n' := by
      intro c hword
      exact ⟨fun h => (by subst h; cases hword), fun h => (by subst h; cases hword)⟩
    rcases List.mem_append.mp hc with hc | hc
    · exact hblank c (response.version_word c hc).1
    · rcases List.mem_cons.mp hc with rfl | hc
      · decide
      · rcases List.mem_append.mp hc with hc | hc
        · have hdigit := isDigit_of_mem_numberText hc
          exact ⟨fun h => (by subst h; cases hdigit), fun h => (by subst h; cases hdigit)⟩
        · rcases List.mem_cons.mp hc with rfl | hc
          · decide
          · exact response.reason_plain c hc

def head : List HeadLine := response.statusLine :: response.fields.map HeaderField.line

def encode (body : List UInt8) : List UInt8 := utf8 (headText response.head) ++ (crlfCrlf ++ body)

def chunked : Bool := response.fields.any HeaderField.namesChunked

theorem numberText_word {n : UInt32} {c : Char} (h : c ∈ numberText n) : isWhitespace c = false := by
  have hdigit := isDigit_of_mem_numberText h
  unfold Char.isDigit at hdigit
  simp only [ge_iff_le, Bool.and_eq_true, decide_eq_true_eq] at hdigit
  obtain ⟨hlow, hhigh⟩ := hdigit
  have hlow : 48 ≤ c.toNat := UInt32.le_iff_toNat_le.mp hlow
  have hhigh : c.toNat ≤ 57 := UInt32.le_iff_toNat_le.mp hhigh
  unfold isWhitespace
  simp
  omega

theorem statusCode_head : statusCode (headText response.head) = some response.status.toNat := by
  have hspace : isWhitespace ' ' = true := by decide
  have hwords : splitWhitespace response.statusLine.text =
      response.version :: numberText response.status :: words isWhitespace response.reason := by
    change words isWhitespace (response.version ++ ' ' :: (numberText response.status ++ ' ' :: response.reason)) = _
    rw [words_word (fun c hc => (response.version_word c hc).1) response.version_ne hspace,
      words_word (fun c hc => numberText_word hc) (numberText_ne_nil _) hspace]
  have hplus : (numberText response.status).head? ≠ some '+' := by
    have hhead := head?_numberText_append response.status []
    rwa [List.append_nil] at hhead
  have hstatus : parseU16 (numberText response.status) = some response.status.toNat := by
    unfold parseU16
    rw [if_neg hplus, parseDigits_numberText]
    exact Option.filter_eq_some_iff.mpr ⟨rfl, decide_eq_true response.status_fits⟩
  unfold statusCode
  rw [lines_headText]
  change (do parseU16 (← (splitWhitespace response.statusLine.text)[1]?)) = _
  rw [hwords]
  exact hstatus

theorem splitOnce_eq_some {c : Char} : ∀ {text before after : List Char}, splitOnce [c] text = some (before, after) →
    text = before ++ c :: after
  | [], before, after, h => by cases h
  | d :: text, before, after, h => by
    rw [splitOnce] at h
    split at h
    · rename_i hstart
      obtain ⟨rest, hrest⟩ := hstart
      cases h
      rw [← hrest]
      rfl
    · obtain ⟨⟨first, last⟩, hsplit, heq⟩ := Option.map_eq_some_iff.mp h
      cases heq
      rw [splitOnce_eq_some hsplit]
      rfl

/-- The status line is no field. -/
theorem statusLine_name {name value : List Char} (h : splitOnce [':'] response.statusLine.text = some (name, value)) :
    eqIgnoreAsciiCase name "transfer-encoding".toList = false := by
  have hsplit := splitOnce_eq_some h
  have hspace : ' ' ∈ name := by
    change response.version ++ ' ' :: _ = name ++ ':' :: value at hsplit
    rcases List.append_eq_append_iff.mp hsplit with ⟨rest, hname, hrest⟩ | ⟨rest, hversion, hrest⟩
    · cases rest with
      | nil => cases hrest
      | cons c rest =>
        cases (List.cons.inj hrest).1
        rw [hname]
        exact List.mem_append_right _ List.mem_cons_self
    · cases rest with
      | nil => cases hrest
      | cons c rest =>
        -- the colon would be in the version
        have hcolon : ':' ∈ response.version := by
          rw [hversion, ← (List.cons.inj hrest).1]
          exact List.mem_append_right _ List.mem_cons_self
        exact absurd rfl (response.version_word ':' hcolon).2
  unfold eqIgnoreAsciiCase
  rw [decide_eq_false_iff_not]
  intro hname
  have hmem : ' '.toLower ∈ name.map Char.toLower := List.mem_map_of_mem hspace
  rw [hname] at hmem
  revert hmem
  decide

theorem isChunked_head : isChunked (headText response.head) = response.chunked := by
  have hstatus : encodesChunked response.statusLine.text = false := by
    unfold encodesChunked
    cases hsplit : splitOnce [':'] response.statusLine.text with
    | none => rfl
    | some field =>
      rw [Option.any_some, response.statusLine_name hsplit]
      rfl
  have hfield : ∀ field : HeaderField, encodesChunked field.line.text = field.namesChunked := by
    intro field
    have hsplit : splitOnce [':'] field.line.text = some (field.name, field.value) :=
      FileMapping.splitOnce_single _ fun h => (field.name_plain ':' h).1 rfl
    unfold encodesChunked
    rw [hsplit]
    rfl
  unfold isChunked chunked head
  rw [lines_headText, List.map_cons, List.any_cons, hstatus, Bool.false_or, List.map_map, List.any_map]
  exact congrArg (List.any response.fields) (funext hfield)

variable {δ : Type} (decode : List UInt8 → Option δ)

def outcome (body : List UInt8) : Except DockerFault (Option δ) :=
  if response.status.toNat = 404 then .ok none
  else if response.status.toNat ≠ 200 then bail ("Docker API returned HTTP " ++ toString response.status.toNat)
  else (if response.chunked then ofChunk (decodeChunked body) else .ok body) >>= decodeBody decode

theorem readResponse_encode (body : List UInt8) :
    readResponse decode (response.encode body) = response.outcome decode body := by
  have hposition : windowPosition crlfCrlf (response.encode body) = some (utf8 (headText response.head)).length :=
    windowPosition_headText (List.cons_ne_nil _ _) body
  have hlength : (response.encode body).length = (utf8 (headText response.head)).length + (4 + body.length) := by
    unfold encode
    rw [List.length_append, List.length_append]
    rfl
  have hhead : chunkSlice (response.encode body) 0 (utf8 (headText response.head)).length =
      .ok (utf8 (headText response.head)) := by
    rw [chunkSlice_zero (by omega)]
    exact congrArg Except.ok (List.take_left' rfl)
  have hbody : chunkSlice (response.encode body) ((utf8 (headText response.head)).length + 4)
      (response.encode body).length = .ok body := by
    rw [chunkSlice_length (by omega)]
    refine congrArg Except.ok ?_
    unfold encode
    rw [← List.drop_drop, List.drop_left]
    rfl
  unfold readResponse outcome
  rw [hposition]
  simp only [Except.ok_bind]
  rw [hhead]
  simp only [ofChunk_ok, Except.ok_bind, fromUtf8_utf8, String.toList_ofList, response.statusCode_head]
  by_cases hmissing : response.status.toNat = 404
  · rw [if_pos hmissing, if_pos hmissing]
    rfl
  rw [if_neg hmissing, if_neg hmissing]
  by_cases hfound : response.status.toNat ≠ 200
  · rw [if_pos hfound, if_pos hfound]
    rfl
  rw [if_neg hfound, if_neg hfound, hbody, response.isChunked_head]
  cases response.chunked <;> rfl

end HttpResponse

/-! ## The exchange -/

structure DockerSocket.Open (socket : DockerSocket) (request : List UInt8) : Prop where
  connect : socket.connect = .ok ()
  setReadTimeout : socket.setReadTimeout = .ok ()
  setWriteTimeout : socket.setWriteTimeout = .ok ()
  write : socket.write request = .ok ()

theorem DockerSocket.Open.reads {socket : DockerSocket} {reference : String} (h : socket.Open (dockerRequest reference))
    {δ : Type} (decode : List UInt8 → Option δ) {response : List UInt8}
    (hanswer : socket.answer (dockerRequest reference) = (response, none)) : dockerInspect decode socket reference =
      if response.length > maxDockerResponseBytes then
        bail ("Docker API response exceeded " ++ toString maxDockerResponseBytes ++ " bytes")
      else readResponse decode response := by
  unfold dockerInspect
  rw [h.connect, h.setReadTimeout, h.setWriteTimeout, h.write, hanswer]
  unfold readToEnd
  simp only [io, Except.ok_bind]
  by_cases hlong : response.length > maxDockerResponseBytes
  · have hlimit : maxDockerResponseBytes + 1 ≤ response.length := hlong
    rw [if_pos hlimit, if_pos hlong]
    simp only [Except.ok_bind]
    rw [if_pos (by rw [List.length_take, Nat.min_eq_left hlimit]; exact Nat.lt_succ_self _)]
    rfl
  · have hlimit : ¬ maxDockerResponseBytes + 1 ≤ response.length := hlong
    rw [if_neg hlimit, if_neg hlong]
    simp only [Except.ok_bind]
    rw [if_neg hlong]

/-! ### What is never a panic -/

theorem ofChunk_no_panic {α : Type} {x : Except ChunkFault α} (h : x ≠ .error .panic) : ofChunk x ≠ .error .panic := by
  cases x with
  | ok a => intro heq; cases heq
  | error fault =>
    cases fault with
    | panic => exact absurd rfl h
    | error message => intro heq; cases heq

theorem decodeBody_no_panic {δ : Type} (decode : List UInt8 → Option δ) (body : List UInt8) :
    decodeBody decode body ≠ .error .panic := by
  unfold decodeBody
  cases decode body <;> intro h <;> cases h

theorem bind_no_panic {α β : Type} {x : Except DockerFault α} {f : α → Except DockerFault β} (hx : x ≠ .error .panic)
    (hf : ∀ a, f a ≠ .error .panic) : x >>= f ≠ .error .panic := by
  intro h
  rcases Except.bind_eq_error.mp h with h | ⟨a, -, h⟩
  · exact hx h
  · exact hf a h

theorem io_no_panic {α : Type} (message : String) (x : Except IoErrorKind α) : io message x ≠ .error .panic := by
  cases x <;> intro h <;> cases h

theorem readResponse_no_panic {δ : Type} (decode : List UInt8 → Option δ) (response : List UInt8) :
    readResponse decode response ≠ .error .panic := by
  unfold readResponse
  cases hposition : windowPosition crlfCrlf response with
  | none =>
    intro h
    cases h
  | some split =>
    have hle : split + 4 ≤ response.length := windowPosition_eq_some hposition
    dsimp only
    rw [Except.ok_bind, chunkSlice_zero (by omega)]
    simp only [ofChunk_ok, Except.ok_bind]
    cases fromUtf8 (response.take split) with
    | none =>
      intro h
      cases h
    | some head =>
      dsimp only
      cases statusCode head.toList with
      | none =>
        intro h
        cases h
      | some status =>
        dsimp only
        by_cases hmissing : status = 404
        · rw [if_pos hmissing]
          intro h
          cases h
        rw [if_neg hmissing]
        by_cases hfound : status ≠ 200
        · rw [if_pos hfound]
          intro h
          cases h
        rw [if_neg hfound, chunkSlice_length hle]
        simp only [ofChunk_ok, Except.ok_bind]
        by_cases hchunked : isChunked head.toList = true
        · rw [if_pos hchunked]
          exact bind_no_panic (ofChunk_no_panic (decodeChunked_no_panic _)) (decodeBody_no_panic decode)
        · rw [if_neg hchunked]
          exact decodeBody_no_panic decode _

theorem dockerInspect_no_panic {δ : Type} (decode : List UInt8 → Option δ) (socket : DockerSocket)
    (reference : String) : dockerInspect decode socket reference ≠ .error .panic := by
  unfold dockerInspect
  refine bind_no_panic (io_no_panic _ _) fun _ => bind_no_panic (io_no_panic _ _) fun _ =>
    bind_no_panic (io_no_panic _ _) fun _ => bind_no_panic (io_no_panic _ _) fun _ =>
    bind_no_panic (io_no_panic _ _) fun response => ?_
  by_cases hlong : response.length > maxDockerResponseBytes
  · rw [if_pos hlong]
    intro h
    cases h
  · rw [if_neg hlong]
    exact readResponse_no_panic decode response

/-! ### Bodies -/

theorem decodeChunked_whole {chunks : List Chunk} {last : SizeLine} (hlast : last.size = 0)
    (htexts : ∀ chunk ∈ chunks, chunk.line.IsText) (htext : last.IsText) (trailers : List UInt8) :
    decodeChunked (encodeBody chunks last ++ trailers) = .ok (chunks.map Chunk.data).flatten := by
  have hreads : ∀ frame ∈ chunks.map fun chunk => (chunk.encode, chunk.data), chunkReader.Reads frame.1 frame.2 := by
    intro frame hframe
    obtain ⟨chunk, hchunk, rfl⟩ := List.mem_map.mp hframe
    exact chunk.reads (htexts chunk hchunk)
  have hends : chunkReader.Ends (last.bytes ++ crlf) := readChunk_last hlast htext
  have hfold := FrameReader.fold_frames (f := (· ++ ·)) hends trailers [] hreads
  rw [List.map_map, List.map_map, foldl_append_eq, List.nil_append] at hfold
  exact hfold

theorem decodeChunked_cut {chunks : List Chunk} {last : SizeLine} {p : List UInt8}
    (hp : p <+: encodeBody chunks last) (hne : p ≠ encodeBody chunks last) :
    ∃ message, decodeChunked p = .error (.error message) := by
  have huncut : chunkReader.Uncut (last.bytes ++ crlf) := fun _ => readChunk_cut
  have hframes : ∀ bytes ∈ chunks.map Chunk.encode, chunkReader.Uncut bytes ∧ chunkReader.Delimits bytes := by
    intro bytes hbytes
    obtain ⟨chunk, -, rfl⟩ := List.mem_map.mp hbytes
    exact ⟨chunk.uncut, chunk.delimits⟩
  obtain ⟨fault, hfault⟩ := FrameReader.fold_cut huncut ([] : List UInt8) hframes hp hne
  cases fault with
  | panic => exact absurd hfault (decodeChunked_no_panic p)
  | error message => exact ⟨message, hfault⟩

structure Reads {δ : Type} (decode : List UInt8 → Option δ) (response : HttpResponse) (body : List UInt8)
    (result : Except DockerFault (Option δ)) : Prop where
  missing : response.status.toNat = 404 → result = .ok none
  refused : response.status.toNat ≠ 404 → response.status.toNat ≠ 200 →
    result = bail ("Docker API returned HTTP " ++ toString response.status.toNat)
  whole : response.status.toNat = 200 → response.chunked = false → result = decodeBody decode body
  chunks : response.status.toNat = 200 → response.chunked = true → ∀ chunks last trailers, last.size = 0 →
    (∀ chunk ∈ chunks, chunk.line.IsText) → last.IsText → body = encodeBody chunks last ++ trailers →
    result = decodeBody decode (chunks.map Chunk.data).flatten
  /-- A body that breaks off is not taken for a whole one. -/
  cut : response.status.toNat = 200 → response.chunked = true → ∀ chunks last, body <+: encodeBody chunks last →
    body ≠ encodeBody chunks last → ∃ message, result = bail message

theorem reads_outcome {δ : Type} (decode : List UInt8 → Option δ) (response : HttpResponse) (body : List UInt8) :
    Reads decode response body (response.outcome decode body) where
  missing := fun hmissing => if_pos hmissing
  refused := fun hmissing hfound => by
    unfold HttpResponse.outcome
    rw [if_neg hmissing, if_pos hfound]
  whole := fun hfound hchunked => by
    unfold HttpResponse.outcome
    rw [if_neg (by rw [hfound]; decide), if_neg (not_not_intro hfound), hchunked]
    rfl
  chunks := fun hfound hchunked chunks last trailers hlast htexts htext hbody => by
    unfold HttpResponse.outcome
    rw [if_neg (by rw [hfound]; decide), if_neg (not_not_intro hfound), if_pos hchunked, hbody,
      decodeChunked_whole hlast htexts htext]
    rfl
  cut := fun hfound hchunked chunks last hp hne => by
    obtain ⟨message, hmessage⟩ := decodeChunked_cut hp hne
    refine ⟨message, ?_⟩
    unfold HttpResponse.outcome
    rw [if_neg (by rw [hfound]; decide), if_neg (not_not_intro hfound), if_pos hchunked, hmessage]
    rfl

/-- **What Docker answers is read back**, up to the limit, and nothing that it sends makes the reader panic. -/
theorem dockerInspect_reads {δ : Type} (decode : List UInt8 → Option δ) {socket : DockerSocket} {reference : String}
    (hopen : socket.Open (dockerRequest reference)) (response : HttpResponse) (body : List UInt8)
    (hanswer : socket.answer (dockerRequest reference) = (response.encode body, none)) :
    ((response.encode body).length ≤ maxDockerResponseBytes →
      Reads decode response body (dockerInspect decode socket reference)) ∧
    (maxDockerResponseBytes < (response.encode body).length → dockerInspect decode socket reference =
      bail ("Docker API response exceeded " ++ toString maxDockerResponseBytes ++ " bytes")) ∧
    ∀ other reference, dockerInspect decode other reference ≠ .error .panic := by
  have hreads := hopen.reads decode hanswer
  refine ⟨fun hle => ?_, fun hlong => ?_, dockerInspect_no_panic decode⟩
  · rw [hreads, if_neg (Nat.not_lt.mpr hle), response.readResponse_encode]
    exact reads_outcome decode response body
  · rw [hreads, if_pos hlong]

def answering (bytes : List UInt8) : DockerSocket where
  path := "/var/run/docker.sock"
  connect := .ok ()
  setReadTimeout := .ok ()
  setWriteTimeout := .ok ()
  write := fun _ => .ok ()
  answer := fun _ => (bytes, none)

def chunkedResponse : HttpResponse where
  version := ['H', 'T', 'T', 'P', '/', '1', '.', '1']
  status := 200
  reason := ['O', 'K']
  fields := [⟨"transfer-Encoding".toList, " Chunked".toList, forall_of_all (by decide +kernel),
    forall_of_all (by decide +kernel)⟩]
  version_ne := by simp
  version_word := forall_of_all (by decide)
  status_fits := by decide
  reason_plain := forall_of_all (by decide)

open DockerBody in
theorem dockerInspect_reads_chunked :
    dockerInspect some (answering (chunkedResponse.encode (encodeBody [oneByte, oneByte] zeroLine))) "web" =
      .ok (some [65, 65]) := by
  have hopen : (answering (chunkedResponse.encode (encodeBody [oneByte, oneByte] zeroLine))).Open
      (dockerRequest "web") := ⟨rfl, rfl, rfl, rfl⟩
  have hreads := (dockerInspect_reads some hopen chunkedResponse (encodeBody [oneByte, oneByte] zeroLine) rfl).1
    (by decide +kernel)
  exact hreads.chunks rfl (by decide +kernel) [oneByte, oneByte] zeroLine [] rfl (by simp [SizeLine.IsText, oneByte])
    (by simp [SizeLine.IsText, zeroLine]) (List.append_nil _).symm

end DockerApi

end RustProfile
