import RustProfile.ImportRun
import RustProfile.Lib.Rendering
import RustProfile.Output

/-!
# The names of output files

A file is named by what it holds, its session, the index of its window and the
window's start. The name says all four: they can be read off from its right end,
whatever the session's name is.
-/

namespace RustProfile

/-- `{session}-{index:06}-{started}`. -/
def basename (session : String) (index : ℕ) (started : ℤ) : String :=
  session ++ "-" ++ paddedIndex index ++ "-" ++ toString started

namespace FileKind

def label : FileKind → String
  | .cpu => "cpu-"
  | .cpuSvg => "cpu-"
  | .heap => "heap-"
  | .heapSvg => "heap-"
  | .offCpu => "off-cpu-"
  | .offCpuSvg => "off-cpu-"
  | .firefox _ => "firefox-"
  | .diagnostics => "diagnostics-"

def extension : FileKind → String
  | .cpu => ".pb.gz"
  | .cpuSvg => ".svg"
  | .heap => ".pb.gz"
  | .heapSvg => ".svg"
  | .offCpu => ".pb.gz"
  | .offCpuSvg => ".svg"
  | .firefox format => "." ++ format.extension
  | .diagnostics => ".json"

def fileName (kind : FileKind) (basename : String) : String := kind.label ++ basename ++ kind.extension

end FileKind

def SessionFile.fileName (session : String) (started : ℕ → ℤ) (file : SessionFile) : String :=
  file.kind.fileName (basename session file.window (started file.window))

/-! ## Reading a name from its right end -/

theorem append_sep_inj {α : Type*} [DecidableEq α] {x : α} {l l' s t : List α} (hs : x ∉ s) (ht : x ∉ t)
    (h : l ++ x :: s = l' ++ x :: t) : l = l' ∧ s = t := by
  have hrev := congrArg List.reverse h
  simp only [List.reverse_append, List.reverse_cons, List.append_assoc, List.singleton_append] at hrev
  obtain ⟨hst, hll⟩ := Rendering.append_cons_inj (mt List.mem_reverse.mp hs) (mt List.mem_reverse.mp ht) hrev
  exact ⟨List.reverse_injective hll, List.reverse_injective hst⟩

theorem toString_toList_of_nonneg {a : ℤ} (h : 0 ≤ a) : (toString a).toList = a.toNat.repr.toList := by
  rw [Int.toString_eq_repr, Rendering.intRepr_toList, if_pos h]

theorem notMem_started {started : ℤ} (h : 0 ≤ started) : '-' ∉ (toString started).toList := by
  rw [toString_toList_of_nonneg h]
  exact Rendering.notMem_natRepr rfl _

theorem paddedIndex_toList (index : ℕ) : (paddedIndex index).toList =
    List.replicate (6 - (toString index).length) '0' ++ Nat.toDigits 10 index := by
  unfold paddedIndex
  rw [String.toList_append, String.toList_ofList]
  exact congrArg _ (Nat.toList_repr)

theorem isDigit_of_mem_paddedIndex {index : ℕ} {c : Char} (h : c ∈ (paddedIndex index).toList) : c.isDigit = true := by
  rw [paddedIndex_toList] at h
  rcases List.mem_append.mp h with hzero | hdigit
  · rw [List.eq_of_mem_replicate hzero]
    rfl
  · exact Nat.isDigit_of_mem_toDigits (by decide) (by decide) hdigit

theorem notMem_paddedIndex (index : ℕ) : '-' ∉ (paddedIndex index).toList := by
  intro h
  have hdigit := isDigit_of_mem_paddedIndex h
  revert hdigit
  decide

/-- The zeros in front of an index do not change it. -/
theorem ofDigitChars_paddedIndex (index : ℕ) : Nat.ofDigitChars 10 (paddedIndex index).toList 0 = index := by
  rw [paddedIndex_toList, Nat.ofDigitChars_append, Nat.ofDigitChars_replicate_zero, Nat.mul_zero,
    Nat.ofDigitChars_ten_toDigits]

theorem basename_toList (session : String) (index : ℕ) (started : ℤ) : (basename session index started).toList =
    (session.toList ++ '-' :: (paddedIndex index).toList) ++ '-' :: (toString started).toList := by
  unfold basename
  simp [String.toList_append]

/-- A window's start is not before 1970. -/
theorem basename_injective {session session' : String} {index index' : ℕ} {started started' : ℤ} (hs : 0 ≤ started)
    (hs' : 0 ≤ started') (h : basename session index started = basename session' index' started') :
    session = session' ∧ index = index' ∧ started = started' := by
  have hlist := congrArg String.toList h
  rw [basename_toList, basename_toList] at hlist
  obtain ⟨hfront, hstarted⟩ := append_sep_inj (notMem_started hs) (notMem_started hs') hlist
  obtain ⟨hsession, hindex⟩ := append_sep_inj (notMem_paddedIndex index) (notMem_paddedIndex index') hfront
  refine ⟨String.toList_inj.mp hsession, ?_, ?_⟩
  · rw [← ofDigitChars_paddedIndex index, hindex, ofDigitChars_paddedIndex]
  · rw [Int.toString_eq_repr, Int.toString_eq_repr] at hstarted
    exact Rendering.intRepr_injective hstarted

namespace FileKind

/-- What a name says of the kind: its first character and its last four. -/
def ends (name : List Char) : Option Char × List Char := (name.head?, name.reverse.take 4)

theorem ends_fileName (kind : FileKind) (basename : String) :
    ends (kind.fileName basename).toList = ends (kind.label ++ kind.extension).toList := by
  unfold ends fileName
  have hlabel : kind.label.toList ≠ [] := by
    cases kind with
    | firefox format => exact (by decide : "firefox-".toList ≠ [])
    | _ => decide
  have hextension : 4 ≤ kind.extension.toList.reverse.length := by
    cases kind with
    | firefox format => cases format <;> decide
    | _ => decide
  simp only [String.toList_append, List.append_assoc, List.head?_append_of_ne_nil _ hlabel, List.reverse_append,
    List.take_append_of_le_length hextension]

def kindOf : Option Char × List Char → FileKind
  | (some 'c', ['g', 'v', 's', '.']) => .cpuSvg
  | (some 'c', _) => .cpu
  | (some 'h', ['g', 'v', 's', '.']) => .heapSvg
  | (some 'h', _) => .heap
  | (some 'o', ['g', 'v', 's', '.']) => .offCpuSvg
  | (some 'o', _) => .offCpu
  | (some 'f', ['z', 'g', '.', 'n']) => .firefox .json
  | (some 'f', _) => .firefox .jslb
  | _ => .diagnostics

theorem kindOf_ends (kind : FileKind) (basename : String) : kindOf (ends (kind.fileName basename).toList) = kind := by
  rw [ends_fileName]
  cases kind with
  | firefox format => cases format <;> decide
  | _ => decide

theorem fileName_inj {kind kind' : FileKind} {basename basename' : String}
    (h : kind.fileName basename = kind'.fileName basename') : kind = kind' ∧ basename = basename' := by
  have hkind : kind = kind' := by
    rw [← kindOf_ends kind, h, kindOf_ends]
  subst hkind
  have hlist := congrArg String.toList h
  simp only [fileName, String.toList_append, List.append_left_inj, List.append_right_inj] at hlist
  exact ⟨rfl, String.toList_inj.mp hlist⟩

/-- **A file's name says what it is.** -/
theorem fileName_injective {kind kind' : FileKind} {session session' : String} {index index' : ℕ} {started started' : ℤ}
    (hs : 0 ≤ started) (hs' : 0 ≤ started')
    (h : kind.fileName (basename session index started) = kind'.fileName (basename session' index' started')) :
    kind = kind' ∧ session = session' ∧ index = index' ∧ started = started' := by
  obtain ⟨hkind, hbasename⟩ := fileName_inj h
  exact ⟨hkind, basename_injective hs hs' hbasename⟩

theorem fileName_injective_dashes :
    FileKind.fileName .cpu (basename "1-2" 3 4) ≠ FileKind.fileName .cpu (basename "1" 2 4) := by
  intro h
  have hindex := (fileName_injective (by decide) (by decide) h).2.2.1
  exact absurd hindex (by decide)

end FileKind

/-- The files of a session may be told apart by their names alone. -/
theorem SessionFile.injective_fileName (session : String) {started : ℕ → ℤ} (h : ∀ index, 0 ≤ started index) :
    Function.Injective (SessionFile.fileName session started) := by
  intro file file' hname
  obtain ⟨hkind, hbasename⟩ := FileKind.fileName_inj hname
  obtain ⟨-, hwindow, -⟩ := basename_injective (h _) (h _) hbasename
  cases file
  cases file'
  exact congr (congrArg _ hkind) hwindow

end RustProfile
