import RustProfile.KernelVersion

/-!
# Which kernel releases are understood

A release is numbers between dots and a suffix. The suffix is cut off at its
first dash; what is left of it makes the last number unreadable.
-/

namespace RustProfile

namespace KernelVersion

/-! ## Numbers -/

def numberText (n : UInt32) : List Char := n.toNat.repr.toList

theorem numberText_eq (n : UInt32) : numberText n = Nat.toDigits 10 n.toNat := Nat.toList_repr

theorem isDigit_of_mem_numberText {n : UInt32} {c : Char} (h : c ∈ numberText n) : c.isDigit = true := by
  rw [numberText_eq] at h
  exact Nat.isDigit_of_mem_toDigits (by decide) (by decide) h

theorem notMem_numberText {c : Char} (hc : c.isDigit = false) (n : UInt32) : c ∉ numberText n := by
  intro h
  rw [isDigit_of_mem_numberText h] at hc
  cases hc

theorem numberText_ne_nil (n : UInt32) : numberText n ≠ [] := by
  rw [numberText_eq]
  exact Nat.toDigits_ne_nil

theorem head?_numberText_append (n : UInt32) (rest : List Char) : (numberText n ++ rest).head? ≠ some '+' := by
  intro h
  rw [List.head?_append_of_ne_nil _ (numberText_ne_nil n)] at h
  exact notMem_numberText rfl n (List.mem_of_mem_head? h)

theorem parseDigits_numberText (n : UInt32) : parseDigits (numberText n) = some n.toNat := by
  have hdigits : (numberText n).all Char.isDigit = true := List.all_eq_true.mpr fun _ => isDigit_of_mem_numberText
  have hvalue : (numberText n).foldl (fun n c => n * 10 + (c.toNat - '0'.toNat)) 0 = n.toNat := by
    simp only [Nat.mul_comm _ 10]
    rw [numberText_eq]
    exact Nat.ofDigitChars_ten_toDigits
  unfold parseDigits
  rw [if_pos ⟨numberText_ne_nil n, hdigits⟩, hvalue]

theorem parseU32_numberText (n : UInt32) : parseU32 (numberText n) = some n := by
  have hplus : (numberText n).head? ≠ some '+' := by
    have h := head?_numberText_append n []
    rwa [List.append_nil] at h
  have hfits : (some n.toNat).filter (· < 2 ^ 32) = some n.toNat :=
    Option.filter_eq_some_iff.mpr ⟨rfl, decide_eq_true n.toNat_lt⟩
  unfold parseU32
  rw [if_neg hplus, parseDigits_numberText, hfits]
  exact congrArg some UInt32.ofNat_toNat

theorem parseU32_numberText_append (n : UInt32) {c : Char} (hc : c.isDigit = false) (rest : List Char) :
    parseU32 (numberText n ++ c :: rest) = none := by
  have hdigits : ¬ (numberText n ++ c :: rest).all Char.isDigit = true := by
    intro h
    have hdigit := List.all_eq_true.mp h c (List.mem_append_right _ List.mem_cons_self)
    rw [hdigit] at hc
    cases hc
  unfold parseU32 parseDigits
  rw [if_neg (head?_numberText_append n _), if_neg fun h => hdigits h.2]
  rfl

/-! ## Parts -/

theorem beforeDash_eq (s : List Char) : ((splitOnce ['-'] s).map Prod.fst).getD s = s.takeWhile (· ≠ '-') := by
  induction s with
  | nil => rfl
  | cons c s ih =>
    rw [splitOnce]
    by_cases hc : c = '-'
    · subst hc
      rw [if_pos ⟨s, rfl⟩]
      rfl
    · have hhead : ¬ ['-'] <+: c :: s := by
        rintro ⟨rest, hrest⟩
        exact hc (List.cons.inj hrest).1.symm
      have hstep : (c :: s).takeWhile (· ≠ '-') = c :: s.takeWhile (· ≠ '-') :=
        List.takeWhile_cons_of_pos (decide_eq_true hc)
      rw [if_neg hhead, hstep, ← ih]
      cases splitOnce ['-'] s with
      | none => rfl
      | some parts => rfl

theorem splitOn_number (n : UInt32) (rest : List Char) :
    (numberText n ++ '.' :: rest).splitOn '.' = numberText n :: rest.splitOn '.' :=
  List.splitOn_append_cons_self_of_not_mem (notMem_numberText rfl n) rest

theorem splitOn_last (n : UInt32) : (numberText n).splitOn '.' = [numberText n] :=
  List.splitOn_eq_singleton (notMem_numberText rfl n)

/-- The suffix stays on the last number, as far as the next dot. -/
theorem splitOn_tail (n : UInt32) {c : Char} (hc : c ≠ '.') (rest : List Char) : ∃ kept parts,
    (numberText n ++ c :: rest).splitOn '.' = (numberText n ++ c :: kept) :: parts := by
  have hn : '.' ∉ numberText n := notMem_numberText rfl n
  have hnot : ∀ {kept : List Char}, '.' ∉ kept → '.' ∉ numberText n ++ c :: kept := by
    intro kept hkept h
    rcases List.mem_append.mp h with h | h
    · exact hn h
    · rcases List.mem_cons.mp h with h | h
      · exact hc h.symm
      · exact hkept h
  by_cases hdot : '.' ∈ rest
  · obtain ⟨kept, after, rfl, hkept⟩ := List.eq_append_cons_of_mem hdot
    refine ⟨kept, after.splitOn '.', ?_⟩
    have hassoc : numberText n ++ c :: (kept ++ '.' :: after) = (numberText n ++ c :: kept) ++ '.' :: after := by simp
    exact hassoc ▸ List.splitOn_append_cons_self_of_not_mem (hnot hkept) after
  · exact ⟨rest, [], List.splitOn_eq_singleton (hnot hdot)⟩

/-! ## Releases -/

def shortRelease (major minor : UInt32) (suffix : List Char) : List Char :=
  numberText major ++ '.' :: (numberText minor ++ suffix)

def fullRelease (major minor patch : UInt32) (suffix : List Char) : List Char :=
  numberText major ++ '.' :: (numberText minor ++ '.' :: (numberText patch ++ suffix))

/-- Nothing is left of the suffix once it is cut at its first dash. -/
def Dashed (suffix : List Char) : Prop := suffix = [] ∨ suffix.head? = some '-'

/-- A suffix that does not go on with the number or with a next one. -/
def Detached (suffix : List Char) : Prop := ∀ c, suffix.head? = some c → c.isDigit = false ∧ c ≠ '.'

theorem takeWhile_number (n : UInt32) (rest : List Char) :
    (numberText n ++ rest).takeWhile (· ≠ '-') = numberText n ++ rest.takeWhile (· ≠ '-') := by
  refine List.takeWhile_append_of_pos fun c hc => decide_eq_true ?_
  rintro rfl
  exact notMem_numberText rfl n hc

theorem takeWhile_dot (rest : List Char) : ('.' :: rest).takeWhile (· ≠ '-') = '.' :: rest.takeWhile (· ≠ '-') :=
  List.takeWhile_cons_of_pos (by decide)

theorem parts_shortRelease (major minor : UInt32) (suffix : List Char) :
    (((splitOnce ['-'] (shortRelease major minor suffix)).map Prod.fst).getD
      (shortRelease major minor suffix)).splitOn '.' =
      numberText major :: (numberText minor ++ suffix.takeWhile (· ≠ '-')).splitOn '.' := by
  rw [beforeDash_eq, shortRelease, takeWhile_number, takeWhile_dot, takeWhile_number, splitOn_number]

theorem parts_fullRelease (major minor patch : UInt32) (suffix : List Char) :
    (((splitOnce ['-'] (fullRelease major minor patch suffix)).map Prod.fst).getD
      (fullRelease major minor patch suffix)).splitOn '.' =
      numberText major :: numberText minor :: (numberText patch ++ suffix.takeWhile (· ≠ '-')).splitOn '.' := by
  rw [beforeDash_eq, fullRelease, takeWhile_number, takeWhile_dot, takeWhile_number, takeWhile_dot, takeWhile_number,
    splitOn_number, splitOn_number]

theorem takeWhile_of_dashed {suffix : List Char} (h : Dashed suffix) : suffix.takeWhile (· ≠ '-') = [] := by
  cases suffix with
  | nil => rfl
  | cons c rest =>
    have hc : c = '-' := by simpa [Dashed] using h
    subst hc
    rfl

theorem takeWhile_of_not_dashed {suffix : List Char} (hdetached : Detached suffix) (h : ¬ Dashed suffix) :
    ∃ c rest, suffix.takeWhile (· ≠ '-') = c :: rest ∧ c.isDigit = false ∧ c ≠ '.' := by
  cases suffix with
  | nil => exact absurd (Or.inl rfl) h
  | cons c rest =>
    have hc : c ≠ '-' := fun e => h (Or.inr (congrArg some e))
    exact ⟨c, _, List.takeWhile_cons_of_pos (decide_eq_true hc), hdetached c rfl⟩

theorem parseVersionPart_numberText (n : UInt32) (original : List Char) :
    parseVersionPart (some (numberText n)) original = .ok n := by
  rw [parseVersionPart, parseU32_numberText]
  rfl

section
variable {major minor patch : UInt32} {suffix : List Char}

theorem fromStr_full (h : Dashed suffix) :
    fromStr (fullRelease major minor patch suffix) = .ok ⟨major, minor, patch⟩ := by
  have hparts := parts_fullRelease major minor patch suffix
  rw [takeWhile_of_dashed h, List.append_nil, splitOn_last] at hparts
  unfold fromStr
  simp only [hparts, List.getElem?_cons_zero, List.getElem?_cons_succ, parseVersionPart_numberText, parseU32_numberText]
  rfl

theorem fromStr_short (h : Dashed suffix) : fromStr (shortRelease major minor suffix) = .ok ⟨major, minor, 0⟩ := by
  have hparts := parts_shortRelease major minor suffix
  rw [takeWhile_of_dashed h, List.append_nil, splitOn_last] at hparts
  unfold fromStr
  simp only [hparts, List.getElem?_cons_zero, List.getElem?_cons_succ, List.getElem?_nil, parseVersionPart_numberText]
  rfl

theorem fromStr_full_fails (hdetached : Detached suffix) (h : ¬ Dashed suffix) :
    fromStr (fullRelease major minor patch suffix) = .error .invalidPatch := by
  obtain ⟨c, rest, htail, hdigit, hdot⟩ := takeWhile_of_not_dashed hdetached h
  obtain ⟨kept, parts, hsplit⟩ := splitOn_tail patch hdot rest
  have hparts := parts_fullRelease major minor patch suffix
  rw [htail, hsplit] at hparts
  unfold fromStr
  simp only [hparts, List.getElem?_cons_zero, List.getElem?_cons_succ, parseVersionPart_numberText,
    parseU32_numberText_append patch hdigit]
  rfl

theorem fromStr_short_fails (hdetached : Detached suffix) (h : ¬ Dashed suffix) :
    fromStr (shortRelease major minor suffix) = .error (.invalidRelease (shortRelease major minor suffix)) := by
  obtain ⟨c, rest, htail, hdigit, hdot⟩ := takeWhile_of_not_dashed hdetached h
  obtain ⟨kept, parts, hsplit⟩ := splitOn_tail minor hdot rest
  have hparts := parts_shortRelease major minor suffix
  rw [htail, hsplit] at hparts
  unfold fromStr
  simp only [hparts, List.getElem?_cons_zero, List.getElem?_cons_succ, parseVersionPart_numberText]
  rw [parseVersionPart, parseU32_numberText_append minor hdigit]
  rfl

end

/-! ## The gates -/

def GatesPass (release : List Char) : Prop :=
  (∀ attachBpf, ∃ notifier, LifecycleNotifier.attach attachBpf (String.ofList release) = .ok notifier) ∧
    ∃ report, inspectKernel (String.ofList release) = .ok report

theorem gatesPass_iff (release : List Char) : GatesPass release ↔ ∃ version, fromStr release = .ok version := by
  unfold GatesPass LifecycleNotifier.attach inspectKernel
  rw [String.toList_ofList]
  cases fromStr release with
  | error e => simp [bind, Except.bind]
  | ok version =>
    refine iff_of_true ⟨fun attachBpf => ?_, _, rfl⟩ ⟨version, rfl⟩
    simp only [Except.ok_bind]
    split
    · exact ⟨_, rfl⟩
    · cases attachBpf with
      | error error => exact ⟨_, rfl⟩
      | ok _ => exact ⟨_, rfl⟩

/-- Releases of three numbers and of two, up to their suffix. -/
theorem release_understood_iff (major minor patch : UInt32) (suffix : List Char) (hdetached : Detached suffix) :
    (fromStr (fullRelease major minor patch suffix) = .ok ⟨major, minor, patch⟩ ↔ Dashed suffix) ∧
    (fromStr (shortRelease major minor suffix) = .ok ⟨major, minor, 0⟩ ↔ Dashed suffix) ∧
    (GatesPass (fullRelease major minor patch suffix) ↔ Dashed suffix) ∧
    (GatesPass (shortRelease major minor suffix) ↔ Dashed suffix) := by
  simp only [gatesPass_iff]
  by_cases h : Dashed suffix
  · rw [fromStr_full h, fromStr_short h]
    exact ⟨iff_of_true rfl h, iff_of_true rfl h, iff_of_true ⟨_, rfl⟩ h, iff_of_true ⟨_, rfl⟩ h⟩
  · rw [fromStr_full_fails hdetached h, fromStr_short_fails hdetached h]
    have hfails : ∀ {e : KernelVersionError} {version}, (Except.error e : Except _ KernelVersion) ≠ .ok version :=
      fun h => by cases h
    refine ⟨iff_of_false hfails h, iff_of_false hfails h, ?_, ?_⟩
    · exact iff_of_false (fun ⟨_, hok⟩ => hfails hok) h
    · exact iff_of_false (fun ⟨_, hok⟩ => hfails hok) h

theorem detached_plus : Detached ['+'] := by
  intro c hc
  cases hc
  decide

theorem release_understood_iff_plus :
    fromStr (fullRelease 5 4 0 "-generic".toList) = .ok ⟨5, 4, 0⟩ ∧ ¬ GatesPass (fullRelease 5 10 0 ['+']) := by
  have hdash : Detached "-generic".toList := by
    intro c hc
    obtain rfl : '-' = c := Option.some.inj hc
    decide
  obtain ⟨-, -, hgates, -⟩ := release_understood_iff 5 10 0 ['+'] detached_plus
  exact ⟨(release_understood_iff 5 4 0 _ hdash).1.mpr (Or.inr rfl), mt hgates.mp (by simp [Dashed])⟩

theorem plus_not_understood : Detached ['+'] ∧ fullRelease 5 10 0 ['+'] = "5.10.0+".toList ∧
    fromStr (fullRelease 5 10 0 ['+']) ≠ .ok ⟨5, 10, 0⟩ ∧ fromStr (shortRelease 5 10 ['+']) ≠ .ok ⟨5, 10, 0⟩ :=
  ⟨detached_plus, by decide, by decide, by decide⟩

end KernelVersion

end RustProfile
