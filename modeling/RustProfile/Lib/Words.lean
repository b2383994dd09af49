import Mathlib.Data.List.Basic

/-!
# Words

A list is split into words at the elements that separate, and the words are put
together again with one separator between them. That gives back just the lists
in which separators stand alone, between words.
-/

namespace Words

variable {α : Type} (p : α → Bool) (sep : α)

def words (xs : List α) : List (List α) := (xs.splitOnP p).filter (· ≠ [])

def joined (xs : List α) : List α := [sep].intercalate (words p xs)

/-- Each element that separates is `sep`, and one that does not follows. -/
def SingleSpaced : List α → Prop
  | [] => True
  | c :: rest => (p c = true → c = sep ∧ ∃ d, rest.head? = some d ∧ p d = false) ∧ SingleSpaced rest

variable {p sep}

theorem words_sep {c : α} (h : p c = true) (xs : List α) : words p (c :: xs) = words p xs := by
  unfold words
  rw [List.splitOnP_cons_eq_if_modifyHead, if_pos h]
  simp

theorem words_word {word : List α} (hword : ∀ c ∈ word, p c = false) (hne : word ≠ []) {c : α} (h : p c = true)
    (xs : List α) : words p (word ++ c :: xs) = word :: words p xs := by
  unfold words
  rw [List.splitOnP_append_cons_of_forall_mem hword c h]
  simp [hne]

theorem words_seps {c : α} (h : p c = true) (n : ℕ) (xs : List α) :
    words p (List.replicate n c ++ xs) = words p xs := by
  induction n with
  | zero => rfl
  | succ n ih => rw [List.replicate_succ, List.cons_append, words_sep h, ih]

theorem words_cons_cons {c d : α} (hc : p c = false) (hd : p d = false) (xs : List α) : ∃ word rest,
    words p (d :: xs) = word :: rest ∧ words p (c :: d :: xs) = (c :: word) :: rest := by
  obtain ⟨first, rest, hsplit⟩ := List.exists_cons_of_ne_nil (List.splitOnP_ne_nil p xs)
  refine ⟨d :: first, rest.filter (· ≠ []), ?_, ?_⟩
  · unfold words
    rw [List.splitOnP_cons_eq_if_modifyHead, if_neg (by simp [hd]), hsplit]
    simp
  · unfold words
    rw [List.splitOnP_cons_eq_if_modifyHead, if_neg (by simp [hc]), List.splitOnP_cons_eq_if_modifyHead,
      if_neg (by simp [hd]), hsplit]
    simp

theorem joined_nil : joined p sep [] = [] := by
  unfold joined words
  simp

theorem joined_sep {c : α} (h : p c = true) (xs : List α) : joined p sep (c :: xs) = joined p sep xs := by
  unfold joined
  rw [words_sep h]

theorem joined_singleton {c : α} (h : p c = false) : joined p sep [c] = [c] := by
  unfold joined words
  rw [List.splitOnP_eq_singleton (by simp [h])]
  simp

theorem joined_cons_cons {c d : α} (hc : p c = false) (hd : p d = false) (xs : List α) :
    joined p sep (c :: d :: xs) = c :: joined p sep (d :: xs) := by
  obtain ⟨word, rest, hrest, hwhole⟩ := words_cons_cons hc hd xs
  unfold joined
  rw [hrest, hwhole]
  cases rest with
  | nil => simp
  | cons next rest => simp [List.intercalate_cons_cons]

theorem joined_cons_sep {c d : α} (hc : p c = false) (hd : p d = true) (xs : List α) :
    joined p sep (c :: d :: xs) = if joined p sep xs = [] then [c] else c :: sep :: joined p sep xs := by
  have hwords : words p (c :: d :: xs) = [c] :: words p xs :=
    words_word (List.forall_mem_singleton.mpr hc) (List.cons_ne_nil c []) hd xs
  unfold joined
  rw [hwords]
  cases hrest : words p xs with
  | nil => simp
  | cons word rest =>
    have hword : word ≠ [] := by
      have hmem : word ∈ words p xs := hrest ▸ List.mem_cons_self
      unfold words at hmem
      simpa using (List.mem_filter.mp hmem).2
    have hne : [sep].intercalate (word :: rest) ≠ [] := by
      cases rest with
      | nil => simpa using hword
      | cons next rest => simp [List.intercalate_cons_cons, hword]
    rw [if_neg hne, List.intercalate_cons_cons]
    rfl

/-! ## Lists of words with single separators -/

theorem SingleSpaced.cons_word {c : α} (hc : p c = false) {xs : List α} (h : SingleSpaced p sep xs) :
    SingleSpaced p sep (c :: xs) := by
  refine ⟨fun hp => ?_, h⟩
  rw [hc] at hp
  cases hp

theorem SingleSpaced.append : ∀ {xs ys : List α}, SingleSpaced p sep xs → SingleSpaced p sep ys →
    SingleSpaced p sep (xs ++ ys)
  | [], _, _, hys => hys
  | c :: xs, ys, ⟨hc, hxs⟩, hys => by
    refine ⟨fun hp => ?_, hxs.append hys⟩
    obtain ⟨hsep, d, hd, hword⟩ := hc hp
    refine ⟨hsep, d, ?_, hword⟩
    change (xs ++ ys).head? = some d
    rw [List.head?_append, hd, Option.some_or]

/-- What stands before a separator is spaced like the whole. -/
theorem SingleSpaced.of_append {c : α} (hc : p c = true) {ys : List α} : ∀ {xs : List α},
    SingleSpaced p sep (xs ++ c :: ys) → SingleSpaced p sep xs
  | [], _ => trivial
  | b :: xs, ⟨hb, hxs⟩ => by
    refine ⟨fun hp => ?_, SingleSpaced.of_append hc hxs⟩
    obtain ⟨hsep, d, hd, hword⟩ := hb hp
    cases xs with
    | nil =>
      cases hd
      rw [hc] at hword
      cases hword
    | cons x xs => exact ⟨hsep, d, hd, hword⟩

/-- **What is put together from words is single-spaced**, and starts with a word. -/
theorem singleSpaced_joined : ∀ (n : ℕ) (xs : List α), xs.length ≤ n →
    SingleSpaced p sep (joined p sep xs) ∧ ∀ c, (joined p sep xs).head? = some c → p c = false := by
  intro n
  induction n with
  | zero =>
    intro xs h
    rw [List.eq_nil_of_length_eq_zero (Nat.le_zero.mp h), joined_nil]
    exact ⟨trivial, fun c hc => by cases hc⟩
  | succ n ih =>
    intro xs h
    have hlength : ∀ {c : α} {ys : List α}, (c :: ys).length ≤ n + 1 → ys.length ≤ n :=
      fun hle => Nat.le_of_succ_le_succ hle
    cases xs with
    | nil =>
      rw [joined_nil]
      exact ⟨trivial, fun c hc => by cases hc⟩
    | cons c xs =>
      cases hc : p c with
      | true =>
        rw [joined_sep hc]
        exact ih xs (hlength h)
      | false =>
        have hhead : ∀ d, some c = some d → p d = false := fun d hd => by cases hd; exact hc
        cases xs with
        | nil =>
          rw [joined_singleton hc]
          exact ⟨SingleSpaced.cons_word hc trivial, hhead⟩
        | cons d xs =>
          cases hd : p d with
          | false =>
            rw [joined_cons_cons hc hd]
            exact ⟨SingleSpaced.cons_word hc (ih (d :: xs) (hlength h)).1, hhead⟩
          | true =>
            obtain ⟨hspaced, hword⟩ := ih xs (Nat.le_of_succ_le (hlength h))
            rw [joined_cons_sep hc hd]
            split
            · exact ⟨SingleSpaced.cons_word hc trivial, hhead⟩
            · rename_i hne
              obtain ⟨e, rest, hcons⟩ := List.exists_cons_of_ne_nil hne
              rw [hcons] at hspaced hword ⊢
              exact ⟨SingleSpaced.cons_word hc ⟨fun _ => ⟨rfl, e, rfl, hword e rfl⟩, hspaced⟩, hhead⟩

/-- **A single-spaced list is put together again.** -/
theorem joined_of_singleSpaced : ∀ (n : ℕ) (xs : List α), xs.length ≤ n → SingleSpaced p sep xs →
    (∀ c, xs.head? = some c → p c = false) → joined p sep xs = xs := by
  intro n
  induction n with
  | zero =>
    intro xs h _ _
    rw [List.eq_nil_of_length_eq_zero (Nat.le_zero.mp h), joined_nil]
  | succ n ih =>
    intro xs h hspaced hhead
    cases xs with
    | nil => exact joined_nil
    | cons c xs =>
      have hc := hhead c rfl
      have hlength : xs.length ≤ n := Nat.le_of_succ_le_succ h
      cases xs with
      | nil => exact joined_singleton hc
      | cons d xs =>
        obtain ⟨hd, hxs⟩ := hspaced.2
        cases hword : p d with
        | false =>
          rw [joined_cons_cons hc hword, ih (d :: xs) hlength hspaced.2 fun e he => by cases he; exact hword]
        | true =>
          obtain ⟨rfl, e, he, hnext⟩ := hd hword
          have hrest := ih xs (Nat.le_of_succ_le hlength) hxs fun f hf => by
            rw [he] at hf
            cases hf
            exact hnext
          have hne : xs ≠ [] := fun hnil => by rw [hnil] at he; cases he
          rw [joined_cons_sep hc hword, hrest, if_neg hne]

end Words
