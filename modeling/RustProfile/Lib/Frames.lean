import Mathlib.Data.List.Basic

/-!
# Streams of frames

A reader takes one frame after another from a stream until it finds the last
one. Where each frame is read back from whatever follows it, so is the stream;
and where no frame is read from a part of itself, no part of the stream is taken
for the whole.
-/

/-- What reads one frame: its content and the rest of the stream, or nothing when it is the last. -/
structure FrameReader (ε α β : Type) where
  read : List α → Except ε (Option (β × List α))
  shorter : ∀ {input b rest}, read input = .ok (some (b, rest)) → rest.length < input.length

namespace FrameReader

variable {ε α β γ : Type}

theorem prefix_append_cases {l₁ l₂ p : List α} (h : p <+: l₁ ++ l₂) :
    (p <+: l₁ ∧ p ≠ l₁) ∨ ∃ q, p = l₁ ++ q ∧ q <+: l₂ := by
  by_cases hp : p <+: l₁ ∧ p ≠ l₁
  · exact Or.inl hp
  have hwhole : l₁ <+: p := by
    rcases List.prefix_or_prefix_of_prefix h (List.prefix_append l₁ l₂) with hle | hle
    · have heq : p = l₁ := by_contra fun hne => hp ⟨hle, hne⟩
      exact heq ▸ List.prefix_refl p
    · exact hle
  obtain ⟨q, rfl⟩ := hwhole
  exact Or.inr ⟨q, rfl, (List.prefix_append_right_inj l₁).mp h⟩

variable (reader : FrameReader ε α β)

def fold (f : γ → β → γ) (acc : γ) (input : List α) : Except ε γ :=
  match _hread : reader.read input with
  | .error e => .error e
  | .ok none => .ok acc
  | .ok (some (b, rest)) => fold f (f acc b) rest
termination_by input.length
decreasing_by exact reader.shorter _hread

def Reads (bytes : List α) (b : β) : Prop := ∀ rest, reader.read (bytes ++ rest) = .ok (some (b, rest))

def Ends (bytes : List α) : Prop := ∀ rest, reader.read (bytes ++ rest) = .ok none

/-- No frame is read from a part of the bytes. -/
def Uncut (bytes : List α) : Prop := ∀ p, p <+: bytes → p ≠ bytes → ∃ e, reader.read p = .error e

/-- If a frame is read from what starts with the bytes, it is the bytes. -/
def Delimits (bytes : List α) : Prop :=
  ∀ rest result, reader.read (bytes ++ rest) = .ok result → ∃ b, result = some (b, rest)

variable {reader} {f : γ → β → γ} {acc : γ} {input : List α}

theorem fold_error {e : ε} (h : reader.read input = .error e) : reader.fold f acc input = .error e := by
  rw [fold]
  split <;> simp_all

theorem fold_last (h : reader.read input = .ok none) : reader.fold f acc input = .ok acc := by
  rw [fold]
  split <;> simp_all

theorem fold_frame {b : β} {rest : List α} (h : reader.read input = .ok (some (b, rest))) :
    reader.fold f acc input = reader.fold f (f acc b) rest := by
  rw [fold]
  split <;> simp_all

theorem exists_read_error {e : ε} (h : reader.fold f acc input = .error e) : ∃ part, reader.read part = .error e := by
  induction acc, input using fold.induct reader f with
  | case1 acc input e' hread =>
    rw [fold_error hread] at h
    cases h
    exact ⟨input, hread⟩
  | case2 acc input hread =>
    rw [fold_last hread] at h
    cases h
  | case3 acc input b rest hread ih =>
    rw [fold_frame hread] at h
    exact ih h

/-- **A stream is read back** frame by frame. -/
theorem fold_frames {last : List α} (hlast : reader.Ends last) (rest : List α) :
    ∀ (acc : γ) {frames : List (List α × β)}, (∀ frame ∈ frames, reader.Reads frame.1 frame.2) →
      reader.fold f acc ((frames.map Prod.fst).flatten ++ last ++ rest) = .ok ((frames.map Prod.snd).foldl f acc)
  | acc, [], _ => fold_last (hlast rest)
  | acc, frame :: frames, h => by
    obtain ⟨hfirst, hrest⟩ := List.forall_mem_cons.mp h
    rw [List.map_cons, List.flatten_cons, List.append_assoc, List.append_assoc,
      fold_frame (hfirst _), ← List.append_assoc, fold_frames hlast rest _ hrest]
    rfl

/-- **A part of a stream is not taken for the whole.** -/
theorem fold_cut {last : List α} (hlast : reader.Uncut last) : ∀ (acc : γ) {frames : List (List α)} {p : List α},
    (∀ bytes ∈ frames, reader.Uncut bytes ∧ reader.Delimits bytes) → p <+: frames.flatten ++ last →
      p ≠ frames.flatten ++ last → ∃ e, reader.fold f acc p = .error e
  | acc, [], p, _, hp, hne => by
    obtain ⟨e, he⟩ := hlast p hp hne
    exact ⟨e, fold_error he⟩
  | acc, bytes :: frames, p, h, hp, hne => by
    obtain ⟨⟨huncut, hdelimits⟩, hrest⟩ := List.forall_mem_cons.mp h
    rw [List.flatten_cons, List.append_assoc] at hp hne
    rcases prefix_append_cases hp with ⟨hcut, hpne⟩ | ⟨q, rfl, hq⟩
    · obtain ⟨e, he⟩ := huncut p hcut hpne
      exact ⟨e, fold_error he⟩
    have hqne : q ≠ frames.flatten ++ last := fun hq => hne (by rw [hq])
    cases hread : reader.read (bytes ++ q) with
    | error e => exact ⟨e, fold_error hread⟩
    | ok result =>
      obtain ⟨b, rfl⟩ := hdelimits q result hread
      rw [fold_frame hread]
      exact fold_cut hlast _ hrest hq hqne

end FrameReader
