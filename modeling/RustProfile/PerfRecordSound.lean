import RustProfile.PerfRecord

/-!
# Which frames of a call chain are kept

The words of a call chain are clamped to 127 before the markers among them are
left out, so a marker costs a user frame wherever an address comes after the
127th word.
-/

namespace RustProfile

/-! ## Reading a body -/

section
variable (rest : List UInt8)

theorem Cursor.u64_field (x : UInt64) : Cursor.u64 ⟨Bytes.ofNat 8 x.toNat ++ rest⟩ = some (x, ⟨rest⟩) := by
  unfold Cursor.u64 Cursor.bytes
  rw [Bytes.take?_append (Bytes.length_ofNat 8 _), Option.map_some, Option.map_some, Bytes.toNat_ofNat x.toNat_lt,
    UInt64.ofNat_toNat]

theorem Cursor.u32_field (x : UInt32) : Cursor.u32 ⟨Bytes.ofNat 4 x.toNat ++ rest⟩ = some (x, ⟨rest⟩) := by
  unfold Cursor.u32 Cursor.bytes
  rw [Bytes.take?_append (Bytes.length_ofNat 4 _), Option.map_some, Option.map_some, Bytes.toNat_ofNat x.toNat_lt,
    UInt32.ofNat_toNat]

end

theorem readAddresses_words : ∀ (words : List UInt64) {count : ℕ}, count ≤ words.length →
    readAddresses count ⟨encodeWords words⟩ = some (userAddresses (words.take count))
  | _, 0, _ => rfl
  | word :: words, count + 1, h => by
    have hrest := readAddresses_words words (Nat.le_of_succ_le_succ h)
    unfold readAddresses
    rw [show encodeWords (word :: words) = Bytes.ofNat 8 word.toNat ++ encodeWords words from rfl, Cursor.u64_field]
    simp only [Option.bind_eq_bind, Option.bind_some, hrest]
    unfold userAddresses
    rw [List.take_succ_cons, List.filter_cons]
    by_cases hword : word < perfContextMax
    · simp [hword]
    · simp [hword]

/-- A body is read as far as its first 127 words. -/
theorem parseSample_body (body : SampleBody) (registerMask : UInt64) :
    parseSample body.bytes .fp registerMask = some
      { pid := body.pid
        tid := body.tid
        time := body.time.toNat
        period := body.period.toNat
        data := .framePointer
          ((withHead body.ip (userAddresses (body.words.take defaultMaxFrames))).take defaultMaxFrames) } := by
  have hcount : (UInt64.ofNat body.words.length).toNat = body.words.length := UInt64.toNat_ofNat_of_lt' body.counted
  have hwords : Bytes.ofNat 8 body.words.length = Bytes.ofNat 8 (UInt64.ofNat body.words.length).toNat := by rw [hcount]
  have hmin : body.words.take (min body.words.length defaultMaxFrames) = body.words.take defaultMaxFrames := by
    rw [Nat.min_comm, ← List.take_eq_take_min]
  unfold parseSample sampleData SampleBody.bytes framePointerData withHead
  simp only [hwords, Cursor.u64_field, Cursor.u32_field, Option.bind_eq_bind, Option.bind_some, hcount,
    readAddresses_words body.words (Nat.min_le_left _ _), hmin]
  by_cases hhead : (userAddresses (body.words.take defaultMaxFrames)).head? = some body.ip
  · simp [hhead]
  · simp [hhead]

/-! ## Arbitrary bytes -/

theorem parseSample_frames {bytes : List UInt8} {mode : UnwindMode} {registerMask : UInt64} {sample : PerfSample}
    {frames : List UInt64} (h : parseSample bytes mode registerMask = some sample)
    (hdata : sample.data = .framePointer frames) :
    frames ≠ [] ∧ frames.length ≤ defaultMaxFrames ∧ ∃ ip rest, Cursor.u64 ⟨bytes⟩ = some (ip, rest) ∧
      frames.head? = some ip := by
  unfold parseSample at h
  simp only [Option.bind_eq_bind, Option.bind_eq_some_iff] at h
  obtain ⟨⟨ip, c₁⟩, hip, ⟨pid, c₂⟩, -, ⟨tid, c₃⟩, -, ⟨time, c₄⟩, -, ⟨period, c₅⟩, -, data, hread, hsample⟩ := h
  unfold sampleData at hread
  obtain rfl : sample.data = data := by rw [← Option.some.inj hsample]
  rw [hdata] at hread
  cases mode with
  | auto => cases hread
  | dwarf =>
    unfold dwarfData at hread
    simp only [Option.bind_eq_bind, Option.bind_eq_some_iff] at hread
    obtain ⟨⟨abi, c⟩, -, hread⟩ := hread
    split at hread
    · cases hread
    · simp only [Option.bind_eq_some_iff] at hread
      obtain ⟨_, -, _, -, _, -, _, -, hread⟩ := hread
      cases hread
  | fp =>
    unfold framePointerData at hread
    simp only [Option.bind_eq_bind, Option.bind_eq_some_iff] at hread
    obtain ⟨⟨words, c⟩, -, addresses, -, hread⟩ := hread
    obtain ⟨first, hfirst⟩ : ∃ first, first = if addresses.head? ≠ some ip then ip :: addresses else addresses :=
      ⟨_, rfl⟩
    have hhead : first.head? = some ip := by
      rw [hfirst]
      by_cases hip' : addresses.head? = some ip
      · simp [hip']
      · simp [hip']
    have hframes : first.take defaultMaxFrames = frames := by
      rw [hfirst]
      exact PerfSampleData.framePointer.inj (Option.some.inj hread)
    have hkept : frames.head? = some ip := by
      rw [← hframes, List.head?_take, if_neg (by decide)]
      exact hhead
    refine ⟨?_, ?_, ip, c₁, hip, hkept⟩
    · rintro rfl
      cases hkept
    · rw [← hframes]
      exact List.length_take_le _ _

/-! ## Counting truncated stacks -/

namespace CpuWindow

variable (w : CpuWindow)

theorem internStack_truncated (stack : Stack) : (w.internStack stack).2.truncatedSamples = w.truncatedSamples := by
  unfold internStack
  split
  · rfl
  · split <;> rfl

theorem threadName_truncated {ω : Type} (comm : CommReader ω) (world : ω) (pid tid : UInt32) :
    (w.threadName comm world pid tid).2.1.truncatedSamples = w.truncatedSamples := by
  unfold threadName
  split
  · rfl
  · split <;> rfl

theorem recordTimeline_truncated (key : AttributedStack) (time : ℕ) (period : ℤ) :
    (w.recordTimeline key time period).truncatedSamples = w.truncatedSamples := by
  unfold recordTimeline
  split
  · dsimp only
    split <;> rfl
  · rfl

theorem aggregate_truncated (key : AttributedStack) (period : ℤ) (depth : ℕ) :
    (w.aggregate key period depth).truncatedSamples = w.truncatedSamples := by
  unfold aggregate
  dsimp only
  split
  · rfl
  · split <;> rfl

end CpuWindow

/-- A frame-pointer stack that is accepted with 127 frames is counted as truncated. -/
theorem ingestSample_truncated {δ ω : Type} (context : IngestContext δ) (comm : CommReader ω) (st : Ingesting δ ω)
    {sample : PerfSample} {frames : List UInt64} (hdata : sample.data = .framePointer frames)
    (hlength : frames.length = defaultMaxFrames) (hframes : context.framePointerFrames frames ≠ .rejected) :
    (ingestSample context comm st sample).1.window.truncatedSamples = st.window.truncatedSamples + 1 := by
  have husable : context.framePointerFrames frames = .usable frames true := by
    unfold IngestContext.framePointerFrames at hframes ⊢
    dsimp only at hframes ⊢
    split at hframes
    · exact absurd rfl hframes
    · rename_i h
      rw [if_neg h, hlength]
      rfl
  unfold ingestSample IngestContext.sampleFrames
  rw [hdata]
  dsimp only
  rw [husable]
  unfold ingestUsable
  dsimp only
  rw [CpuWindow.aggregate_truncated, CpuWindow.recordTimeline_truncated, CpuWindow.threadName_truncated,
    CpuWindow.internStack_truncated]
  rfl

/-! ## The first 127 frames -/

/-- No frame is displaced: no address comes after the 127th word, or the addresses before it already fill the stack,
or the only frame there is comes late. -/
def SampleBody.Undisplaced (self : SampleBody) : Prop :=
  let early := userAddresses (self.words.take defaultMaxFrames)
  let late := userAddresses (self.words.drop defaultMaxFrames)
  late = [] ∨ early.length = 127 ∨ (early.length = 126 ∧ early.head? ≠ some self.ip) ∨ (early = [] ∧ late = [self.ip])

/-- The sample is what the kernel encoded; a stack that fills 127 frames is counted as truncated once it is accepted. -/
def SampleBody.Decoded (self : SampleBody) (registerMask : UInt64) : Prop :=
  ∃ sample, parseSample self.bytes .fp registerMask = some sample ∧
    sample.pid = self.pid ∧ sample.tid = self.tid ∧ sample.time = self.time.toNat ∧
    sample.period = self.period.toNat ∧ sample.data = .framePointer self.userFrames ∧
    (defaultMaxFrames ≤ (userAddresses self.words).length → self.userFrames.length = defaultMaxFrames ∧
      ∀ (δ ω : Type) (context : IngestContext δ) (comm : CommReader ω) (st : Ingesting δ ω),
        context.framePointerFrames self.userFrames ≠ .rejected →
          (ingestSample context comm st sample).1.window.truncatedSamples = st.window.truncatedSamples + 1)

theorem take_eq_take_append_iff {α : Type} {l l' : List α} {n : ℕ} :
    l.take n = (l ++ l').take n ↔ l' = [] ∨ n ≤ l.length := by
  rw [List.take_append, List.self_eq_append_right, List.take_eq_nil_iff, Nat.sub_eq_zero_iff_le, or_comm]

theorem withHead_ne_nil {ip : UInt64} {early : List UInt64} (h : early ≠ []) (late : List UInt64) :
    withHead ip (early ++ late) = withHead ip early ++ late := by
  unfold withHead
  rw [List.head?_append_of_ne_nil _ h]
  split <;> rfl

theorem length_withHead (ip : UInt64) (frames : List UInt64) :
    (withHead ip frames).length = frames.length + if frames.head? = some ip then 0 else 1 := by
  unfold withHead
  split <;> rfl

/-- Frames that come late are lost, unless there is no room for them. -/
theorem take_withHead_eq_iff {ip : UInt64} {early late : List UInt64} {n : ℕ} (hlength : early.length ≤ n + 2) :
    (withHead ip early).take (n + 2) = (withHead ip (early ++ late)).take (n + 2) ↔
      late = [] ∨ early.length = n + 2 ∨ (early.length = n + 1 ∧ early.head? ≠ some ip) ∨
        (early = [] ∧ late = [ip]) := by
  by_cases hnil : early = []
  · subst hnil
    have hleft : (withHead ip []).take (n + 2) = [ip] := rfl
    rw [hleft]
    cases late with
    | nil => simp [withHead]
    | cons frame late =>
      by_cases hip : frame = ip
      · subst hip
        simp [withHead, eq_comm (a := ([] : List UInt64))]
      · simp [withHead, hip]
  · rw [withHead_ne_nil hnil, take_eq_take_append_iff, length_withHead]
    by_cases hip : early.head? = some ip
    · simp only [hip, if_true, ne_eq, not_true_eq_false, and_false, hnil, false_and, or_false]
      exact or_congr_right (by omega)
    · simp only [hip, if_false, ne_eq, not_false_eq_true, and_true, hnil, false_and, or_false]
      exact or_congr_right (by omega)

theorem userAddresses_split (words : List UInt64) (n : ℕ) :
    userAddresses (words.take n) ++ userAddresses (words.drop n) = userAddresses words := by
  unfold userAddresses
  rw [← List.filter_append, List.take_append_drop]

/-- **The first 127 user frames.** They are what a body is decoded to exactly when
no marker before the 127th word costs a frame. Whatever the bytes, a decoded
stack starts at the sampled address and has at most 127 frames. -/
theorem parseSample_decodes_iff (registerMask : UInt64) :
    (∀ body : SampleBody, body.Decoded registerMask ↔ body.Undisplaced) ∧
      ∀ (bytes : List UInt8) (mode : UnwindMode) (sample : PerfSample) (frames : List UInt64),
        parseSample bytes mode registerMask = some sample → sample.data = .framePointer frames →
          frames ≠ [] ∧ frames.length ≤ defaultMaxFrames ∧
            ∃ ip rest, Cursor.u64 ⟨bytes⟩ = some (ip, rest) ∧ frames.head? = some ip := by
  refine ⟨fun body => ?_, fun bytes mode sample frames h hdata => parseSample_frames h hdata⟩
  have hparse := parseSample_body body registerMask
  have hearly : (userAddresses (body.words.take defaultMaxFrames)).length ≤ defaultMaxFrames :=
    (List.length_filter_le _ _).trans (List.length_take_le _ _)
  have hframes : (withHead body.ip (userAddresses (body.words.take defaultMaxFrames))).take defaultMaxFrames =
      body.userFrames ↔ body.Undisplaced := by
    unfold SampleBody.userFrames
    rw [← userAddresses_split body.words defaultMaxFrames]
    exact @take_withHead_eq_iff _ _ _ 125 hearly
  constructor
  · rintro ⟨sample, hsample, -, -, -, -, hdata, -⟩
    rw [hparse, Option.some.injEq] at hsample
    subst hsample
    exact hframes.mp (PerfSampleData.framePointer.inj hdata)
  · intro h
    refine ⟨_, hparse, rfl, rfl, rfl, rfl, congrArg _ (hframes.mpr h), fun hlong => ?_⟩
    have hfull : body.userFrames.length = defaultMaxFrames := by
      unfold SampleBody.userFrames
      rw [List.length_take, length_withHead]
      omega
    refine ⟨hfull, fun δ ω context comm st hrejected => ?_⟩
    exact ingestSample_truncated context comm st (congrArg _ (hframes.mpr h)) hfull hrejected

def markedChain : SampleBody where
  ip := 1
  pid := 7
  tid := 7
  time := 100
  period := 10
  words := 0xFFFFFFFFFFFFFE00 :: (List.range 127).map fun i => UInt64.ofNat (i + 1)
  counted := Nat.le_of_ble_eq_true rfl

/-- The 127th frame is lost to the marker. -/
theorem markedChain_displaced : ¬ markedChain.Decoded 0 := by
  rintro ⟨sample, hsample, -, -, -, -, hdata, -⟩
  rw [parseSample_body, Option.some.injEq] at hsample
  subst hsample
  have hlength := congrArg List.length (PerfSampleData.framePointer.inj hdata)
  exact absurd hlength (by decide +kernel)

end RustProfile
