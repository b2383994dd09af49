import RustProfile.OtlpTimeline

/-!
# The kinds of labels

A label is written with a text or with a number. In a profile both are numbers,
one of them the text's place in the string table, and the export takes a label
for a number when that place is the first.
-/

namespace RustProfile

inductive WrittenLabel where
  | text (key value : String)
  | number (key : String) (value : ℤ)
  deriving DecidableEq, Repr

namespace WrittenLabel

/-- The attribute with the same key and value. -/
def exported : WrittenLabel → Otlp.Attribute
  | text key value => (key, .string value, "")
  | number key value => (key, .int value, "")

def given : WrittenLabel → String × String × ℤ
  | text key value => (key, value, 0)
  | number key value => (key, "", value)

/-- No text of the label is empty. -/
def Textual : WrittenLabel → Prop
  | text key value => key ≠ "" ∧ value ≠ ""
  | number key _ => key ≠ ""

theorem labelOf_given_iff (written : WrittenLabel) :
    Otlp.labelOf written.given = some written.exported ↔ written.Textual := by
  unfold Otlp.labelOf
  cases written with
  | text key value =>
    by_cases hkey : key = ""
    · simp [given, Textual, hkey]
    · by_cases hvalue : value = ""
      · simp [given, exported, Textual, hkey, hvalue]
      · simp [given, exported, Textual, hkey, hvalue]
  | number key value =>
    by_cases hkey : key = ""
    · simp [given, Textual, hkey]
    · simp [given, exported, Textual, hkey]

end WrittenLabel

/-! ## The writers -/

def writtenTargetLabels (labels : List (String × String)) : List WrittenLabel :=
  labels.map fun label => .text label.1 label.2

def writtenThreadLabels (pid tid : UInt32) (name : Option String) : List WrittenLabel :=
  [.number "process.pid" pid.toNat, .number "thread.id" tid.toNat] ++ name.toList.map (.text "thread.name")

def ProfileSamples.written : ProfileSamples → List (List WrittenLabel)
  | .attributed labels samples => samples.map fun sample =>
    writtenTargetLabels labels ++ writtenThreadLabels sample.1.pid sample.1.tid sample.1.threadName
  | .labelled labels samples => samples.map fun _ => writtenTargetLabels labels

/-- No sample has a target label with an empty key or text, or a thread whose name is empty. -/
def ProfileSamples.Textual : ProfileSamples → Prop
  | .attributed labels samples =>
    ∀ sample ∈ samples, (∀ label ∈ labels, label.1 ≠ "" ∧ label.2 ≠ "") ∧ sample.1.threadName ≠ some ""
  | .labelled labels samples => ∀ _sample ∈ samples, ∀ label ∈ labels, label.1 ≠ "" ∧ label.2 ≠ ""

theorem given_targetLabels (labels : List (String × String)) :
    (writtenTargetLabels labels).map WrittenLabel.given = targetLabels labels := by
  unfold writtenTargetLabels targetLabels
  rw [List.map_map]
  rfl

theorem given_threadLabels (pid tid : UInt32) (name : Option String) :
    (writtenThreadLabels pid tid name).map WrittenLabel.given = threadLabels pid tid name := by
  unfold writtenThreadLabels threadLabels
  rw [List.map_append, List.map_map]
  rfl

theorem ProfileSamples.given_written (samples : ProfileSamples) :
    (samples.written.map fun written => written.map WrittenLabel.given) = samples.inputs.map SampleInput.labels := by
  cases samples with
  | attributed labels samples =>
    unfold written inputs
    rw [List.map_map, List.map_map]
    refine List.map_congr_left fun sample _ => ?_
    simp only [Function.comp_apply, List.map_append, given_targetLabels, given_threadLabels, attributedInput]
  | labelled labels samples =>
    unfold written inputs
    rw [List.map_map, List.map_map]
    refine List.map_congr_left fun sample _ => ?_
    simp only [Function.comp_apply, given_targetLabels, labelledInput]

theorem targetLabels_textual_iff (labels : List (String × String)) :
    (∀ written ∈ writtenTargetLabels labels, written.Textual) ↔ ∀ label ∈ labels, label.1 ≠ "" ∧ label.2 ≠ "" :=
  List.forall_mem_map

theorem threadLabels_textual_iff (pid tid : UInt32) (name : Option String) :
    (∀ written ∈ writtenThreadLabels pid tid name, written.Textual) ↔ name ≠ some "" := by
  cases name with
  | none => simp [writtenThreadLabels, WrittenLabel.Textual]
  | some name => simp [writtenThreadLabels, WrittenLabel.Textual]

theorem ProfileSamples.textual_iff (samples : ProfileSamples) :
    (∀ labels ∈ samples.written, ∀ written ∈ labels, written.Textual) ↔ samples.Textual := by
  cases samples with
  | attributed labels samples =>
    unfold written Textual
    rw [List.forall_mem_map]
    simp only [List.forall_mem_append, targetLabels_textual_iff, threadLabels_textual_iff]
  | labelled labels samples =>
    unfold written Textual
    rw [List.forall_mem_map]
    simp only [targetLabels_textual_iff]

/-! ## The export -/

namespace Otlp

open DictionaryBuilder

/-- A dictionary that any profiles have been converted with so far. -/
inductive Converted : DictionaryBuilder → Prop
  | new (processPid : ℤ) (htlhash : ℕ → ℤ → UInt64 → UInt64 → Option String) :
    Converted { processPid := processPid, htlhash := htlhash }
  | stack {d : DictionaryBuilder} (source : RustProfile.Profile) (sample : RustProfile.Sample) :
    Converted d → Converted (internSampleStack source (SourceLookup.new source) d sample).2
  | valueType {d : DictionaryBuilder} (source : RustProfile.Profile) (kind : RustProfile.ValueType) :
    Converted d → Converted (internValueType source d kind).2
  | label {d : DictionaryBuilder} (source : RustProfile.Profile) (label : RustProfile.Label) :
    Converted d → Converted (internPprofLabel source d label).2

theorem Converted.encoded {d : DictionaryBuilder} (h : Converted d) : ∃ met, Encoded d met := by
  induction h with
  | new processPid htlhash => exact ⟨[], encoded_new processPid htlhash⟩
  | stack source sample _ ih =>
    obtain ⟨met, hd⟩ := ih
    exact ⟨_, (internSampleStack_spec hd source sample).1⟩
  | valueType source kind _ ih =>
    obtain ⟨met, hd⟩ := ih
    obtain ⟨hb, hq, -⟩ := internValueType_spec hd.built source kind
    exact ⟨met, hd.quiet hb hq⟩
  | label source label _ ih =>
    obtain ⟨met, hd⟩ := ih
    obtain ⟨hb, hq, -⟩ := internPprofLabel_spec hd.built source label
    exact ⟨met, hd.quiet hb hq⟩

/-- The label of the source becomes the attribute that was written, whatever has been converted before. -/
def KeepsLabel (source : RustProfile.Profile) (written : WrittenLabel) (label : RustProfile.Label) : Prop :=
  ∀ d, Converted d → ∃ index, (internPprofLabel source d label).1 = some index ∧
    (internPprofLabel source d label).2.finish.decodeAttribute index = some written.exported

def KeepsLabels (request : ProfileRequest) : Prop :=
  List.Forall₂ (fun labels sample => List.Forall₂ (KeepsLabel request.build.2) labels sample.label)
    request.samples.written request.build.2.sample

section
variable {b : ProfileBuilder} {inputs : List SampleInput} (h : Writing b inputs)

include h

theorem keepsLabel_iff {written : WrittenLabel} {label : RustProfile.Label}
    (hl : RustProfile.LabelFits b.strings written.given label) :
    KeepsLabel b.profile written label ↔ written.Textual := by
  have heq : ∀ d, Converted d → Option.Rel (fun a i => (internPprofLabel b.profile d label).2.finish.decodeAttribute i =
      some a) (labelOf written.given) (internPprofLabel b.profile d label).1 := by
    intro d hd
    obtain ⟨met, hmet⟩ := hd.encoded
    obtain ⟨hb, -, hrel⟩ := internPprofLabel_spec hmet.built b.profile label
    rw [labelAttribute_eq h hl] at hrel
    exact rel_mono (fun _ _ ha => hb.decodeAttribute ha) hrel
  rw [← written.labelOf_given_iff]
  constructor
  · intro hkeeps
    have hnew := Converted.new 0 fun _ _ _ _ => none
    obtain ⟨index, hindex, hdecode⟩ := hkeeps _ hnew
    have hrel := heq _ hnew
    rw [hindex] at hrel
    generalize labelOf written.given = a at hrel ⊢
    cases hrel with
    | some hread => exact hread.symm.trans hdecode
  · intro hwritten d hd
    have hrel := heq d hd
    rw [hwritten] at hrel
    generalize hindex : (internPprofLabel b.profile d label).1 = index at hrel ⊢
    cases hrel with
    | some hread => exact ⟨_, rfl, hread⟩

theorem keepsLabels_iff {labels : List WrittenLabel} {sample : RustProfile.Sample}
    (hs : List.Forall₂ (RustProfile.LabelFits b.strings) (labels.map WrittenLabel.given) sample.label) :
    List.Forall₂ (KeepsLabel b.profile) labels sample.label ↔ ∀ written ∈ labels, written.Textual := by
  generalize sample.label = ls at hs ⊢
  induction labels generalizing ls with
  | nil =>
    cases hs
    exact iff_of_true List.Forall₂.nil fun _ hmem => absurd hmem List.not_mem_nil
  | cons written labels ih =>
    cases hs with
    | cons hl hrest => rw [List.forall₂_cons, keepsLabel_iff h hl, ih _ hrest, List.forall_mem_cons]

end

/-- **Every label keeps its kind, key and value in the export exactly if no text among them is empty.** -/
theorem label_kinds_kept_iff (request : ProfileRequest) : KeepsLabels request ↔ request.samples.Textual := by
  obtain ⟨hw, -⟩ := request.builder_spec
  have hfits : List.Forall₂ (fun labels (sample : RustProfile.Sample) => List.Forall₂
      (RustProfile.LabelFits request.builder.strings) (labels.map WrittenLabel.given) sample.label)
      request.samples.written request.build.2.sample := by
    have hinputs : List.Forall₂ (fun labels (sample : RustProfile.Sample) => List.Forall₂
        (RustProfile.LabelFits request.builder.strings) labels sample.label)
        (request.samples.inputs.map SampleInput.labels) request.build.2.sample :=
      List.forall₂_map_left_iff.mpr (hw.samples.imp fun _ _ hs => hs.labels)
    rw [← ProfileSamples.given_written] at hinputs
    exact List.forall₂_map_left_iff.mp hinputs
  rw [← ProfileSamples.textual_iff]
  unfold KeepsLabels
  generalize request.samples.written = written at hfits ⊢
  generalize request.build.2.sample = samples at hfits ⊢
  induction hfits with
  | nil => exact iff_of_true List.Forall₂.nil fun _ hmem => absurd hmem List.not_mem_nil
  | cons hs _ ih =>
    rw [List.forall₂_cons, List.forall_mem_cons]
    exact and_congr (keepsLabels_iff hw hs) ih

/-! ## A thread without a name -/

/-- What a label of the source is read as once it has been converted. -/
def readLabel (source : RustProfile.Profile) (d : DictionaryBuilder) (label : RustProfile.Label) : Option Attribute :=
  (internPprofLabel source d label).1.bind (internPprofLabel source d label).2.finish.decodeAttribute

theorem KeepsLabels.read {request : ProfileRequest} (h : KeepsLabels request) {d : DictionaryBuilder}
    (hd : Converted d) : (request.build.2.sample.map fun sample => sample.label.map (readLabel request.build.2 d)) =
      request.samples.written.map fun labels => labels.map fun written => some written.exported := by
  have hlabel : ∀ {labels : List WrittenLabel} {ls : List RustProfile.Label},
      List.Forall₂ (KeepsLabel request.build.2) labels ls →
      ls.map (readLabel request.build.2 d) = labels.map fun written => some written.exported := by
    intro labels ls hls
    induction hls with
    | nil => rfl
    | cons hkeeps _ ih =>
      obtain ⟨index, hindex, hdecode⟩ := hkeeps d hd
      rw [List.map_cons, List.map_cons, ih, readLabel, hindex, Option.bind_some, hdecode]
  unfold KeepsLabels at h
  generalize request.samples.written = written at h ⊢
  generalize request.build.2.sample = samples at h ⊢
  induction h with
  | nil => rfl
  | cons hlabels _ ih => rw [List.map_cons, List.map_cons, ih, hlabel hlabels]

def namelessThread : ProfileRequest :=
  offCpuRequest .stored ((∅ : Table AttributedStack OffCpuValues).insert
    { stack := Stack.ofAddresses [4096], pid := 7, tid := 8, threadName := some "" } { events := 1, nanoseconds := 5 })
    noSymbols 0 100 []

/-- Its name is exported as a number. -/
theorem namelessThread_named_by_number :
    namelessThread.samples.written =
        [[.number "process.pid" 7, .number "thread.id" 8, .text "thread.name" ""]] ∧
      (namelessThread.build.2.sample.map fun sample => sample.label.map
        (readLabel namelessThread.build.2 { processPid := 7, htlhash := fun _ _ _ _ => none })) =
        [[some ("process.pid", .int 7, ""), some ("thread.id", .int 8, ""), some ("thread.name", .int 0, "")]] ∧
      ¬ KeepsLabels namelessThread := by
  have hwritten : namelessThread.samples.written =
      [[.number "process.pid" 7, .number "thread.id" 8, .text "thread.name" ""]] := by decide +kernel
  have hread : (namelessThread.build.2.sample.map fun sample => sample.label.map
      (readLabel namelessThread.build.2 { processPid := 7, htlhash := fun _ _ _ _ => none })) =
      [[some ("process.pid", .int 7, ""), some ("thread.id", .int 8, ""), some ("thread.name", .int 0, "")]] := by
    decide +kernel
  refine ⟨hwritten, hread, fun h => ?_⟩
  have heq := h.read (Converted.new 7 fun _ _ _ _ => none)
  rw [hread, hwritten] at heq
  revert heq
  decide

end Otlp

end RustProfile
