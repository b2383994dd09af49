import RustProfile.OtlpFlags
import RustProfile.OtlpTimeline

/-!
# The keys of labels and attributes

The labels of a target begin with its pid, and so do those of a thread. Every
sample that gets both has the key twice, and its attributes have it too.
-/

namespace RustProfile

open Interning

/-! ## The keys of a profile's labels -/

def SampleInput.labelKeys (input : SampleInput) : List String := input.labels.map Prod.fst

def LabelKeysDistinct (p : Profile) : Prop := ∀ s ∈ p.sample, (s.label.map fun l => p.string l.key).Nodup

theorem Writing.labelKeys {b : ProfileBuilder} {inputs : List SampleInput} (h : Writing b inputs) {input : SampleInput}
    {s : Sample} (hs : SampleFits b input s) :
    (s.label.map fun l => b.profile.string l.key) = input.labelKeys.map some := by
  unfold SampleInput.labelKeys
  have hlabels := hs.labels
  generalize s.label = ls at hlabels
  generalize input.labels = labels at hlabels
  induction hlabels with
  | nil => rfl
  | cons hl _ ih => rw [List.map_cons, List.map_cons, List.map_cons, ih, h.located.built.string hl.key]

def ProfileSamples.KeysDistinct (samples : ProfileSamples) : Prop := ∀ input ∈ samples.inputs, input.labelKeys.Nodup

theorem labelKeysDistinct_iff (request : ProfileRequest) :
    LabelKeysDistinct request.build.2 ↔ request.samples.KeysDistinct := by
  obtain ⟨hw, -⟩ := request.builder_spec
  constructor
  · intro h input hinput
    obtain ⟨s, hs, hfits⟩ := exists_of_forall₂_left hw.samples hinput
    have hnodup := h s hs
    rw [show (s.label.map fun l => request.build.2.string l.key) = _ from hw.labelKeys hfits] at hnodup
    exact hnodup.of_map some
  · intro h s hs
    obtain ⟨input, hinput, hfits⟩ := exists_of_forall₂_right hw.samples hs
    rw [show (s.label.map fun l => request.build.2.string l.key) = _ from hw.labelKeys hfits]
    exact (h input hinput).map (Option.some_injective _)

/-! ## The two generators -/

theorem targetLabels_keys (labels : List (String × String)) :
    (targetLabels labels).map Prod.fst = labels.map Prod.fst := by
  unfold targetLabels
  rw [List.map_map]
  rfl

theorem optionalLabels_keys : ∀ labels : List (String × Option String),
    ((labels.filterMap fun label => label.2.map fun value => (label.1, value)).map Prod.fst).Sublist
      (labels.map Prod.fst)
  | [] => List.Sublist.slnil
  | (key, none) :: labels => (optionalLabels_keys labels).cons key
  | (key, some _) :: labels => (optionalLabels_keys labels).cons_cons key

theorem profileLabels_keys (target : TargetMetadata) : ((profileLabels target).map Prod.fst).Sublist
    ["process.pid", "container.id", "container.name", "k8s.namespace.name", "k8s.pod.name", "k8s.pod.uid",
      "k8s.container.name", "k8s.node.name"] :=
  (optionalLabels_keys _).cons_cons "process.pid"

theorem threadLabels_keys (pid tid : UInt32) (name : Option String) :
    ((threadLabels pid tid name).map Prod.fst).Sublist ["process.pid", "thread.id", "thread.name"] := by
  cases name with
  | none =>
    change ["process.pid", "thread.id"].Sublist ["process.pid", "thread.id", "thread.name"]
    decide
  | some name => exact List.Sublist.refl _

def ProfileSamples.Keyed (samples : ProfileSamples) : Prop := ∀ input ∈ samples.inputs, "" ∉ input.labelKeys

theorem attributedInput_keys (labels : List (String × String)) (sample : AttributedStack × List ℤ) :
    (attributedInput labels sample).labelKeys =
      labels.map Prod.fst ++ (threadLabels sample.1.pid sample.1.tid sample.1.threadName).map Prod.fst := by
  unfold attributedInput SampleInput.labelKeys
  rw [List.map_append, targetLabels_keys]

section
variable (target : TargetMetadata)

theorem attributed_keyed {labels : List (String × String)} (hlabels : labels = profileLabels target ∨ labels = [])
    (samples : List (AttributedStack × List ℤ)) : (ProfileSamples.attributed labels samples).Keyed := by
  intro input hinput hmem
  obtain ⟨sample, -, rfl⟩ := List.mem_map.mp hinput
  rw [attributedInput_keys, List.mem_append] at hmem
  rcases hmem with hmem | hmem
  · rcases hlabels with rfl | rfl
    · exact absurd ((profileLabels_keys target).subset hmem) (by decide)
    · cases hmem
  · exact absurd ((threadLabels_keys _ _ _).subset hmem) (by decide)

theorem labelled_keyed (samples : List (Stack × List ℤ)) :
    (ProfileSamples.labelled (profileLabels target) samples).Keyed := by
  intro input hinput hmem
  obtain ⟨sample, -, rfl⟩ := List.mem_map.mp hinput
  change "" ∈ (targetLabels (profileLabels target)).map Prod.fst at hmem
  rw [targetLabels_keys] at hmem
  exact absurd ((profileLabels_keys target).subset hmem) (by decide)

/-- A sample with both kinds of labels has a key twice. -/
theorem attributed_keysDistinct_iff (samples : List (AttributedStack × List ℤ)) :
    (ProfileSamples.attributed (profileLabels target) samples).KeysDistinct ↔ samples = [] := by
  constructor
  · intro h
    cases samples with
    | nil => rfl
    | cons sample samples =>
      have hnodup := h _ List.mem_cons_self
      rw [attributedInput_keys] at hnodup
      exact ((List.nodup_append'.mp hnodup).2.2 List.mem_cons_self List.mem_cons_self).elim
  · rintro rfl
    nofun

theorem unlabelled_keysDistinct (samples : List (AttributedStack × List ℤ)) :
    (ProfileSamples.attributed [] samples).KeysDistinct := by
  intro input hinput
  obtain ⟨sample, -, rfl⟩ := List.mem_map.mp hinput
  rw [attributedInput_keys]
  exact (threadLabels_keys _ _ _).nodup (by decide)

theorem labelled_keysDistinct (samples : List (Stack × List ℤ)) :
    (ProfileSamples.labelled (profileLabels target) samples).KeysDistinct := by
  intro input hinput
  obtain ⟨sample, -, rfl⟩ := List.mem_map.mp hinput
  change ((targetLabels (profileLabels target)).map Prod.fst).Nodup
  rw [targetLabels_keys]
  exact (profileLabels_keys target).nodup (by decide)

end

/-! ## The keys of a request's attributes -/

namespace Otlp

def AttributeKeysDistinct (r : ExportProfilesServiceRequest) : Prop :=
  ∀ scope ∈ r.scopeProfiles, ∀ p ∈ scope.profiles, ∀ o ∈ p.samples,
    (o.attributeIndices.map fun i => (r.dictionary.decodeAttribute i).map Prod.fst).Nodup

theorem Built.attributeKeys {d : DictionaryBuilder} {met : List Met} (h : Built d met) {as : List Attribute}
    {is : List ℕ} (hat : List.Forall₂ (AttributeAt d.attributeIndex) as is) :
    (is.map fun i => (d.finish.decodeAttribute i).map Prod.fst) = (as.map Prod.fst).map some := by
  induction hat with
  | nil => rfl
  | cons ha _ ih => rw [List.map_cons, List.map_cons, List.map_cons, ih, h.decodeAttribute ha, Option.map_some]

theorem ProfileFits.sampleOf {d : DictionaryBuilder} {source : RustProfile.Profile} {timestamps : Option (List ℕ)}
    (ht : Stamped source timestamps) {k : ℕ} {p : Profile} (hp : ProfileFits d source timestamps k p)
    {s : RustProfile.Sample} (hs : s ∈ source.sample) :
    ∃ o ∈ p.samples, List.Forall₂ (AttributeAt d.attributeIndex) (attributesOf source s) o.attributeIndices := by
  cases timestamps with
  | none =>
    obtain ⟨o, ho, hfits⟩ := exists_of_forall₂_left (hp.plain rfl) hs
    exact ⟨o, ho, hfits.attributes⟩
  | some stamps =>
    obtain ⟨rows, hrows, hsamples⟩ := hp.timed stamps rfl
    have hzip : s ∈ (source.sample.zip stamps).map Prod.fst := by
      rw [List.map_fst_zip (ht stamps rfl).ge]
      exact hs
    obtain ⟨st, hst, rfl⟩ := List.mem_map.mp hzip
    obtain ⟨row, hrow, hfits⟩ := exists_of_forall₂_left hrows hst
    obtain ⟨g, hg, hkey⟩ := List.mem_map.mp (((Grouping.group_spec rows).keys row.1).mpr (List.mem_map_of_mem hrow))
    refine ⟨groupSample g, ?_, ?_⟩
    · rw [hsamples]
      exact List.mem_map_of_mem hg
    · unfold groupSample
      rw [hkey]
      exact hfits.attributes

theorem Encodings.attributeKeysDistinct_iff {e : Encoding} {done : List (RustProfile.Profile × Option (List ℕ))}
    (h : Encodings e done) (ht : ∀ input ∈ done, Stamped input.1 input.2) :
    AttributeKeysDistinct { scopeProfiles := e.scopeProfiles, dictionary := e.dictionary.finish } ↔
      ∀ input ∈ done, input.1.sampleType ≠ [] →
        ∀ s ∈ input.1.sample, ((attributesOf input.1 s).map Prod.fst).Nodup := by
  have hb := h.encoded.built
  constructor
  · intro hd input hinput htypes s hs
    obtain ⟨scope, hscope, hfits⟩ := exists_of_forall₂_left h.scopes hinput
    have hzero : 0 ∈ List.range input.1.sampleType.length :=
      List.mem_range.mpr (List.length_pos_iff.mpr htypes)
    obtain ⟨p, hp, hprofile⟩ := exists_of_forall₂_left hfits.profiles hzero
    obtain ⟨o, ho, hat⟩ := hprofile.sampleOf (ht input hinput) hs
    have hnodup := hd scope hscope p hp o ho
    rw [show (o.attributeIndices.map _) = _ from hb.attributeKeys hat] at hnodup
    exact hnodup.of_map some
  · intro hd scope hscope p hp o ho
    obtain ⟨input, hinput, hfits⟩ := exists_of_forall₂_right h.scopes hscope
    obtain ⟨k, hk, hprofile⟩ := exists_of_forall₂_right hfits.profiles hp
    obtain ⟨s, hs, -, hat, -⟩ := hprofile.sample ho
    have htypes : input.1.sampleType ≠ [] := List.length_pos_iff.mp (Nat.zero_lt_of_lt (List.mem_range.mp hk))
    rw [show (o.attributeIndices.map _) = _ from hb.attributeKeys hat]
    exact (hd input hinput htypes s hs).map (Option.some_injective _)

theorem labelOf_keys : ∀ {labels : List (String × String × ℤ)}, "" ∉ labels.map Prod.fst →
    (labels.filterMap labelOf).map Prod.fst = labels.map Prod.fst
  | [], _ => rfl
  | label :: labels, h => by
    rw [List.map_cons, List.mem_cons, not_or] at h
    obtain ⟨a, ha, hkey⟩ : ∃ a, labelOf label = some a ∧ a.1 = label.1 := by
      unfold labelOf
      rw [if_neg (Ne.symm h.1)]
      by_cases hvalue : label.2.1 ≠ ""
      · exact ⟨_, if_pos hvalue, rfl⟩
      · exact ⟨_, if_neg hvalue, rfl⟩
    rw [List.filterMap_cons, ha, List.map_cons, List.map_cons, hkey, labelOf_keys h.2]

theorem attributeKeys_iff {request : ProfileRequest} (hkeyed : request.samples.Keyed) :
    (∀ s ∈ request.build.2.sample, ((attributesOf request.build.2 s).map Prod.fst).Nodup) ↔
      request.samples.KeysDistinct := by
  obtain ⟨hw, -⟩ := request.builder_spec
  have hkeys : ∀ {input : SampleInput} {s : RustProfile.Sample}, input ∈ request.samples.inputs →
      RustProfile.SampleFits request.builder input s →
      (attributesOf request.build.2 s).map Prod.fst = input.labelKeys := by
    intro input s hinput hs
    rw [show attributesOf request.build.2 s = _ from attributesOf_eq hw hs, labelOf_keys (hkeyed input hinput)]
    rfl
  constructor
  · intro h input hinput
    obtain ⟨s, hs, hfits⟩ := exists_of_forall₂_left hw.samples hinput
    rw [← hkeys hinput hfits]
    exact h s hs
  · intro h s hs
    obtain ⟨input, hinput, hfits⟩ := exists_of_forall₂_right hw.samples hs
    rw [hkeys hinput hfits]
    exact h input hinput

theorem sampleType_ne_nil {request : ProfileRequest} (h : request.header.sampleTypes ≠ []) :
    request.build.2.sampleType ≠ [] := by
  obtain ⟨-, hheading, -⟩ := request.builder_spec
  rw [← List.length_pos_iff] at h ⊢
  exact hheading.sampleType.length_eq ▸ h

/-- A request whose profiles name their sample types, and label every sample by keys. -/
structure Exportable (request : ProfileRequest) : Prop where
  keyed : request.samples.Keyed
  sampleTypes : request.header.sampleTypes ≠ []

theorem attributeKeysDistinct_iff (profileId : ℕ → Except String (List UInt8))
    (htlhash : ℕ → ℤ → UInt64 → UInt64 → Option String) {sources : List ProfileRequest}
    {timeline : Option (ProfileRequest × List ℕ)} (hsources : ∀ source ∈ sources, Exportable source)
    (htimeline : ∀ t ∈ timeline, Exportable t.1 ∧ t.2.length = t.1.build.2.sample.length) (pid : ℤ) :
    Encodes (fun payload => AttributeKeysDistinct payload.request ↔
        (∀ source ∈ sources, source.samples.KeysDistinct) ∧ ∀ t ∈ timeline, t.1.samples.KeysDistinct)
      (NoProfileId profileId) (encodeProfiles profileId htlhash (sources.map fun source => source.build.2)
        (timeline.map fun t => (t.1.build.2, t.2)) pid) := by
  have hstamped : ∀ input ∈ builtInputs sources timeline, Stamped input.1 input.2 := by
    intro input hinput stamps hstamps
    rcases List.mem_append.mp hinput with hinput | hinput
    · obtain ⟨source, -, rfl⟩ := List.mem_map.mp hinput
      cases hstamps
    · obtain ⟨built, hbuilt, rfl⟩ := List.mem_map.mp hinput
      obtain ⟨t, ht, rfl⟩ := Option.map_eq_some_iff.mp (Option.mem_toList.mp hbuilt)
      cases hstamps
      exact (htimeline t ht).2
  refine (encodeProfiles_spec profileId htlhash _ _ pid).imp ?_ ?_
  · rintro payload ⟨e, he, hrequest⟩
    rw [hrequest, he.attributeKeysDistinct_iff hstamped]
    constructor
    · intro h
      refine ⟨fun source hsource => ?_, fun t ht => ?_⟩
      · rw [← attributeKeys_iff (hsources source hsource).keyed]
        exact h (source.build.2, none) (List.mem_append_left _ (List.mem_map_of_mem (List.mem_map_of_mem hsource)))
          (sampleType_ne_nil (hsources source hsource).sampleTypes)
      · rw [← attributeKeys_iff (htimeline t ht).1.keyed]
        refine h (t.1.build.2, some t.2) (List.mem_append_right _ ?_) (sampleType_ne_nil (htimeline t ht).1.sampleTypes)
        rw [Option.mem_def.mp ht]
        exact List.mem_singleton_self _
    · rintro ⟨h, h'⟩ input hinput -
      rcases List.mem_append.mp hinput with hinput | hinput
      · obtain ⟨p, hp, rfl⟩ := List.mem_map.mp hinput
        obtain ⟨source, hsource, rfl⟩ := List.mem_map.mp hp
        exact (attributeKeys_iff (hsources source hsource).keyed).mpr (h source hsource)
      · obtain ⟨built, hbuilt, rfl⟩ := List.mem_map.mp hinput
        obtain ⟨t, ht, rfl⟩ := Option.map_eq_some_iff.mp (Option.mem_toList.mp hbuilt)
        exact (attributeKeys_iff (htimeline t ht).1.keyed).mpr (h' t ht)
  · rintro (hfailed | ⟨built, hbuilt, hne⟩)
    · exact hfailed
    · obtain ⟨t, ht, rfl⟩ := Option.map_eq_some_iff.mp (Option.mem_def.mp hbuilt)
      exact (hne (htimeline t ht).2).elim

end Otlp

/-! ## The window -/

namespace WindowContents

section
variable (self : WindowContents) (iter : IterOrder) (symbolizer : Symbolizer)

/-- The profiles of a window go into one request. -/
def encodeProfiles (profileId : ℕ → Except String (List UInt8)) (htlhash : ℕ → ℤ → UInt64 → UInt64 → Option String)
    (pid : ℤ) (wantsTimeline : Bool) : Except String Otlp.ExportPayload :=
  if wantsTimeline then
    match self.timelineProfile symbolizer with
    | .error error => .error error
    | .ok timeline => Otlp.encodeProfiles profileId htlhash (self.exported iter symbolizer true) (some timeline) pid
  else Otlp.encodeProfiles profileId htlhash (self.exported iter symbolizer false) none pid

/-- What goes into the request: with a timeline the CPU profile does not. -/
def toExport (wantsTimeline : Bool) : WindowContents :=
  if wantsTimeline then { self with cpu := none } else { self with timeline := [] }

/-- The labels of every sample in the window's profiles have distinct keys. -/
structure DistinctKeys : Prop where
  cpu : ∀ output ∈ self.cpu, LabelKeysDistinct (self.cpuProfile iter symbolizer output).2
  heap : ∀ output ∈ self.heap, LabelKeysDistinct (self.heapProfile iter symbolizer output).2
  offCpu : ∀ output ∈ self.offCpu, LabelKeysDistinct (self.offCpuProfile iter symbolizer output)
  timeline : ∀ profile stamps, self.timelineProfile symbolizer = .ok (profile, stamps) → LabelKeysDistinct profile

/-- No sample has both the target's labels and a thread's. -/
structure LabelledOnce : Prop where
  cpu : ∀ output ∈ self.cpu, output.raw = true ∨ output.samples.entries = []
  offCpu : ∀ output ∈ self.offCpu, output.raw = true ∨ output.samples.entries = []
  timeline : self.timelineEntries = []

/-- What the writers of the CPU, the heap and the off-CPU profile are given. -/
def cpuRequest (output : CpuOutput) : ProfileRequest :=
  if output.raw then
    rawCpuRequest iter output.samples self.startedUnixNanos self.durationNanos (periodNanos output.frequency.hertz)
  else
    RustProfile.cpuRequest iter output.samples symbolizer self.startedUnixNanos self.durationNanos
      output.frequency.hertz self.targetLabels

def heapRequest (output : HeapOutput) : ProfileRequest :=
  RustProfile.heapRequest iter output.samples symbolizer self.startedUnixNanos self.durationNanos
    output.allocationInterval self.targetLabels

def offCpuRequest (output : OffCpuOutput) : ProfileRequest :=
  if output.raw then rawOffCpuRequest iter output.samples self.startedUnixNanos self.durationNanos
  else
    RustProfile.offCpuRequest iter output.samples symbolizer self.startedUnixNanos self.durationNanos self.targetLabels

def exportedRequests (wantsTimeline : Bool) : List ProfileRequest :=
  (if wantsTimeline then [] else (self.cpu.map fun output => self.cpuRequest iter symbolizer output).toList) ++
    (self.heap.map fun output => self.heapRequest iter symbolizer output).toList ++
    (self.offCpu.map fun output => self.offCpuRequest iter symbolizer output).toList

theorem cpuProfile_eq (output : CpuOutput) :
    (self.cpuProfile iter symbolizer output).2 = (self.cpuRequest iter symbolizer output).build.2 := by
  unfold cpuProfile cpuRequest
  by_cases hraw : output.raw
  · rw [if_pos hraw, if_pos hraw]
    rfl
  · rw [if_neg hraw, if_neg hraw]
    rfl

theorem offCpuProfile_eq (output : OffCpuOutput) :
    self.offCpuProfile iter symbolizer output = (self.offCpuRequest iter symbolizer output).build.2 := by
  unfold offCpuProfile offCpuRequest
  by_cases hraw : output.raw
  · rw [if_pos hraw, if_pos hraw]
    rfl
  · rw [if_neg hraw, if_neg hraw]
    rfl

theorem exported_eq (wantsTimeline : Bool) : self.exported iter symbolizer wantsTimeline =
    (self.exportedRequests iter symbolizer wantsTimeline).map fun request => request.build.2 := by
  unfold exported exportedRequests
  simp only [cpuProfile_eq, offCpuProfile_eq]
  cases wantsTimeline <;> cases self.cpu <;> cases self.heap <;> cases self.offCpu <;> rfl

end

/-- Raw profiles take no labels, the others take the target's. -/
theorem unlessRaw_keys (target : TargetMetadata) (iter : IterOrder) {α : Type} (toList : α → List ℤ)
    {raw : Bool} {table : Table AttributedStack α} {samples : ProfileSamples}
    (hraw : raw = true → samples = .attributed [] (visited iter toList table))
    (hlabelled : ¬ raw = true → samples = .attributed (profileLabels target) (visited iter toList table)) :
    samples.Keyed ∧ (samples.KeysDistinct ↔ raw = true ∨ table.entries = []) := by
  by_cases h : raw = true
  · rw [hraw h]
    exact ⟨attributed_keyed target (Or.inr rfl) _, iff_of_true (unlabelled_keysDistinct _) (Or.inl h)⟩
  · rw [hlabelled h]
    refine ⟨attributed_keyed target (Or.inl rfl) _, (attributed_keysDistinct_iff target _).trans ?_⟩
    rw [visited_eq_nil]
    exact (or_iff_right h).symm

section
variable (target : TargetMetadata) {window : WindowContents} (hlabels : window.targetLabels = profileLabels target)
  (iter : IterOrder) (symbolizer : Symbolizer)

include hlabels

theorem cpuRequest_keys (output : CpuOutput) : (window.cpuRequest iter symbolizer output).samples.Keyed ∧
    ((window.cpuRequest iter symbolizer output).samples.KeysDistinct ↔
      output.raw = true ∨ output.samples.entries = []) := by
  refine unlessRaw_keys target iter CpuValues.toList (fun hraw => ?_) fun hraw => ?_
  · rw [cpuRequest, if_pos hraw]
    rfl
  · rw [cpuRequest, if_neg hraw, hlabels]
    rfl

theorem offCpuRequest_keys (output : OffCpuOutput) : (window.offCpuRequest iter symbolizer output).samples.Keyed ∧
    ((window.offCpuRequest iter symbolizer output).samples.KeysDistinct ↔
      output.raw = true ∨ output.samples.entries = []) := by
  refine unlessRaw_keys target iter OffCpuValues.toList (fun hraw => ?_) fun hraw => ?_
  · rw [offCpuRequest, if_pos hraw]
    rfl
  · rw [offCpuRequest, if_neg hraw, hlabels]
    rfl

theorem heapRequest_keys (output : HeapOutput) : (window.heapRequest iter symbolizer output).samples.Keyed ∧
    (window.heapRequest iter symbolizer output).samples.KeysDistinct := by
  unfold heapRequest
  rw [hlabels]
  exact ⟨labelled_keyed target _, labelled_keysDistinct target _⟩

theorem timelineRequest_keys : (window.timelineRequest symbolizer).samples.Keyed ∧
    ((window.timelineRequest symbolizer).samples.KeysDistinct ↔ window.timelineEntries = []) := by
  have hsamples : (window.timelineRequest symbolizer).samples =
      .attributed (profileLabels target) (window.encodedTimeline.map Prod.fst) := by
    rw [← hlabels]
    rfl
  rw [hsamples]
  refine ⟨attributed_keyed target (Or.inl rfl) _, (attributed_keysDistinct_iff target _).trans ?_⟩
  rw [List.map_eq_nil_iff, ← List.map_eq_nil_iff (f := Otlp.encodedEntry window.targetLabels),
    window.encodedTimeline_entries, List.map_eq_nil_iff]

theorem distinctKeys_iff : window.DistinctKeys iter symbolizer ↔ window.LabelledOnce := by
  constructor
  · rintro ⟨hcpu, -, hoffCpu, htimeline⟩
    refine ⟨fun output houtput => ?_, fun output houtput => ?_, ?_⟩
    · rw [← (cpuRequest_keys target hlabels iter symbolizer output).2, ← labelKeysDistinct_iff, ← cpuProfile_eq]
      exact hcpu output houtput
    · rw [← (offCpuRequest_keys target hlabels iter symbolizer output).2, ← labelKeysDistinct_iff, ← offCpuProfile_eq]
      exact hoffCpu output houtput
    · rw [← (timelineRequest_keys target hlabels symbolizer).2, ← labelKeysDistinct_iff]
      exact htimeline _ _ (window.timelineProfile_eq symbolizer)
  · rintro ⟨hcpu, hoffCpu, htimeline⟩
    refine ⟨fun output houtput => ?_, fun output _ => ?_, fun output houtput => ?_, fun profile stamps hr => ?_⟩
    · rw [cpuProfile_eq, labelKeysDistinct_iff, (cpuRequest_keys target hlabels iter symbolizer output).2]
      exact hcpu output houtput
    · exact (labelKeysDistinct_iff _).mpr (heapRequest_keys target hlabels iter symbolizer output).2
    · rw [offCpuProfile_eq, labelKeysDistinct_iff, (offCpuRequest_keys target hlabels iter symbolizer output).2]
      exact hoffCpu output houtput
    · rw [window.timelineProfile_eq symbolizer] at hr
      cases hr
      rw [labelKeysDistinct_iff, (timelineRequest_keys target hlabels symbolizer).2]
      exact htimeline

/-- What is exported has distinct keys when the window, less what is not exported, has. -/
theorem exportedRequests_keys (wantsTimeline : Bool) :
    ((∀ request ∈ window.exportedRequests iter symbolizer wantsTimeline, request.samples.KeysDistinct) ∧
      (wantsTimeline = true → (window.timelineRequest symbolizer).samples.KeysDistinct)) ↔
      (window.toExport wantsTimeline).LabelledOnce := by
  unfold exportedRequests
  simp only [List.forall_mem_append, Option.mem_toList, Option.map_eq_some_iff]
  rw [(timelineRequest_keys target hlabels symbolizer).2]
  -- With a timeline it replaces the aggregated CPU profile in the export.
  cases wantsTimeline with
  | true =>
    constructor
    · rintro ⟨⟨-, hoffCpu⟩, htimeline⟩
      refine ⟨nofun, fun output houtput => ?_, htimeline rfl⟩
      rw [← (offCpuRequest_keys target hlabels iter symbolizer output).2]
      exact hoffCpu _ ⟨output, houtput, rfl⟩
    · rintro ⟨-, hoffCpu, htimeline⟩
      refine ⟨⟨⟨nofun, ?_⟩, ?_⟩, fun _ => htimeline⟩
      · rintro _ ⟨output, -, rfl⟩
        exact (heapRequest_keys target hlabels iter symbolizer output).2
      · rintro _ ⟨output, houtput, rfl⟩
        rw [(offCpuRequest_keys target hlabels iter symbolizer output).2]
        exact hoffCpu output houtput
  | false =>
    constructor
    · rintro ⟨⟨⟨hcpu, -⟩, hoffCpu⟩, -⟩
      refine ⟨fun output houtput => ?_, fun output houtput => ?_, rfl⟩
      · rw [← (cpuRequest_keys target hlabels iter symbolizer output).2]
        refine hcpu _ ?_
        rw [if_neg Bool.false_ne_true]
        exact Option.mem_toList.mpr (Option.mem_map_of_mem _ houtput)
      · rw [← (offCpuRequest_keys target hlabels iter symbolizer output).2]
        exact hoffCpu _ ⟨output, houtput, rfl⟩
    · rintro ⟨hcpu, hoffCpu, -⟩
      refine ⟨⟨⟨?_, ?_⟩, ?_⟩, nofun⟩
      · intro request hrequest
        rw [if_neg Bool.false_ne_true, Option.mem_toList] at hrequest
        obtain ⟨output, houtput, rfl⟩ := Option.map_eq_some_iff.mp hrequest
        rw [(cpuRequest_keys target hlabels iter symbolizer output).2]
        exact hcpu output houtput
      · rintro _ ⟨output, -, rfl⟩
        exact (heapRequest_keys target hlabels iter symbolizer output).2
      · rintro _ ⟨output, houtput, rfl⟩
        rw [(offCpuRequest_keys target hlabels iter symbolizer output).2]
        exact hoffCpu output houtput

theorem exportedRequests_exportable (wantsTimeline : Bool) :
    ∀ request ∈ window.exportedRequests iter symbolizer wantsTimeline, Otlp.Exportable request := by
  intro request hrequest
  rcases List.mem_append.mp hrequest with hrequest | hrequest
  · rcases List.mem_append.mp hrequest with hrequest | hrequest
    · cases wantsTimeline with
      | true => cases hrequest
      | false =>
        rw [if_neg Bool.false_ne_true, Option.mem_toList] at hrequest
        obtain ⟨output, -, rfl⟩ := Option.map_eq_some_iff.mp hrequest
        refine ⟨(cpuRequest_keys target hlabels iter symbolizer output).1, ?_⟩
        unfold cpuRequest
        by_cases hraw : output.raw
        · rw [if_pos hraw]
          exact List.cons_ne_nil _ _
        · rw [if_neg hraw]
          exact List.cons_ne_nil _ _
    · obtain ⟨output, -, rfl⟩ := Option.map_eq_some_iff.mp (Option.mem_toList.mp hrequest)
      exact ⟨(heapRequest_keys target hlabels iter symbolizer output).1, List.cons_ne_nil _ _⟩
  · obtain ⟨output, -, rfl⟩ := Option.map_eq_some_iff.mp (Option.mem_toList.mp hrequest)
    refine ⟨(offCpuRequest_keys target hlabels iter symbolizer output).1, ?_⟩
    unfold offCpuRequest
    by_cases hraw : output.raw
    · rw [if_pos hraw]
      exact List.cons_ne_nil _ _
    · rw [if_neg hraw]
      exact List.cons_ne_nil _ _

end

/-- **A sample with the target's labels and a thread's has the pid's key twice**, in its profile and in the request. -/
theorem labelKeys_distinct_iff (target : TargetMetadata) (window : WindowContents) (iter : IterOrder)
    (symbolizer : Symbolizer) (profileId : ℕ → Except String (List UInt8))
    (htlhash : ℕ → ℤ → UInt64 → UInt64 → Option String) (pid : ℤ) :
    let labelled := { window with targetLabels := profileLabels target }
    (labelled.DistinctKeys iter symbolizer ↔ labelled.LabelledOnce) ∧
      ∀ wantsTimeline, Otlp.Encodes (fun payload => Otlp.AttributeKeysDistinct payload.request ↔
          (labelled.toExport wantsTimeline).LabelledOnce)
        (Otlp.NoProfileId profileId) (labelled.encodeProfiles iter symbolizer profileId htlhash pid wantsTimeline) := by
  intro labelled
  have hlabels : labelled.targetLabels = profileLabels target := rfl
  refine ⟨distinctKeys_iff target hlabels iter symbolizer, fun wantsTimeline => ?_⟩
  have hkeys := exportedRequests_keys target hlabels iter symbolizer wantsTimeline
  have hexportable := exportedRequests_exportable target hlabels iter symbolizer wantsTimeline
  unfold encodeProfiles
  rw [timelineProfile_eq]
  cases wantsTimeline with
  | true =>
    rw [if_pos rfl]
    dsimp only
    rw [exported_eq]
    refine (@Otlp.attributeKeysDistinct_iff profileId htlhash _
      (some (labelled.timelineRequest symbolizer, labelled.encodedTimeline.map Prod.snd)) hexportable ?_ pid).imp
      (fun payload h => h.trans ?_) id
    · intro t ht
      cases ht
      exact ⟨⟨(timelineRequest_keys target hlabels symbolizer).1, List.cons_ne_nil _ _⟩,
        labelled.timelineRequest_length symbolizer⟩
    · rw [← hkeys]
      simp
  | false =>
    rw [if_neg Bool.false_ne_true, exported_eq]
    refine (@Otlp.attributeKeysDistinct_iff profileId htlhash _ none hexportable nofun pid).imp
      (fun payload h => h.trans ?_) id
    rw [← hkeys]
    simp

/-- The one CPU sample of a container has two pids. -/
theorem containerWindow_twice :
    (containerWindow.cpuProfile .stored noSymbols { containerCpu with raw := false }).2.decodeSamples =
        some [⟨[4096], [1, 1], [("process.pid", "7", 0), ("container.id", "c", 0), ("process.pid", "", 7),
          ("thread.id", "", 7)]⟩] ∧
      ¬ LabelKeysDistinct (containerWindow.cpuProfile .stored noSymbols { containerCpu with raw := false }).2 ∧
      ((({ containerWindow with cpu := some { containerCpu with raw := false } } : WindowContents).encodeProfiles
        .stored noSymbols (fun _ => .ok []) (fun _ _ _ _ => none) 7 false).toOption.map fun payload =>
          payload.request.scopeProfiles.map fun scope => scope.profiles.map fun p => p.samples.map fun o =>
            o.attributeIndices.map fun i => (payload.request.dictionary.decodeAttribute i).map Prod.fst) =
        some [[[[some "process.pid", some "container.id", some "process.pid", some "thread.id"]],
          [[some "process.pid", some "container.id", some "process.pid", some "thread.id"]]]] := by
  refine ⟨by decide +kernel, ?_, by decide +kernel⟩
  unfold LabelKeysDistinct
  decide +kernel

end WindowContents

end RustProfile
