import RustProfile.OtlpDecode
import RustProfile.WindowProfilesSound

/-!
# The timeline of a request

The timeline's samples are grouped by stack and attributes, each group listing
values and timestamps. Read back, they are the window's timeline samples whose
timestamp converts, in order within each group.
-/

namespace RustProfile

/-! ## The clock -/

section
variable {anchor : PerfClockAnchor} {perfTimestamp t : ℕ} {windowStarted windowEnded : ℤ}
  (h : anchor.toUnixNanos perfTimestamp windowStarted windowEnded = some t)

include h

/-- A timestamp that converts lies in the window, as far from the anchor as the perf clock says. -/
theorem PerfClockAnchor.toUnixNanos_some :
    (t : ℤ) = anchor.unixNanos + (perfTimestamp - anchor.monotonicNanos) ∧ windowStarted ≤ t ∧ t ≤ windowEnded := by
  unfold PerfClockAnchor.toUnixNanos at h
  by_cases hrange : anchor.unixNanos + ((perfTimestamp : ℤ) - anchor.monotonicNanos) < -2 ^ 63 ∨
      i64Max < anchor.unixNanos + ((perfTimestamp : ℤ) - anchor.monotonicNanos)
  · rw [if_pos hrange] at h
    cases h
  · rw [if_neg hrange] at h
    by_cases hwindow : anchor.unixNanos + ((perfTimestamp : ℤ) - anchor.monotonicNanos) < windowStarted ∨
        anchor.unixNanos + ((perfTimestamp : ℤ) - anchor.monotonicNanos) > windowEnded
    · rw [if_pos hwindow] at h
      cases h
    · rw [if_neg hwindow] at h
      by_cases hneg : anchor.unixNanos + ((perfTimestamp : ℤ) - anchor.monotonicNanos) < 0
      · rw [if_pos hneg] at h
        cases h
      · rw [if_neg hneg, Option.some.injEq] at h
        omega

/-- The window of a profile is that of its start and duration, also where these are clamped. -/
theorem PerfClockAnchor.toUnixNanos_window (durationNanos : ℤ)
    (he : windowEnded = saturatingAddI64 windowStarted durationNanos) :
    windowStarted.toNat ≤ t ∧ t ≤ windowStarted.toNat + durationNanos.toNat := by
  obtain ⟨-, hlow, hhigh⟩ := toUnixNanos_some h
  rw [he] at hhigh
  unfold saturatingAddI64 at hhigh
  omega

end

namespace Otlp

open Interning DictionaryBuilder Grouping

/-! ## One index for each entry -/

theorem Renders.unique {v : AnyValue} {u c c' : String} (h : Renders v u c) (h' : Renders v u c') : c = c' := by
  cases v with
  | string s => exact h.2.trans h'.2.symm
  | bool b => exact h.2.trans h'.2.symm
  | int n => exact Eq.trans h (Eq.symm h')
  | intArray _ => exact h.elim

theorem AttributeAt.unique {attributes : Table (String × String) ℕ} {a : Attribute} {i j : ℕ}
    (hi : AttributeAt attributes a i) (hj : AttributeAt attributes a j) : i = j := by
  obtain ⟨c, hr, hl⟩ := hi
  obtain ⟨c', hr', hl'⟩ := hj
  rw [hr.unique hr', hl', Option.some.injEq] at hl
  exact hl.symm

theorem LineFits.unique {functions : Table FunctionKey ℕ} {source : RustProfile.Profile} {l : RustProfile.Line}
    {e e' : ℕ × ℤ × ℤ} (h : LineFits functions source l e) (h' : LineFits functions source l e') : e = e' := by
  refine Prod.ext ?_ (Prod.ext (h.line.trans h'.line.symm) (h.column.trans h'.column.symm))
  cases hf : (SourceLookup.new source).functions.lookup l.functionId with
  | none => exact (h.unknown hf).trans (h'.unknown hf).symm
  | some f => exact Option.some.inj ((h.known f hf).symm.trans (h'.known f hf))

section
variable {d : DictionaryBuilder}

theorem KeyFits.unique {x : Met} {key key' : LocationKey} (h : KeyFits d x key) (h' : KeyFits d x key') :
    key = key' := by
  refine Prod.ext (h.atAddress.trans h'.atAddress.symm) (Prod.ext ?_ ?_)
  · cases hm : x.mapping with
    | none => exact (h.unmapped hm).trans (h'.unmapped hm).symm
    | some m => exact Option.some.inj ((h.mapped m hm).symm.trans (h'.mapped m hm))
  · exact List.right_unique_forall₂' (fun _ _ _ hl hl' => hl.unique hl') h.lines h'.lines

theorem LocationAt.unique {x : Met} {i j : ℕ} (hi : LocationAt d x i) (hj : LocationAt d x j) : i = j := by
  obtain ⟨key, hl, hk⟩ := hi
  obtain ⟨key', hl', hk'⟩ := hj
  rw [hk.unique hk', hl', Option.some.injEq] at hl
  exact hl.symm

theorem StackAt.unique {source : RustProfile.Profile} {locations : List RustProfile.Location} {i j : ℕ}
    (hi : StackAt d source locations i) (hj : StackAt d source locations j) : i = j := by
  obtain ⟨key, hl, hk⟩ := hi
  obtain ⟨key', hl', hk'⟩ := hj
  rw [List.right_unique_forall₂' (fun _ _ _ hx hx' => hx.unique hx') hk hk', hl', Option.some.injEq] at hl
  exact hl.symm

end

/-! ## Reading the timeline -/

/-- The addresses of a stack and the labels; a value and a timestamp. -/
abbrev TimelineEntry := (List UInt64 × List Attribute) × (ℤ × ℕ)

instance : DecidableEq TimelineEntry := inferInstance

namespace ProfilesDictionary

variable (d : ProfilesDictionary)

def readKey (key : ℕ × List ℕ × ℕ) : Option (List UInt64 × List Attribute) := do
  let frames ← d.decodeStack key.1
  let labels ← key.2.1.mapM d.decodeAttribute
  some (frames.map Prod.fst, labels)

def readSample (o : Sample) : Option (List TimelineEntry) :=
  (d.readKey (o.stackIndex, o.attributeIndices, o.linkIndex)).map fun key =>
    (o.values.zip o.timestampsUnixNano).map fun v => (key, v)

def readTimeline (p : Profile) : Option (List TimelineEntry) := (p.samples.mapM d.readSample).map List.flatten

end ProfilesDictionary

def timelineLabels (labels : List (String × String)) (s : TimedStackSample) : List Attribute :=
  labels.map (fun label => (label.1, .string label.2, "")) ++
    [("process.pid", .int s.pid.toNat, ""), ("thread.id", .int s.tid.toNat, "")] ++
    s.threadName.toList.map fun name => ("thread.name", .string name, "")

/-- What is kept of a label: pprof does not tell an empty text from the number 0, and OTLP takes no label without a
key. -/
def recordedLabel (a : Attribute) : Option Attribute :=
  if a.1 = "" then none else if a.2.1 = .string "" then some (a.1, .int 0, "") else some a

/-- A value of a profile is an `i64`. -/
def recordedEntry (e : TimelineEntry) : TimelineEntry :=
  ((e.1.1, e.1.2.filterMap recordedLabel), (min e.2.1 i64Max, e.2.2))

/-- An entry with nothing that a profile cannot record. -/
structure Recordable (e : TimelineEntry) : Prop where
  labels : ∀ a ∈ e.1.2, a.1 ≠ "" ∧ a.2.1 ≠ .string ""
  value : e.2.1 ≤ i64Max

end Otlp

/-- A timeline sample whose timestamp converts. -/
def WindowContents.timelineEntry (self : WindowContents) (s : TimedStackSample) : Option Otlp.TimelineEntry :=
  (self.clockAnchor.toUnixNanos s.timestamp self.startedUnixNanos self.endedUnixNanos).map fun t =>
    ((s.stack.addresses, Otlp.timelineLabels self.targetLabels s), (s.cpuDelta, t))

def WindowContents.timelineEntries (self : WindowContents) : List Otlp.TimelineEntry :=
  self.timeline.filterMap self.timelineEntry

namespace Otlp

open Interning DictionaryBuilder Grouping

theorem recordedEntry_eq {e : TimelineEntry} (h : Recordable e) : recordedEntry e = e := by
  have hlabels : e.1.2.filterMap recordedLabel = e.1.2 := by
    rw [← List.filterMap_some (l := e.1.2), List.filterMap_filterMap]
    refine List.filterMap_congr fun a ha => ?_
    obtain ⟨hkey, hvalue⟩ := h.labels a ha
    rw [Option.bind_some]
    unfold recordedLabel
    rw [if_neg hkey, if_neg hvalue]
  unfold recordedEntry
  rw [hlabels, min_eq_left h.value]

structure TimelineExported (window : WindowContents) (d : ProfilesDictionary) (p : Profile) : Prop where
  entries : ∃ read, d.readTimeline p = some read ∧ read.Perm (window.timelineEntries.map recordedEntry) ∧
    ((∀ e ∈ window.timelineEntries, Recordable e) → read.Perm window.timelineEntries)
  aligned : ∀ o ∈ p.samples, o.values.length = o.timestampsUnixNano.length
  ordered : ∀ o ∈ p.samples, ∃ read, d.readSample o = some read ∧
    read.Sublist (window.timelineEntries.map recordedEntry)
  distinct : (p.samples.map fun o => d.readKey (o.stackIndex, o.attributeIndices, o.linkIndex)).Nodup
  inWindow : ∀ o ∈ p.samples, ∀ t ∈ o.timestampsUnixNano, p.timeUnixNano ≤ t ∧ t ≤ p.timeUnixNano + p.durationNano

/-! ## The rows of the timeline -/

def labelOf (label : String × String × ℤ) : Option Attribute :=
  if label.1 = "" then none
  else if label.2.1 ≠ "" then some (label.1, .string label.2.1, "")
  else some (label.1, .int label.2.2, "")

theorem targetLabels_attributes (labels : List (String × String)) :
    (targetLabels labels).filterMap labelOf =
      (labels.map fun label => ((label.1, .string label.2, "") : Attribute)).filterMap recordedLabel := by
  unfold targetLabels
  rw [List.filterMap_map, List.filterMap_map]
  refine List.filterMap_congr fun label _ => ?_
  unfold labelOf recordedLabel
  by_cases hvalue : label.2 = ""
  · simp [hvalue]
  · simp [hvalue]

theorem timelineLabels_recorded (labels : List (String × String)) (s : TimedStackSample) :
    (targetLabels labels ++ threadLabels s.pid s.tid s.threadName).filterMap labelOf =
      (timelineLabels labels s).filterMap recordedLabel := by
  unfold timelineLabels threadLabels
  simp only [List.filterMap_append, targetLabels_attributes, List.append_assoc]
  refine congrArg _ (congrArg₂ (· ++ ·) (by simp [labelOf, recordedLabel]) ?_)
  rw [List.filterMap_map, List.filterMap_map]
  refine List.filterMap_congr fun name _ => ?_
  unfold labelOf recordedLabel
  by_cases hname : name = ""
  · simp [hname]
  · simp [hname]

section
variable {b : ProfileBuilder} {inputs : List SampleInput} (h : Writing b inputs)

include h

theorem labelAttribute_eq {label : String × String × ℤ} {l : RustProfile.Label}
    (hl : RustProfile.LabelFits b.strings label l) : labelAttribute b.profile l = labelOf label := by
  have hb := h.located.built
  have hzero : l.str = 0 ↔ label.2.1 = "" := by
    constructor
    · intro he
      have hs := hl.str
      rw [he] at hs
      exact hb.strings.injective _ _ _ hs hb.blank
    · intro he
      have hs := hl.str
      rw [he, hb.blank, Option.some.injEq] at hs
      exact hs.symm
  unfold Otlp.labelAttribute labelOf
  rw [pprofString_eq (hb.string hl.key), pprofString_eq (hb.string hl.str), hl.numUnit, hl.num,
    pprofString_eq (hb.string hb.blank)]
  simp only [ne_eq, hzero]

theorem attributesOf_eq {input : SampleInput} {s : RustProfile.Sample} (hs : RustProfile.SampleFits b input s) :
    attributesOf b.profile s = input.labels.filterMap labelOf := by
  unfold attributesOf
  have hlabels := hs.labels
  generalize s.label = ls at hlabels
  generalize input.labels = labels at hlabels
  induction hlabels with
  | nil => rfl
  | cons hl _ ih => rw [List.filterMap_cons, List.filterMap_cons, labelAttribute_eq h hl, ih]

end

theorem decodeStack_addresses {p : RustProfile.Profile} {s : RustProfile.Sample} {frames : List StackFrame}
    {input : SampleInput} (hframes : p.decodeStack s = some frames) (hs : p.decodeSample s = some input) :
    frames.map Prod.fst = input.addresses := by
  unfold Profile.decodeSample at hs
  simp only [Option.bind_eq_bind, Option.bind_eq_some_iff, Option.some.injEq] at hs
  obtain ⟨addresses, haddresses, labels, -, rfl⟩ := hs
  have hread : List.Forall₂ (fun address id => (p.locationById id).map RustProfile.Location.address = some address)
      (frames.map Prod.fst) s.locationId := by
    refine List.forall₂_map_left_iff.mpr ((forall₂_of_mapM hframes).imp fun frame id hframe => ?_)
    obtain ⟨l, hl, hdecode⟩ := Option.bind_eq_some_iff.mp hframe
    unfold Profile.decodeFrame at hdecode
    simp only [Option.bind_eq_bind, Option.bind_eq_some_iff, Option.some.injEq] at hdecode
    obtain ⟨-, -, rfl⟩ := hdecode
    rw [hl, Option.map_some]
  exact Option.some.inj ((mapM_of_forall₂ hread).symm.trans haddresses)

section
variable {d : DictionaryBuilder} {met : List Met} (h : Built d met) {b : ProfileBuilder} {inputs : List SampleInput}
  (hw : Writing b inputs) {input input' : SampleInput} {s s' : RustProfile.Sample}
  (hs : RustProfile.SampleFits b input s) (hs' : RustProfile.SampleFits b input' s') {k t t' : ℕ} {row row' : Row}
  (hr : RowFits d b.profile k (s, t) row) (hr' : RowFits d b.profile k (s', t') row')

include h hw hs hr

theorem readKey_row (hp : Readable b.profile) (hmem : s ∈ b.profile.sample) :
    d.finish.readKey row.1 = some (input.addresses, input.labels.filterMap labelOf) := by
  obtain ⟨frames, hframes, hdecode⟩ := h.decodeStack hp hmem hr.stack
  have hlabels : row.1.2.1.mapM d.finish.decodeAttribute = some (input.labels.filterMap labelOf) := by
    rw [← attributesOf_eq hw hs]
    exact mapM_of_forall₂ (hr.attributes.imp fun _ _ ha => h.decodeAttribute ha)
  unfold ProfilesDictionary.readKey
  rw [hdecode]
  change (row.1.2.1.mapM d.finish.decodeAttribute).bind _ = _
  rw [hlabels, ← decodeStack_addresses hframes (hw.decodeSample hs)]
  rfl

omit h in
include hs' hr' in
theorem row_key_unique (ha : input.addresses = input'.addresses)
    (hl : input.labels.filterMap labelOf = input'.labels.filterMap labelOf) : row.1 = row'.1 := by
  have hids : s.locationId = s'.locationId := by
    have hlocations := hs'.locations
    rw [← ha] at hlocations
    refine List.right_unique_forall₂' (fun _ _ _ hi hj => ?_) hs.locations hlocations
    exact Option.some.inj (hi.symm.trans hj)
  have hstack : row.1.1 = row'.1.1 := by
    have hat := hr.stack
    unfold locationsOf at hat
    rw [hids] at hat
    exact hat.unique hr'.stack
  have hattributes : row.1.2.1 = row'.1.2.1 := by
    have hat := hr.attributes
    rw [attributesOf_eq hw hs, hl, ← attributesOf_eq hw hs'] at hat
    exact List.right_unique_forall₂' (fun _ _ _ hi hj => hi.unique hj) hat hr'.attributes
  exact Prod.ext hstack (Prod.ext hattributes (hr.link.trans hr'.link.symm))

end

/-! ## The timeline's samples -/

def encodedEntry (labels : List (String × String)) (e : (AttributedStack × List ℤ) × ℕ) : TimelineEntry :=
  (((attributedInput labels e.1).addresses, (attributedInput labels e.1).labels.filterMap labelOf),
    (e.1.2[0]?.getD 0, e.2))

theorem encodedTimeline_entries (labels : List (String × String)) (f : TimedStackSample → Option ℕ) :
    ∀ samples : List TimedStackSample, (encodedTimeline samples (samples.map f)).map (encodedEntry labels) =
      (samples.filterMap fun s => (f s).map fun t =>
        (((s.stack.addresses, timelineLabels labels s), ((s.cpuDelta : ℤ), t)) : TimelineEntry)).map recordedEntry
  | [] => rfl
  | s :: samples => by
    have ih := encodedTimeline_entries labels f samples
    rw [List.map_cons, List.filterMap_cons]
    cases hf : f s with
    | none =>
      rw [encodedTimeline, ih]
      rfl
    | some t =>
      rw [encodedTimeline, List.map_cons, ih, Option.map_some, List.map_cons]
      refine congrArg₂ _ ?_ rfl
      unfold encodedEntry recordedEntry attributedInput
      dsimp only
      rw [timelineLabels_recorded, saturatingI64_eq]
      simp

theorem encodedTimeline_length (f : TimedStackSample → Option ℕ) : ∀ samples : List TimedStackSample,
    (encodedTimeline samples (samples.map f)).length + ((samples.map f).filter (·.isNone)).length = samples.length
  | [] => rfl
  | s :: samples => by
    have ih := encodedTimeline_length f samples
    rw [List.map_cons]
    cases hf : f s with
    | none =>
      rw [encodedTimeline, List.filter_cons_of_pos (by rfl), List.length_cons, List.length_cons]
      omega
    | some t =>
      rw [encodedTimeline, List.filter_cons_of_neg (by simp), List.length_cons, List.length_cons]
      omega

theorem forall₂_zip {α β γ ι : Type} {R : ι → γ → Prop} (f : α → ι) : ∀ {es : List (α × β)} {cs : List γ},
    List.Forall₂ R ((es.map Prod.fst).map f) cs →
    List.Forall₂ (fun e c => R (f e.1) c.1 ∧ c.2 = e.2 ∧ c.1 ∈ cs) es (cs.zip (es.map Prod.snd))
  | [], _, .nil => List.Forall₂.nil
  | e :: es, c :: cs, .cons hc hcs => by
    refine List.Forall₂.cons ⟨hc, rfl, List.mem_cons_self⟩ ((forall₂_zip f hcs).imp ?_)
    rintro e' c' ⟨hR, ht, hmem⟩
    exact ⟨hR, ht, List.mem_cons_of_mem _ hmem⟩

def RowOf (d : DictionaryBuilder) (b : ProfileBuilder) (labels : List (String × String))
    (e : (AttributedStack × List ℤ) × ℕ) (row : Row) : Prop :=
  ∃ s ∈ b.profile.sample, RustProfile.SampleFits b (attributedInput labels e.1) s ∧ RowFits d b.profile 0 (s, e.2) row

section
variable {d : DictionaryBuilder} {met : List Met} (h : Built d met) {b : ProfileBuilder} {inputs : List SampleInput}
  (hw : Writing b inputs) (hp : Readable b.profile) {labels : List (String × String)}

include h hw hp

theorem RowOf.read {e : (AttributedStack × List ℤ) × ℕ} {row : Row} (hr : RowOf d b labels e row) :
    d.finish.readKey row.1 = some (encodedEntry labels e).1 ∧ row.2 = (encodedEntry labels e).2 := by
  obtain ⟨s, hmem, hs, hrow⟩ := hr
  refine ⟨readKey_row h hw hs hrow hp hmem, Prod.ext ?_ hrow.timestamp⟩
  rw [hrow.value, hs.values]
  rfl

omit h hp in
theorem RowOf.key_unique {e e' : (AttributedStack × List ℤ) × ℕ} {row row' : Row} (hr : RowOf d b labels e row)
    (hr' : RowOf d b labels e' row') (hk : (encodedEntry labels e).1 = (encodedEntry labels e').1) :
      row.1 = row'.1 := by
  obtain ⟨s, -, hs, hrow⟩ := hr
  obtain ⟨s', -, hs', hrow'⟩ := hr'
  rw [encodedEntry, encodedEntry, Prod.mk.injEq] at hk
  exact row_key_unique hw hs hs' hrow hrow' hk.1 hk.2

variable {encoded : List ((AttributedStack × List ℤ) × ℕ)} {rows : List Row}
  (hrows : List.Forall₂ (RowOf d b labels) encoded rows)

include hrows

theorem rows_read : ∃ read : ℕ × List ℕ × ℕ → List UInt64 × List Attribute,
    (∀ row ∈ rows, d.finish.readKey row.1 = some (read row.1)) ∧
    (rows.map fun row => (read row.1, row.2)) = encoded.map (encodedEntry labels) ∧
    ∀ r ∈ rows, ∀ r' ∈ rows, read r.1 = read r'.1 → r.1 = r'.1 := by
  obtain ⟨read, hread⟩ : ∃ read : ℕ × List ℕ × ℕ → List UInt64 × List Attribute,
      ∀ key, read key = (d.finish.readKey key).getD default := ⟨_, fun _ => rfl⟩
  have hkey : ∀ {e : (AttributedStack × List ℤ) × ℕ} {row : Row}, RowOf d b labels e row →
      read row.1 = (encodedEntry labels e).1 := by
    intro e row hr
    rw [hread, (hr.read h hw hp).1, Option.getD_some]
  refine ⟨read, ?_, ?_, ?_⟩
  · intro row hrow
    obtain ⟨e, -, hr⟩ := exists_of_forall₂_right hrows hrow
    rw [hkey hr, (hr.read h hw hp).1]
  · induction hrows with
    | nil => rfl
    | cons hr _ ih => rw [List.map_cons, List.map_cons, ih, hkey hr, (hr.read h hw hp).2]
  · intro r hr r' hr' he
    obtain ⟨e, -, hre⟩ := exists_of_forall₂_right hrows hr
    obtain ⟨e', -, hre'⟩ := exists_of_forall₂_right hrows hr'
    rw [hkey hre, hkey hre'] at he
    exact hre.key_unique hw hre' he

theorem groups_read : ∃ read : ℕ × List ℕ × ℕ → List UInt64 × List Attribute,
    (∀ g ∈ group rows, d.finish.readKey g.1 = some (read g.1)) ∧
    (∀ g ∈ group rows, d.finish.readSample (groupSample g) = some (g.2.map (read g.1, ·))) ∧
    (((group rows).map fun g => g.2.map (read g.1, ·)).flatten).Perm (encoded.map (encodedEntry labels)) ∧
    (∀ g ∈ group rows, (g.2.map (read g.1, ·)).Sublist (encoded.map (encodedEntry labels))) ∧
    ((group rows).map fun g => read g.1).Nodup := by
  obtain ⟨read, hread, hentries, hinj⟩ := rows_read h hw hp hrows
  have hgroups := group_spec rows
  have hkey : ∀ g ∈ group rows, d.finish.readKey g.1 = some (read g.1) := by
    intro g hg
    obtain ⟨row, hrow, he⟩ := List.mem_map.mp ((hgroups.keys g.1).mp (List.mem_map_of_mem hg))
    rw [← he]
    exact hread row hrow
  refine ⟨read, hkey, fun g hg => ?_, ?_, fun g hg => ?_, hgroups.map_nodup read hinj⟩
  · unfold ProfilesDictionary.readSample groupSample
    rw [hkey g hg, Option.map_some, ← List.zip_of_prod rfl rfl]
  · rw [← hentries]
    exact hgroups.map_perm read
  · rw [← hentries]
    exact hgroups.map_sublist read hg

end

end Otlp

namespace WindowContents

variable (window : WindowContents) (symbolizer : Symbolizer)

def timelineRequest : ProfileRequest :=
  RustProfile.timelineRequest window.timeline window.timestamps (if window.timelineRaw then none else some symbolizer)
    window.startedUnixNanos window.durationNanos window.timelineFrequency.hertz window.targetLabels

def encodedTimeline : List ((AttributedStack × List ℤ) × ℕ) :=
  RustProfile.encodedTimeline window.timeline window.timestamps

theorem timelineProfile_eq : window.timelineProfile symbolizer =
    .ok ((window.timelineRequest symbolizer).build.2, window.encodedTimeline.map Prod.snd) := by
  unfold timelineProfile buildCpuTimelineProfile
  rw [if_neg (by simp [timestamps])]
  rfl

theorem encodedTimeline_entries : window.encodedTimeline.map (Otlp.encodedEntry window.targetLabels) =
    window.timelineEntries.map Otlp.recordedEntry :=
  Otlp.encodedTimeline_entries window.targetLabels _ window.timeline

theorem encodedTimeline_length :
    (window.encodedTimeline.map Prod.snd).length + window.timestampErrors = window.timeline.length := by
  rw [List.length_map]
  exact Otlp.encodedTimeline_length _ window.timeline

theorem timelineRequest_inputs : (window.timelineRequest symbolizer).samples.inputs =
    (window.encodedTimeline.map Prod.fst).map (attributedInput window.targetLabels) := rfl

theorem timelineRequest_length :
    (window.encodedTimeline.map Prod.snd).length = (window.timelineRequest symbolizer).build.2.sample.length := by
  obtain ⟨hw, -⟩ := (window.timelineRequest symbolizer).builder_spec
  have hlength := hw.samples.length_eq
  rw [window.timelineRequest_inputs, List.length_map, List.length_map] at hlength
  rw [List.length_map]
  exact hlength

theorem timestamp_inWindow {e : Otlp.TimelineEntry} (he : e ∈ window.timelineEntries.map Otlp.recordedEntry) :
    window.startedUnixNanos.toNat ≤ e.2.2 ∧
      e.2.2 ≤ window.startedUnixNanos.toNat + window.durationNanos.toNat := by
  obtain ⟨own, hown, rfl⟩ := List.mem_map.mp he
  obtain ⟨s, -, hs⟩ := List.mem_filterMap.mp hown
  obtain ⟨t, ht, rfl⟩ := Option.map_eq_some_iff.mp hs
  exact PerfClockAnchor.toUnixNanos_window ht window.durationNanos rfl

/-- Timestamps are as far apart as those of the perf clock. -/
theorem timestamp_difference {s s' : TimedStackSample} {e e' : Otlp.TimelineEntry}
    (he : window.timelineEntry s = some e)
    (he' : window.timelineEntry s' = some e') : (e.2.2 : ℤ) - e'.2.2 = s.timestamp - s'.timestamp := by
  obtain ⟨t, ht, rfl⟩ := Option.map_eq_some_iff.mp he
  obtain ⟨t', ht', rfl⟩ := Option.map_eq_some_iff.mp he'
  have h := (PerfClockAnchor.toUnixNanos_some ht).1
  have h' := (PerfClockAnchor.toUnixNanos_some ht').1
  dsimp only
  omega

end WindowContents

namespace Otlp

open Interning DictionaryBuilder Grouping

section
variable {d : DictionaryBuilder} {met : List Met} (h : Built d met) (window : WindowContents) (symbolizer : Symbolizer)

include h

theorem Built.timelineExported {p : Profile} (hfits : ProfileFits d (window.timelineRequest symbolizer).build.2
    (some (window.encodedTimeline.map Prod.snd)) 0 p) : TimelineExported window d.finish p := by
  obtain ⟨hw, -, -, htime, hduration⟩ := (window.timelineRequest symbolizer).builder_spec
  have hp : Readable (window.timelineRequest symbolizer).builder.profile := readable _
  obtain ⟨rows, hfitting, hsamples⟩ := hfits.timed _ rfl
  have hrows : List.Forall₂ (RowOf d (window.timelineRequest symbolizer).builder window.targetLabels)
      window.encodedTimeline rows := by
    have hadded := hw.samples
    rw [window.timelineRequest_inputs] at hadded
    refine forall₂_comp (forall₂_zip _ hadded) hfitting ?_
    rintro e ⟨s, t⟩ row ⟨hs, rfl, hmem⟩ hrow
    exact ⟨s, hmem, hs, hrow⟩
  obtain ⟨read, hkey, hread, hperm, hsub, hnodup⟩ := groups_read h hw hp hrows
  rw [window.encodedTimeline_entries] at hperm
  rw [window.encodedTimeline_entries] at hsub
  -- Each sample of the profile is a group of the rows that share a stack, attributes and link.
  have hsample : ∀ o ∈ p.samples, ∃ g ∈ group rows, groupSample g = o := by
    intro o ho
    rw [hsamples] at ho
    exact List.mem_map.mp ho
  refine ⟨⟨_, ?_, hperm, fun hplain => ?_⟩, ?_, ?_, ?_, ?_⟩
  · unfold ProfilesDictionary.readTimeline
    rw [hsamples]
    have hall : ((group rows).map groupSample).mapM d.finish.readSample =
        some ((group rows).map fun g => g.2.map (read g.1, ·)) := by
      refine mapM_of_forall₂ (List.forall₂_map_left_iff.mpr (List.forall₂_map_right_iff.mpr ?_))
      exact List.forall₂_same.mpr hread
    rw [hall, Option.map_some]
  · rwa [List.map_congr_left fun e he => recordedEntry_eq (hplain e he), List.map_id'] at hperm
  · intro o ho
    obtain ⟨g, -, rfl⟩ := hsample o ho
    simp [groupSample]
  · intro o ho
    obtain ⟨g, hg, rfl⟩ := hsample o ho
    exact ⟨_, hread g hg, hsub g hg⟩
  · rw [hsamples, List.map_map, List.map_congr_left (g := some ∘ fun g => read g.1) hkey, ← List.map_map]
    exact hnodup.map (Option.some_injective _)
  · intro o ho t ht
    obtain ⟨g, hg, rfl⟩ := hsample o ho
    obtain ⟨v, hv, rfl⟩ := List.mem_map.mp ht
    rw [hfits.timeUnixNano, hfits.durationNano]
    have hwindow := window.timestamp_inWindow ((hsub g hg).subset (List.mem_map_of_mem hv))
    change ((window.timelineRequest symbolizer).builder.profile.timeNanos).toNat ≤ v.2 ∧ v.2 ≤
      ((window.timelineRequest symbolizer).builder.profile.timeNanos).toNat +
        ((window.timelineRequest symbolizer).builder.profile.durationNanos).toNat
    rw [htime, hduration]
    exact hwindow

end

theorem forall₂_getLast? {α β : Type} {R : α → β → Prop} {a : α} : ∀ {as : List α} {bs : List β},
    List.Forall₂ R (as ++ [a]) bs → ∃ b, bs.getLast? = some b ∧ R a b
  | [], _, .cons h .nil => ⟨_, rfl, h⟩
  | _ :: as, b' :: bs, .cons _ hs => by
    obtain ⟨b, hb, hR⟩ := @forall₂_getLast? α β R a as bs hs
    exact ⟨b, by rw [List.getLast?_cons, hb, Option.getD_some], hR⟩

/-- **A window's timeline is exported whole**, as far as a profile can record it, whatever else is exported. -/
theorem timeline_exported (window : WindowContents) (symbolizer : Symbolizer)
    (profileId : ℕ → Except String (List UInt8)) (htlhash : ℕ → ℤ → UInt64 → UInt64 → Option String)
    (sources : List RustProfile.Profile) (pid : ℤ) :
    ∃ profile stamps, window.timelineProfile symbolizer = .ok (profile, stamps) ∧
      stamps.length + window.timestampErrors = window.timeline.length ∧
      (∀ s s' e e', window.timelineEntry s = some e → window.timelineEntry s' = some e' →
        (e.2.2 : ℤ) - e'.2.2 = s.timestamp - s'.timestamp) ∧
      Encodes (fun payload => ∃ scope p, payload.request.scopeProfiles.getLast? = some scope ∧ scope.profiles = [p] ∧
          TimelineExported window payload.request.dictionary p)
        (NoProfileId profileId) (encodeProfiles profileId htlhash sources (some (profile, stamps)) pid) := by
  refine ⟨_, _, window.timelineProfile_eq symbolizer, window.encodedTimeline_length,
    fun s s' e e' => window.timestamp_difference, ?_⟩
  obtain ⟨-, hheading, -⟩ := (window.timelineRequest symbolizer).builder_spec
  refine (encodeProfiles_spec profileId htlhash sources _ pid).imp ?_ ?_
  · rintro payload ⟨e, he, hrequest⟩
    obtain ⟨scope, hlast, hscope⟩ := forall₂_getLast? he.scopes
    have htypes : (window.timelineRequest symbolizer).build.2.sampleType.length = 1 :=
      hheading.sampleType.length_eq.symm
    have hprofiles := hscope.profiles
    rw [htypes] at hprofiles
    obtain ⟨p, rest, hfits, hnil, hprofiles⟩ := List.forall₂_cons_left_iff.mp hprofiles
    rw [List.forall₂_nil_left_iff] at hnil
    rw [hrequest]
    exact ⟨scope, p, hlast, by rw [hprofiles, hnil], he.encoded.built.timelineExported window symbolizer hfits⟩
  · rintro (hfailed | ⟨t, ht, hne⟩)
    · exact hfailed
    · cases ht
      exact (hne (window.timelineRequest_length symbolizer)).elim

/-- Two samples of a thread whose name is empty, the second of more nanoseconds than an `i64` counts. -/
def unnamedThread : WindowContents where
  timeline := [⟨Stack.ofAddresses [4096], 7, 7, some "", 10, 5⟩, ⟨Stack.ofAddresses [4096], 7, 7, some "", 20, 2 ^ 63⟩]
  timelineFrequency := exampleFrequency
  clockAnchor := { monotonicNanos := 0, unixNanos := 0 }
  startedUnixNanos := 0
  durationNanos := 100
  targetLabels := profileLabels { pid := 7 }

def unnamedThreadRead : Option (List TimelineEntry) := do
  let timeline ← (unnamedThread.timelineProfile noSymbols).toOption
  let payload ← (encodeProfiles (fun _ => .ok []) (fun _ _ _ _ => none) [] (some timeline) 7).toOption
  let scope ← payload.request.scopeProfiles.getLast?
  let profile ← scope.profiles.head?
  payload.request.dictionary.readTimeline profile

/-- The name comes back as a number and the nanoseconds as the greatest `i64`. -/
theorem unnamedThread_altered :
    unnamedThreadRead = some [
      (([4096], [("process.pid", .string "7", ""), ("process.pid", .int 7, ""), ("thread.id", .int 7, ""),
        ("thread.name", .int 0, "")]), (5, 10)),
      (([4096], [("process.pid", .string "7", ""), ("process.pid", .int 7, ""), ("thread.id", .int 7, ""),
        ("thread.name", .int 0, "")]), (2 ^ 63 - 1, 20))] ∧
    unnamedThread.timelineEntries = [
      (([4096], [("process.pid", .string "7", ""), ("process.pid", .int 7, ""), ("thread.id", .int 7, ""),
        ("thread.name", .string "", "")]), (5, 10)),
      (([4096], [("process.pid", .string "7", ""), ("process.pid", .int 7, ""), ("thread.id", .int 7, ""),
        ("thread.name", .string "", "")]), (2 ^ 63, 20))] ∧
    ∀ read ∈ unnamedThreadRead, ¬ read.Perm unnamedThread.timelineEntries := by
  have hread : unnamedThreadRead = some [
      (([4096], [("process.pid", .string "7", ""), ("process.pid", .int 7, ""), ("thread.id", .int 7, ""),
        ("thread.name", .int 0, "")]), (5, 10)),
      (([4096], [("process.pid", .string "7", ""), ("process.pid", .int 7, ""), ("thread.id", .int 7, ""),
        ("thread.name", .int 0, "")]), (2 ^ 63 - 1, 20))] := by decide +kernel
  have hentries : unnamedThread.timelineEntries = [
      (([4096], [("process.pid", .string "7", ""), ("process.pid", .int 7, ""), ("thread.id", .int 7, ""),
        ("thread.name", .string "", "")]), (5, 10)),
      (([4096], [("process.pid", .string "7", ""), ("process.pid", .int 7, ""), ("thread.id", .int 7, ""),
        ("thread.name", .string "", "")]), (2 ^ 63, 20))] := by decide +kernel
  refine ⟨hread, hentries, fun read hr hperm => ?_⟩
  rw [hread, Option.mem_def, Option.some.injEq] at hr
  rw [← hr, hentries] at hperm
  revert hperm
  decide

end Otlp

end RustProfile
