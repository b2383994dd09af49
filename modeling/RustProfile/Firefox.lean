import RustProfile.OtlpTimeline

/-!
# The Firefox profile of a window

The profile has a reference time, the start of the window, and gives each
sample's time since the earliest one. The timeline of an export has the Unix
times that the clock anchor gives.
-/

namespace RustProfile

/-- A symbolizer that knows the mappings, too. -/
structure FirefoxSymbolizer extends Symbolizer where
  mappingForAddress : UInt64 → Option MappingInfo

inductive FirefoxFrame where
  | label (name : String)
  | instructionPointer (address : UInt64)
  | returnAddress (address : UInt64)
  deriving DecidableEq, Repr

structure FirefoxThread where
  pid : UInt32
  tid : UInt32
  name : Option String
  isMain : Bool
  deriving DecidableEq, Repr

structure LibraryMapping where
  pid : UInt32
  library : ℕ
  start : UInt64
  limit : UInt64
  relativeAddressAtStart : UInt32
  deriving DecidableEq, Repr

structure FirefoxSample where
  thread : ℕ
  timestamp : ℕ
  stack : List FirefoxFrame
  cpuDelta : ℕ
  weight : ℕ
  deriving DecidableEq, Repr

structure FirefoxProfile where
  referenceNanos : ℕ
  intervalNanos : ℕ
  processName : String
  processes : List UInt32 := []
  threads : List FirefoxThread := []
  libraries : List (String × Option String) := []
  mappings : List LibraryMapping := []
  samples : List FirefoxSample := []
  deriving DecidableEq, Repr

namespace FirefoxProfile

variable (self : FirefoxProfile)

def processHandle (pid : UInt32) : FirefoxProfile :=
  if pid ∈ self.processes then self else { self with processes := self.processes ++ [pid] }

def threadHandle (sample : TimedStackSample) : ℕ × FirefoxProfile :=
  match self.threads.findIdx? fun thread => thread.pid = sample.pid ∧ thread.tid = sample.tid with
  | some thread => (thread, self)
  | none =>
    let thread : FirefoxThread :=
      { pid := sample.pid, tid := sample.tid, name := sample.threadName, isMain := sample.tid = sample.pid }
    (self.threads.length, { self with threads := self.threads ++ [thread] })

def libraryHandle (key : String × Option String) : ℕ × FirefoxProfile :=
  match self.libraries.idxOf? key with
  | some library => (library, self)
  | none => (self.libraries.length, { self with libraries := self.libraries ++ [key] })

def addLibMapping (pid : UInt32) (mapping : MappingInfo) : FirefoxProfile :=
  let (library, self) := self.libraryHandle (mapping.filename.toStringLossy, mapping.buildId)
  if self.mappings.any fun m => m.pid = pid ∧ m.start = mapping.start ∧ m.limit = mapping.limit then self
  else { self with mappings := self.mappings ++ [
    { pid := pid
      library := library
      start := mapping.start
      limit := mapping.limit
      relativeAddressAtStart := mapping.relativeAddressAtStart }] }

/-- The name of code compiled at run time, where it resolves. -/
def jitName (symbolizer : Symbolizer) (mapping : MappingInfo) (address : UInt64) : Option String :=
  if mapping.filename.toStringLossy.startsWith "[jit:" then
    (symbolizer.resolve address).lines.head?.map SymbolizedLine.function
  else none

def frame (symbolizer : Option FirefoxSymbolizer) (pid : UInt32) (isLeaf : Bool) (address : UInt64) :
    FirefoxFrame × FirefoxProfile :=
  let plain := if isLeaf then FirefoxFrame.instructionPointer address else .returnAddress address
  match symbolizer with
  | none => (plain, self)
  | some symbolizer =>
    match symbolizer.mappingForAddress address with
    | none => (plain, self)
    | some mapping =>
      match jitName symbolizer.toSymbolizer mapping address with
      | some name => (.label name, self)
      | none => (plain, self.addLibMapping pid mapping)

/-- The frames from the root; the leaf is the first of the stack. -/
def stackFrames (symbolizer : Option FirefoxSymbolizer) (pid : UInt32) : List Frame → List FirefoxFrame × FirefoxProfile
  | [] => ([], self)
  | leaf :: callers =>
    let (outer, self) := Interning.mapState
      (fun (self : FirefoxProfile) frame => self.frame symbolizer pid false frame.address) self callers.reverse
    let (inner, self) := self.frame symbolizer pid true leaf.address
    (outer ++ [inner], self)

def addSample (symbolizer : Option FirefoxSymbolizer) (firstTimestamp : ℕ) (sample : TimedStackSample) :
    FirefoxProfile :=
  let (thread, self) := (self.processHandle sample.pid).threadHandle sample
  let (stack, self) := self.stackFrames symbolizer sample.pid sample.stack.frames
  { self with samples := self.samples ++ [
    { thread := thread
      timestamp := sample.timestamp - firstTimestamp
      stack := stack
      cpuDelta := sample.cpuDelta
      weight := 1 }] }

end FirefoxProfile

def firstTimestamp (samples : List TimedStackSample) : ℕ := (samples.map TimedStackSample.timestamp).min?.getD 0

def writeFirefoxProfile (samples : List TimedStackSample) (startedUnixNanos : ℤ) (frequency : ℕ) (processName : String)
    (symbolizer : Option FirefoxSymbolizer) : FirefoxProfile :=
  samples.foldl (FirefoxProfile.addSample · symbolizer (firstTimestamp samples))
    { referenceNanos := (max startedUnixNanos 0).toNat
      intervalNanos := 1000000000 / max frequency 1
      processName := processName }

namespace WindowContents

variable (self : WindowContents)

/-- A cgroup's timeline is written without a symbolizer. -/
def firefoxProfile (processName : String) (symbolizer : FirefoxSymbolizer) : FirefoxProfile :=
  writeFirefoxProfile self.timeline self.startedUnixNanos self.timelineFrequency.hertz processName
    (if self.timelineRaw then none else some symbolizer)

/-- Every timeline sample whose timestamp converts has the same Unix time in `profile`. -/
def SameTimes (profile : FirefoxProfile) : Prop :=
  ∀ (i : ℕ) (time : ℕ), self.timestamps[i]? = some (some time) →
    ∃ sample, profile.samples[i]? = some sample ∧ profile.referenceNanos + sample.timestamp = time

end WindowContents

/-! ## The samples of a profile -/

namespace FirefoxProfile

section
variable (self : FirefoxProfile) (symbolizer : Option FirefoxSymbolizer)

/-- The tables that a stack fills leave the reference time and the samples alone. -/
def Frames (a b : FirefoxProfile) : Prop := b.referenceNanos = a.referenceNanos ∧ b.samples = a.samples

theorem addLibMapping_frames (pid : UInt32) (mapping : MappingInfo) : Frames self (self.addLibMapping pid mapping) := by
  have hlibrary : ∀ key, Frames self (self.libraryHandle key).2 := by
    intro key
    unfold libraryHandle
    split <;> exact ⟨rfl, rfl⟩
  unfold addLibMapping
  dsimp only
  split
  · exact hlibrary _
  · exact hlibrary (mapping.filename.toStringLossy, mapping.buildId)

theorem frame_frames (pid : UInt32) (isLeaf : Bool) (address : UInt64) :
    Frames self (self.frame symbolizer pid isLeaf address).2 := by
  unfold frame
  dsimp only
  split
  · exact ⟨rfl, rfl⟩
  · split
    · exact ⟨rfl, rfl⟩
    · split
      · exact ⟨rfl, rfl⟩
      · exact self.addLibMapping_frames pid _

theorem stackFrames_frames (pid : UInt32) (stack : List RustProfile.Frame) :
    Frames self (self.stackFrames symbolizer pid stack).2 := by
  have hcallers : ∀ (l : List RustProfile.Frame) (self : FirefoxProfile), Frames self (Interning.mapState
      (fun (self : FirefoxProfile) frame => self.frame symbolizer pid false frame.address) self l).2 := by
    intro l
    induction l with
    | nil => exact fun _ => ⟨rfl, rfl⟩
    | cons frame l ih =>
      intro self
      obtain ⟨href, hsamples⟩ := self.frame_frames symbolizer pid false frame.address
      obtain ⟨href', hsamples'⟩ := ih (self.frame symbolizer pid false frame.address).2
      exact ⟨href'.trans href, hsamples'.trans hsamples⟩
  cases stack with
  | nil => exact ⟨rfl, rfl⟩
  | cons leaf callers =>
    obtain ⟨href, hsamples⟩ := hcallers callers.reverse self
    obtain ⟨href', hsamples'⟩ := frame_frames (Interning.mapState
      (fun (self : FirefoxProfile) frame => self.frame symbolizer pid false frame.address) self callers.reverse).2
        symbolizer pid true leaf.address
    exact ⟨href'.trans href, hsamples'.trans hsamples⟩

theorem handles_frames (sample : TimedStackSample) :
    Frames self ((self.processHandle sample.pid).threadHandle sample).2 := by
  unfold processHandle threadHandle
  split <;> split <;> exact ⟨rfl, rfl⟩

theorem addSample_times (first : ℕ) (sample : TimedStackSample) :
    (self.addSample symbolizer first sample).referenceNanos = self.referenceNanos ∧
      (self.addSample symbolizer first sample).samples.map FirefoxSample.timestamp =
        self.samples.map FirefoxSample.timestamp ++ [sample.timestamp - first] := by
  obtain ⟨href, hsamples⟩ := self.handles_frames sample
  obtain ⟨href', hsamples'⟩ := stackFrames_frames ((self.processHandle sample.pid).threadHandle sample).2 symbolizer
    sample.pid sample.stack.frames
  refine ⟨href'.trans href, ?_⟩
  unfold addSample
  dsimp only
  rw [List.map_append, hsamples', hsamples]
  rfl

theorem foldl_addSample_times (first : ℕ) : ∀ (samples : List TimedStackSample) (self : FirefoxProfile),
    (samples.foldl (addSample · symbolizer first) self).referenceNanos = self.referenceNanos ∧
      (samples.foldl (addSample · symbolizer first) self).samples.map FirefoxSample.timestamp =
        self.samples.map FirefoxSample.timestamp ++ samples.map fun sample => sample.timestamp - first
  | [], _ => ⟨rfl, (List.append_nil _).symm⟩
  | sample :: samples, self => by
    obtain ⟨href, htimes⟩ := self.addSample_times symbolizer first sample
    obtain ⟨href', htimes'⟩ := foldl_addSample_times first samples (self.addSample symbolizer first sample)
    refine ⟨href'.trans href, htimes'.trans ?_⟩
    rw [htimes, List.append_assoc]
    rfl

end

end FirefoxProfile

theorem firstTimestamp_le {samples : List TimedStackSample} {sample : TimedStackSample} (h : sample ∈ samples) :
    firstTimestamp samples ≤ sample.timestamp := by
  unfold firstTimestamp
  cases hmin : (samples.map TimedStackSample.timestamp).min? with
  | none =>
    rw [List.map_eq_nil_iff.mp (List.min?_eq_none_iff.mp hmin)] at h
    cases h
  | some first => exact (List.min?_eq_some_iff.mp hmin).2 _ (List.mem_map_of_mem h)

/-- Each sample of the timeline is a sample of the profile, with its time since the first. -/
theorem writeFirefoxProfile_times (samples : List TimedStackSample) (startedUnixNanos : ℤ) (frequency : ℕ)
    (processName : String) (symbolizer : Option FirefoxSymbolizer) :
    let profile := writeFirefoxProfile samples startedUnixNanos frequency processName symbolizer
    profile.referenceNanos = (max startedUnixNanos 0).toNat ∧
      profile.samples.map FirefoxSample.timestamp =
        samples.map fun sample => sample.timestamp - firstTimestamp samples :=
  FirefoxProfile.foldl_addSample_times symbolizer (firstTimestamp samples) samples _

/-! ## Wall-clock times -/

/-- **The two timelines.** A profile gives the samples that convert the times of
the export exactly when the earliest sample is as long after the anchor as the
reference time is. -/
theorem firefox_sameTimes_iff (window : WindowContents) (processName : String) (symbolizer : FirefoxSymbolizer) :
    window.SameTimes (window.firefoxProfile processName symbolizer) ↔
      (∀ time ∈ window.timestamps, time = none) ∨
        (firstTimestamp window.timeline : ℤ) - window.clockAnchor.monotonicNanos =
          max window.startedUnixNanos 0 - window.clockAnchor.unixNanos := by
  obtain ⟨href, htimes⟩ := writeFirefoxProfile_times window.timeline window.startedUnixNanos
    window.timelineFrequency.hertz processName (if window.timelineRaw then none else some symbolizer)
  -- The time of a sample in the export, and that in the profile.
  have hsample : ∀ (i time : ℕ), window.timestamps[i]? = some (some time) → ∃ sample : TimedStackSample,
      window.timeline[i]? = some sample ∧
      (time : ℤ) = window.clockAnchor.unixNanos + (sample.timestamp - window.clockAnchor.monotonicNanos) := by
    intro i time htime
    unfold WindowContents.timestamps at htime
    rw [List.getElem?_map] at htime
    obtain ⟨sample, hsample, hunix⟩ := Option.map_eq_some_iff.mp htime
    exact ⟨sample, hsample, (PerfClockAnchor.toUnixNanos_some hunix).1⟩
  have hprofile : ∀ (i : ℕ) sample, window.timeline[i]? = some sample → ∃ s,
      (window.firefoxProfile processName symbolizer).samples[i]? = some s ∧
      s.timestamp = sample.timestamp - firstTimestamp window.timeline := by
    intro i sample hi
    have hget := congrArg (fun times : List ℕ => times[i]?) htimes
    simp only [List.getElem?_map, hi] at hget
    exact Option.map_eq_some_iff.mp hget
  have hagree : ∀ (i time : ℕ), window.timestamps[i]? = some (some time) →
      ((∃ s, (window.firefoxProfile processName symbolizer).samples[i]? = some s ∧
          (window.firefoxProfile processName symbolizer).referenceNanos + s.timestamp = time) ↔
        (firstTimestamp window.timeline : ℤ) - window.clockAnchor.monotonicNanos =
          max window.startedUnixNanos 0 - window.clockAnchor.unixNanos) := by
    intro i time htime
    obtain ⟨sample, hi, hunix⟩ := hsample i time htime
    obtain ⟨s, hs, hrelative⟩ := hprofile i sample hi
    have hfirst := firstTimestamp_le (List.mem_of_getElem? hi)
    have hreference : ((window.firefoxProfile processName symbolizer).referenceNanos : ℤ) =
        max window.startedUnixNanos 0 := by
      rw [show (window.firefoxProfile processName symbolizer).referenceNanos = _ from href]
      exact Int.toNat_of_nonneg (le_max_right _ _)
    constructor
    · rintro ⟨s', hs', htotal⟩
      rw [hs, Option.some.injEq] at hs'
      subst hs'
      omega
    · intro hgap
      exact ⟨s, hs, by omega⟩
  constructor
  · intro h
    by_cases hnone : ∀ time ∈ window.timestamps, time = none
    · exact Or.inl hnone
    · right
      simp only [not_forall] at hnone
      obtain ⟨time, hmem, hsome⟩ := hnone
      obtain ⟨time, rfl⟩ := Option.ne_none_iff_exists'.mp hsome
      obtain ⟨i, hi⟩ := List.mem_iff_getElem?.mp hmem
      exact (hagree i time hi).mp (h i time hi)
  · rintro (hnone | hgap) i time htime
    · cases hnone _ (List.mem_of_getElem? htime)
    · exact (hagree i time htime).mpr hgap

def idleStart : WindowContents where
  timeline := [{ stack := ⟨[⟨4096⟩]⟩, pid := 7, tid := 7, threadName := none, timestamp := 1300, cpuDelta := 10 }]
  timelineFrequency := exampleFrequency
  clockAnchor := { monotonicNanos := 1000, unixNanos := 5000000 }
  startedUnixNanos := 5000000
  durationNanos := 1000
  targetLabels := []

/-- The sample is at 5000300 in the export and at 5000000 in the profile. -/
theorem idleStart_differs :
    ¬ idleStart.SameTimes (idleStart.firefoxProfile "app" ⟨noSymbols, fun _ => none⟩) := by
  intro h
  obtain ⟨sample, hsample, htime⟩ := h 0 5000300 (by decide)
  cases hsample
  exact absurd htime (by decide)

end RustProfile
