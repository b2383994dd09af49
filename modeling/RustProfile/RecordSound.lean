import RustProfile.CpuWindowSound
import RustProfile.Record

/-!
# Shedding is truthful

A window lists the files it will publish. Shedding takes the derived ones out of
the window and out of the list alike, and counts the timeline samples that no
file will hold as dropped; a second shed finds nothing left to take.
-/

namespace RustProfile

/-! ## The timeline of a window -/

/-- A sample that is counted for the timeline is in it or was dropped, as long as the counts are in range. -/
structure TimelineCounts (w : CpuWindow) : Prop where
  counted : w.timelineSamples ≤ w.totalSamples
  split : w.totalSamples ≤ u64Max → w.timelineSamples = w.timeline.length + w.timelineDropped

structure SameTimeline (before after : CpuWindow) : Prop where
  timeline : after.timeline = before.timeline
  samples : after.timelineSamples = before.timelineSamples
  dropped : after.timelineDropped = before.timelineDropped
  total : after.totalSamples = before.totalSamples

theorem SameTimeline.refl (w : CpuWindow) : SameTimeline w w := ⟨rfl, rfl, rfl, rfl⟩

theorem SameTimeline.trans {a b c : CpuWindow} (hab : SameTimeline a b) (hbc : SameTimeline b c) : SameTimeline a c :=
  ⟨hbc.timeline.trans hab.timeline, hbc.samples.trans hab.samples, hbc.dropped.trans hab.dropped,
    hbc.total.trans hab.total⟩

theorem TimelineCounts.congr {a b : CpuWindow} (h : TimelineCounts a) (hs : SameTimeline a b) : TimelineCounts b := by
  refine ⟨by rw [hs.samples, hs.total]; exact h.counted, fun ht => ?_⟩
  rw [hs.samples, hs.timeline, hs.dropped]
  exact h.split (hs.total ▸ ht)

namespace CpuWindow

variable {δ ω : Type} (w : CpuWindow)

theorem countInvalid_timeline (context : IngestContext δ) (data : PerfSampleData) (frames : SampleFrames) :
    SameTimeline w (w.countInvalid context data frames) := by
  unfold countInvalid
  cases data with
  | framePointer addresses => exact ⟨rfl, rfl, rfl, rfl⟩
  | dwarf snapshot =>
    by_cases h : frames = .rejected
    · rw [if_pos h]
      exact ⟨rfl, rfl, rfl, rfl⟩
    · rw [if_neg h]
      exact SameTimeline.refl w

theorem internStack_sameTimeline (stack : Stack) : SameTimeline w (w.internStack stack).2 := by
  unfold internStack
  cases w.stackInterner.lookup stack with
  | some interned => exact SameTimeline.refl w
  | none =>
    by_cases hs : w.stackInterner.size < w.maxStacks
    · rw [if_pos hs]
      exact ⟨rfl, rfl, rfl, rfl⟩
    · rw [if_neg hs]
      exact SameTimeline.refl w

theorem threadName_timeline (comm : CommReader ω) (world : ω) (pid tid : UInt32) :
    SameTimeline w (w.threadName comm world pid tid).2.1 := by
  unfold threadName
  cases w.threadNames.lookup (pid, tid) with
  | some name => exact SameTimeline.refl w
  | none =>
    by_cases hs : w.threadNames.size ≥ w.maxThreadAttributions
    · rw [if_pos hs]
      exact ⟨rfl, rfl, rfl, rfl⟩
    · rw [if_neg hs]
      exact ⟨rfl, rfl, rfl, rfl⟩

theorem aggregate_sameTimeline (key : AttributedStack) (period : ℤ) (depth : ℕ) :
    SameTimeline w (w.aggregate key period depth) := by
  cases ho : Capped.offer w.maxStacks {} (·.add period) w.samples key with
  | some samples =>
    rw [aggregate_kept ho]
    exact ⟨rfl, rfl, rfl, rfl⟩
  | none =>
    rw [aggregate_dropped ho]
    exact ⟨rfl, rfl, rfl, rfl⟩

theorem recordTimeline_counts {w : CpuWindow} (hlt : w.timelineSamples < w.totalSamples)
    (hs : w.totalSamples ≤ u64Max → w.timelineSamples = w.timeline.length + w.timelineDropped) (key : AttributedStack)
    (time : ℕ) (period : ℤ) : TimelineCounts (w.recordTimeline key time period) := by
  unfold recordTimeline
  by_cases he : w.timelineEnabled
  · rw [if_pos he]
    dsimp only
    have hle : saturatingAddU64 w.timelineSamples 1 ≤ w.timelineSamples + 1 := min_le_left _ _
    have hexact : w.totalSamples ≤ u64Max → saturatingAddU64 w.timelineSamples 1 = w.timelineSamples + 1 := fun ht =>
      min_eq_left (by omega)
    by_cases hl : w.timeline.length < w.maxTimelineSamples
    · rw [if_pos hl]
      refine ⟨hle.trans hlt, fun ht => ?_⟩
      simp only [List.length_append, List.length_singleton]
      rw [hexact ht, hs ht]
      omega
    · rw [if_neg hl]
      refine ⟨hle.trans hlt, fun ht => ?_⟩
      have hsplit := hs ht
      have hdropped : saturatingAddU64 w.timelineDropped 1 = w.timelineDropped + 1 :=
        min_eq_left (by dsimp only at ht; omega)
      dsimp only at ht ⊢
      rw [hexact ht, hdropped, hsplit]
      omega
  · rw [if_neg he]
    exact ⟨hlt.le, hs⟩

end CpuWindow

section
variable {δ ω : Type} (comm : CommReader ω)

theorem ingestUsable_counts (context : IngestContext δ) {st : Ingesting δ ω} {w : CpuWindow}
    (hsame : SameTimeline { w with totalSamples := w.totalSamples + 1 } st.window) (h : TimelineCounts w)
    (sample : PerfSample) (frames : List UInt64) (truncated : Bool) :
    TimelineCounts (RustProfile.ingestUsable context comm st sample frames truncated).window := by
  unfold RustProfile.ingestUsable
  have htruncated : SameTimeline st.window
      (if truncated then { st.window with truncatedSamples := st.window.truncatedSamples + 1 } else st.window) := by
    cases truncated <;> exact ⟨rfl, rfl, rfl, rfl⟩
  revert htruncated
  generalize (if truncated then { st.window with truncatedSamples := st.window.truncatedSamples + 1 } else st.window) =
    base
  intro htruncated
  have hintern := base.internStack_sameTimeline (Stack.ofAddresses frames)
  have hname := (base.internStack (Stack.ofAddresses frames)).2.threadName_timeline comm st.world
    (if sample.pid = 0 then (base.internStack (Stack.ofAddresses frames)).2.fallbackPid else sample.pid) sample.tid
  have hchain := hsame.trans (htruncated.trans (hintern.trans hname))
  refine TimelineCounts.congr (CpuWindow.recordTimeline_counts ?_ ?_ _ sample.time _)
    (CpuWindow.aggregate_sameTimeline _ _ _ _)
  · rw [hchain.samples, hchain.total]
    exact Nat.lt_succ_of_le h.counted
  · intro ht
    rw [hchain.total] at ht
    rw [hchain.samples, hchain.timeline, hchain.dropped]
    exact h.split ((Nat.le_succ _).trans ht)

theorem TimelineCounts.ingestSample (context : IngestContext δ) {st : Ingesting δ ω} (h : TimelineCounts st.window)
    (sample : PerfSample) : TimelineCounts (RustProfile.ingestSample context comm st sample).1.window := by
  unfold RustProfile.ingestSample
  rcases context.sampleFrames st.unwinder sample.data with ⟨frames, unwinder⟩
  have hinvalid := CpuWindow.countInvalid_timeline { st.window with totalSamples := st.window.totalSamples + 1 } context
    sample.data frames
  have htotal : TimelineCounts { st.window with totalSamples := st.window.totalSamples + 1 } :=
    ⟨h.counted.trans (Nat.le_succ _), fun ht => h.split ((Nat.le_succ _).trans ht)⟩
  have hcounts := htotal.congr hinvalid
  cases frames with
  | fatal message => exact hcounts
  | rejected => exact hcounts
  | usable frames truncated => exact ingestUsable_counts comm context hinvalid h sample frames truncated

theorem TimelineCounts.ingestSamples (context : IngestContext δ) : ∀ (samples : List PerfSample) {st : Ingesting δ ω},
    TimelineCounts st.window → TimelineCounts (RustProfile.ingestSamples context comm st samples).1.window
  | [], _, h => h
  | sample :: samples, st, h => by
    have hnext := h.ingestSample comm context sample
    rw [RustProfile.ingestSamples]
    rcases hn : RustProfile.ingestSample context comm st sample with ⟨next, error⟩
    rw [hn] at hnext
    cases error with
    | some message => exact hnext
    | none => exact TimelineCounts.ingestSamples context samples hnext

theorem TimelineCounts.ingestCpuBatches : ∀ (calls : List (IngestCall δ)) {w : CpuWindow} {world : ω},
    TimelineCounts w → TimelineCounts (RustProfile.ingestCpuBatches comm w world calls).1
  | [], _, _, h => h
  | call :: calls, w, world, h => by
    have hstart : TimelineCounts (call.start w world).window := h.congr ⟨rfl, rfl, rfl, rfl⟩
    have hnext := hstart.ingestSamples comm call.context call.ready.1
    have hcall : ingestCpuBatch comm w world call =
        ((RustProfile.ingestSamples call.context comm (call.start w world) call.ready.1).1, call.ready.2,
          (RustProfile.ingestSamples call.context comm (call.start w world) call.ready.1).2) := rfl
    rw [RustProfile.ingestCpuBatches, hcall]
    rcases hn : RustProfile.ingestSamples call.context comm (call.start w world) call.ready.1 with ⟨next, error⟩
    rw [hn] at hnext
    cases error with
    | some message => exact hnext
    | none => exact TimelineCounts.ingestCpuBatches calls hnext

end

namespace Record

theorem Ingested.timeline {args : RecordArgs} {window : CpuWindow} (h : Ingested args.freshWindow window) :
    window.timelineSamples = window.timeline.length + window.timelineDropped := by
  obtain ⟨δ, ω, comm, world, calls, rfl⟩ := h.calls
  exact (TimelineCounts.ingestCpuBatches comm calls ⟨Nat.zero_le _, fun _ => rfl⟩).split h.bounded

theorem Ingested.timeline_le {args : RecordArgs} {window : CpuWindow} (h : Ingested args.freshWindow window) :
    window.timelineSamples ≤ u64Max := by
  obtain ⟨δ, ω, comm, world, calls, rfl⟩ := h.calls
  exact (TimelineCounts.ingestCpuBatches comm calls ⟨Nat.zero_le _, fun _ => rfl⟩).counted.trans h.bounded

/-! ## What a shed does -/

def removed (w : WindowOutput) : Finset SessionFile :=
  ((takeSvg w.cpu).1 ++ (takeSvg w.heap).1 ++ (takeSvg w.offCpu).1 ++ (w.firefox.map Prod.fst).toList).toFinset

def Exports (w : WindowOutput) : Prop := w.exportOtlp = true ∧ w.diagnostics.otlp.status ≠ .disabled

instance (w : WindowOutput) : Decidable (Exports w) := inferInstanceAs (Decidable (_ ∧ _))

structure Shed (w s : WindowOutput) : Prop where
  cpu : s.cpu = (takeSvg w.cpu).2
  heap : s.heap = (takeSvg w.heap).2
  offCpu : s.offCpu = (takeSvg w.offCpu).2
  firefox : s.firefox = none
  timeline : s.timeline = []
  exports : ¬ Exports s
  exportOtlp : s.exportOtlp = (w.exportOtlp && !decide (Exports w))
  otlpTimeline : s.otlpTimeline = w.otlpTimeline
  diagnosticsPath : s.diagnosticsPath = w.diagnosticsPath
  started : s.startedUnixNanos = w.startedUnixNanos
  duration : s.durationNanos = w.durationNanos
  outputs : s.diagnostics.outputs = w.diagnostics.outputs.filter (· ∉ removed w)
  skipped : s.diagnostics.outputBackpressure.filesSkipped =
    if removed w ≠ ∅ ∨ Exports w then (removed w).card else w.diagnostics.outputBackpressure.filesSkipped
  enabled : s.diagnostics.firefox.enabled = w.diagnostics.firefox.enabled
  samples : s.diagnostics.firefox.samples = w.diagnostics.firefox.samples
  dropped : s.diagnostics.firefox.droppedSamples =
    if w.firefox.isSome then saturatingAddU64 w.diagnostics.firefox.droppedSamples w.timeline.length
    else w.diagnostics.firefox.droppedSamples
  status : s.diagnostics.otlp.status = if Exports w then .dropped else w.diagnostics.otlp.status

def shedFirefox (w : WindowOutput) : FirefoxOutputDiagnostics :=
  if w.firefox.isSome then
    { w.diagnostics.firefox with
      droppedSamples := saturatingAddU64 w.diagnostics.firefox.droppedSamples w.timeline.length
      error := some "Firefox output skipped because the previous window was still being written" }
  else w.diagnostics.firefox

def shedOtlp (w : WindowOutput) : OtlpExportDiagnostics :=
  if Exports w then
    { w.diagnostics.otlp with
      status := .dropped
      error := some "OTLP output skipped because the previous window was still being written" }
  else w.diagnostics.otlp

theorem takeFirefox_eq (w : WindowOutput) : w.takeFirefox = ((w.firefox.map Prod.fst).toList,
    { w with firefox := none, diagnostics := { w.diagnostics with firefox := shedFirefox w } }) := by
  unfold WindowOutput.takeFirefox shedFirefox
  cases hf : w.firefox with
  | some output => rfl
  | none =>
    cases w
    simp only at hf
    subst hf
    rfl

theorem skipOtlp_eq (w : WindowOutput) : w.skipOtlp = (decide (Exports w),
    { w with
      exportOtlp := w.exportOtlp && !decide (Exports w)
      diagnostics := { w.diagnostics with otlp := shedOtlp w } }) := by
  unfold WindowOutput.skipOtlp shedOtlp
  by_cases he : Exports w
  · have he' : w.exportOtlp = true ∧ w.diagnostics.otlp.status ≠ .disabled := he
    simp only [he, if_pos he', decide_true, Bool.not_true, Bool.and_false, if_true]
  · have he' : ¬ (w.exportOtlp = true ∧ w.diagnostics.otlp.status ≠ .disabled) := he
    simp only [he, if_neg he', decide_false, Bool.not_false, Bool.and_true, if_false]

theorem clearTimeline_eq (w : WindowOutput) (hf : w.firefox = none) (he : ¬ Exports w) :
    w.clearTimeline = { w with timeline := [] } := by
  unfold WindowOutput.clearTimeline
  refine if_pos ⟨hf, ?_⟩
  by_cases hx : w.exportOtlp = true
  · right
    by_contra hs
    exact he ⟨hx, hs⟩
  · left
    exact eq_false_of_ne_true hx

theorem skipOtlp_not_exports (w : WindowOutput) : ¬ Exports w.skipOtlp.2 := by
  rw [skipOtlp_eq]
  rintro ⟨hx, hs⟩
  by_cases he : Exports w
  · simp only [he, decide_true, Bool.not_true, Bool.and_false, Bool.false_eq_true] at hx
  · simp only [he, decide_false, Bool.not_false, Bool.and_true] at hx
    rw [shedOtlp, if_neg he] at hs
    exact he ⟨hx, hs⟩

def stripped (w : WindowOutput) : WindowOutput :=
  { w with
    cpu := (takeSvg w.cpu).2
    heap := (takeSvg w.heap).2
    offCpu := (takeSvg w.offCpu).2
    firefox := none
    timeline := []
    exportOtlp := w.exportOtlp && !decide (Exports w)
    diagnostics := { w.diagnostics with firefox := shedFirefox w, otlp := shedOtlp w } }

theorem shedDerivedOutputs_eq (w : WindowOutput) (pendingWindows : ℕ) :
    w.shedDerivedOutputs pendingWindows =
      if removed w ≠ ∅ ∨ Exports w then (stripped w).countShed (removed w) pendingWindows else stripped w := by
  have hclear : ∀ a : WindowOutput, a.takeFirefox.2.skipOtlp.2.clearTimeline =
      { a.takeFirefox.2.skipOtlp.2 with timeline := [] } := by
    intro a
    refine clearTimeline_eq _ ?_ (skipOtlp_not_exports _)
    rw [skipOtlp_eq, takeFirefox_eq]
  unfold WindowOutput.shedDerivedOutputs
  dsimp only
  rw [hclear, takeFirefox_eq, skipOtlp_eq]
  by_cases hshed : removed w ≠ ∅ ∨ Exports w
  · rw [if_pos hshed]
    exact if_pos (hshed.imp_right decide_eq_true)
  · rw [if_neg hshed]
    exact if_neg fun h => hshed (h.imp_right of_decide_eq_true)

theorem shedDerivedOutputs_shed (w : WindowOutput) (pendingWindows : ℕ) :
    Shed w (w.shedDerivedOutputs pendingWindows) := by
  have hexports : ¬ Exports (stripped w) := by
    have hnot := skipOtlp_not_exports w
    rw [skipOtlp_eq] at hnot
    exact hnot
  have hstatus : (stripped w).diagnostics.otlp.status = if Exports w then .dropped else w.diagnostics.otlp.status := by
    unfold stripped shedOtlp
    split <;> rfl
  have hdropped : (stripped w).diagnostics.firefox.droppedSamples =
      if w.firefox.isSome then saturatingAddU64 w.diagnostics.firefox.droppedSamples w.timeline.length
      else w.diagnostics.firefox.droppedSamples := by
    unfold stripped shedFirefox
    split <;> rfl
  have hsame : (stripped w).diagnostics.firefox.enabled = w.diagnostics.firefox.enabled ∧
      (stripped w).diagnostics.firefox.samples = w.diagnostics.firefox.samples := by
    unfold stripped shedFirefox
    split <;> exact ⟨rfl, rfl⟩
  rw [shedDerivedOutputs_eq]
  -- The report counts the window as shed only where something was left to shed.
  by_cases hshed : removed w ≠ ∅ ∨ Exports w
  · rw [if_pos hshed]
    exact ⟨rfl, rfl, rfl, rfl, rfl, hexports, rfl, rfl, rfl, rfl, rfl, rfl, (if_pos hshed).symm, hsame.1, hsame.2,
      hdropped, hstatus⟩
  · rw [if_neg hshed]
    have hempty : removed w = ∅ := by
      by_contra h
      exact hshed (Or.inl h)
    refine ⟨rfl, rfl, rfl, rfl, rfl, hexports, rfl, rfl, rfl, rfl, rfl, ?_, (if_neg hshed).symm, hsame.1, hsame.2,
      hdropped, hstatus⟩
    rw [hempty]
    simp [stripped]

/-! ## A second shed -/

/-- Nothing is left to shed. -/
structure Bare (w : WindowOutput) : Prop where
  cpu : (takeSvg w.cpu).2 = w.cpu
  heap : (takeSvg w.heap).2 = w.heap
  offCpu : (takeSvg w.offCpu).2 = w.offCpu
  removed : removed w = ∅
  firefox : w.firefox = none
  timeline : w.timeline = []
  exports : ¬ Exports w

theorem takeSvg_twice {α : Type} (output : Option (ProfileOutput × α)) :
    takeSvg (takeSvg output).2 = ([], (takeSvg output).2) := by
  cases output with
  | none => rfl
  | some output => rfl

theorem Shed.bare {w s : WindowOutput} (h : Shed w s) : Bare s := by
  refine ⟨?_, ?_, ?_, ?_, h.firefox, h.timeline, h.exports⟩
  · rw [h.cpu, takeSvg_twice]
  · rw [h.heap, takeSvg_twice]
  · rw [h.offCpu, takeSvg_twice]
  · unfold Record.removed
    rw [h.cpu, h.heap, h.offCpu, h.firefox, takeSvg_twice, takeSvg_twice, takeSvg_twice]
    rfl

theorem Bare.shedDerivedOutputs {w : WindowOutput} (h : Bare w) (pendingWindows : ℕ) :
    w.shedDerivedOutputs pendingWindows = w := by
  have hshed : ¬ (Record.removed w ≠ ∅ ∨ Exports w) := by
    rintro (hr | he)
    · exact hr h.removed
    · exact h.exports he
  have hfirefox : shedFirefox w = w.diagnostics.firefox := by
    unfold shedFirefox
    rw [h.firefox]
    rfl
  have hotlp : shedOtlp w = w.diagnostics.otlp := if_neg h.exports
  rw [shedDerivedOutputs_eq, if_neg hshed, stripped, h.cpu, h.heap, h.offCpu, hfirefox, hotlp,
    decide_eq_false h.exports, Bool.not_false, Bool.and_true, ← h.firefox, ← h.timeline]

theorem shed_twice (w : WindowOutput) (p q : ℕ) :
    (w.shedDerivedOutputs p).shedDerivedOutputs q = w.shedDerivedOutputs p :=
  (shedDerivedOutputs_shed w p).bare.shedDerivedOutputs q

theorem foldl_shed (w : WindowOutput) (pendings : List ℕ) :
    pendings.foldl WindowOutput.shedDerivedOutputs w = w ∨
      Shed w (pendings.foldl WindowOutput.shedDerivedOutputs w) := by
  induction pendings using List.reverseRecOn with
  | nil => exact Or.inl rfl
  | append_singleton pendings p ih =>
    rw [List.foldl_append, List.foldl_cons, List.foldl_nil]
    right
    rcases ih with h | h
    · rw [h]
      exact shedDerivedOutputs_shed w p
    · rw [h.bare.shedDerivedOutputs p]
      exact h

/-! ## The files of a window -/

def WindowOutput.outline (w : WindowOutput) : RustProfile.WindowOutput where
  cpu := w.cpu.map Prod.fst
  heap := w.heap.map Prod.fst
  offCpu := w.offCpu.map Prod.fst
  firefox := w.firefox.map Prod.fst
  otlpEnabled := decide (w.diagnostics.otlp.status ≠ .disabled)
  otlpTimeline := w.otlpTimeline
  diagnosticsPath := w.diagnosticsPath
  outputs := w.diagnostics.outputs
  exportOtlp := w.exportOtlp

/-- What a recording asks for, given which collectors run. -/
def CollectedWindow.outputArgs {args : RecordArgs} (collected : CollectedWindow args) : OutputArgs :=
  { args.toOutputArgs with heap := collected.heapProfile.isSome, offCpu := collected.offCpuProfile.isSome }

theorem outline_recordWindow (args : RecordArgs) (collected : CollectedWindow args) :
    (recordWindow args collected).outline = .new collected.outputArgs collected.index := by
  have hstatus : decide ((otlpDiagnostics args collected.toWindowData).status ≠ .disabled) = args.otlp := by
    unfold otlpDiagnostics
    cases args.otlp <;> rfl
  unfold WindowOutput.outline recordWindow windowOutput RustProfile.WindowOutput.new CollectedWindow.outputArgs
  simp only [hstatus]
  cases args.cpu <;> cases collected.heapProfile <;> cases collected.offCpuProfile <;> cases args.firefoxProfile <;> rfl

theorem takeSvg_fst {α : Type} (output : Option (ProfileOutput × α)) :
    (takeSvg output).1 = (output.map Prod.fst).elim [] fun output => output.2.toList := by
  cases output <;> rfl

theorem takeSvg_snd {α : Type} (output : Option (ProfileOutput × α)) :
    (takeSvg output).2.map Prod.fst = (output.map Prod.fst).map fun output => (output.1, none) := by
  cases output <;> rfl

theorem Shed.outline {w s : WindowOutput} (h : Shed w s) : s.outline = w.outline.shedDerivedOutputs := by
  have hstatus : decide (s.diagnostics.otlp.status ≠ .disabled) = decide (w.diagnostics.otlp.status ≠ .disabled) := by
    rw [h.status]
    by_cases he : Exports w
    · rw [if_pos he]
      exact (decide_eq_true he.2).symm
    · rw [if_neg he]
  have houtputs : s.diagnostics.outputs = w.outline.shedDerivedOutputs.outputs := by
    rw [RustProfile.WindowOutput.outputs_shedDerivedOutputs, h.outputs]
    refine List.filter_congr fun p _ => decide_eq_decide.mpr (not_congr ?_)
    unfold removed
    rw [List.mem_toFinset, takeSvg_fst, takeSvg_fst, takeSvg_fst]
    rfl
  have hexport : s.exportOtlp = w.outline.shedDerivedOutputs.exportOtlp := by
    have hexports : decide (Exports w) = (w.exportOtlp && decide (w.diagnostics.otlp.status ≠ .disabled)) := by
      cases hx : w.exportOtlp with
      | true => exact decide_eq_decide.mpr ⟨fun he => he.2, fun hs => ⟨hx, hs⟩⟩
      | false => exact decide_eq_false fun he => absurd (hx ▸ he.1) (by decide)
    rw [h.exportOtlp, hexports]
    rfl
  unfold WindowOutput.outline
  rw [houtputs, hexport, hstatus, h.cpu, h.heap, h.offCpu, takeSvg_snd, takeSvg_snd, takeSvg_snd, h.firefox,
    h.otlpTimeline, h.diagnosticsPath]
  rfl

/-- However often it is shed, the window lists the files it publishes. -/
theorem outline_listed (args : RecordArgs) (collected : CollectedWindow args) (pendings : List ℕ) :
    RustProfile.WindowOutput.Listed collected.index
      (pendings.foldl WindowOutput.shedDerivedOutputs (recordWindow args collected)).outline := by
  rcases foldl_shed (recordWindow args collected) pendings with h | h
  · rw [h, outline_recordWindow]
    exact RustProfile.WindowOutput.submit_listed collected.outputArgs collected.index 0
  · rw [h.outline, outline_recordWindow]
    exact RustProfile.WindowOutput.submit_listed collected.outputArgs collected.index 1

/-! ## What is written -/

def Part.file? : Part → Option (SessionFile × FileContents)
  | .file path contents => some (path, contents)
  | .timeline _ => none

theorem publishParts_ok {faults : Faults} : ∀ (parts : List Part) {disk : Disk},
    (publishParts faults parts disk).1 = .ok () →
    (publishParts faults parts disk).2.1 = parts.filterMap Part.file?
  | [], _, _ => rfl
  | .file path contents :: rest, disk, h => by
    rw [publishParts] at h ⊢
    cases hw : faults.write path with
    | ok =>
      simp only [hw] at h ⊢
      have hcons : (Part.file path contents :: rest).filterMap Part.file? =
          (path, contents) :: rest.filterMap Part.file? := rfl
      rw [hcons, publishParts_ok rest h]
    | unpublished =>
      simp only [hw] at h
      cases h
    | unsynced =>
      simp only [hw] at h
      cases h
  | .timeline failed :: rest, disk, h => by
    rw [publishParts] at h ⊢
    cases failed with
    | true => cases h
    | false => exact publishParts_ok rest h

theorem writeInner_ok {faults : Faults} {w : WindowOutput} {context : WriteContext} {session : OutputSession}
    {job : Option ExportJob} (h : (w.writeInner faults context session).result = .ok job) :
    job = w.job context ∧
      (w.writeInner faults context session).published = (w.parts context).filterMap Part.file? := by
  unfold WindowOutput.writeInner at h ⊢
  have hparts := @publishParts_ok faults (w.parts context) session.disk
  rcases hp : publishParts faults (w.parts context) session.disk with ⟨result, published, disk⟩
  rw [hp] at hparts
  cases result with
  | error error =>
    simp only [hp] at h
    cases h
  | ok _ =>
    simp only [hp] at h ⊢
    rcases hprune : pruneSessionWindows faults context.keepWindows (session.retained ++ [w.diagnostics.outputs])
      disk with ⟨result, session'⟩
    cases result with
    | error error =>
      simp only [hprune] at h
      cases h
    | ok _ =>
      simp only [hprune] at h ⊢
      cases h
      exact ⟨rfl, hparts rfl⟩

def FileContents.firefoxSamples : FileContents → ℕ
  | .firefox _ contents => contents.samples.length
  | .profile _ => 0
  | .flameGraph _ _ _ _ => 0
  | .diagnostics _ => 0

def firefoxSamples (published : List (SessionFile × FileContents)) : ℕ :=
  (published.map fun file => file.2.firefoxSamples).sum

theorem firefoxSamples_append (a b : List (SessionFile × FileContents)) :
    firefoxSamples (a ++ b) = firefoxSamples a + firefoxSamples b := by
  unfold firefoxSamples
  rw [List.map_append, List.sum_append]

structure PartFiles (parts : List Part) (files : List SessionFile) (samples : ℕ) : Prop where
  files : (parts.filterMap Part.file?).map Prod.fst = files
  samples : firefoxSamples (parts.filterMap Part.file?) = samples

theorem PartFiles.append {a b : List Part} {files files' : List SessionFile} {samples samples' : ℕ}
    (ha : PartFiles a files samples) (hb : PartFiles b files' samples') :
    PartFiles (a ++ b) (files ++ files') (samples + samples') := by
  refine ⟨?_, ?_⟩
  · rw [List.filterMap_append, List.map_append, ha.files, hb.files]
  · rw [List.filterMap_append, firefoxSamples_append, ha.samples, hb.samples]

theorem profileParts_files (output : ProfileOutput) (profile : Profile) (valueIndex : ℕ) (title : String)
    (value : FlameValue) :
    PartFiles (WindowOutput.profileParts output profile valueIndex title value) (profileFiles (some output)) 0 := by
  obtain ⟨path, svg⟩ := output
  cases svg with
  | none => exact ⟨rfl, rfl⟩
  | some svg => exact ⟨rfl, rfl⟩

theorem elim_files {α : Type} (output : Option (ProfileOutput × α)) {parts : ProfileOutput × α → List Part}
    (h : ∀ o, PartFiles (parts o) (profileFiles (some o.1)) 0) :
    PartFiles (output.elim [] parts) (profileFiles (output.map Prod.fst)) 0 := by
  cases output with
  | none => exact ⟨rfl, rfl⟩
  | some o => exact h o

theorem timeline_files (wanted failed : Bool) :
    PartFiles (if wanted then [.timeline failed] else []) [] 0 := by
  cases wanted <;> exact ⟨rfl, rfl⟩

theorem length_firefoxProfile (w : WindowOutput) (context : WriteContext) :
    (w.firefoxProfile context).samples.length = w.timeline.length := by
  have htimes := (writeFirefoxProfile_times w.timeline w.startedUnixNanos w.timelineFrequency.hertz
    (processName w.executable) (if w.timelineRaw then none else some context.symbolizer)).2
  have hlength := congrArg List.length htimes
  rw [List.length_map, List.length_map] at hlength
  exact hlength

theorem firefox_files (w : WindowOutput) (context : WriteContext) :
    PartFiles (w.firefox.elim [] fun output => [.file output.1 (.firefox output.2 (w.firefoxProfile context))])
      (w.firefox.map Prod.fst).toList (if w.firefox.isSome then w.timeline.length else 0) := by
  cases w.firefox with
  | none => exact ⟨rfl, rfl⟩
  | some output =>
    refine ⟨rfl, ?_⟩
    have hlength := length_firefoxProfile w context
    simpa [firefoxSamples, Part.file?, FileContents.firefoxSamples] using hlength

theorem parts_files (w : WindowOutput) (context : WriteContext) :
    PartFiles (w.parts context) w.outline.files (if w.firefox.isSome then w.timeline.length else 0) := by
  have hprofiles := ((elim_files w.cpu fun o => profileParts_files o.1 (w.cpuProfile context o.2).2 1 "CPU flame graph"
      .nanoseconds).append
    (elim_files w.heap fun o => profileParts_files o.1 (w.heapProfile context o.2).2 3 "Heap in-use flame graph"
      .bytes)).append
    (elim_files w.offCpu fun o => profileParts_files o.1 (w.offCpuProfile context o.2) 1 "Off-CPU flame graph"
      .nanoseconds)
  have hdiagnostics : PartFiles [.file w.diagnosticsPath (.diagnostics (w.writtenDiagnostics context))]
      [w.diagnosticsPath] 0 := ⟨rfl, rfl⟩
  have hall := ((hprofiles.append (timeline_files (w.wantsTimeline context) (w.timelineProfile context).isNone)).append
    (firefox_files w context)).append hdiagnostics
  simp only [List.append_nil, Nat.zero_add, Nat.add_zero] at hall
  exact hall

/-! ## Any number of sheds -/

def pprofOf {α : Type} (output : Option (ProfileOutput × α)) : Option (SessionFile × α) :=
  output.map fun output => (output.1.1, output.2)

theorem pprofOf_takeSvg {α : Type} (output : Option (ProfileOutput × α)) :
    pprofOf (takeSvg output).2 = pprofOf output := by
  cases output <;> rfl

structure Kept (made window : WindowOutput) : Prop where
  cpu : pprofOf window.cpu = pprofOf made.cpu
  heap : pprofOf window.heap = pprofOf made.heap
  offCpu : pprofOf window.offCpu = pprofOf made.offCpu
  diagnosticsPath : window.diagnosticsPath = made.diagnosticsPath
  started : window.startedUnixNanos = made.startedUnixNanos
  duration : window.durationNanos = made.durationNanos

theorem kept_foldl (made : WindowOutput) (pendings : List ℕ) :
    Kept made (pendings.foldl WindowOutput.shedDerivedOutputs made) := by
  rcases foldl_shed made pendings with h | h
  · rw [h]
    exact ⟨rfl, rfl, rfl, rfl, rfl, rfl⟩
  · refine ⟨?_, ?_, ?_, h.diagnosticsPath, h.started, h.duration⟩
    · rw [h.cpu, pprofOf_takeSvg]
    · rw [h.heap, pprofOf_takeSvg]
    · rw [h.offCpu, pprofOf_takeSvg]

theorem length_filter_notMem {l : List SessionFile} (hl : l.Nodup) {r : Finset SessionFile} (hr : ∀ p ∈ r, p ∈ l) :
    (l.filter (· ∉ r)).length + r.card = l.length := by
  have hcard : (l.filter (· ∈ r)).length = r.card := by
    rw [← List.toFinset_card_of_nodup (hl.filter _)]
    congr 1
    ext p
    simp only [List.mem_toFinset, List.mem_filter, decide_eq_true_eq]
    exact ⟨fun h => h.2, fun h => ⟨hr p h, h⟩⟩
  have hsplit := List.length_eq_length_filter_add (l := l) fun p => decide (p ∈ r)
  simp only [decide_not] at hcard ⊢
  omega

theorem takeSvg_mem {α : Type} (output : Option (ProfileOutput × α)) {p : SessionFile} (h : p ∈ (takeSvg output).1) :
    p ∈ outputFiles output := by
  cases output with
  | none => cases h
  | some output =>
    obtain ⟨⟨path, svg⟩, contents⟩ := output
    exact List.mem_cons_of_mem _ h

theorem removed_mem (args : RecordArgs) (collected : CollectedWindow args) :
    ∀ p ∈ removed (recordWindow args collected), p ∈ (recordWindow args collected).diagnostics.outputs := by
  intro p hp
  have hp' := List.mem_toFinset.mp hp
  have houtputs : (recordWindow args collected).diagnostics.outputs =
      outputFiles (recordWindow args collected).cpu ++ outputFiles (recordWindow args collected).heap ++
        outputFiles (recordWindow args collected).offCpu ++
        ((recordWindow args collected).firefox.map Prod.fst).toList ++
        [(recordWindow args collected).diagnosticsPath] := rfl
  rw [houtputs]
  simp only [List.mem_append] at hp' ⊢
  rcases hp' with ((hc | hh) | ho) | hf
  · exact Or.inl (Or.inl (Or.inl (Or.inl (takeSvg_mem _ hc))))
  · exact Or.inl (Or.inl (Or.inl (Or.inr (takeSvg_mem _ hh))))
  · exact Or.inl (Or.inl (Or.inr (takeSvg_mem _ ho)))
  · exact Or.inl (Or.inr hf)

structure Accounts (args : RecordArgs) (made window : WindowOutput) : Prop where
  skipped : window.diagnostics.outputs.length + window.diagnostics.outputBackpressure.filesSkipped =
    made.diagnostics.outputs.length
  outputs : window.diagnostics.outputs.Sublist made.diagnostics.outputs
  samples : args.firefoxProfile.isSome = true → window.diagnostics.firefox.samples =
    (if window.firefox.isSome then window.timeline.length else 0) + window.diagnostics.firefox.droppedSamples

theorem accounts_foldl (args : RecordArgs) (collected : CollectedWindow args) (pendings : List ℕ) :
    Accounts args (recordWindow args collected)
      (pendings.foldl WindowOutput.shedDerivedOutputs (recordWindow args collected)) := by
  have htimeline := collected.ingested.timeline
  have hfirefox : (recordWindow args collected).firefox.isSome = args.firefoxProfile.isSome := Option.isSome_map
  have hsamples : args.firefoxProfile.isSome = true → (recordWindow args collected).diagnostics.firefox.samples =
      collected.cpuWindow.timelineSamples := fun h => if_pos h
  have hdropped : args.firefoxProfile.isSome = true →
      (recordWindow args collected).diagnostics.firefox.droppedSamples = collected.cpuWindow.timelineDropped :=
    fun h => if_pos h
  rcases foldl_shed (recordWindow args collected) pendings with h | h
  · rw [h]
    refine ⟨rfl, List.Sublist.refl _, fun hrequested => ?_⟩
    rw [hsamples hrequested, hdropped hrequested, hfirefox, if_pos hrequested]
    exact htimeline
  · have hnodup := (outline_listed args collected []).nodup
    rw [← (outline_listed args collected []).outputs] at hnodup
    have hlength := length_filter_notMem hnodup (removed_mem args collected)
    refine ⟨?_, ?_, fun hrequested => ?_⟩
    · rw [h.outputs, h.skipped]
      by_cases hshed : removed (recordWindow args collected) ≠ ∅ ∨ Exports (recordWindow args collected)
      · rw [if_pos hshed]
        exact hlength
      · have hempty : removed (recordWindow args collected) = ∅ := by
          by_contra hne
          exact hshed (Or.inl hne)
        rw [if_neg hshed]
        rw [hempty, Finset.card_empty] at hlength
        rw [hempty]
        exact hlength
    · rw [h.outputs]
      exact List.filter_sublist
    -- Kept and dropped samples add up to the counter, a u64: nothing saturates.
    · have hsum : saturatingAddU64 collected.cpuWindow.timelineDropped collected.cpuWindow.timeline.length =
          collected.cpuWindow.timelineDropped + collected.cpuWindow.timeline.length := by
        refine min_eq_left ?_
        have hcounted := collected.ingested.timeline_le
        omega
      rw [h.samples, h.firefox, h.dropped, hfirefox, if_pos hrequested, hsamples hrequested, hdropped hrequested]
      simp only [Option.isSome_none, Bool.false_eq_true, if_false, Nat.zero_add]
      rw [show (recordWindow args collected).timeline = collected.cpuWindow.timeline from rfl, hsum, htimeline]
      omega

/-- The diagnostics file of a window tells what was written. -/
structure Truthful (args : RecordArgs) (made : WindowOutput) (published : List (SessionFile × FileContents))
    (diagnostics : WindowDiagnostics) : Prop where
  listed : published.map Prod.fst = diagnostics.outputs
  distinct : diagnostics.outputs.Nodup
  skipped : diagnostics.outputs.length + diagnostics.outputBackpressure.filesSkipped =
    made.diagnostics.outputs.length
  outputs : diagnostics.outputs.Sublist made.diagnostics.outputs
  samples : args.firefoxProfile.isSome = true →
    diagnostics.firefox.samples = firefoxSamples published + diagnostics.firefox.droppedSamples

/-- **Shedding is truthful.** -/
theorem shed_truthful (args : RecordArgs) (collected : CollectedWindow args) (pendings : List ℕ)
    (context : WriteContext) (faults : Faults) (session : OutputSession) :
    let made := recordWindow args collected
    let window := pendings.foldl WindowOutput.shedDerivedOutputs made
    let written := window.writeInner faults context session
    Kept made window ∧
      (∀ p q, (window.shedDerivedOutputs p).shedDerivedOutputs q = window.shedDerivedOutputs p) ∧
      ((∃ job, written.result = .ok job) → ∃ diagnostics,
        (made.diagnosticsPath, .diagnostics diagnostics) ∈ written.published ∧
          Truthful args made written.published diagnostics) := by
  intro made window written
  refine ⟨kept_foldl made pendings, shed_twice window, fun ⟨job, hok⟩ => ?_⟩
  obtain ⟨-, hpublished⟩ := writeInner_ok hok
  obtain ⟨hfiles, hsamples⟩ := parts_files window context
  have hlisted := outline_listed args collected pendings
  have haccounts := accounts_foldl args collected pendings
  have hpath : window.diagnosticsPath = made.diagnosticsPath := (kept_foldl made pendings).diagnosticsPath
  have houtputs : window.outline.files = window.diagnostics.outputs := hlisted.outputs.symm
  refine ⟨window.writtenDiagnostics context, ?_, ?_⟩
  · rw [hpublished, ← hpath]
    unfold WindowOutput.parts
    rw [List.filterMap_append]
    exact List.mem_append_right _ List.mem_cons_self
  · refine ⟨?_, ?_, haccounts.skipped, haccounts.outputs, fun hrequested => ?_⟩
    · rw [hpublished, hfiles, houtputs]
      rfl
    · exact houtputs ▸ hlisted.nodup
    · rw [hpublished, hsamples]
      exact haccounts.samples hrequested

end Record

end RustProfile
