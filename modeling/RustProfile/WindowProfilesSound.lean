import RustProfile.PprofDecode
import RustProfile.WindowProfiles

/-!
# Raw and symbolized profiles

A window's raw and symbolized profiles are built by the same builder from the
same samples, so they read the same wherever they were asked for the same. The
raw writers are not asked for the target labels.
-/

namespace RustProfile

open Interning

structure AgreeButSymbols (p q : Profile) : Prop where
  samples : p.decodeSamples = q.decodeSamples
  header : p.decodeHeader = q.decodeHeader
  timeNanos : p.timeNanos = q.timeNanos
  durationNanos : p.durationNanos = q.durationNanos

theorem agreeButSymbols_iff {r s : ProfileRequest} (hheader : r.header = s.header) (htime : r.timeNanos = s.timeNanos)
    (hduration : r.durationNanos = s.durationNanos) :
    AgreeButSymbols r.build.2 s.build.2 ↔ r.samples.inputs = s.samples.inputs := by
  have h := profile_decodes r
  have h' := profile_decodes s
  constructor
  · intro ha
    have hsamples := ha.samples
    rw [h.samples, h'.samples] at hsamples
    exact Option.some.inj hsamples
  · intro hi
    refine ⟨?_, ?_, ?_, ?_⟩
    · rw [h.samples, h'.samples, hi]
    · rw [h.header, h'.header, hheader]
    · rw [h.timeNanos, h'.timeNanos, htime]
    · rw [h.durationNanos, h'.durationNanos, hduration]

theorem targetLabels_eq_nil {labels : List (String × String)} : targetLabels labels = [] ↔ labels = [] :=
  List.map_eq_nil_iff

/-- The inputs without the target labels are those with them only when there are none, or no inputs. -/
theorem attributed_inputs_iff (labels : List (String × String)) (samples : List (AttributedStack × List ℤ)) :
    (ProfileSamples.attributed [] samples).inputs = (ProfileSamples.attributed labels samples).inputs ↔
      labels = [] ∨ samples = [] := by
  change samples.map (attributedInput []) = samples.map (attributedInput labels) ↔ labels = [] ∨ samples = []
  constructor
  · intro h
    cases samples with
    | nil => exact Or.inr rfl
    | cons sample samples =>
      left
      rw [List.map_cons, List.map_cons, List.cons.injEq] at h
      have hlabels := congrArg SampleInput.labels h.1
      unfold attributedInput at hlabels
      rw [List.append_left_inj] at hlabels
      exact targetLabels_eq_nil.mp hlabels.symm
  · rintro (rfl | rfl)
    · rfl
    · rfl

theorem visited_eq_nil {K V : Type} (iter : IterOrder) (values : V → List ℤ) (samples : Table K V) :
    visited iter values samples = [] ↔ samples.entries = [] := by
  unfold visited
  rw [List.map_eq_nil_iff, ← List.length_eq_zero_iff, (iter.perm _).length_eq, List.length_eq_zero_iff]

theorem one_le_periodNanos (frequency : CpuFrequency) : 1 ≤ periodNanos frequency.hertz := by
  obtain ⟨hertz, hlow, hhigh⟩ := frequency
  unfold periodNanos
  have hpos : 1 ≤ 1000000000 / max hertz 1 := (Nat.one_le_div_iff (by omega)).mpr (by omega)
  exact_mod_cast hpos

/-- **Raw profiles lack the target labels.** The two kinds agree for a window with no target labels
or no samples, and for no other. -/
theorem rawProfiles_agree_iff (window : WindowContents) (iter : IterOrder) (symbolizer : Symbolizer) (cpu : CpuOutput)
    (offCpu : OffCpuOutput) :
    (AgreeButSymbols (window.cpuProfile iter symbolizer { cpu with raw := true }).2
        (window.cpuProfile iter symbolizer { cpu with raw := false }).2 ↔
      window.targetLabels = [] ∨ cpu.samples.entries = []) ∧
    (AgreeButSymbols (window.offCpuProfile iter symbolizer { offCpu with raw := true })
        (window.offCpuProfile iter symbolizer { offCpu with raw := false }) ↔
      window.targetLabels = [] ∨ offCpu.samples.entries = []) := by
  constructor
  · rw [← visited_eq_nil iter CpuValues.toList, ← attributed_inputs_iff]
    refine agreeButSymbols_iff (r := rawCpuRequest iter cpu.samples window.startedUnixNanos window.durationNanos
      (periodNanos cpu.frequency.hertz)) (s := cpuRequest iter cpu.samples symbolizer window.startedUnixNanos
      window.durationNanos cpu.frequency.hertz window.targetLabels) ?_ rfl rfl
    unfold rawCpuRequest cpuRequest
    rw [max_eq_left (one_le_periodNanos cpu.frequency)]
  · rw [← visited_eq_nil iter OffCpuValues.toList, ← attributed_inputs_iff]
    exact agreeButSymbols_iff (r := rawOffCpuRequest iter offCpu.samples window.startedUnixNanos window.durationNanos)
      (s := offCpuRequest iter offCpu.samples symbolizer window.startedUnixNanos window.durationNanos
        window.targetLabels) rfl rfl rfl

def containerWindow : WindowContents where
  timelineFrequency := exampleFrequency
  clockAnchor := { monotonicNanos := 0, unixNanos := 0 }
  startedUnixNanos := 0
  durationNanos := 1
  targetLabels := profileLabels { pid := 7, containerId := some "c" }

def containerCpu : CpuOutput where
  samples := (∅ : Table AttributedStack CpuValues).insert ⟨Stack.ofAddresses [4096], 7, 7, none⟩ ⟨1, 1⟩
  frequency := exampleFrequency
  raw := true

def noSymbols : Symbolizer := ⟨fun address => { address := address, mapping := none, lines := [] }⟩

/-- The container's raw sample has thread labels only. -/
theorem containerWindow_unlabelled :
    (containerWindow.cpuProfile .stored noSymbols containerCpu).2.decodeSamples =
        some [⟨[4096], [1, 1], [("process.pid", "", 7), ("thread.id", "", 7)]⟩] ∧
      (containerWindow.cpuProfile .stored noSymbols { containerCpu with raw := false }).2.decodeSamples =
        some [⟨[4096], [1, 1], [("process.pid", "7", 0), ("container.id", "c", 0), ("process.pid", "", 7),
          ("thread.id", "", 7)]⟩] ∧
      ¬ AgreeButSymbols (containerWindow.cpuProfile .stored noSymbols containerCpu).2
        (containerWindow.cpuProfile .stored noSymbols { containerCpu with raw := false }).2 := by
  refine ⟨by decide +kernel, by decide +kernel, ?_⟩
  intro h
  have hsamples := h.samples
  revert hsamples
  decide +kernel

end RustProfile
