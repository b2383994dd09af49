import RustProfile.EventSound
import RustProfile.Import
import RustProfile.Lib.Capped
import Mathlib.Tactic.Ring

/-!
# CPU windows aggregate the accepted samples

An accepted sample is one whose stack was found usable; it has a key and a
period. The window keeps the first `maxStacks` keys of the accepted samples, each
with all of its samples, and counts those of the other keys as dropped. Which
samples are accepted does not depend on the cap, but `usableSamples` does.
-/

namespace RustProfile

open Capped

structure AcceptedSample where
  key : AttributedStack
  period : ℕ
  deriving DecidableEq, Repr

/-! ## Capped aggregation -/

namespace Accepted

/-- The aggregation of `items` under a cap: the values kept and the samples dropped. -/
def tally (maxStacks : ℕ) (items : List AcceptedSample) : Table AttributedStack CpuValues × List AcceptedSample :=
  feed maxStacks {} AcceptedSample.key (fun item values => values.add (saturatingI64 item.period)) ∅ items

def valuesOf (items : List AcceptedSample) : CpuValues where
  samples := saturatingI64 items.length
  nanoseconds := saturatingI64 (items.map AcceptedSample.period).sum

theorem foldl_add (items : List AcceptedSample) :
    items.foldl (fun values item => values.add (saturatingI64 item.period)) {} = valuesOf items := by
  have hs := @foldl_counter _ AcceptedSample CpuValues.samples
    (fun values item => values.add (saturatingI64 item.period)) (fun _ => 1) (fun _ _ => rfl) {} 0 rfl items
  have hn := @foldl_counter _ AcceptedSample CpuValues.nanoseconds
    (fun values item => values.add (saturatingI64 item.period)) AcceptedSample.period (fun _ _ => rfl) {} 0 rfl items
  rw [List.map_const', List.sum_replicate, smul_eq_mul, Nat.mul_one, Nat.zero_add] at hs
  rw [Nat.zero_add] at hn
  unfold valuesOf
  rw [← hs, ← hn]

section
variable (maxStacks : ℕ) (items : List AcceptedSample)

theorem tally_spec : Fed maxStacks {} AcceptedSample.key (fun item values => values.add (saturatingI64 item.period)) ∅
    items (tally maxStacks items) := feed_spec _ _ _ _ _ _

theorem tally_snoc_kept {item : AcceptedSample} {samples : Table AttributedStack CpuValues}
    (h : offer maxStacks {} (·.add (saturatingI64 item.period)) (tally maxStacks items).1 item.key = some samples) :
    tally maxStacks (items ++ [item]) = (samples, (tally maxStacks items).2) := by
  unfold tally at *
  rw [feed_snoc, h]

theorem tally_snoc_dropped {item : AcceptedSample}
    (h : offer maxStacks {} (·.add (saturatingI64 item.period)) (tally maxStacks items).1 item.key = none) :
    tally maxStacks (items ++ [item]) = ((tally maxStacks items).1, (tally maxStacks items).2 ++ [item]) := by
  unfold tally at *
  rw [feed_snoc, h]

theorem news_empty : news AcceptedSample.key (∅ : Table AttributedStack CpuValues) items =
    firsts (items.map AcceptedSample.key) := by
  unfold news
  rw [List.filter_eq_self.mpr fun k _ => by simp]

theorem mem_tally (k : AttributedStack) :
    k ∈ (tally maxStacks items).1 ↔ k ∈ (firsts (items.map AcceptedSample.key)).take maxStacks := by
  have hk := (tally_spec maxStacks items).mem k
  rw [news_empty] at hk
  simpa [AList.size] using hk

theorem lookup_tally {k : AttributedStack} {values : CpuValues} (h : (tally maxStacks items).1.lookup k = some values) :
    values = valuesOf (items.filter (·.key = k)) := by
  rw [(tally_spec maxStacks items).value k values h, AList.lookup_empty, Option.getD_none, foldl_add]

theorem dropped_tally : (tally maxStacks items).2 = items.filter (·.key ∉ (tally maxStacks items).1) :=
  (tally_spec maxStacks items).dropped

theorem length_tally :
    (items.filter (·.key ∈ (tally maxStacks items).1)).length + (tally maxStacks items).2.length = items.length := by
  have h := List.length_eq_length_filter_add (l := items) fun i => decide (i.key ∈ (tally maxStacks items).1)
  rw [h, dropped_tally]
  simp only [decide_not]

/-- The values kept add up to the samples kept while no count saturates. -/
theorem sum_tally (hcount : ∀ k, (items.filter (·.key = k)).length ≤ i64Max) :
    Table.sumOver (fun (_ : AttributedStack) (values : CpuValues) => values.samples) (tally maxStacks items).1 =
      (items.filter (·.key ∈ (tally maxStacks items).1)).length := by
  have hone := sumOver_sum_by_key AcceptedSample.key (fun _ => 1) (tally maxStacks items).1 items
  simp only [List.map_const', List.sum_replicate, smul_eq_mul, Nat.mul_one] at hone
  rw [← hone, Table.sumOver_congr (f := fun (_ : AttributedStack) (values : CpuValues) => values.samples)
    (g := fun k _ => ((items.filter (·.key = k)).length : ℤ))]
  · unfold Table.sumOver
    rw [Nat.cast_list_sum, List.map_map]
    rfl
  · intro k values h
    rw [lookup_tally maxStacks items h, valuesOf, saturatingI64_eq, min_eq_left (hcount k)]

end

end Accepted

/-! ## The accepted samples of a run -/

section
variable {δ ω : Type} (context : IngestContext δ) (comm : CommReader ω)

/-- The key of a usable sample; its thread's name is the one the window would attribute. -/
def acceptedKey (st : Ingesting δ ω) (sample : PerfSample) (frames : List UInt64) : AttributedStack :=
  let pid := if sample.pid = 0 then st.window.fallbackPid else sample.pid
  { stack := Stack.ofAddresses frames, pid := pid, tid := sample.tid
    threadName := (st.window.threadName comm st.world pid sample.tid).1 }

def acceptedSample (st : Ingesting δ ω) (sample : PerfSample) : Option AcceptedSample :=
  match (context.sampleFrames st.unwinder sample.data).1 with
  | .usable frames _ => some { key := acceptedKey comm st sample frames, period := context.period sample }
  | .rejected => none
  | .fatal _ => none

def acceptedSamples (st : Ingesting δ ω) : List PerfSample → List AcceptedSample
  | [] => []
  | sample :: samples =>
    let next := ingestSample context comm st sample
    (acceptedSample context comm st sample).toList ++
      if next.2 = none then acceptedSamples next.1 samples else []

end

section
variable {δ ω : Type} (comm : CommReader ω)

def IngestCall.start (call : IngestCall δ) (window : CpuWindow) (world : ω) : Ingesting δ ω :=
  { window := window.countLost call.batch, unwinder := call.unwinder, world := world }

def acceptedOfCalls (window : CpuWindow) (world : ω) : List (IngestCall δ) → List AcceptedSample
  | [] => []
  | call :: calls =>
    let result := ingestCpuBatch comm window world call
    acceptedSamples call.context comm (call.start window world) call.ready.1 ++
      if result.2.2 = none then acceptedOfCalls result.1.window result.1.world calls else []

end

/-! ## What the parts of the loop body leave alone -/

def CpuWindow.Interned (self : CpuWindow) : Prop := ∀ stack s, self.stackInterner.lookup stack = some s → s = stack

structure SameTally (before after : CpuWindow) : Prop where
  samples : after.samples = before.samples
  maxStacks : after.maxStacks = before.maxStacks
  usableSamples : after.usableSamples = before.usableSamples
  droppedSamples : after.aggregationDroppedSamples = before.aggregationDroppedSamples
  droppedNanoseconds : after.aggregationDroppedNanoseconds = before.aggregationDroppedNanoseconds
  totalSamples : after.totalSamples = before.totalSamples

structure SameThreads (before after : CpuWindow) : Prop where
  threadNames : after.threadNames = before.threadNames
  maxThreadAttributions : after.maxThreadAttributions = before.maxThreadAttributions
  fallbackPid : after.fallbackPid = before.fallbackPid

theorem SameTally.refl (w : CpuWindow) : SameTally w w := ⟨rfl, rfl, rfl, rfl, rfl, rfl⟩

theorem SameTally.trans {a b c : CpuWindow} (hab : SameTally a b) (hbc : SameTally b c) : SameTally a c :=
  ⟨hbc.samples.trans hab.samples, hbc.maxStacks.trans hab.maxStacks, hbc.usableSamples.trans hab.usableSamples,
    hbc.droppedSamples.trans hab.droppedSamples, hbc.droppedNanoseconds.trans hab.droppedNanoseconds,
    hbc.totalSamples.trans hab.totalSamples⟩

theorem SameThreads.refl (w : CpuWindow) : SameThreads w w := ⟨rfl, rfl, rfl⟩

theorem SameThreads.symm {a b : CpuWindow} (h : SameThreads a b) : SameThreads b a :=
  ⟨h.threadNames.symm, h.maxThreadAttributions.symm, h.fallbackPid.symm⟩

theorem SameThreads.trans {a b c : CpuWindow} (hab : SameThreads a b) (hbc : SameThreads b c) : SameThreads a c :=
  ⟨hbc.threadNames.trans hab.threadNames, hbc.maxThreadAttributions.trans hab.maxThreadAttributions,
    hbc.fallbackPid.trans hab.fallbackPid⟩

namespace CpuWindow

variable {δ ω : Type} (w : CpuWindow)

theorem countInvalid_same (context : IngestContext δ) (data : PerfSampleData) (frames : SampleFrames) :
    SameTally w (w.countInvalid context data frames) ∧ SameThreads w (w.countInvalid context data frames) ∧
      (w.countInvalid context data frames).stackInterner = w.stackInterner := by
  unfold countInvalid
  cases data with
  | framePointer addresses => exact ⟨⟨rfl, rfl, rfl, rfl, rfl, rfl⟩, ⟨rfl, rfl, rfl⟩, rfl⟩
  | dwarf snapshot =>
    by_cases h : frames = .rejected
    · rw [if_pos h]
      exact ⟨⟨rfl, rfl, rfl, rfl, rfl, rfl⟩, ⟨rfl, rfl, rfl⟩, rfl⟩
    · rw [if_neg h]
      exact ⟨SameTally.refl w, SameThreads.refl w, rfl⟩

theorem internStack_same (h : w.Interned) (stack : Stack) :
    (w.internStack stack).1 = stack ∧ (w.internStack stack).2.Interned ∧
      SameTally w (w.internStack stack).2 ∧ SameThreads w (w.internStack stack).2 := by
  unfold internStack
  cases hl : w.stackInterner.lookup stack with
  | some interned => exact ⟨h stack interned hl, h, SameTally.refl w, SameThreads.refl w⟩
  | none =>
    by_cases hs : w.stackInterner.size < w.maxStacks
    · rw [if_pos hs]
      refine ⟨rfl, ?_, ⟨rfl, rfl, rfl, rfl, rfl, rfl⟩, rfl, rfl, rfl⟩
      intro s t ht
      rcases Table.lookup_insert_eq_some.mp ht with ⟨he, rfl⟩ | ⟨-, ht⟩
      · exact he.symm
      · exact h s t ht
    · rw [if_neg hs]
      exact ⟨rfl, h, SameTally.refl w, SameThreads.refl w⟩

/-- The name, the world and the names known after depend only on the names known before. -/
theorem threadName_congr {w₁ w₂ : CpuWindow} (h : SameThreads w₁ w₂) (comm : CommReader ω) (world : ω)
    (pid tid : UInt32) :
    (w₂.threadName comm world pid tid).1 = (w₁.threadName comm world pid tid).1 ∧
      (w₂.threadName comm world pid tid).2.2 = (w₁.threadName comm world pid tid).2.2 ∧
      SameThreads (w₁.threadName comm world pid tid).2.1 (w₂.threadName comm world pid tid).2.1 := by
  unfold threadName
  rw [h.threadNames, h.maxThreadAttributions]
  cases w₁.threadNames.lookup (pid, tid) with
  | some name => exact ⟨rfl, rfl, h⟩
  | none =>
    by_cases hs : w₁.threadNames.size ≥ w₁.maxThreadAttributions
    · rw [if_pos hs, if_pos hs]
      exact ⟨rfl, rfl, rfl, rfl, h.fallbackPid⟩
    · rw [if_neg hs, if_neg hs]
      exact ⟨rfl, rfl, rfl, rfl, h.fallbackPid⟩

theorem threadName_same (comm : CommReader ω) (world : ω) (pid tid : UInt32) :
    SameTally w (w.threadName comm world pid tid).2.1 ∧
      (w.threadName comm world pid tid).2.1.stackInterner = w.stackInterner := by
  unfold threadName
  cases w.threadNames.lookup (pid, tid) with
  | some name => exact ⟨SameTally.refl w, rfl⟩
  | none =>
    by_cases hs : w.threadNames.size ≥ w.maxThreadAttributions
    · rw [if_pos hs]
      exact ⟨⟨rfl, rfl, rfl, rfl, rfl, rfl⟩, rfl⟩
    · rw [if_neg hs]
      exact ⟨⟨rfl, rfl, rfl, rfl, rfl, rfl⟩, rfl⟩

theorem recordTimeline_same (key : AttributedStack) (time : ℕ) (period : ℤ) :
    SameTally w (w.recordTimeline key time period) ∧ SameThreads w (w.recordTimeline key time period) ∧
      (w.recordTimeline key time period).stackInterner = w.stackInterner := by
  unfold recordTimeline
  by_cases he : w.timelineEnabled
  · rw [if_pos he]
    dsimp only
    by_cases hl : w.timeline.length < w.maxTimelineSamples
    · rw [if_pos hl]
      exact ⟨⟨rfl, rfl, rfl, rfl, rfl, rfl⟩, ⟨rfl, rfl, rfl⟩, rfl⟩
    · rw [if_neg hl]
      exact ⟨⟨rfl, rfl, rfl, rfl, rfl, rfl⟩, ⟨rfl, rfl, rfl⟩, rfl⟩
  · rw [if_neg he]
    exact ⟨SameTally.refl w, SameThreads.refl w, rfl⟩

theorem aggregate_kept {w : CpuWindow} {key : AttributedStack} {period : ℤ} {samples : Table AttributedStack CpuValues}
    (h : offer w.maxStacks {} (·.add period) w.samples key = some samples) (depth : ℕ) :
    w.aggregate key period depth = { w with
      samples := samples
      usableSamples := w.usableSamples + 1
      depthSum := saturatingAddU64 w.depthSum depth } := by
  unfold offer at h
  unfold aggregate
  cases hl : w.samples.lookup key with
  | some values =>
    simp only [hl, Option.some.injEq] at h
    rw [← h]
  | none =>
    simp only [hl] at h
    by_cases hs : w.samples.size < w.maxStacks
    · simp only [hs, ite_true, Option.some.injEq] at h
      simp only [ge_iff_le, not_le, hs, ite_true, ← h]
    · simp only [hs, ite_false] at h
      cases h

theorem aggregate_dropped {w : CpuWindow} {key : AttributedStack} {period : ℤ}
    (h : offer w.maxStacks {} (·.add period) w.samples key = none) (depth : ℕ) :
    w.aggregate key period depth = { w with
      aggregationDroppedSamples := saturatingAddU64 w.aggregationDroppedSamples 1
      aggregationDroppedNanoseconds := saturatingAddI64 w.aggregationDroppedNanoseconds period } := by
  unfold offer at h
  unfold aggregate
  cases hl : w.samples.lookup key with
  | some values =>
    simp only [hl] at h
    cases h
  | none =>
    simp only [hl] at h
    by_cases hs : w.samples.size < w.maxStacks
    · simp only [hs, ite_true] at h
      cases h
    · simp only [ge_iff_le, not_le, hs, ite_false]

theorem aggregate_same (key : AttributedStack) (period : ℤ) (depth : ℕ) :
    SameThreads w (w.aggregate key period depth) ∧ (w.aggregate key period depth).totalSamples = w.totalSamples ∧
      (w.aggregate key period depth).stackInterner = w.stackInterner ∧
      (w.aggregate key period depth).maxStacks = w.maxStacks := by
  cases ho : offer w.maxStacks {} (·.add period) w.samples key with
  | some samples =>
    rw [aggregate_kept ho]
    exact ⟨⟨rfl, rfl, rfl⟩, rfl, rfl, rfl⟩
  | none =>
    rw [aggregate_dropped ho]
    exact ⟨⟨rfl, rfl, rfl⟩, rfl, rfl, rfl⟩

end CpuWindow

/-! ## One turn of the loop -/

section
variable {δ ω : Type} (context : IngestContext δ) (comm : CommReader ω) {st st' : Ingesting δ ω}

def samplePid (st : Ingesting δ ω) (sample : PerfSample) : UInt32 :=
  if sample.pid = 0 then st.window.fallbackPid else sample.pid

theorem acceptedKey_congr (h : SameThreads st.window st'.window) (hw : st'.world = st.world) (sample : PerfSample)
    (frames : List UInt64) : acceptedKey comm st' sample frames = acceptedKey comm st sample frames := by
  unfold acceptedKey
  dsimp only
  rw [hw, h.fallbackPid, (CpuWindow.threadName_congr h comm st.world _ sample.tid).1]

/-- A usable sample is aggregated under its key; around that only the names known can change. -/
theorem ingestUsable_spec (h : st.window.Interned) (sample : PerfSample) (frames : List UInt64) (truncated : Bool) :
    let attributed := st.window.threadName comm st.world (samplePid st sample) sample.tid
    ∃ w, SameTally st.window w ∧ w.Interned ∧ SameThreads attributed.2.1 w ∧
      ingestUsable context comm st sample frames truncated =
        { st with
          window := w.aggregate (acceptedKey comm st sample frames)
            (saturatingI64 (context.period sample)) frames.length
          world := attributed.2.2 } := by
  intro attributed
  obtain ⟨w₀, hw₀⟩ : ∃ w₀, w₀ =
      if truncated then { st.window with truncatedSamples := st.window.truncatedSamples + 1 } else st.window := ⟨_, rfl⟩
  have h₀ : SameTally st.window w₀ ∧ SameThreads st.window w₀ ∧ w₀.Interned := by
    rw [hw₀]
    cases truncated with
    | false => exact ⟨SameTally.refl _, SameThreads.refl _, h⟩
    | true => exact ⟨⟨rfl, rfl, rfl, rfl, rfl, rfl⟩, ⟨rfl, rfl, rfl⟩, h⟩
  obtain ⟨hstack, h₁, htally₁, hthreads₁⟩ := w₀.internStack_same h₀.2.2 (Stack.ofAddresses frames)
  have hthreads := h₀.2.1.trans hthreads₁
  obtain ⟨hname, hworld, hnames⟩ := CpuWindow.threadName_congr hthreads comm st.world (samplePid st sample) sample.tid
  obtain ⟨htally₂, hint₂⟩ := (w₀.internStack (Stack.ofAddresses frames)).2.threadName_same comm st.world
    (samplePid st sample) sample.tid
  obtain ⟨htally₃, hthreads₃, hint₃⟩ := ((w₀.internStack (Stack.ofAddresses frames)).2.threadName comm st.world
    (samplePid st sample) sample.tid).2.1.recordTimeline_same (acceptedKey comm st sample frames) sample.time
    (saturatingI64 (context.period sample))
  refine ⟨_, h₀.1.trans (htally₁.trans (htally₂.trans htally₃)), ?_, hnames.trans hthreads₃, ?_⟩
  · intro stack s hs
    rw [hint₃, hint₂] at hs
    exact h₁ stack s hs
  · have hpid : (if sample.pid = 0 then (w₀.internStack (Stack.ofAddresses frames)).2.fallbackPid else sample.pid) =
        samplePid st sample := by
      rw [hthreads.fallbackPid]
      rfl
    unfold ingestUsable
    simp only [← hw₀, hpid, hstack, hname, hworld]
    rfl

theorem ingestSample_spec (h : st.window.Interned) (sample : PerfSample) :
    ∃ w, SameTally { st.window with totalSamples := st.window.totalSamples + 1 } w ∧ SameThreads st.window w ∧
      w.Interned ∧
      let unwound := context.sampleFrames st.unwinder sample.data
      let counted : Ingesting δ ω := { window := w, unwinder := unwound.2, world := st.world }
      (∀ message, unwound.1 = .fatal message → ingestSample context comm st sample = (counted, some message)) ∧
        (unwound.1 = .rejected → ingestSample context comm st sample = (counted, none)) ∧
        ∀ frames truncated, unwound.1 = .usable frames truncated →
          ingestSample context comm st sample = (ingestUsable context comm counted sample frames truncated, none) := by
  obtain ⟨htally, hthreads, hint⟩ := ({ st.window with totalSamples := st.window.totalSamples + 1 } :
    CpuWindow).countInvalid_same context sample.data (context.sampleFrames st.unwinder sample.data).1
  refine ⟨_, htally, ⟨hthreads.threadNames, hthreads.maxThreadAttributions, hthreads.fallbackPid⟩, ?_, ?_, ?_, ?_⟩
  · intro stack s hs
    rw [hint] at hs
    exact h stack s hs
  · intro message hm
    unfold ingestSample
    simp only [hm]
  · intro hm
    unfold ingestSample
    simp only [hm]
  · intro frames truncated hm
    unfold ingestSample
    simp only [hm]

end

/-! ## The window against the accepted samples -/

open Accepted in
structure Tallied (maxStacks : ℕ) (w : CpuWindow) (items : List AcceptedSample) : Prop where
  cap : w.maxStacks = maxStacks
  samples : w.samples = (tally maxStacks items).1
  usable : w.usableSamples + (tally maxStacks items).2.length = items.length
  droppedSamples : w.aggregationDroppedSamples = min (tally maxStacks items).2.length u64Max
  droppedNanoseconds : w.aggregationDroppedNanoseconds =
    saturatingI64 ((tally maxStacks items).2.map AcceptedSample.period).sum
  total : items.length ≤ w.totalSamples
  interned : w.Interned

section
variable {maxStacks : ℕ} {w w' : CpuWindow} {items : List AcceptedSample}

open Accepted

theorem tallied_new (pid : ℤ) (maxStacks maxThreadAttributions : ℕ) (timelineEnabled : Bool)
    (maxTimelineSamples : ℕ) :
    Tallied maxStacks (CpuWindow.new pid maxStacks maxThreadAttributions timelineEnabled maxTimelineSamples) [] :=
  ⟨rfl, rfl, rfl, rfl, rfl, Nat.le_refl _, fun stack s h => by simp [CpuWindow.new] at h⟩

theorem Tallied.same (h : Tallied maxStacks w items) (hs : SameTally w w') (hi : w'.Interned) :
    Tallied maxStacks w' items :=
  ⟨hs.maxStacks.trans h.cap, hs.samples.trans h.samples, hs.usableSamples ▸ h.usable,
    hs.droppedSamples.trans h.droppedSamples, hs.droppedNanoseconds.trans h.droppedNanoseconds,
    hs.totalSamples ▸ h.total, hi⟩

theorem Tallied.accept (h : Tallied maxStacks w items) (item : AcceptedSample) (hroom : items.length < w.totalSamples)
    (depth : ℕ) : Tallied maxStacks (w.aggregate item.key (saturatingI64 item.period) depth) (items ++ [item]) := by
  have hu := h.usable
  have hcap : (w.aggregate item.key (saturatingI64 item.period) depth).maxStacks = maxStacks :=
    (w.aggregate_same _ _ _).2.2.2.trans h.cap
  cases ho : offer w.maxStacks {} (·.add (saturatingI64 item.period)) w.samples item.key with
  | some samples =>
    have ht := tally_snoc_kept maxStacks items (by rwa [← h.samples, ← h.cap])
    rw [CpuWindow.aggregate_kept ho] at hcap ⊢
    refine ⟨hcap, by rw [ht], ?_, by rw [ht]; exact h.droppedSamples, by rw [ht]; exact h.droppedNanoseconds, ?_,
      h.interned⟩
    · simp only [ht, List.length_append, List.length_singleton]
      omega
    · rw [List.length_append]
      exact hroom
  | none =>
    have ht := tally_snoc_dropped maxStacks items (by rwa [← h.samples, ← h.cap])
    rw [CpuWindow.aggregate_dropped ho] at hcap ⊢
    refine ⟨hcap, by rw [ht]; exact h.samples, ?_, ?_, ?_, by rw [List.length_append]; exact hroom, h.interned⟩
    · simp only [ht, List.length_append, List.length_singleton]
      omega
    · simp only [ht, List.length_append, List.length_singleton, h.droppedSamples]
      unfold saturatingAddU64 Sat.add
      omega
    · simp only [ht, h.droppedNanoseconds, List.map_append, List.sum_append, List.map_singleton, List.sum_singleton]
      exact saturatingAddI64_add _ _

end

section
variable {δ ω : Type} (comm : CommReader ω) {maxStacks : ℕ}

theorem Tallied.ingestSample (context : IngestContext δ) {st : Ingesting δ ω} {items : List AcceptedSample}
    (h : Tallied maxStacks st.window items) (sample : PerfSample) :
    Tallied maxStacks (ingestSample context comm st sample).1.window
      (items ++ (acceptedSample context comm st sample).toList) := by
  obtain ⟨w, hsame, hthreads, hint, hfatal, hrejected, husable⟩ := ingestSample_spec context comm h.interned sample
  have hmore : Tallied maxStacks { st.window with totalSamples := st.window.totalSamples + 1 } items :=
    ⟨h.cap, h.samples, h.usable, h.droppedSamples, h.droppedNanoseconds, h.total.trans (Nat.le_succ _), h.interned⟩
  have hw := hmore.same hsame hint
  cases hf : (context.sampleFrames st.unwinder sample.data).1 with
  | fatal message =>
    rw [hfatal message hf, acceptedSample, hf]
    simpa only [Option.toList_none, List.append_nil] using hw
  | rejected =>
    rw [hrejected hf, acceptedSample, hf]
    simpa only [Option.toList_none, List.append_nil] using hw
  | usable frames truncated =>
    obtain ⟨w', hsame', hint', -, he⟩ := @ingestUsable_spec δ ω context comm
      { window := w, unwinder := (context.sampleFrames st.unwinder sample.data).2, world := st.world } hint
        sample frames
      truncated
    have hkey := @acceptedKey_congr δ ω comm st
      { window := w, unwinder := (context.sampleFrames st.unwinder sample.data).2, world := st.world } hthreads
        rfl sample
      frames
    rw [husable frames truncated hf, he, acceptedSample, hf, hkey]
    have hroom : items.length < w'.totalSamples := by
      rw [hsame'.totalSamples, hsame.totalSamples]
      exact Nat.lt_succ_of_le h.total
    exact (hw.same hsame' hint').accept ⟨acceptedKey comm st sample frames, context.period sample⟩ hroom frames.length

/-- The loop aggregates the accepted samples, whether or not it is left early. -/
theorem Tallied.ingestSamples (context : IngestContext δ) : ∀ (samples : List PerfSample) {st : Ingesting δ ω}
    {items : List AcceptedSample}, Tallied maxStacks st.window items →
      Tallied maxStacks (ingestSamples context comm st samples).1.window
        (items ++ acceptedSamples context comm st samples)
  | [], st, items, h => by
    rw [acceptedSamples, List.append_nil]
    exact h
  | sample :: samples, st, items, h => by
    have hnext := h.ingestSample comm context sample
    rcases hn : RustProfile.ingestSample context comm st sample with ⟨next, error⟩
    rw [hn] at hnext
    rw [RustProfile.ingestSamples, acceptedSamples, hn]
    cases error with
    | some message =>
      simp only [reduceCtorEq, if_false, List.append_nil]
      exact hnext
    | none =>
      simp only [if_true, ← List.append_assoc]
      exact Tallied.ingestSamples context samples hnext

theorem Tallied.ingestCpuBatches : ∀ (calls : List (IngestCall δ)) {w : CpuWindow} {world : ω}
    {items : List AcceptedSample}, Tallied maxStacks w items →
      Tallied maxStacks (ingestCpuBatches comm w world calls).1 (items ++ acceptedOfCalls comm w world calls)
  | [], w, world, items, h => by
    rw [acceptedOfCalls, List.append_nil]
    exact h
  | call :: calls, w, world, items, h => by
    have hstart : Tallied maxStacks (call.start w world).window items :=
      ⟨h.cap, h.samples, h.usable, h.droppedSamples, h.droppedNanoseconds, h.total, h.interned⟩
    have hnext := hstart.ingestSamples comm call.context call.ready.1
    have hcall : ingestCpuBatch comm w world call =
        ((RustProfile.ingestSamples call.context comm (call.start w world) call.ready.1).1, call.ready.2,
          (RustProfile.ingestSamples call.context comm (call.start w world) call.ready.1).2) := rfl
    rcases hn : RustProfile.ingestSamples call.context comm (call.start w world) call.ready.1 with ⟨next, error⟩
    rw [hn] at hnext
    rw [RustProfile.ingestCpuBatches, acceptedOfCalls, hcall, hn]
    cases error with
    | some message =>
      simp only [reduceCtorEq, if_false, List.append_nil]
      exact hnext
    | none =>
      simp only [if_true, ← List.append_assoc]
      exact Tallied.ingestCpuBatches calls hnext

end

/-! ## The import window -/

namespace ImportWindow

def Interned (self : ImportWindow) : Prop := ∀ stack s, self.stackInterner.lookup stack = some s → s = stack

end ImportWindow

def ImportSample.accepted (sample : ImportSample) : AcceptedSample where
  key := { stack := sample.stack, pid := sample.pid, tid := sample.tid, threadName := sample.name }
  period := sample.delta

open Accepted in
structure ImportTallied (maxStacks : ℕ) (w : ImportWindow) (items : List AcceptedSample) : Prop where
  samples : w.samples = (tally maxStacks items).1
  droppedSamples : w.aggregationDroppedSamples = min (tally maxStacks items).2.length u64Max
  total : w.totalSamples = min items.length u64Max
  interned : w.Interned

section
variable {w : ImportWindow} {items : List AcceptedSample}

open Accepted

theorem ImportTallied.intern {maxStacks : ℕ} (h : ImportTallied maxStacks w items) (stack : Stack) :
    (w.internStack stack maxStacks).1 = stack ∧ ImportTallied maxStacks (w.internStack stack maxStacks).2 items := by
  unfold ImportWindow.internStack
  cases hl : w.stackInterner.lookup stack with
  | some interned => exact ⟨h.interned stack interned hl, h⟩
  | none =>
    by_cases hs : w.stackInterner.size < maxStacks
    · rw [if_pos hs]
      refine ⟨rfl, h.samples, h.droppedSamples, h.total, ?_⟩
      intro s t ht
      rcases Table.lookup_insert_eq_some.mp ht with ⟨he, rfl⟩ | ⟨-, ht⟩
      · exact he.symm
      · exact h.interned s t ht
    · rw [if_neg hs]
      exact ⟨rfl, h⟩

theorem add_default (delta : ℕ) :
    ({ samples := 1, nanoseconds := saturatingI64 delta } : CpuValues) = CpuValues.add {} (saturatingI64 delta) := by
  have hn := saturatingAddI64_add 0 delta
  rw [saturatingI64_zero, Nat.zero_add] at hn
  unfold CpuValues.add
  rw [hn]
  rfl

theorem ImportWindow.aggregate_kept {maxStacks delta : ℕ} {key : AttributedStack}
    {samples : Table AttributedStack CpuValues}
    (h : offer maxStacks {} (·.add (saturatingI64 delta)) w.samples key = some samples) :
    w.aggregate maxStacks key delta = { w with samples := samples } := by
  unfold offer at h
  unfold ImportWindow.aggregate
  cases hl : w.samples.lookup key with
  | some values =>
    simp only [hl, Option.some.injEq] at h
    rw [← h]
  | none =>
    simp only [hl] at h
    by_cases hs : w.samples.size < maxStacks
    · simp only [hs, ite_true, Option.some.injEq] at h
      simp only [ge_iff_le, not_le, hs, ite_true, ← h, add_default]
    · simp only [hs, ite_false] at h
      cases h

theorem ImportWindow.aggregate_dropped {maxStacks delta : ℕ} {key : AttributedStack}
    (h : offer maxStacks {} (·.add (saturatingI64 delta)) w.samples key = none) :
    w.aggregate maxStacks key delta =
      { w with aggregationDroppedSamples := saturatingAddU64 w.aggregationDroppedSamples 1 } := by
  unfold offer at h
  unfold ImportWindow.aggregate
  cases hl : w.samples.lookup key with
  | some values =>
    simp only [hl] at h
    cases h
  | none =>
    simp only [hl] at h
    by_cases hs : w.samples.size < maxStacks
    · simp only [hs, ite_true] at h
      cases h
    · simp only [ge_iff_le, not_le, hs, ite_false]

theorem ImportTallied.aggregate {maxStacks : ℕ} (h : ImportTallied maxStacks w items) (item : AcceptedSample) :
    ImportTallied maxStacks
      ({ w with totalSamples := saturatingAddU64 w.totalSamples 1 }.aggregate maxStacks item.key item.period)
      (items ++ [item]) := by
  have htotal : saturatingAddU64 w.totalSamples 1 = min (items ++ [item]).length u64Max := by
    rw [h.total, List.length_append, List.length_singleton]
    unfold saturatingAddU64 Sat.add
    omega
  cases ho : offer maxStacks {} (·.add (saturatingI64 item.period)) w.samples item.key with
  | some samples =>
    have ht := tally_snoc_kept maxStacks items (by rwa [← h.samples])
    rw [@ImportWindow.aggregate_kept { w with totalSamples := saturatingAddU64 w.totalSamples 1 } _ _ _ _ ho]
    exact ⟨by rw [ht], by rw [ht]; exact h.droppedSamples, htotal, h.interned⟩
  | none =>
    have ht := tally_snoc_dropped maxStacks items (by rwa [← h.samples])
    rw [@ImportWindow.aggregate_dropped { w with totalSamples := saturatingAddU64 w.totalSamples 1 } _ _ _ ho]
    refine ⟨by rw [ht]; exact h.samples, ?_, htotal, h.interned⟩
    simp only [ht, List.length_append, List.length_singleton, h.droppedSamples]
    unfold saturatingAddU64 Sat.add
    omega

theorem ImportTallied.recordTimeline {maxStacks : ℕ} (h : ImportTallied maxStacks w items) (args : ImportArgs)
    (sample : ImportSample) (stack : Stack) : ImportTallied maxStacks (w.recordTimeline args sample stack) items := by
  unfold ImportWindow.recordTimeline
  split
  · split
    · exact ⟨h.samples, h.droppedSamples, h.total, h.interned⟩
    · exact ⟨h.samples, h.droppedSamples, h.total, h.interned⟩
  · exact h

theorem ImportTallied.add {args : ImportArgs} (h : ImportTallied args.maxStacks w items) (sample : ImportSample) :
    ImportTallied args.maxStacks (w.add args sample) (items ++ [sample.accepted]) := by
  obtain ⟨hstack, hint⟩ := h.intern sample.stack
  unfold ImportWindow.add
  simp only [hstack]
  exact (hint.aggregate sample.accepted).recordTimeline args sample sample.stack

theorem importTallied_foldl (args : ImportArgs) (records : List ImportSample) :
    ImportTallied args.maxStacks (records.foldl (ImportWindow.add args) {}) (records.map ImportSample.accepted) := by
  induction records using List.reverseRecOn with
  | nil => exact ⟨rfl, rfl, rfl, fun stack s h => by simp at h⟩
  | append_singleton records sample ih =>
    rw [List.foldl_append, List.map_append]
    exact ih.add sample

end

/-! ## Bounded aggregation refines unbounded aggregation -/

open Accepted in
/-- The first `maxStacks` keys are kept with all that was observed of them, and the samples of the others
are counted. -/
structure KeepsFirst (maxStacks : ℕ) (samples : Table AttributedStack CpuValues) (items : List AcceptedSample)
    (droppedSamples : ℕ) : Prop where
  keys : ∀ k, k ∈ samples ↔ k ∈ (firsts (items.map AcceptedSample.key)).take maxStacks
  values : ∀ k values, samples.lookup k = some values → values = valuesOf (items.filter (·.key = k))
  dropped : droppedSamples = min (items.filter (·.key ∉ samples)).length u64Max

open Accepted in
theorem keepsFirst_tally (maxStacks : ℕ) (items : List AcceptedSample) :
    KeepsFirst maxStacks (tally maxStacks items).1 items (min (tally maxStacks items).2.length u64Max) :=
  ⟨mem_tally maxStacks items, fun _ _ h => lookup_tally maxStacks items h, by rw [dropped_tally]⟩

theorem IngestContext.period_pos {δ : Type} (context : IngestContext δ) (sample : PerfSample) :
    1 ≤ context.period sample := by
  obtain ⟨hlow, hhigh⟩ := context.frequency.inRange
  unfold IngestContext.period
  by_cases hp : sample.period = 0
  · rw [if_pos hp, max_eq_left hlow]
    exact (Nat.one_le_div_iff (by omega)).mpr (by omega)
  · rw [if_neg hp]
    exact Nat.one_le_iff_ne_zero.mpr hp

theorem length_le_sum_period {items : List AcceptedSample} (h : ∀ item ∈ items, 1 ≤ item.period) :
    items.length ≤ (items.map AcceptedSample.period).sum := by
  have hle := List.card_nsmul_le_sum (items.map AcceptedSample.period) 1 fun p hp => by
    obtain ⟨item, hi, rfl⟩ := List.mem_map.mp hp
    exact h item hi
  simpa using hle

section
variable {δ ω : Type} (comm : CommReader ω)

theorem period_pos_of_acceptedSamples (context : IngestContext δ) : ∀ (samples : List PerfSample)
    {st : Ingesting δ ω}, ∀ item ∈ acceptedSamples context comm st samples, 1 ≤ item.period
  | [], _, item, h => by cases h
  | sample :: samples, st, item, h => by
    rw [acceptedSamples] at h
    rcases List.mem_append.mp h with h | h
    · unfold acceptedSample at h
      cases hf : (context.sampleFrames st.unwinder sample.data).1 with
      | usable frames truncated =>
        simp only [hf, Option.toList_some, List.mem_singleton] at h
        rw [h]
        exact context.period_pos sample
      | rejected => simp [hf] at h
      | fatal message => simp [hf] at h
    · by_cases he : (ingestSample context comm st sample).2 = none
      · rw [if_pos he] at h
        exact period_pos_of_acceptedSamples context samples item h
      · rw [if_neg he] at h
        cases h

theorem period_pos_of_acceptedOfCalls : ∀ (calls : List (IngestCall δ)) {w : CpuWindow} {world : ω},
    ∀ item ∈ acceptedOfCalls comm w world calls, 1 ≤ item.period
  | [], _, _, item, h => by cases h
  | call :: calls, w, world, item, h => by
    rw [acceptedOfCalls] at h
    rcases List.mem_append.mp h with h | h
    · exact period_pos_of_acceptedSamples comm call.context call.ready.1 item h
    · by_cases he : (ingestCpuBatch comm w world call).2.2 = none
      · rw [if_pos he] at h
        exact period_pos_of_acceptedOfCalls calls item h
      · rw [if_neg he] at h
        cases h

end

/-- The sample records of one file: its length in bytes is a `u64`, so they are fewer than 2^64. -/
structure ImportRecords where
  samples : List ImportSample
  bounded : samples.length ≤ u64Max

section
variable {δ ω : Type} (comm : CommReader ω)

open Accepted

/-- **Bounded aggregation refines unbounded aggregation.** -/
theorem windows_keep_first (pid : ℤ) (maxStacks maxThreadAttributions : ℕ) (timelineEnabled : Bool)
    (maxTimelineSamples : ℕ) (world : ω) (calls : List (IngestCall δ)) (args : ImportArgs) (records : ImportRecords) :
    let fresh := CpuWindow.new pid maxStacks maxThreadAttributions timelineEnabled maxTimelineSamples
    let cpu := (ingestCpuBatches comm fresh world calls).1
    let items := acceptedOfCalls comm fresh world calls
    let dropped := items.filter (·.key ∉ cpu.samples)
    let imported := records.samples.foldl (ImportWindow.add args) {}
    let accepted := records.samples.map ImportSample.accepted
    (KeepsFirst maxStacks cpu.samples items cpu.aggregationDroppedSamples ∧
      cpu.aggregationDroppedNanoseconds = saturatingI64 (dropped.map AcceptedSample.period).sum ∧
      ((∀ k, (items.filter (·.key = k)).length ≤ i64Max) ∧ (dropped.map AcceptedSample.period).sum ≤ i64Max →
        Table.sumOver (fun (_ : AttributedStack) (values : CpuValues) => values.samples) cpu.samples =
            cpu.usableSamples ∧
          cpu.usableSamples + cpu.aggregationDroppedSamples = items.length) ∧
      cpu.usableSamples + cpu.aggregationDroppedSamples ≤ cpu.totalSamples) ∧
    KeepsFirst args.maxStacks imported.samples accepted imported.aggregationDroppedSamples ∧
      imported.totalSamples = records.samples.length ∧
      ((∀ k, (accepted.filter (·.key = k)).length ≤ i64Max) →
        Table.sumOver (fun (_ : AttributedStack) (values : CpuValues) => values.samples) imported.samples +
          imported.aggregationDroppedSamples = imported.totalSamples) := by
  intro fresh cpu items dropped imported accepted
  constructor
  -- Record's window is a tally of the accepted samples; import's, below, of the same list fold.
  · have ht : Tallied maxStacks cpu items :=
      @Tallied.ingestCpuBatches δ ω comm maxStacks calls fresh world [] (tallied_new _ _ _ _ _)
    have hd : (tally maxStacks items).2 = dropped := by rw [dropped_tally, ← ht.samples]
    have hkept := length_tally maxStacks items
    have husable := ht.usable
    rw [hd] at hkept husable
    have hcounted : cpu.aggregationDroppedSamples = min dropped.length u64Max := by rw [ht.droppedSamples, hd]
    refine ⟨?_, by rw [ht.droppedNanoseconds, hd], ?_, ?_⟩
    · rw [ht.samples, ht.droppedSamples]
      exact keepsFirst_tally maxStacks items
    · rintro ⟨hcount, hsum⟩
      have hpos : dropped.length ≤ (dropped.map AcceptedSample.period).sum := length_le_sum_period fun item hi =>
        period_pos_of_acceptedOfCalls comm calls item (List.mem_of_mem_filter hi)
      have hfits : dropped.length ≤ u64Max := (hpos.trans hsum).trans (by decide)
      constructor
      · rw [ht.samples, sum_tally maxStacks items hcount]
        congr 1
        omega
      · rw [hcounted, min_eq_left hfits]
        exact husable
    · have htotal := ht.total
      omega
  · have ht : ImportTallied args.maxStacks imported accepted := importTallied_foldl args records.samples
    have hkept := length_tally args.maxStacks accepted
    have hlen : accepted.length = records.samples.length := List.length_map _
    have htotal : imported.totalSamples = records.samples.length := by
      rw [ht.total, hlen]
      exact min_eq_left records.bounded
    refine ⟨?_, htotal, ?_⟩
    · rw [ht.samples, ht.droppedSamples]
      exact keepsFirst_tally args.maxStacks accepted
    · intro hcount
      have hbounded := records.bounded
      have hdropped : imported.aggregationDroppedSamples = (tally args.maxStacks accepted).2.length := by
        rw [ht.droppedSamples]
        exact min_eq_left (by omega)
      rw [ht.samples, sum_tally args.maxStacks accepted hcount, hdropped, htotal]
      omega

end

/-! ## Two windows that differ in their cap -/

structure Agree {δ ω : Type} (a b : Ingesting δ ω) : Prop where
  threads : SameThreads a.window b.window
  total : b.window.totalSamples = a.window.totalSamples
  unwinder : b.unwinder = a.unwinder
  world : b.world = a.world
  internedLeft : a.window.Interned
  internedRight : b.window.Interned

section
variable {δ ω : Type} (comm : CommReader ω)

theorem Agree.ingestUsable (context : IngestContext δ) {a b : Ingesting δ ω} (h : Agree a b) (sample : PerfSample)
    (frames : List UInt64) (truncated : Bool) :
    Agree (ingestUsable context comm a sample frames truncated)
      (ingestUsable context comm b sample frames truncated) := by
  obtain ⟨wa, hta, hia, hna, ha⟩ := ingestUsable_spec context comm h.internedLeft sample frames truncated
  obtain ⟨wb, htb, hib, hnb, hb⟩ := ingestUsable_spec context comm h.internedRight sample frames truncated
  have hpid : samplePid b sample = samplePid a sample := by
    unfold samplePid
    rw [h.threads.fallbackPid]
  rw [hpid, h.world] at hnb hb
  obtain ⟨-, hworld, hnames⟩ := CpuWindow.threadName_congr h.threads comm a.world (samplePid a sample) sample.tid
  obtain ⟨hsa, hca, hxa, -⟩ := wa.aggregate_same (acceptedKey comm a sample frames)
    (saturatingI64 (context.period sample)) frames.length
  obtain ⟨hsb, hcb, hxb, -⟩ := wb.aggregate_same (acceptedKey comm b sample frames)
    (saturatingI64 (context.period sample)) frames.length
  rw [ha, hb]
  refine ⟨?_, ?_, h.unwinder, hworld, ?_, ?_⟩
  · exact (hna.trans hsa).symm.trans (hnames.trans (hnb.trans hsb))
  · simp only [hca, hcb, hta.totalSamples, htb.totalSamples, h.total]
  · intro stack s hs
    rw [hxa] at hs
    exact hia stack s hs
  · intro stack s hs
    rw [hxb] at hs
    exact hib stack s hs

/-- A turn of the loop does the same in both windows, but for what is aggregated. -/
theorem Agree.ingestSample (context : IngestContext δ) {a b : Ingesting δ ω} (h : Agree a b) (sample : PerfSample) :
    Agree (ingestSample context comm a sample).1 (ingestSample context comm b sample).1 ∧
      (RustProfile.ingestSample context comm b sample).2 = (RustProfile.ingestSample context comm a sample).2 ∧
      acceptedSample context comm b sample = acceptedSample context comm a sample := by
  obtain ⟨wa, hta, hna, hia, hfa, hra, hua⟩ := ingestSample_spec context comm h.internedLeft sample
  obtain ⟨wb, htb, hnb, hib, hfb, hrb, hub⟩ := ingestSample_spec context comm h.internedRight sample
  rw [h.unwinder, h.world] at hfb hrb hub
  have hcounted : Agree
      ({ window := wa, unwinder := (context.sampleFrames a.unwinder sample.data).2, world := a.world } : Ingesting δ ω)
      { window := wb, unwinder := (context.sampleFrames a.unwinder sample.data).2, world := a.world } :=
    ⟨hna.symm.trans (h.threads.trans hnb), by rw [hta.totalSamples, htb.totalSamples, h.total], rfl, rfl, hia, hib⟩
  unfold acceptedSample
  rw [h.unwinder]
  cases hf : (context.sampleFrames a.unwinder sample.data).1 with
  | fatal message =>
    rw [hfa message hf, hfb message hf]
    exact ⟨hcounted, rfl, rfl⟩
  | rejected =>
    rw [hra hf, hrb hf]
    exact ⟨hcounted, rfl, rfl⟩
  | usable frames truncated =>
    rw [hua frames truncated hf, hub frames truncated hf]
    refine ⟨hcounted.ingestUsable comm context sample frames truncated, rfl, ?_⟩
    simp only [acceptedKey_congr comm h.threads h.world sample frames]

theorem Agree.ingestSamples (context : IngestContext δ) : ∀ (samples : List PerfSample) {a b : Ingesting δ ω},
    Agree a b →
      Agree (ingestSamples context comm a samples).1 (ingestSamples context comm b samples).1 ∧
        (RustProfile.ingestSamples context comm b samples).2 = (RustProfile.ingestSamples context comm a samples).2 ∧
        acceptedSamples context comm b samples = acceptedSamples context comm a samples
  | [], _, _, h => ⟨h, rfl, rfl⟩
  | sample :: samples, a, b, h => by
    obtain ⟨hnext, herror, haccepted⟩ := h.ingestSample comm context sample
    rw [acceptedSamples, acceptedSamples, haccepted, RustProfile.ingestSamples, RustProfile.ingestSamples]
    rcases ha : RustProfile.ingestSample context comm a sample with ⟨na, ea⟩
    rcases hb : RustProfile.ingestSample context comm b sample with ⟨nb, eb⟩
    rw [ha, hb] at hnext herror
    dsimp only at hnext herror
    subst herror
    cases eb with
    | some message => exact ⟨hnext, rfl, by simp⟩
    | none =>
      obtain ⟨hrest, herror', haccepted'⟩ := Agree.ingestSamples context samples hnext
      exact ⟨hrest, herror', by simp [haccepted']⟩

/-- The total and the accepted samples do not depend on what is aggregated. -/
theorem agree_ingestCpuBatches : ∀ (calls : List (IngestCall δ)) {a b : CpuWindow} {world : ω}, SameThreads a b →
    b.totalSamples = a.totalSamples → a.Interned → b.Interned →
      (ingestCpuBatches comm b world calls).1.totalSamples = (ingestCpuBatches comm a world calls).1.totalSamples ∧
        acceptedOfCalls comm b world calls = acceptedOfCalls comm a world calls
  | [], _, _, _, _, htotal, _, _ => ⟨htotal, rfl⟩
  | call :: calls, a, b, world, hthreads, htotal, hia, hib => by
    have hstart : Agree (call.start a world) (call.start b world) :=
      ⟨⟨hthreads.threadNames, hthreads.maxThreadAttributions, hthreads.fallbackPid⟩, htotal, rfl, rfl, hia, hib⟩
    obtain ⟨hnext, herror, haccepted⟩ := hstart.ingestSamples comm call.context call.ready.1
    have hcall : ∀ w, ingestCpuBatch comm w world call =
        ((ingestSamples call.context comm (call.start w world) call.ready.1).1, call.ready.2,
          (ingestSamples call.context comm (call.start w world) call.ready.1).2) := fun _ => rfl
    rw [acceptedOfCalls, acceptedOfCalls, haccepted, ingestCpuBatches, ingestCpuBatches, hcall, hcall]
    rcases ha : ingestSamples call.context comm (call.start a world) call.ready.1 with ⟨na, ea⟩
    rcases hb : ingestSamples call.context comm (call.start b world) call.ready.1 with ⟨nb, eb⟩
    rw [ha, hb] at hnext herror
    dsimp only at hnext herror
    subst herror
    cases eb with
    | some message => exact ⟨hnext.total, by simp⟩
    | none =>
      have hworld : nb.world = na.world := hnext.world
      obtain ⟨ht, hacc⟩ := @agree_ingestCpuBatches calls na.window nb.window na.world hnext.threads hnext.total
        hnext.internedLeft hnext.internedRight
      simp only [hworld]
      exact ⟨ht, by rw [hacc]⟩

end

/-- What `record` compares with the 90% threshold. -/
def fallbackPair (w : CpuWindow) : ℕ × ℕ := (w.usableSamples, w.totalSamples)

section
variable (items : List AcceptedSample)

open Accepted

/-- Two caps keep equally many samples when neither cuts a key off. -/
theorem length_kept_eq_iff {m₁ m₂ : ℕ} (hm : m₁ < m₂) :
    (items.filter (·.key ∈ (tally m₁ items).1)).length = (items.filter (·.key ∈ (tally m₂ items).1)).length ↔
      (firsts (items.map AcceptedSample.key)).length ≤ m₁ := by
  have hsub : ∀ item : AcceptedSample, item.key ∈ (tally m₁ items).1 → item.key ∈ (tally m₂ items).1 := by
    intro item h
    rw [mem_tally] at h ⊢
    exact (List.take_prefix_take_left hm.le).subset h
  constructor
  · intro heq
    by_contra hlt
    rw [not_le] at hlt
    have hfilter : items.filter (·.key ∈ (tally m₁ items).1) = items.filter (·.key ∈ (tally m₂ items).1) := by
      refine List.Sublist.eq_of_length (List.monotone_filter_right items fun item h => ?_) heq
      exact decide_eq_true (hsub item (of_decide_eq_true h))
    have hkey : (firsts (items.map AcceptedSample.key))[m₁] ∈ items.map AcceptedSample.key :=
      mem_firsts.mp (List.getElem_mem hlt)
    obtain ⟨item, hitem, hk⟩ := List.mem_map.mp hkey
    have hin : item ∈ items.filter (·.key ∈ (tally m₂ items).1) := by
      refine List.mem_filter.mpr ⟨hitem, decide_eq_true ?_⟩
      rw [mem_tally, hk]
      exact List.mem_take_iff_getElem.mpr ⟨m₁, by omega, rfl⟩
    rw [← hfilter] at hin
    have hout := of_decide_eq_true (List.mem_filter.mp hin).2
    rw [mem_tally, hk] at hout
    obtain ⟨j, hj, he⟩ := List.mem_take_iff_getElem.mp hout
    have := (nodup_firsts (items.map AcceptedSample.key)).getElem_inj_iff.mp he
    omega
  · intro hle
    congr 1
    refine List.filter_congr fun item _ => ?_
    rw [decide_eq_decide, mem_tally, mem_tally, List.take_of_length_le hle, List.take_of_length_le (hle.trans hm.le)]

end

section
variable {δ ω : Type} (comm : CommReader ω)

open Accepted

/-- **The samples counted as usable depend on the cap exactly when it cuts a key off.** -/
theorem fallbackPair_eq_iff (pid : ℤ) (maxThreadAttributions : ℕ) (timelineEnabled : Bool) (maxTimelineSamples : ℕ)
    (world : ω) (calls : List (IngestCall δ)) (m₁ m₂ : ℕ) :
    let fresh (maxStacks : ℕ) := CpuWindow.new pid maxStacks maxThreadAttributions timelineEnabled maxTimelineSamples
    let final (maxStacks : ℕ) := (ingestCpuBatches comm (fresh maxStacks) world calls).1
    let items := acceptedOfCalls comm (fresh m₁) world calls
    acceptedOfCalls comm (fresh m₂) world calls = items ∧
      (fallbackPair (final m₁) = fallbackPair (final m₂) ↔
        m₁ = m₂ ∨ (firsts (items.map AcceptedSample.key)).length ≤ min m₁ m₂) := by
  intro fresh final items
  have hint : ∀ m, (fresh m).Interned := fun m stack s h => by simp [fresh, CpuWindow.new] at h
  obtain ⟨htotal, haccepted⟩ := @agree_ingestCpuBatches δ ω comm calls (fresh m₁) (fresh m₂) world ⟨rfl, rfl, rfl⟩ rfl
    (hint m₁) (hint m₂)
  have husable : ∀ m, acceptedOfCalls comm (fresh m) world calls = items →
      (final m).usableSamples = (items.filter (·.key ∈ (tally m items).1)).length := by
    intro m hm
    have ht : Tallied m (final m) (acceptedOfCalls comm (fresh m) world calls) :=
      @Tallied.ingestCpuBatches δ ω comm m calls (fresh m) world [] (tallied_new _ _ _ _ _)
    have hu := ht.usable
    rw [hm] at hu
    have hl := length_tally m items
    omega
  have h₁ := husable m₁ rfl
  have h₂ := husable m₂ haccepted
  refine ⟨haccepted, ?_⟩
  unfold fallbackPair
  rw [Prod.mk.injEq, h₁, h₂]
  have ht : (final m₁).totalSamples = (final m₂).totalSamples := htotal.symm
  rcases Nat.lt_trichotomy m₁ m₂ with hlt | rfl | hlt
  · rw [length_kept_eq_iff items hlt, min_eq_left hlt.le]
    exact ⟨fun h => Or.inr h.1, fun h => ⟨h.resolve_left hlt.ne, ht⟩⟩
  · exact ⟨fun _ => Or.inl rfl, fun _ => ⟨rfl, rfl⟩⟩
  · rw [eq_comm, length_kept_eq_iff items hlt, min_eq_right hlt.le]
    exact ⟨fun h => Or.inr h.1, fun h => ⟨h.resolve_left hlt.ne', ht⟩⟩

end

def unreadableComm : CommReader Unit := ⟨fun _ _ _ => (none, ())⟩

def fpSample (address : UInt64) : PerfSample := ⟨7, 7, 1, 1, .framePointer [address]⟩

def twoStacks : IngestCall Unit where
  context :=
    { dwarf := none
      executableRanges := ExecutableRanges.fromMaps [⟨4096, 8192, [114, 45, 120, 112]⟩]
      allowPartial := false
      frequency := exampleFrequency }
  unwinder := ()
  sorter := PerfEventSorter.new 0 16
  batch := ⟨[fpSample 4100, fpSample 4200], 0, 0⟩
  flush := true

theorem ready_twoStacks : twoStacks.ready.1 = [fpSample 4100, fpSample 4200] := by
  have hsorted := (@pushAll_flush_sorts 0 16 [fpSample 4100, fpSample 4200] (by decide)
    (neverCapped_of_length_le 0 (by decide))).1
  rw [List.mergeSort_of_pairwise (by decide)] at hsorted
  exact hsorted

/-- With room for one stack, a usable sample is counted as unusable. -/
theorem fallbackPair_of_cap :
    fallbackPair (ingestCpuBatches unreadableComm (CpuWindow.new 7 1 16 false 0) () [twoStacks]).1 = (1, 2) ∧
      fallbackPair (ingestCpuBatches unreadableComm (CpuWindow.new 7 2 16 false 0) () [twoStacks]).1 = (2, 2) := by
  have hrun : ∀ m, ingestCpuBatches unreadableComm (CpuWindow.new 7 m 16 false 0) () [twoStacks] =
      let result := ingestSamples twoStacks.context unreadableComm (twoStacks.start (CpuWindow.new 7 m 16 false 0) ())
        [fpSample 4100, fpSample 4200]
      (result.1.window, result.1.world) := by
    intro m
    rw [ingestCpuBatches, ingestCpuBatch, ready_twoStacks]
    split
    · rfl
    · rfl
  rw [hrun, hrun]
  exact ⟨rfl, rfl⟩

end RustProfile
