import RustProfile.CpuWindow
import RustProfile.DwarfUnwinder
import RustProfile.HeapCollector

/-!
# Which stacks are usable

A stack is usable if it is not empty, has no address twice and lies in the
executable ranges. The heap collector and the frame-pointer path check all of
that. The DWARF path of the CPU collector relies on its unwinder, which checks
the ranges alone, and takes a leaf unseen when it has no unwinder.
-/

namespace RustProfile

def UsableStack (ranges : ExecutableRanges) (addresses : List UInt64) : Prop :=
  addresses ≠ [] ∧ addresses.Nodup ∧ ∀ address ∈ addresses, ranges.contains address = true

instance (ranges : ExecutableRanges) (addresses : List UInt64) : Decidable (UsableStack ranges addresses) :=
  inferInstanceAs (Decidable (_ ∧ _ ∧ _))

theorem usableStack_iff {ranges : ExecutableRanges} {addresses : List UInt64} : UsableStack ranges addresses ↔
    ¬ (addresses = [] ∨ hasAddressCycle addresses = true ∨
      (addresses.any fun address => !ranges.contains address) = true) := by
  unfold UsableStack
  rw [hasAddressCycle_iff]
  simp

/-! ## The CPU collector -/

/-- The addresses that a sample's stack is made of, if it is taken. -/
def SampleFrames.taken : SampleFrames → Option (List UInt64)
  | .usable frames _ => some frames
  | .rejected => none
  | .fatal _ => none

namespace IngestContext

section
variable {δ ι : Type}

/-- What a process's samples are ingested with: ranges and unwinder are made from the same maps. -/
def ofRanges (ranges : ExecutableRanges) (arch : Arch) (framehop : Option (Framehop δ ι)) (allowPartial : Bool)
    (frequency : CpuFrequency) : IngestContext δ where
  dwarf := framehop.map fun framehop => (DwarfUnwinder.mk framehop arch ranges).toUnwindBytes
  executableRanges := ranges
  allowPartial := allowPartial
  frequency := frequency

variable (context : IngestContext δ)

/-- The address list of a sample. A walk that is fatal, or that fails at its leaf outside partial mode, gives none. -/
def addressList (unwinder : δ) : PerfSampleData → List UInt64
  | .framePointer frames => frames
  | .dwarf snapshot =>
    match context.dwarf with
    | some dwarf =>
      let outcome := (dwarf.unwindBytes unwinder snapshot.registers snapshot.bytes).1
      if outcome.fatal ∨ (!context.allowPartial ∧ outcome.frames.length = 1 ∧ outcome.error.isSome) then []
      else outcome.frames
    | none => if context.allowPartial ∧ snapshot.registers.ip ≠ 0 then [snapshot.registers.ip] else []

/-- A sample's list is taken exactly if it is usable. -/
def AppliesRule (unwinder : δ) (data : PerfSampleData) : Prop :=
  (context.sampleFrames unwinder data).1.taken =
    if UsableStack context.executableRanges (context.addressList unwinder data) then
      some (context.addressList unwinder data)
    else none

instance (unwinder : δ) (data : PerfSampleData) : Decidable (context.AppliesRule unwinder data) :=
  inferInstanceAs (Decidable (_ = _))

/-- What a DWARF sample has to satisfy: a walk that is not fatal finds no address twice, and a leaf that is taken
without an unwinder is executable. -/
def Checked (ranges : ExecutableRanges) (arch : Arch) (framehop : Option (Framehop δ ι)) (allowPartial : Bool)
    (unwinder : δ) (snapshot : StackSnapshot) : Prop :=
  match framehop with
  | some framehop =>
    let dwarf := DwarfUnwinder.mk framehop arch ranges
    (dwarf.collected unwinder snapshot.registers snapshot.bytes).Nodup ∨ (arch.isAarch64 = true ∧
      ∃ address ∈ dwarf.found unwinder snapshot.registers snapshot.bytes, ranges.contains address = false)
  | none => allowPartial = true → snapshot.registers.ip ≠ 0 → ranges.contains snapshot.registers.ip = true

end

end IngestContext

/-! ## The heap collector -/

/-- A stack is counted as usable and kept for its allocation exactly if it is usable. -/
def HeapCollector.AppliesRule {δ : Type} (unwinder : UnwindBytes δ) (self : HeapCollector δ) (event : RawEvent) :
    Prop :=
  event.header.kind = .stack →
    let addresses := (self.stackFrames unwinder event).1
    let applied := self.applyRawEvent unwinder event
    if UsableStack self.executableRanges addresses then
      applied.localUsableStacks = self.localUsableStacks + 1 ∧ applied.pendingStacks =
        ({ self with pendingStacks := self.pendingStacks.insert event.header.token addresses } :
          HeapCollector δ).limitPendingStacks.pendingStacks
    else applied.localUsableStacks = self.localUsableStacks ∧ applied.pendingStacks = self.pendingStacks

/-! ## Frame pointers and the heap -/

theorem IngestContext.appliesRule_iff {δ : Type} {context : IngestContext δ} {unwinder : δ} {data : PerfSampleData}
    {addresses : List UInt64} {taken : Option (List UInt64)} (ha : context.addressList unwinder data = addresses)
    (ht : (context.sampleFrames unwinder data).1.taken = taken) : context.AppliesRule unwinder data ↔
      taken = if UsableStack context.executableRanges addresses then some addresses else none := by
  subst ha ht
  rfl

theorem not_usableStack_nil (ranges : ExecutableRanges) : ¬ UsableStack ranges [] := fun h => h.1 rfl

section
variable {δ ι : Type}

theorem framePointer_appliesRule (context : IngestContext δ) (unwinder : δ) (frames : List UInt64) :
    context.AppliesRule unwinder (.framePointer frames) := by
  have hall : (frames.filter context.executableRanges.contains).length = frames.length ↔
      ∀ address ∈ frames, context.executableRanges.contains address = true := List.length_filter_eq_length_iff
  have hcycle := hasAddressCycle_iff frames
  show (context.framePointerFrames frames).taken =
    if UsableStack context.executableRanges frames then some frames else none
  unfold IngestContext.framePointerFrames
  by_cases husable : UsableStack context.executableRanges frames
  · rw [if_pos husable]
    obtain ⟨hne, hnodup, hin⟩ := husable
    dsimp only
    rw [if_neg]
    · rfl
    · rw [hcycle, ne_eq, hall]
      tauto
  · rw [if_neg husable]
    unfold UsableStack at husable
    dsimp only
    rw [if_pos]
    · rfl
    · rw [hcycle, ne_eq, hall]
      tauto

namespace HeapCollector

variable (unwinder : UnwindBytes δ) (self : HeapCollector δ)

theorem stackFrames_frame (event : RawEvent) :
    (self.stackFrames unwinder event).2.localUsableStacks = self.localUsableStacks ∧
      (self.stackFrames unwinder event).2.pendingStacks = self.pendingStacks ∧
      (self.stackFrames unwinder event).2.executableRanges = self.executableRanges := by
  obtain ⟨frames, dwarf, fatal, -, heq⟩ := self.stackFrames_spec unwinder event
  have hself : self.stackFrames unwinder event = _ := heq self.localStackSamples
  rw [hself]
  exact ⟨rfl, rfl, rfl⟩

theorem stackFrames_counted (n : UInt64) (event : RawEvent) :
    (({ self with localStackSamples := n } : HeapCollector δ).stackFrames unwinder event).1 =
      (self.stackFrames unwinder event).1 := by
  obtain ⟨frames, dwarf, fatal, -, heq⟩ := self.stackFrames_spec unwinder event
  have hself : self.stackFrames unwinder event = _ := heq self.localStackSamples
  rw [heq n, hself]

theorem limitPendingStacks_usable : self.limitPendingStacks.localUsableStacks = self.localUsableStacks := by
  unfold limitPendingStacks
  split <;> rfl

theorem limitPendingStacks_pending {self other : HeapCollector δ} (h : self.pendingStacks = other.pendingStacks) :
    self.limitPendingStacks.pendingStacks = other.limitPendingStacks.pendingStacks := by
  unfold limitPendingStacks
  rw [h]
  split
  · rfl
  · exact h

theorem heap_appliesRule (event : RawEvent) : self.AppliesRule unwinder event := by
  intro hkind
  have hcounted := self.stackFrames_counted unwinder (self.localStackSamples + 1) event
  obtain ⟨husable, hpending, hranges⟩ :=
    ({ self with localStackSamples := self.localStackSamples + 1 } : HeapCollector δ).stackFrames_frame unwinder event
  unfold applyRawEvent applyStack storeStack
  simp only [hkind]
  rw [hcounted, hranges]
  by_cases h : UsableStack self.executableRanges (self.stackFrames unwinder event).1
  · rw [if_pos h, if_neg (usableStack_iff.mp h)]
    refine ⟨?_, limitPendingStacks_pending ?_⟩
    · rw [limitPendingStacks_usable]
      exact congrArg (· + 1) husable
    · exact congrArg (AList.insert _ _) hpending
  · rw [if_neg h, if_pos (not_not.mp (mt usableStack_iff.mpr h))]
    exact ⟨husable, hpending⟩

end HeapCollector

/-! ## DWARF -/

section
variable (ranges : ExecutableRanges) (arch : Arch) (allowPartial : Bool) (frequency : CpuFrequency) (unwinder : δ)
  (snapshot : StackSnapshot)

theorem leaf_appliesRule_iff :
    (IngestContext.ofRanges ranges arch (none : Option (Framehop δ ι)) allowPartial frequency).AppliesRule unwinder
        (.dwarf snapshot) ↔
      IngestContext.Checked ranges arch (none : Option (Framehop δ ι)) allowPartial unwinder snapshot := by
  obtain ⟨context, hcontext⟩ : ∃ context, context =
    IngestContext.ofRanges ranges arch (none : Option (Framehop δ ι)) allowPartial frequency := ⟨_, rfl⟩
  have hlist : context.addressList unwinder (.dwarf snapshot) =
      if allowPartial = true ∧ snapshot.registers.ip ≠ 0 then [snapshot.registers.ip] else [] := by
    rw [hcontext]
    rfl
  have htaken : (context.sampleFrames unwinder (.dwarf snapshot)).1 =
      if allowPartial = true ∧ snapshot.registers.ip ≠ 0 then .usable [snapshot.registers.ip] false else .rejected := by
    rw [hcontext]
    exact apply_ite Prod.fst _ _ _
  have hranges : context.executableRanges = ranges := by rw [hcontext]; rfl
  rw [← hcontext]
  unfold IngestContext.Checked
  by_cases hleaf : allowPartial = true ∧ snapshot.registers.ip ≠ 0
  · rw [if_pos hleaf] at hlist htaken
    rw [IngestContext.appliesRule_iff hlist (congrArg SampleFrames.taken htaken), hranges]
    have husable : UsableStack ranges [snapshot.registers.ip] ↔ ranges.contains snapshot.registers.ip = true := by
      simp [UsableStack]
    by_cases hin : ranges.contains snapshot.registers.ip = true
    · exact ⟨fun _ _ _ => hin, fun _ => (if_pos (husable.mpr hin)).symm⟩
    · refine ⟨fun h => ?_, fun h => absurd (h hleaf.1 hleaf.2) hin⟩
      rw [if_neg (mt husable.mp hin)] at h
      cases h
  · rw [if_neg hleaf] at hlist htaken
    rw [IngestContext.appliesRule_iff hlist (congrArg SampleFrames.taken htaken), hranges]
    exact ⟨fun _ hresult hne => absurd ⟨hresult, hne⟩ hleaf, fun _ => (if_neg (not_usableStack_nil ranges)).symm⟩

/-! A walk is seen through its outcome: all its frames are executable, and it is fatal where it leaves the ranges. -/

section
variable (framehop : Framehop δ ι)

def IngestContext.outcome (ranges : ExecutableRanges) (arch : Arch) (framehop : Framehop δ ι) (unwinder : δ)
    (snapshot : StackSnapshot) : UnwindOutcome :=
  ((DwarfUnwinder.mk framehop arch ranges).unwindBytes unwinder snapshot.registers snapshot.bytes).1

/-- A leaf alone, with an error, is refused outside partial mode. -/
def UnwindOutcome.LeafFailure (outcome : UnwindOutcome) (allowPartial : Bool) : Prop :=
  (!allowPartial) = true ∧ outcome.frames.length = 1 ∧ outcome.error.isSome = true

instance (outcome : UnwindOutcome) (allowPartial : Bool) : Decidable (outcome.LeafFailure allowPartial) :=
  inferInstanceAs (Decidable (_ ∧ _ ∧ _))

theorem addressList_walk :
    (IngestContext.ofRanges ranges arch (some framehop) allowPartial frequency).addressList unwinder (.dwarf snapshot) =
      let outcome := IngestContext.outcome ranges arch framehop unwinder snapshot
      if outcome.fatal = true ∨ outcome.LeafFailure allowPartial then [] else outcome.frames := rfl

theorem sampleFrames_walk :
    ((IngestContext.ofRanges ranges arch (some framehop) allowPartial frequency).sampleFrames unwinder
        (.dwarf snapshot)).1 =
      let outcome := IngestContext.outcome ranges arch framehop unwinder snapshot
      if outcome.fatal = true then .fatal (IngestContext.fatalMessage outcome.error)
      else if outcome.frames = [] ∨ outcome.LeafFailure allowPartial then .rejected
      else .usable outcome.frames outcome.truncated :=
  (apply_ite Prod.fst _ _ _).trans (if_congr Iff.rfl rfl (apply_ite Prod.fst _ _ _))

theorem checked_walk_iff : IngestContext.Checked ranges arch (some framehop) allowPartial unwinder snapshot ↔
    (IngestContext.outcome ranges arch framehop unwinder snapshot).frames.Nodup ∨
      (IngestContext.outcome ranges arch framehop unwinder snapshot).fatal = true := by
  have hframes := (DwarfUnwinder.mk framehop arch ranges).unwindBytes_frames unwinder snapshot.registers snapshot.bytes
  have hfatal := (DwarfUnwinder.mk framehop arch ranges).unwindBytes_fatal unwinder snapshot.registers snapshot.bytes
  unfold IngestContext.Checked IngestContext.outcome
  rw [hframes, hfatal]
  refine ⟨Or.imp_right fun h => ⟨h.1, .inr h.2⟩, ?_⟩
  rintro (hnodup | ⟨harch, hnone | hout⟩)
  · exact .inl hnodup
  · refine .inl ?_
    rw [DwarfUnwinder.collected, DwarfUnwinder.found, hnone]
    exact List.nodup_nil
  · exact .inr ⟨harch, hout⟩

theorem outcome_executable : ∀ address ∈ (IngestContext.outcome ranges arch framehop unwinder snapshot).frames,
    ranges.contains address = true := by
  intro address hmem
  rw [IngestContext.outcome, DwarfUnwinder.unwindBytes_frames] at hmem
  exact (DwarfUnwinder.mk framehop arch ranges).collected_executable hmem

theorem walk_appliesRule_iff :
    (IngestContext.ofRanges ranges arch (some framehop) allowPartial frequency).AppliesRule unwinder
        (.dwarf snapshot) ↔
      IngestContext.Checked ranges arch (some framehop) allowPartial unwinder snapshot := by
  have hlist := addressList_walk ranges arch allowPartial frequency unwinder snapshot framehop
  have htaken := sampleFrames_walk ranges arch allowPartial frequency unwinder snapshot framehop
  have hin := outcome_executable ranges arch unwinder snapshot framehop
  rw [checked_walk_iff]
  generalize IngestContext.outcome ranges arch framehop unwinder snapshot = outcome at hlist htaken hin ⊢
  dsimp only at hlist htaken
  by_cases hfatal : outcome.fatal = true
  · rw [if_pos (.inl hfatal)] at hlist
    rw [if_pos hfatal] at htaken
    rw [IngestContext.appliesRule_iff hlist (congrArg SampleFrames.taken htaken), if_neg (not_usableStack_nil _)]
    exact ⟨fun _ => .inr hfatal, fun _ => rfl⟩
  · rw [or_iff_left hfatal]
    rw [if_neg hfatal] at htaken
    -- Outside partial mode a walk that failed after its first frame counts as no stack.
    by_cases hleaf : outcome.LeafFailure allowPartial
    · rw [if_pos (.inr hleaf)] at hlist htaken
      rw [IngestContext.appliesRule_iff hlist (congrArg SampleFrames.taken htaken), if_neg (not_usableStack_nil _)]
      obtain ⟨address, haddress⟩ := List.length_eq_one_iff.mp hleaf.2.1
      rw [haddress]
      exact ⟨fun _ => List.nodup_singleton _, fun _ => rfl⟩
    · rw [if_neg (not_or.mpr ⟨hfatal, hleaf⟩)] at hlist
      by_cases hnil : outcome.frames = []
      · rw [if_pos (.inl hnil)] at htaken
        rw [IngestContext.appliesRule_iff hlist (congrArg SampleFrames.taken htaken), hnil,
          if_neg (not_usableStack_nil _)]
        exact ⟨fun _ => List.nodup_nil, fun _ => rfl⟩
      · rw [if_neg (not_or.mpr ⟨hnil, hleaf⟩)] at htaken
        rw [IngestContext.appliesRule_iff hlist (congrArg SampleFrames.taken htaken)]
        refine ⟨fun h => ?_, fun hnodup => (if_pos ⟨hnil, hnodup, hin⟩).symm⟩
        by_contra hrepeated
        rw [if_neg fun husable => hrepeated husable.2.1] at h
        cases h

end

end

end

/-! ## All paths -/

/-- A walk that finds the same frames for all registers. -/
def fixedWalk (steps : List FrameStep) : Framehop Unit (List FrameStep) where
  iterFrames := fun _ _ _ _ => steps
  next := fun steps => (steps.headD .done, steps.tail)
  cache := fun _ => ()

/-- A leaf and two returns to the same call, as a recursive function leaves them. -/
def recursiveWalk : Framehop Unit (List FrameStep) :=
  fixedWalk [.frame (.instructionPointer 0x1000), .frame (.returnAddress 0x1011), .frame (.returnAddress 0x1011)]

def textRanges : ExecutableRanges := ⟨[⟨0x1000, 0x2000⟩], List.pairwise_singleton _ _⟩

def leafSnapshot : StackSnapshot where
  registers := { ip := 0x1000, sp := 0, fp := 0, lr := 0 }
  bytes := []

end RustProfile
