import RustProfile.HeapCollector
import RustProfile.Lib.Run

/-!
# Pairing of allocator enters and exits

A thread has one pending slot, while its probed calls nest. A call that stores
nothing leaves the slot of the call around it in place, and its own exit
consumes that slot. This is the only way an exit emits what another call began.
-/

namespace RustProfile

/-! ## Nested calls of a thread -/

/-- A probed call that has not returned, with the value its enter stored. -/
structure OpenCall where
  fn : AllocFn
  args : AllocArgs
  stored : Option PendingAllocation
  agrees : ∀ value, stored = some value → value.outputPtr = args.outputPtr

structure ThreadWorld where
  kernel : HeapBpf
  calls : List OpenCall

inductive ThreadStep where
  | enter (fn : AllocFn) (hit : ProbeHit)
  | exit (hit : ProbeHit)
  | free (fn : FreeFn) (hit : ProbeHit)
  | other (step : ProbeStep)

def ProbeStep.tid : ProbeStep → UInt32
  | .enter _ hit | .exit _ hit | .free _ hit => hit.tid

/-- What the enter of a call stores in the pending slot. -/
def storedBy (kernel : HeapBpf) (config : BpfConfig) (hit : ProbeHit) (args : AllocArgs) : Option PendingAllocation :=
  if hit.pendingUpdateFails then none
  else kernel.begunAllocation config hit args.size args.oldPtr args.outputPtr args.operation

theorem storedBy_agrees (kernel : HeapBpf) (config : BpfConfig) (hit : ProbeHit) (args : AllocArgs) :
    ∀ value, storedBy kernel config hit args = some value → value.outputPtr = args.outputPtr := by
  intro value h
  unfold storedBy at h
  split at h
  · cases h
  · exact (begunAllocation_spec kernel config hit h).2.2.1

def ThreadWorld.step (config : BpfConfig) (tid : UInt32) (self : ThreadWorld) : ThreadStep → Option ThreadWorld
  | .enter fn hit =>
    if hit.tid = tid then
      let call : OpenCall := ⟨fn, fn.args hit.regs, _, storedBy_agrees self.kernel config hit (fn.args hit.regs)⟩
      some { kernel := fn.enter config hit self.kernel, calls := call :: self.calls }
    else none
  | .exit hit =>
    match self.calls with
    | call :: calls =>
      if hit.tid = tid then some { kernel := call.fn.exit config hit self.kernel, calls := calls } else none
    | [] => none
  | .free fn hit =>
    if hit.tid = tid then some { self with kernel := fn.enter config hit self.kernel } else none
  | .other p =>
    if p.tid ≠ tid then (self.kernel.probe config p).map fun kernel => { self with kernel := kernel } else none

/-- The event carries what the call's own enter stored, and the pointer that it returned. -/
def OpenCall.Owns (call : OpenCall) (hit : ProbeHit) (event : RawEvent) : Prop :=
  ∃ value, call.stored = some value ∧ value.sampled = true ∧ event.header.token = value.token ∧
    event.header.size = value.size ∧ event.header.weight = value.weight ∧
    event.header.pointer = HeapBpf.returnedPtr hit call.fn.isPosixMemalign call.args.outputPtr

/-- Every `ALLOC` event of an exit belongs to the call that returned. -/
def Paired (config : BpfConfig) (tid : UInt32) (self : ThreadWorld) : ThreadStep → Prop
  | .exit hit => ∀ call calls next, self.calls = call :: calls → self.step config tid (.exit hit) = some next →
      ∀ event ∈ next.kernel.events.drop self.kernel.events.length, event.header.kind = .alloc → call.Owns hit event
  | _ => True

/-- A call whose enter stored nothing returns a pointer while the slot holds the
sample of a call around it. -/
def Steals (tid : UInt32) (self : ThreadWorld) (hit : ProbeHit) : Prop :=
  ∃ call calls value, self.calls = call :: calls ∧ hit.tid = tid ∧ call.stored = none ∧
    self.kernel.pending.lookup tid = some value ∧ value.sampled = true ∧
    HeapBpf.returnedPtr hit call.fn.isPosixMemalign value.outputPtr ≠ 0 ∧
    hit.liveUpdateFails = false ∧ hit.reserve .alloc = true

def Unstolen (tid : UInt32) (self : ThreadWorld) : ThreadStep → Prop
  | .exit hit => ¬ Steals tid self hit
  | _ => True

/-! ## The pending slot -/

/-- The slot is empty or holds what the innermost storing call stored. -/
def SlotInv (tid : UInt32) (self : ThreadWorld) : Prop :=
  self.kernel.pending.lookup tid = none ∨ self.kernel.pending.lookup tid = self.calls.findSome? OpenCall.stored

theorem enter_pending (kernel : HeapBpf) (config : BpfConfig) (hit : ProbeHit) (fn : AllocFn) :
    (fn.enter config hit kernel).pending =
      match storedBy kernel config hit (fn.args hit.regs) with
      | some value => kernel.pending.insert hit.tid value
      | none => kernel.pending := by
  rw [enter_eq, (beginAllocation_spec kernel config hit _ _ _ _).2.1]
  unfold storedBy
  by_cases hf : hit.pendingUpdateFails = true
  · simp only [hf, ite_true]
    split <;> rfl
  · simp only [hf]
    rfl

theorem free_pending (kernel : HeapBpf) (config : BpfConfig) (hit : ProbeHit) (fn : FreeFn) :
    (fn.enter config hit kernel).pending = kernel.pending := by
  rw [freeEnter_eq]
  unfold HeapBpf.freeAllocation
  split
  · rfl
  · exact (releaseSample_spec kernel config hit _).1

theorem probe_pending {kernel kernel' : HeapBpf} {config : BpfConfig} {step : ProbeStep} {tid : UInt32}
    (ht : step.tid ≠ tid) (h : kernel.probe config step = some kernel') :
    kernel'.pending.lookup tid = kernel.pending.lookup tid := by
  cases step with
  | enter fn hit =>
    have ht' : tid ≠ hit.tid := Ne.symm ht
    simp only [HeapBpf.probe, Option.some.injEq] at h
    subst h
    rw [enter_pending]
    split
    · rw [Table.lookup_insert, if_neg ht']
    · rfl
  | exit fn hit =>
    have ht' : tid ≠ hit.tid := Ne.symm ht
    simp only [HeapBpf.probe] at h
    split at h
    · simp only [Option.some.injEq] at h
      subst h
      rw [exit_pending, Table.lookup_erase, if_neg ht']
    · cases h
  | free fn hit =>
    simp only [HeapBpf.probe, Option.some.injEq] at h
    subst h
    rw [free_pending]

theorem step_slotInv {config : BpfConfig} {tid : UInt32} {self next : ThreadWorld} {step : ThreadStep}
    (h : SlotInv tid self) (hs : self.step config tid step = some next) : SlotInv tid next := by
  unfold SlotInv at h ⊢
  cases step with
  | enter fn hit =>
    simp only [ThreadWorld.step] at hs
    split at hs
    · rename_i ht
      simp only [Option.some.injEq] at hs
      subst hs ht
      simp only [enter_pending, List.findSome?_cons]
      cases storedBy self.kernel config hit (fn.args hit.regs) with
      | none => exact h
      | some value => exact Or.inr (AList.lookup_insert _)
    · cases hs
  | exit hit =>
    simp only [ThreadWorld.step] at hs
    split at hs
    · split at hs
      · rename_i ht
        simp only [Option.some.injEq] at hs
        subst hs ht
        exact Or.inl (by rw [exit_pending]; exact AList.lookup_erase _ _)
      · cases hs
    · cases hs
  | free fn hit =>
    simp only [ThreadWorld.step] at hs
    split at hs
    · simp only [Option.some.injEq] at hs
      subst hs
      simp only [free_pending]
      exact h
    · cases hs
  | other p =>
    simp only [ThreadWorld.step] at hs
    split at hs
    · rename_i ht
      obtain ⟨kernel, hk, rfl⟩ := Option.map_eq_some_iff.mp hs
      simp only [probe_pending ht hk]
      exact h
    · cases hs

/-! ## Exits -/

theorem exitAllocs_eq {config : BpfConfig} {hit : ProbeHit} {value : PendingAllocation} {ptr : UInt64} {e : RawEvent} :
    e ∈ exitAllocs config hit value ptr ↔ (value.sampled = true ∧ ptr ≠ 0 ∧ hit.liveUpdateFails = false ∧
      hit.reserve .alloc = true) ∧ e = allocEvent config value ptr := by
  unfold exitAllocs
  split
  · rename_i h
    simp only [Bool.and_eq_true, decide_eq_true_eq, Bool.not_eq_true'] at h
    simp [h]
  · rename_i h
    simp only [Bool.and_eq_true, decide_eq_true_eq, Bool.not_eq_true'] at h
    simp only [List.not_mem_nil, false_iff]
    rintro ⟨⟨h₁, h₂, h₃, h₄⟩, -⟩
    exact h ⟨⟨⟨h₁, h₂⟩, h₃⟩, h₄⟩

theorem exit_allocs {kernel : HeapBpf} {config : BpfConfig} {hit : ProbeHit} {fn : AllocFn} {value : PendingAllocation}
    (h : kernel.pending.lookup hit.tid = some value) {e : RawEvent} :
    e ∈ (fn.exit config hit kernel).events.drop kernel.events.length ∧ e.header.kind = .alloc ↔
      e ∈ exitAllocs config hit value (HeapBpf.returnedPtr hit fn.isPosixMemalign value.outputPtr) := by
  obtain ⟨-, -, -, frees, he, hk⟩ := finishAllocation_spec kernel config hit fn.isPosixMemalign h
  rw [exit_eq, he, List.append_assoc, List.drop_left, List.mem_append]
  constructor
  · rintro ⟨hf | ha, hkind⟩
    · rw [(hk e hf).1] at hkind
      cases hkind
    · exact ha
  · intro ha
    refine ⟨Or.inr ha, ?_⟩
    rw [(exitAllocs_eq.mp ha).2]
    rfl

theorem exit_paired_iff {config : BpfConfig} {tid : UInt32} {self : ThreadWorld} (h : SlotInv tid self)
    (step : ThreadStep) : Paired config tid self step ↔ Unstolen tid self step := by
  cases step with
  | exit hit =>
    constructor
    · -- the stolen event is not the caller's, which stored nothing
      rintro hp ⟨call, calls, value, hc, ht, hn, hv, hs, hptr, hf, hr⟩
      have hv' : self.kernel.pending.lookup hit.tid = some value := by rw [ht]; exact hv
      have hstep : self.step config tid (.exit hit) = some ⟨call.fn.exit config hit self.kernel, calls⟩ := by
        simp only [ThreadWorld.step, hc, ht, ite_true]
      have hmem := (@exit_allocs self.kernel config hit call.fn value hv' _).mpr
        (exitAllocs_eq.mpr ⟨⟨hs, hptr, hf, hr⟩, rfl⟩)
      obtain ⟨own, ho, -⟩ := hp call calls _ hc hstep _ hmem.1 hmem.2
      rw [hn] at ho
      cases ho
    · intro hu call calls next hc hstep e he hk
      simp only [ThreadWorld.step, hc] at hstep
      split at hstep
      · rename_i ht
        simp only [Option.some.injEq] at hstep
        subst hstep ht
        cases hv : self.kernel.pending.lookup hit.tid with
        | none =>
          rw [exit_eq, finishAllocation_none _ _ _ _ hv, List.drop_length] at he
          cases he
        | some value =>
          obtain ⟨⟨hs, hptr, hf, hr⟩, rfl⟩ := exitAllocs_eq.mp ((exit_allocs hv).mp ⟨he, hk⟩)
          cases hst : call.stored with
          | none => exact absurd ⟨call, calls, value, hc, rfl, hst, hv, hs, hptr, hf, hr⟩ hu
          | some own =>
            have hown : value = own := by
              rcases h with h | h
              · rw [hv] at h; cases h
              · rw [hv, hc, List.findSome?_cons, hst] at h
                exact Option.some.inj h
            subst hown
            exact ⟨value, hst, hs, rfl, rfl, rfl,
              congrArg (HeapBpf.returnedPtr hit call.fn.isPosixMemalign) (call.agrees value hst)⟩
      · cases hstep
  | enter fn hit => exact Iff.rfl
  | free fn hit => exact Iff.rfl
  | other p => exact Iff.rfl

/-- **Exits are paired with their own enters exactly when no sample is stolen.**
In every run of a thread's nested calls among the hits of other threads, every
`ALLOC` event carries what its own call stored and returned, if and only if no
call that stored nothing returns a pointer while the sample of a call around it
is pending. -/
theorem allocs_paired_iff (config : BpfConfig) (tid : UInt32) (steps : List ThreadStep) :
    Run.Guarded (ThreadWorld.step config tid) (Paired config tid) ⟨.loaded, []⟩ steps ↔
      Run.Guarded (ThreadWorld.step config tid) (Unstolen tid) ⟨.loaded, []⟩ steps :=
  Run.guarded_congr _ (fun _ _ _ => step_slotInv) (fun _ step h => exit_paired_iff h step) (Or.inl rfl)

/-- A sampled `calloc` around a `malloc` that is not sampled. -/
def nestedMalloc : List ThreadStep :=
  [.enter .calloc { tid := 1, regs := { parm1 := 1, parm2 := 1024 } },
    .enter .malloc { tid := 1, regs := { parm1 := 1024 }, random := (1, 0) },
    .exit { tid := 1, regs := { rc := 0x5000 } }]

/-- The inner exit emits an `ALLOC` event although its enter stored nothing. -/
theorem nestedMalloc_steals : ¬ Run.Guarded (ThreadWorld.step ⟨524288, 1, false⟩ 1) (Paired ⟨524288, 1, false⟩ 1)
    ⟨.loaded, []⟩ nestedMalloc := by
  intro h
  have hexit := ((h.2 _ rfl).2 _ rfl).1
  obtain ⟨value, hv, -⟩ := hexit _ _ _ rfl rfl _ (List.mem_singleton_self _) rfl
  cases hv

end RustProfile
