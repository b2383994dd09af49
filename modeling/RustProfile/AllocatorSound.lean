import RustProfile.HeapBpf
import RustProfile.Lib.Run

/-!
# Tracking across address re-use

`AllocatorWorld` is a program whose threads call the probed functions, with the
allocator in between: it hands out addresses that are not live, and a `realloc`
may give its old block back before it returns. The kernel then owns an entry for
every sampled live block, unless another sampled block has taken the old address
of a `realloc` by the time its return probe looks that address up, or the return
probe of `posix_memalign` could not read the pointer.
-/

namespace RustProfile

/-! ## The allocator and its callers -/

inductive Phase where
  | handed
  | held
  | reallocating (tid : UInt32)
  deriving DecidableEq, Repr

/-- A block that is not free, with the token of the sampled call that returned it. -/
structure Block where
  token : Option ℕ
  phase : Phase
  deriving DecidableEq, Repr

def sampleToken (value : Option PendingAllocation) : Option ℕ :=
  value.bind fun value => if value.sampled then some value.token else none

/-- A probed call that has not returned: what its enter stored and the address
it has been handed. -/
structure Call where
  fn : AllocFn
  args : AllocArgs
  value : Option PendingAllocation
  result : Option UInt64
  agrees : ∀ v, value = some v → v.size = args.size ∧ v.oldPtr = args.oldPtr ∧ v.outputPtr = args.outputPtr ∧
    (v.oldTracked = true → args.oldPtr ≠ 0)
  nonzero : ∀ a, result = some a → a ≠ 0

structure AllocatorWorld where
  kernel : HeapBpf
  blocks : Table UInt64 Block
  calls : Table UInt32 Call

inductive AllocatorStep where
  | enter (fn : AllocFn) (hit : ProbeHit)
  | handOut (tid : UInt32) (address : UInt64)
  | release (tid : UInt32)
  | exit (hit : ProbeHit)
  | free (fn : FreeFn) (hit : ProbeHit)

namespace AllocatorWorld

def begun (self : AllocatorWorld) (config : BpfConfig) (fn : AllocFn) (hit : ProbeHit) : Option PendingAllocation :=
  self.kernel.begunAllocation config hit (fn.args hit.regs).size (fn.args hit.regs).oldPtr
    (fn.args hit.regs).outputPtr (fn.args hit.regs).operation

theorem begun_agrees (self : AllocatorWorld) (config : BpfConfig) (fn : AllocFn) (hit : ProbeHit) :
    ∀ v, self.begun config fn hit = some v → v.size = (fn.args hit.regs).size ∧ v.oldPtr = (fn.args hit.regs).oldPtr ∧
      v.outputPtr = (fn.args hit.regs).outputPtr ∧ (v.oldTracked = true → (fn.args hit.regs).oldPtr ≠ 0) :=
        fun v h => by
  obtain ⟨h₁, h₂, h₃, -, -, h₄⟩ := begunAllocation_spec self.kernel config hit h
  exact ⟨h₁, h₂, h₃, h₄⟩

/-- A program reallocates only a block that it holds. -/
def enterBlocks (self : AllocatorWorld) (tid : UInt32) (oldPtr : UInt64) : Option (Table UInt64 Block) :=
  if oldPtr = 0 then some self.blocks
  else match self.blocks.lookup oldPtr with
    | some ⟨token, .held⟩ => some (self.blocks.insert oldPtr ⟨token, .reallocating tid⟩)
    | _ => none

/-- The pointer that the caller gets. When the probe of a `posix_memalign` that
succeeded fails to read it, the probe goes on with `NULL`. -/
def returnedTo (call : Call) (hit : ProbeHit) : UInt64 :=
  if call.fn.isPosixMemalign ∧ hit.regs.rc = 0 ∧ call.args.outputPtr ≠ 0 ∧ hit.readUser call.args.outputPtr = 0 then
    call.result.getD 0
  else HeapBpf.returnedPtr hit call.fn.isPosixMemalign call.args.outputPtr

/-- The old block of a `realloc` while the allocator has not given it back. -/
def inRealloc (self : AllocatorWorld) (tid : UInt32) (call : Call) : Option Block :=
  if call.args.oldPtr = 0 then none
  else (self.blocks.lookup call.args.oldPtr).filter fun block => block.phase = .reallocating tid

/-- The blocks once a call has returned `ptr`: the address it was handed, the
old block in place, `NULL` with the old block kept, or `NULL` with nothing. -/
def returnBlocks (self : AllocatorWorld) (tid : UInt32) (call : Call) (ptr : UInt64) : Option (Table UInt64 Block) :=
  match call.result, self.inRealloc tid call with
  | some a, none => if ptr = a then some (self.blocks.insert a ⟨sampleToken call.value, .held⟩) else none
  | some _, some _ => none
  | none, some old =>
    if ptr = call.args.oldPtr then some (self.blocks.insert call.args.oldPtr ⟨sampleToken call.value, .held⟩)
    else if ptr = 0 ∧ call.args.size ≠ 0 then some (self.blocks.insert call.args.oldPtr ⟨old.token, .held⟩)
    else none
  | none, none => if ptr = 0 ∧ (call.args.oldPtr = 0 ∨ call.args.size = 0) then some self.blocks else none

/-- No map update fails, nothing is evicted, and no thread is inside a probed
call when it makes another. -/
def step (config : BpfConfig) (self : AllocatorWorld) : AllocatorStep → Option AllocatorWorld
  | .enter fn hit =>
    if hit.pendingUpdateFails = false ∧ self.calls.lookup hit.tid = none then
      (self.enterBlocks hit.tid (fn.args hit.regs).oldPtr).map fun blocks =>
        let call : Call :=
          { fn := fn, args := fn.args hit.regs, value := self.begun config fn hit, result := none
            agrees := begun_agrees self config fn hit, nonzero := fun _ h => by cases h }
        { kernel := fn.enter config hit self.kernel, blocks := blocks, calls := self.calls.insert hit.tid call }
    else none
  | .handOut tid address =>
    match self.calls.lookup tid with
    | none => none
    | some call =>
      -- an address is handed out only while nobody has it
      if h : call.result = none ∧ address ≠ 0 ∧ address ∉ self.blocks then
        let call := { call with result := some address, nonzero := fun _ e => Option.some.inj e ▸ h.2.1 }
        some { self with
          blocks := self.blocks.insert address ⟨none, .handed⟩
          calls := self.calls.insert tid call }
      else none
  | .release tid =>
    match self.calls.lookup tid with
    | none => none
    | some call =>
      -- the allocator gives the old block back before the return probe runs
      (self.inRealloc tid call).map fun _ => { self with blocks := self.blocks.erase call.args.oldPtr }
  | .exit hit =>
    match self.calls.lookup hit.tid with
    | none => none
    | some call =>
      if hit.liveUpdateFails = false ∧ hit.evicted = [] then
        (self.returnBlocks hit.tid call (returnedTo call hit)).map fun blocks =>
          { kernel := call.fn.exit config hit self.kernel, blocks := blocks, calls := self.calls.erase hit.tid }
      else none
  | .free fn hit =>
    if self.calls.lookup hit.tid = none then
      -- `free(NULL)`
      if hit.regs.parm1 = 0 then some { self with kernel := fn.enter config hit self.kernel }
      else match self.blocks.lookup hit.regs.parm1 with
        | some ⟨_, .held⟩ =>
          some { self with kernel := fn.enter config hit self.kernel, blocks := self.blocks.erase hit.regs.parm1 }
        | _ => none
    else none

end AllocatorWorld

/-! ## What is claimed -/

def Owned (self : AllocatorWorld) : Prop :=
  ∀ a block token, self.blocks.lookup a = some block → block.token = some token →
    self.kernel.liveSamples.lookup a = some token

/-- No `FREE` event of the step names the token of an allocation that is still
live, returned or not. -/
def FreesDead (self next : AllocatorWorld) : Prop :=
  ∀ event ∈ next.kernel.events.drop self.kernel.events.length, event.header.kind = .free →
    (∀ a block, next.blocks.lookup a = some block → block.token ≠ some event.header.token) ∧
      ∀ tid call, next.calls.lookup tid = some call → sampleToken call.value ≠ some event.header.token

/-- The exit releases the old address of its `realloc` while another sampled
block is there. -/
def OldAddressReused (self : AllocatorWorld) (hit : ProbeHit) : Prop :=
  ∃ call value block, self.calls.lookup hit.tid = some call ∧ call.value = some value ∧
    HeapBpf.releasesOld value (HeapBpf.returnedPtr hit call.fn.isPosixMemalign call.args.outputPtr) = true ∧
    self.blocks.lookup value.oldPtr = some block ∧ block.token ≠ none ∧ block.phase ≠ .reallocating hit.tid

/-- The exit of a sampled call goes on with another pointer than its caller. -/
def PointerUnread (self : AllocatorWorld) (hit : ProbeHit) : Prop :=
  ∃ call, self.calls.lookup hit.tid = some call ∧ sampleToken call.value ≠ none ∧
    AllocatorWorld.returnedTo call hit ≠ HeapBpf.returnedPtr hit call.fn.isPosixMemalign call.args.outputPtr

/-- The condition on a step: an exit reads its pointer and finds the old address as it was. -/
def SeesPointers (self : AllocatorWorld) : AllocatorStep → Prop
  | .exit hit => ¬ OldAddressReused self hit ∧ ¬ PointerUnread self hit
  | _ => True

/-! ## The invariant -/

structure AllocatorInv (w : AllocatorWorld) : Prop where
  owned : Owned w
  unique : ∀ a a' token, w.kernel.liveSamples.lookup a = some token → w.kernel.liveSamples.lookup a' = some token →
    a = a'
  bound : ∀ a token, w.kernel.liveSamples.lookup a = some token → token ≤ w.kernel.nextToken
  pending : ∀ tid, w.kernel.pending.lookup tid = (w.calls.lookup tid).bind Call.value
  fresh : ∀ tid call token, w.calls.lookup tid = some call → sampleToken call.value = some token →
    token ≤ w.kernel.nextToken ∧ ∀ a, w.kernel.liveSamples.lookup a ≠ some token
  distinct : ∀ tid tid' call call' token, w.calls.lookup tid = some call → w.calls.lookup tid' = some call' →
    sampleToken call.value = some token → sampleToken call'.value = some token → tid = tid'

theorem sampleToken_eq {value : Option PendingAllocation} {token : ℕ} :
    sampleToken value = some token ↔ ∃ v, value = some v ∧ v.sampled = true ∧ v.token = token := by
  unfold sampleToken
  cases value with
  | none => simp
  | some v => by_cases hs : v.sampled = true <;> simp [hs]

/-- Steps that leave the kernel and the pending values alone need only keep the tokens of blocks. -/
theorem AllocatorInv.frame {w w' : AllocatorWorld} (h : AllocatorInv w) (hk : w'.kernel = w.kernel)
    (hb : ∀ a block token, w'.blocks.lookup a = some block → block.token = some token →
      ∃ block', w.blocks.lookup a = some block' ∧ block'.token = some token)
    (hc : ∀ tid, (w'.calls.lookup tid).map Call.value = (w.calls.lookup tid).map Call.value) : AllocatorInv w' := by
  have hval : ∀ {tid call}, w'.calls.lookup tid = some call →
      ∃ call', w.calls.lookup tid = some call' ∧ call'.value = call.value := fun {tid call} hl => by
    have := hc tid
    rw [hl, Option.map_some] at this
    exact Option.map_eq_some_iff.mp this.symm
  refine ⟨fun a block token ha ht => ?_, ?_, ?_, fun tid => ?_, fun tid call token hl ht => ?_,
    fun tid tid' call call' token hl hl' ht ht' => ?_⟩
  · obtain ⟨block', hb', ht'⟩ := hb a block token ha ht
    rw [hk]
    exact h.owned a block' token hb' ht'
  · rw [hk]; exact h.unique
  · rw [hk]; exact h.bound
  · have := hc tid
    rw [hk, h.pending]
    cases hl : w.calls.lookup tid <;> cases hl' : w'.calls.lookup tid <;> simp_all
  · obtain ⟨call', hl', hv⟩ := hval hl
    rw [hk]
    exact h.fresh tid call' token hl' (hv ▸ ht)
  · obtain ⟨c, hc, hv⟩ := hval hl
    obtain ⟨c', hc', hv'⟩ := hval hl'
    exact h.distinct tid tid' c c' token hc hc' (hv ▸ ht) (hv' ▸ ht')

section
variable {config : BpfConfig} {w w' : AllocatorWorld}

theorem handOut_inv (h : AllocatorInv w) {tid : UInt32} {address : UInt64}
    (hs : w.step config (.handOut tid address) = some w') : AllocatorInv w' ∧ w'.kernel = w.kernel := by
  simp only [AllocatorWorld.step] at hs
  split at hs
  · cases hs
  · rename_i call hcall
    split at hs
    · simp only [Option.some.injEq] at hs
      subst hs
      refine ⟨h.frame rfl (fun a block token ha ht => ?_) fun t => ?_, rfl⟩
      · rcases Table.lookup_insert_eq_some.mp ha with ⟨-, rfl⟩ | ⟨-, ha⟩
        · cases ht
        · exact ⟨block, ha, ht⟩
      · dsimp only
        rw [Table.lookup_insert]
        split
        · rename_i e; subst e; rw [hcall]; rfl
        · rfl
    · cases hs

theorem release_inv (h : AllocatorInv w) {tid : UInt32} (hs : w.step config (.release tid) = some w') :
    AllocatorInv w' ∧ w'.kernel = w.kernel := by
  simp only [AllocatorWorld.step] at hs
  split at hs
  · cases hs
  · obtain ⟨_, -, rfl⟩ := Option.map_eq_some_iff.mp hs
    refine ⟨h.frame rfl (fun a block token ha ht => ?_) fun _ => rfl, rfl⟩
    exact ⟨block, (Table.lookup_erase_eq_some.mp ha).2, ht⟩

theorem freesDead_of_kernel (hk : w'.kernel = w.kernel) : FreesDead w w' := by
  intro e he
  rw [hk, List.drop_length] at he
  cases he

theorem enterBlocks_token {tid : UInt32} {oldPtr : UInt64} {blocks : Table UInt64 Block}
    (hb : w.enterBlocks tid oldPtr = some blocks) {a : UInt64} {block : Block} (ha : blocks.lookup a = some block) :
    ∃ block', w.blocks.lookup a = some block' ∧ block'.token = block.token := by
  unfold AllocatorWorld.enterBlocks at hb
  split at hb
  · simp only [Option.some.injEq] at hb
    subst hb
    exact ⟨block, ha, rfl⟩
  · split at hb
    · rename_i token hl
      simp only [Option.some.injEq] at hb
      subst hb
      rcases Table.lookup_insert_eq_some.mp ha with ⟨rfl, rfl⟩ | ⟨-, ha⟩
      · exact ⟨_, hl, rfl⟩
      · exact ⟨block, ha, rfl⟩
    · cases hb

theorem enter_kernel (w : AllocatorWorld) (config : BpfConfig) (fn : AllocFn) {hit : ProbeHit}
    (hf : hit.pendingUpdateFails = false) :
    (fn.enter config hit w.kernel).liveSamples = w.kernel.liveSamples ∧
      (∀ tid, (fn.enter config hit w.kernel).pending.lookup tid =
        if tid = hit.tid ∧ (w.begun config fn hit).isSome then w.begun config fn hit
        else w.kernel.pending.lookup tid) ∧
      w.kernel.nextToken ≤ (fn.enter config hit w.kernel).nextToken ∧
      (∀ token, sampleToken (w.begun config fn hit) = some token →
        token = w.kernel.nextToken + 1 ∧ (fn.enter config hit w.kernel).nextToken = token) ∧
      ∃ es, (fn.enter config hit w.kernel).events = w.kernel.events ++ es ∧ ∀ e ∈ es, e.header.kind = .stack := by
  obtain ⟨hlive, hpend, htok, hev⟩ := beginAllocation_spec w.kernel config hit (fn.args hit.regs).size
    (fn.args hit.regs).oldPtr (fn.args hit.regs).outputPtr (fn.args hit.regs).operation
  rw [← enter_eq] at hlive hpend htok hev
  cases hb : w.begun config fn hit with
  | none =>
    rw [show w.kernel.begunAllocation config hit _ _ _ _ = none from hb] at hpend htok
    refine ⟨hlive, fun tid => ?_, Nat.le_of_eq htok.symm, (fun token ht => ?_), hev⟩
    · rw [hpend]; simp
    · simp [sampleToken] at ht
  | some v =>
    have hb' : w.kernel.begunAllocation config hit (fn.args hit.regs).size (fn.args hit.regs).oldPtr
      (fn.args hit.regs).outputPtr (fn.args hit.regs).operation = some v := hb
    have htoken := fun hs => (begunAllocation_spec w.kernel config hit hb').2.2.2.2.1 hs
    rw [hb'] at hpend htok
    refine ⟨hlive, fun tid => ?_, ?_, fun token ht => ?_, hev⟩
    · rw [hpend]
      simp only [hf, Bool.false_eq_true, ite_false, Table.lookup_insert, Option.isSome_some, and_true]
    · rw [htok]
      dsimp only
      split
      · rename_i hs; rw [htoken hs]; exact Nat.le_succ _
      · exact Nat.le_refl _
    · obtain ⟨v', hv', hs, rfl⟩ := sampleToken_eq.mp ht
      simp only [Option.some.injEq] at hv'
      subst hv'
      exact ⟨htoken hs, by rw [htok]; simp only [hs, ite_true]⟩

theorem enter_inv (h : AllocatorInv w) {fn : AllocFn} {hit : ProbeHit}
    (hs : w.step config (.enter fn hit) = some w') : AllocatorInv w' ∧ FreesDead w w' := by
  simp only [AllocatorWorld.step] at hs
  split at hs
  · rename_i hok
    obtain ⟨hf, hnone⟩ := hok
    obtain ⟨blocks, hb, rfl⟩ := Option.map_eq_some_iff.mp hs
    obtain ⟨hlive, hpend, hle, hnew, es, hev, hstack⟩ := enter_kernel w config fn hf
    -- a call is the new one or was open before
    have hcalls : ∀ {new : Call}, new.value = w.begun config fn hit → ∀ {tid call},
        (w.calls.insert hit.tid new).lookup tid = some call →
        (tid = hit.tid ∧ call.value = w.begun config fn hit) ∨ w.calls.lookup tid = some call :=
      fun {new} hv {tid call} hl => by
        rcases Table.lookup_insert_eq_some.mp hl with ⟨e, rfl⟩ | ⟨-, hl⟩
        · exact Or.inl ⟨e, hv⟩
        · exact Or.inr hl
    refine ⟨⟨fun a block token ha ht => ?_, ?_, fun a token ha => ?_, fun tid => ?_, fun tid call token hl ht => ?_,
      fun tid tid' call call' token hl hl' ht ht' => ?_⟩, fun e he hk => ?_⟩
    · obtain ⟨block', hb', ht'⟩ := enterBlocks_token hb ha
      dsimp only
      rw [hlive]
      exact h.owned a block' token hb' (ht'.trans ht)
    · dsimp only
      rw [hlive]
      exact h.unique
    · dsimp only at ha ⊢
      rw [hlive] at ha
      exact Nat.le_trans (h.bound a token ha) hle
    · dsimp only
      rw [Table.lookup_insert, hpend, h.pending]
      by_cases e : tid = hit.tid
      · subst e
        rw [if_pos rfl, hnone]
        change _ = w.begun config fn hit
        cases w.begun config fn hit <;> simp
      · simp [e]
    · dsimp only
      rw [hlive]
      rcases hcalls rfl hl with ⟨-, hv⟩ | hl
      · obtain ⟨rfl, htok⟩ := hnew token (hv ▸ ht)
        exact ⟨Nat.le_of_eq htok.symm, fun a ha => absurd (h.bound a _ ha) (Nat.not_succ_le_self _)⟩
      · exact ⟨Nat.le_trans (h.fresh tid call token hl ht).1 hle, (h.fresh tid call token hl ht).2⟩
    · have hnot : ∀ {tid call}, w.calls.lookup tid = some call → sampleToken call.value = some token →
          token ≠ w.kernel.nextToken + 1 := fun hl ht e =>
        absurd (e ▸ (h.fresh _ _ token hl ht).1) (Nat.not_succ_le_self _)
      rcases hcalls rfl hl with ⟨e, hv⟩ | hl <;> rcases hcalls rfl hl' with ⟨e', hv'⟩ | hl'
      · exact e.trans e'.symm
      · exact absurd (hnew token (hv ▸ ht)).1 (hnot hl' ht')
      · exact absurd (hnew token (hv' ▸ ht')).1 (hnot hl ht)
      · exact h.distinct tid tid' call call' token hl hl' ht ht'
    · dsimp only at he
      rw [hev, List.drop_left] at he
      rw [hstack e he] at hk
      cases hk
  · cases hs

theorem free_inv (h : AllocatorInv w) {fn : FreeFn} {hit : ProbeHit} (hs : w.step config (.free fn hit) = some w') :
    AllocatorInv w' ∧ FreesDead w w' := by
  simp only [AllocatorWorld.step, freeEnter_eq, HeapBpf.freeAllocation] at hs
  split at hs
  · by_cases hp : hit.regs.parm1 = 0
    · simp only [hp, ite_true, Option.some.injEq] at hs
      subst hs
      exact ⟨h, freesDead_of_kernel rfl⟩
    · simp only [hp, ite_false] at hs
      split at hs
      · simp only [Option.some.injEq] at hs
        subst hs
        obtain ⟨hpend, htok, hlive, es, hev, hfree⟩ := releaseSample_spec w.kernel config hit hit.regs.parm1
        have hsub : ∀ {a token}, (w.kernel.releaseSample config hit hit.regs.parm1).liveSamples.lookup a = some token →
            w.kernel.liveSamples.lookup a = some token := fun {a token} ha => by
          rw [hlive] at ha
          split at ha
          · cases ha
          · exact ha
        refine ⟨⟨fun a block token ha ht => ?_, ?_, fun a token ha => ?_, fun tid => ?_, fun tid call token hl ht => ?_,
          h.distinct⟩, fun e he hk => ⟨fun a block ha ht => ?_, fun tid call hl ht => ?_⟩⟩
        · obtain ⟨hne, ha⟩ := Table.lookup_erase_eq_some.mp ha
          dsimp only
          rw [hlive, if_neg hne]
          exact h.owned a block token ha ht
        · exact fun a a' token ha ha' => h.unique a a' token (hsub ha) (hsub ha')
        · dsimp only
          rw [htok]
          exact h.bound a token (hsub ha)
        · dsimp only
          rw [hpend]
          exact h.pending tid
        · dsimp only
          rw [htok]
          exact ⟨(h.fresh tid call token hl ht).1, fun a ha => (h.fresh tid call token hl ht).2 a (hsub ha)⟩
        · dsimp only at he ha
          rw [hev, List.drop_left] at he
          obtain ⟨hne, ha⟩ := Table.lookup_erase_eq_some.mp ha
          exact hne (h.unique _ _ _ (h.owned a block _ ha ht) (hfree e he).2)
        · dsimp only at he hl
          rw [hev, List.drop_left] at he
          exact (h.fresh tid call _ hl ht).2 _ (hfree e he).2
      · cases hs
  · cases hs

theorem inRealloc_eq {tid : UInt32} {call : Call} {old : Block} : w.inRealloc tid call = some old ↔
    call.args.oldPtr ≠ 0 ∧ w.blocks.lookup call.args.oldPtr = some old ∧ old.phase = .reallocating tid := by
  unfold AllocatorWorld.inRealloc
  split
  · rename_i h0
    simp [h0]
  · rename_i h0
    rw [Option.filter_eq_some_iff]
    simp [h0]

/-- A block with a token after a return is the returned one, or was there before
and is not the old block of a `realloc` that succeeded. -/
theorem returnBlocks_token {tid : UInt32} {call : Call} {ptr : UInt64} {blocks : Table UInt64 Block}
    (hb : w.returnBlocks tid call ptr = some blocks) {a : UInt64} {block : Block} {token : ℕ}
    (ha : blocks.lookup a = some block) (ht : block.token = some token) :
    (a = ptr ∧ ptr ≠ 0 ∧ sampleToken call.value = some token) ∨
      ((ptr ≠ 0 → a ≠ ptr) ∧ ∃ block', w.blocks.lookup a = some block' ∧ block'.token = some token ∧
        (a = call.args.oldPtr → a ≠ 0 → block'.phase = .reallocating tid → ptr = 0 ∧ call.args.size ≠ 0)) := by
  have hnone : w.inRealloc tid call = none → ∀ {b : Block}, w.blocks.lookup a = some b → a = call.args.oldPtr → a ≠ 0 →
      b.phase = .reallocating tid → ptr = 0 ∧ call.args.size ≠ 0 := fun hin {b} hl e h0 hph => by
    subst e
    rw [inRealloc_eq.mpr ⟨h0, hl, hph⟩] at hin
    cases hin
  unfold AllocatorWorld.returnBlocks at hb
  split at hb
  · -- the address it was handed
    rename_i r hr hin
    split at hb
    · rename_i e
      simp only [Option.some.injEq] at hb
      subst hb e
      rcases Table.lookup_insert_eq_some.mp ha with ⟨e, rfl⟩ | ⟨hne, ha⟩
      · exact Or.inl ⟨e, call.nonzero _ hr, ht⟩
      · exact Or.inr ⟨fun _ => hne, block, ha, ht, hnone hin ha⟩
    · cases hb
  · cases hb
  · rename_i old hr hin
    obtain ⟨h0, hold, hph⟩ := inRealloc_eq.mp hin
    split at hb
    · -- the old block in place
      rename_i e
      simp only [Option.some.injEq] at hb
      subst hb e
      rcases Table.lookup_insert_eq_some.mp ha with ⟨e, rfl⟩ | ⟨hne, ha⟩
      · exact Or.inl ⟨e, h0, ht⟩
      · exact Or.inr ⟨fun _ => hne, block, ha, ht, fun e => absurd e hne⟩
    · split at hb
      · -- `NULL`, the old block is kept
        rename_i hz
        simp only [Option.some.injEq] at hb
        subst hb
        rcases Table.lookup_insert_eq_some.mp ha with ⟨rfl, rfl⟩ | ⟨hne, ha⟩
        · exact Or.inr ⟨fun h => absurd hz.1 h, old, hold, ht, fun _ _ _ => hz⟩
        · exact Or.inr ⟨fun h => absurd hz.1 h, block, ha, ht, fun e => absurd e hne⟩
      · cases hb
  · rename_i hr hin
    split at hb
    · rename_i hz
      simp only [Option.some.injEq] at hb
      subst hb
      exact Or.inr ⟨fun h => absurd hz.1 h, block, ha, ht, hnone hin ha⟩
    · cases hb

/-- A pointer that the probe cannot read is `NULL` to it. -/
theorem returnedTo_eq {hit : ProbeHit} {call : Call} (hcall : w.calls.lookup hit.tid = some call)
    (hread : ¬ PointerUnread w hit) :
    AllocatorWorld.returnedTo call hit = HeapBpf.returnedPtr hit call.fn.isPosixMemalign call.args.outputPtr ∨
      HeapBpf.returnedPtr hit call.fn.isPosixMemalign call.args.outputPtr = 0 ∧ sampleToken call.value = none := by
  by_cases hsampled : sampleToken call.value = none
  · unfold AllocatorWorld.returnedTo
    split
    · rename_i hunread
      refine Or.inr ⟨?_, hsampled⟩
      rw [HeapBpf.returnedPtr, if_pos hunread.1, if_pos ⟨hunread.2.1, hunread.2.2.1⟩]
      exact hunread.2.2.2
    · exact Or.inl rfl
  · exact Or.inl (by_contra fun hne => hread ⟨call, hcall, hsampled, hne⟩)

/-- `returnBlocks_token` for the pointer that the probe goes on with. -/
theorem returnBlocks_read {tid : UInt32} {call : Call} {ptr read : UInt64} {blocks : Table UInt64 Block}
    (hb : w.returnBlocks tid call ptr = some blocks) (hread : ptr = read ∨ read = 0 ∧ sampleToken call.value = none)
    {a : UInt64} {block : Block} {token : ℕ} (ha : blocks.lookup a = some block) (ht : block.token = some token) :
    (a = read ∧ read ≠ 0 ∧ sampleToken call.value = some token) ∨
      ((read ≠ 0 → a ≠ read) ∧ ∃ block', w.blocks.lookup a = some block' ∧ block'.token = some token ∧
        (a = call.args.oldPtr → a ≠ 0 → block'.phase = .reallocating tid → read = 0 ∧ call.args.size ≠ 0)) := by
  rcases hread with rfl | ⟨hzero, hnone⟩
  · exact returnBlocks_token hb ha ht
  · rcases returnBlocks_token hb ha ht with ⟨-, -, hs⟩ | ⟨-, block', hl, ht', hph⟩
    · rw [hnone] at hs
      cases hs
    · exact Or.inr ⟨fun h => absurd hzero h, block', hl, ht', fun ho h0 hp => ⟨hzero, (hph ho h0 hp).2⟩⟩

theorem exit_kernel (k : HeapBpf) (config : BpfConfig) (call : Call) {hit : ProbeHit}
    (hslot : k.pending.lookup hit.tid = call.value) (hf : hit.liveUpdateFails = false) (hev : hit.evicted = []) :
    let ptr := HeapBpf.returnedPtr hit call.fn.isPosixMemalign call.args.outputPtr
    let k' := call.fn.exit config hit k
    k'.nextToken = k.nextToken ∧
      (∀ token, sampleToken call.value = some token → ptr ≠ 0 → k'.liveSamples.lookup ptr = some token) ∧
      (∀ a token, k'.liveSamples.lookup a = some token →
        k.liveSamples.lookup a = some token ∨ (a = ptr ∧ sampleToken call.value = some token)) ∧
      (∀ a token, k.liveSamples.lookup a = some token → (ptr ≠ 0 → a ≠ ptr) →
        (∀ v, call.value = some v → HeapBpf.releasesOld v ptr = true → a ≠ v.oldPtr) →
        k'.liveSamples.lookup a = some token) ∧
      ∀ e ∈ k'.events.drop k.events.length, e.header.kind = .free →
        ∃ v, call.value = some v ∧ HeapBpf.releasesOld v ptr = true ∧
          k.liveSamples.lookup v.oldPtr = some e.header.token := by
  intro ptr k'
  cases hv : call.value with
  | none =>
    have hk : k' = k := by
      simp only [k', exit_eq]
      exact finishAllocation_none _ _ _ _ (hslot.trans hv)
    rw [hk]
    refine ⟨rfl, fun token ht => ?_, fun a token ha => Or.inl ha, fun a token ha _ _ => ha, fun e he => ?_⟩
    · cases ht
    · rw [List.drop_length] at he
      cases he
  | some v =>
    obtain ⟨-, -, hout, -⟩ := call.agrees v hv
    have hspec := finishAllocation_spec k config hit call.fn.isPosixMemalign (hslot.trans hv)
    rw [← exit_eq, hout] at hspec
    obtain ⟨-, htok, hlive, frees, hevents, hfrees⟩ := hspec
    have hl := hlive hf hev
    change ∀ a, k'.liveSamples.lookup a =
      if (v.sampled && decide (ptr ≠ 0) && decide (a = ptr)) = true then some v.token
      else if (HeapBpf.releasesOld v ptr && decide (a = v.oldPtr)) = true then none else k.liveSamples.lookup a at hl
    refine ⟨htok, fun token ht h0 => ?_, fun a token ha => ?_, fun a token ha h0 hrel => ?_, fun e he hk => ?_⟩
    · obtain ⟨v', hv', hs, rfl⟩ := sampleToken_eq.mp ht
      simp only [Option.some.injEq] at hv'
      subst hv'
      rw [hl]
      simp [hs, h0]
    · rw [hl] at ha
      split at ha
      · rename_i hc
        simp only [Bool.and_eq_true, decide_eq_true_eq] at hc
        exact Or.inr ⟨hc.2, sampleToken_eq.mpr ⟨v, rfl, hc.1.1, Option.some.inj ha⟩⟩
      · split at ha
        · cases ha
        · exact Or.inl ha
    · rw [hl, if_neg, if_neg]
      · exact ha
      · simp only [Bool.and_eq_true, decide_eq_true_eq]
        exact fun hc => hrel v rfl hc.1 hc.2
      · simp only [Bool.and_eq_true, decide_eq_true_eq]
        exact fun hc => h0 hc.1.2 hc.2
    · rw [hevents, List.append_assoc, List.drop_left] at he
      rcases List.mem_append.mp he with he | he
      · exact ⟨v, rfl, (hfrees e he).2⟩
      · unfold exitAllocs at he
        split at he
        · rw [List.mem_singleton.mp he] at hk
          cases hk
        · cases he

theorem exit_inv (h : AllocatorInv w) {hit : ProbeHit} (hfree : ¬ OldAddressReused w hit)
    (hpointer : ¬ PointerUnread w hit) (hs : w.step config (.exit hit) = some w') : AllocatorInv w' ∧
      FreesDead w w' := by
  simp only [AllocatorWorld.step] at hs
  split at hs
  · cases hs
  rename_i call hcall
  split at hs
  rotate_left
  · cases hs
  rename_i hok
  obtain ⟨blocks, hb, rfl⟩ := Option.map_eq_some_iff.mp hs
  have hslot : w.kernel.pending.lookup hit.tid = call.value := by rw [h.pending, hcall]; rfl
  have hread := returnedTo_eq hcall hpointer
  obtain ⟨htok, hnew, hold, hkeep, hfrees⟩ := exit_kernel w.kernel config call hslot hok.1 hok.2
  generalize hptr : HeapBpf.returnedPtr hit call.fn.isPosixMemalign call.args.outputPtr = ptr at *
  have hcalls : ∀ {tid c}, (w.calls.erase hit.tid).lookup tid = some c → tid ≠ hit.tid ∧ w.calls.lookup tid = some c :=
    fun {tid c} hl => Table.lookup_erase_eq_some.mp hl
  -- a block with a token that was there before is not at the old address of a `realloc` that succeeded
  have hkept : ∀ {a block'} {token : ℕ}, w.blocks.lookup a = some block' → block'.token = some token →
      (a = call.args.oldPtr → a ≠ 0 → block'.phase = .reallocating hit.tid → ptr = 0 ∧ call.args.size ≠ 0) →
      ∀ v, call.value = some v → HeapBpf.releasesOld v ptr = true → a ≠ v.oldPtr := by
    rintro a block' token hl ht hph v hv hrel rfl
    obtain ⟨hsize, ho, -, h0⟩ := call.agrees v hv
    by_cases hphase : block'.phase = .reallocating hit.tid
    · have htracked : v.oldTracked = true := by
        simp only [HeapBpf.releasesOld, Bool.and_eq_true] at hrel
        exact hrel.1.2
      have hoperation : v.operation = .realloc := by
        simp only [HeapBpf.releasesOld, Bool.and_eq_true, decide_eq_true_eq] at hrel
        exact hrel.1.1
      obtain ⟨hz, hsz⟩ := hph ho (ho ▸ h0 htracked) hphase
      simp [HeapBpf.releasesOld, hoperation, hz, hsize, hsz] at hrel
    · exact hfree ⟨call, v, block', hcall, hv, by rw [hptr]; exact hrel, hl, by rw [ht]; simp, hphase⟩
  refine ⟨⟨fun a block token ha ht => ?_, fun a a' token ha ha' => ?_, fun a token ha => ?_, fun tid => ?_,
    fun tid c token hl ht => ?_, fun tid tid' c c' token hl hl' => ?_⟩,
    fun e he hk => ⟨fun a block ha ht => ?_, fun tid c hl ht => ?_⟩⟩
  -- the block is the one returned, or was there before
  · rcases returnBlocks_read hb hread ha ht with ⟨rfl, h0, ht'⟩ | ⟨hne, block', hl, ht', hph⟩
    · exact hnew token ht' h0
    · exact hkeep a token (h.owned a block' token hl ht') hne (hkept hl ht' hph)
  -- two entries of one token: a new one has a token that no old one has
  · rcases hold a token ha with hl | ⟨rfl, ht⟩ <;> rcases hold a' token ha' with hl' | ⟨rfl, ht'⟩
    · exact h.unique a a' token hl hl'
    · exact absurd hl ((h.fresh _ call token hcall ht').2 a)
    · exact absurd hl' ((h.fresh _ call token hcall ht).2 a')
    · rfl
  · dsimp only
    rw [htok]
    rcases hold a token ha with hl | ⟨-, ht⟩
    · exact h.bound a token hl
    · exact (h.fresh _ call token hcall ht).1
  · dsimp only
    rw [exit_pending, Table.lookup_erase, Table.lookup_erase, h.pending]
    split <;> rfl
  · dsimp only
    rw [htok]
    obtain ⟨hne, hl⟩ := hcalls hl
    refine ⟨(h.fresh tid c token hl ht).1, fun a ha => ?_⟩
    rcases hold a token ha with hl' | ⟨-, ht'⟩
    · exact (h.fresh tid c token hl ht).2 a hl'
    · exact hne (h.distinct tid hit.tid c call token hl hcall ht ht')
  · exact h.distinct tid tid' c c' token (hcalls hl).2 (hcalls hl').2
  -- the only `FREE` is for the old address, where no live block can be
  · obtain ⟨v, hv, hrel, hlook⟩ := hfrees e he hk
    rcases returnBlocks_read hb hread ha ht with ⟨-, -, ht'⟩ | ⟨-, block', hl, ht', hph⟩
    · exact (h.fresh _ call _ hcall ht').2 _ hlook
    · exact hkept hl ht' hph v hv hrel (h.unique _ _ _ (h.owned a block' _ hl ht') hlook)
  · obtain ⟨v, hv, hrel, hlook⟩ := hfrees e he hk
    exact (h.fresh tid c _ (hcalls hl).2 ht).2 _ hlook

theorem allocatorStep_inv (h : AllocatorInv w) {step : AllocatorStep} (hok : SeesPointers w step)
    (hs : w.step config step = some w') : AllocatorInv w' ∧ FreesDead w w' := by
  cases step with
  | enter fn hit => exact enter_inv h hs
  | handOut tid address => exact (handOut_inv h hs).imp_right freesDead_of_kernel
  | release tid => exact (release_inv h hs).imp_right freesDead_of_kernel
  | exit hit => exact exit_inv h hok.1 hok.2 hs
  | free fn hit => exact free_inv h hs

end

def AllocatorWorld.attached (blocks : Table UInt64 Block) : AllocatorWorld where
  kernel := .loaded
  blocks := blocks
  calls := ∅

theorem attached_inv {blocks : Table UInt64 Block} (h : ∀ a block, blocks.lookup a = some block → block.token = none) :
    AllocatorInv (.attached blocks) := by
  have hno : ∀ {a : UInt64} {token : ℕ}, HeapBpf.loaded.liveSamples.lookup a ≠ some token := fun {a token} ha => by
    simp [HeapBpf.loaded] at ha
  refine ⟨fun a block token ha ht => ?_, fun _ _ _ ha => absurd ha hno, fun _ _ ha => absurd ha hno, fun _ => rfl,
    fun tid call token hl => ?_, fun tid _ call _ token hl => ?_⟩
  · rw [h a block ha] at ht
    cases ht
  · simp [AllocatorWorld.attached] at hl
  · simp [AllocatorWorld.attached] at hl

/-- **No sampled live block loses its entry**, as long as no return probe of a
`realloc` finds another sampled block at its old address and none of a sampled
`posix_memalign` fails to read its pointer: after every step every sampled block
has its own entry, and no `FREE` event named a live allocation. -/
theorem samples_owned (config : BpfConfig) (blocks : Table UInt64 Block) {steps : List AllocatorStep}
    {step : AllocatorStep} {w w' : AllocatorWorld}
    (hblocks : ∀ a block, blocks.lookup a = some block → block.token = none)
    (hguard : Run.Guarded (AllocatorWorld.step config) SeesPointers (.attached blocks) (steps ++ [step]))
    (hrun : Run.run (AllocatorWorld.step config) (.attached blocks) steps = some w)
    (hstep : w.step config step = some w') : Owned w' ∧ FreesDead w w' := by
  obtain ⟨hg, hg'⟩ := (Run.guarded_append _ hrun).mp hguard
  have hinv : AllocatorInv w :=
    Run.run_inv _ (fun _ _ _ h hok hs => (allocatorStep_inv h hok hs).1) (attached_inv hblocks) hg hrun
  exact (allocatorStep_inv hinv hg'.1 hstep).imp_left AllocatorInv.owned

def movedBlock : List AllocatorStep :=
  [.enter .malloc { tid := 1, regs := { parm1 := 524288 } }, .handOut 1 0x1000,
    .exit { tid := 1, regs := { rc := 0x1000 } },
    .enter .realloc { tid := 1, regs := { parm1 := 0x1000, parm2 := 524288 } }, .handOut 1 0x2000, .release 1]

def movedReturn : AllocatorStep := .exit { tid := 1, regs := { rc := 0x2000 } }

theorem movedBlock_free : Run.Guarded (AllocatorWorld.step ⟨524288, 1, false⟩) SeesPointers (.attached ∅)
    (movedBlock ++ [movedReturn]) := by
  have hsteps : ∀ {call : Call} {w : AllocatorWorld} {hit : ProbeHit}, w.calls.lookup hit.tid = some call →
      w.blocks.lookup call.args.oldPtr = none → call.fn.isPosixMemalign = false →
        ¬ OldAddressReused w hit ∧ ¬ PointerUnread w hit := by
    refine fun {call w hit} hc hn hfn => ⟨?_, ?_⟩
    · rintro ⟨call', value, block, hc', hv, -, hl, -, -⟩
      rw [hc, Option.some.injEq] at hc'
      subst hc'
      rw [(call.agrees value hv).2.1, hn] at hl
      cases hl
    · rintro ⟨call', hc', -, hne⟩
      rw [hc, Option.some.injEq] at hc'
      subst hc'
      exact hne (if_neg fun h => by simp [hfn] at h)
  refine Run.guarded_cons _ trivial rfl (Run.guarded_cons _ trivial rfl ?_)
  refine Run.guarded_cons _ (hsteps rfl rfl rfl) rfl (Run.guarded_cons _ trivial rfl ?_)
  refine Run.guarded_cons _ trivial rfl (Run.guarded_cons _ trivial rfl ?_)
  exact Run.guarded_cons _ (hsteps rfl rfl rfl) rfl trivial

theorem samples_owned_movedBlock : ∃ w w', Run.run (AllocatorWorld.step ⟨524288, 1, false⟩) (.attached ∅) movedBlock =
    some w ∧ w.step ⟨524288, 1, false⟩ movedReturn = some w' ∧ Owned w' ∧ FreesDead w w' :=
  ⟨_, _, rfl, rfl, samples_owned ⟨524288, 1, false⟩ ∅ (fun _ _ h => by simp at h) movedBlock_free rfl rfl⟩

/-- Before the `realloc` returns, a second thread is handed the old address. -/
def reusedAddress : List AllocatorStep :=
  movedBlock ++ [.enter .malloc { tid := 2, regs := { parm1 := 524288 } }, .handOut 2 0x1000,
    .exit { tid := 2, regs := { rc := 0x1000 } }]

/-- The return probe of the `realloc` takes the second thread's entry away and
announces its block as freed. -/
theorem reusedAddress_untracked : ∃ w w', Run.run (AllocatorWorld.step ⟨524288, 1, false⟩) (.attached ∅) reusedAddress =
    some w ∧ w.step ⟨524288, 1, false⟩ movedReturn = some w' ∧ ¬ Owned w' ∧ ¬ FreesDead w w' := by
  refine ⟨_, _, rfl, rfl, fun h => ?_, fun h => ?_⟩
  · have := h 0x1000 ⟨some 3, .held⟩ 3 rfl rfl
    cases this
  · exact (h _ List.mem_cons_self rfl).1 0x1000 ⟨some 3, .held⟩ rfl rfl

end RustProfile
