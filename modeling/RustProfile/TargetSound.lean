import RustProfile.Lib.Fallible
import RustProfile.Target

/-!
# A restart does not change the target

The identity is fixed when the target is resolved. Every answer that leads to a
target is checked against it first, so the current target always has it.
-/

namespace RustProfile

def LogicalIdentity.Matches : LogicalIdentity → ResolvedTarget → Prop
  | .process pid startTimeTicks, target =>
    target.pid = pid ∧ target.metadata.processStartTimeTicks = startTimeTicks
  | .docker containerId, target => target.metadata.containerId = some containerId
  | .kubernetes podNamespace pod podUid container, target =>
    target.metadata.k8sNamespace = some podNamespace ∧ target.metadata.k8sPodName = some pod ∧
      target.metadata.k8sPodUid = some podUid ∧ target.metadata.k8sContainerName = some container

/-- The world answers that what had the identity is removed, or is another by now. -/
def LogicalIdentity.Replaced (world : TargetWorld) : LogicalIdentity → Prop
  | .process pid startTimeTicks => world.processStartTime pid ≠ .ok startTimeTicks
  | .docker containerId =>
    world.dockerInspect containerId = .ok none ∨
      ∃ inspect, world.dockerInspect containerId = .ok (some inspect) ∧ inspect.id ≠ containerId
  | .kubernetes podNamespace pod podUid _ =>
    world.kubernetesPod podNamespace pod = .ok none ∨
      ∃ report, world.kubernetesPod podNamespace pod = .ok (some report) ∧ report.uid ≠ podUid

/-! ## Resolving -/

theorem orError_ok_iff {α : Type} {message : String} {x : Option α} {a : α} :
    orError message x = .ok a ↔ x = some a := by
  cases x with
  | none => simp [orError]
  | some _ => simp [orError]

section
variable {world : TargetWorld} {target : ResolvedTarget}

theorem dockerTarget_containerId {inspect : DockerInspect} (h : world.dockerTarget inspect = .ok (some target)) :
    target.metadata.containerId = some inspect.id := by
  unfold TargetWorld.dockerTarget at h
  split at h
  · cases h
  · obtain ⟨startTimeTicks, -, htarget⟩ := Except.bind_eq_ok.mp h
    cases htarget
    rfl

theorem kubernetesTarget_metadata {podNamespace podName container : String} {pod : Pod}
    (h : world.kubernetesTarget podNamespace podName pod container = .ok (some target)) :
    (LogicalIdentity.kubernetes podNamespace podName pod.uid container).Matches target := by
  unfold TargetWorld.kubernetesTarget at h
  split at h
  · cases h
  dsimp only at h
  split at h
  · cases h
  split at h
  · cases h
  rename_i containerId _
  split at h
  · cases h
  split at h
  · cases h
  obtain ⟨found, -, hfound⟩ := Except.bind_eq_ok.mp h
  cases found with
  | none => cases hfound
  | some pid =>
    obtain ⟨startTimeTicks, -, htarget⟩ := Except.bind_eq_ok.mp hfound
    cases htarget
    exact ⟨rfl, rfl, rfl, rfl⟩

theorem Selector.resolveInitial_matches {selector : Selector} {identity : LogicalIdentity}
    (h : selector.resolveInitial world = .ok (identity, target)) : identity.Matches target := by
  cases selector with
  | process pid =>
    obtain ⟨startTimeTicks, -, hresolved⟩ := Except.bind_eq_ok.mp h
    cases hresolved
    exact ⟨rfl, rfl⟩
  | docker reference =>
    obtain ⟨found, -, h⟩ := Except.bind_eq_ok.mp h
    obtain ⟨inspect, -, h⟩ := Except.bind_eq_ok.mp h
    obtain ⟨running, hrunning, h⟩ := Except.bind_eq_ok.mp h
    obtain ⟨resolved, hresolved, h⟩ := Except.bind_eq_ok.mp h
    cases h
    exact dockerTarget_containerId (orError_ok_iff.mp hresolved ▸ hrunning)
  | kubernetes podNamespace pod container =>
    obtain ⟨found, -, h⟩ := Except.bind_eq_ok.mp h
    obtain ⟨report, -, h⟩ := Except.bind_eq_ok.mp h
    obtain ⟨selected, -, h⟩ := Except.bind_eq_ok.mp h
    obtain ⟨running, hrunning, h⟩ := Except.bind_eq_ok.mp h
    obtain ⟨resolved, hresolved, h⟩ := Except.bind_eq_ok.mp h
    cases h
    exact kubernetesTarget_metadata (orError_ok_iff.mp hresolved ▸ hrunning)

theorem resolutionOf_running {result : Except TargetError (Option ResolvedTarget)}
    (h : resolutionOf result = .ok (.running target)) : result = .ok (some target) := by
  unfold resolutionOf at h
  cases result with
  | error error =>
    dsimp only at h
    split at h <;> cases h
  | ok found =>
    cases found with
    | none => cases h
    | some found =>
      cases h
      rfl

theorem resolutionOf_ne_gone (result : Except TargetError (Option ResolvedTarget)) :
    resolutionOf result ≠ .ok .gone := by
  unfold resolutionOf
  intro h
  cases result with
  | error error =>
    dsimp only at h
    split at h <;> cases h
  | ok found => cases found <;> cases h

end

namespace LogicalIdentity

variable {world : TargetWorld} {identity : LogicalIdentity} {target : ResolvedTarget}

theorem resolveAgain_running (h : identity.resolveAgain world = .ok (.running target)) : identity.Matches target := by
  cases identity with
  | process pid startTimeTicks =>
    unfold resolveAgain at h
    dsimp only at h
    cases htime : world.processStartTime pid with
    | error error =>
      rw [htime] at h
      cases h
    | ok current =>
      rw [htime] at h
      dsimp only at h
      split at h
      · rename_i hcurrent
        cases h
        exact ⟨rfl, hcurrent⟩
      · cases h
  | docker containerId =>
    obtain ⟨found, -, hfound⟩ := Except.bind_eq_ok.mp h
    cases found with
    | none => cases hfound
    | some inspect =>
      dsimp only at hfound
      split at hfound
      · cases hfound
      · rename_i hid
        -- A name was resolved to the full id at first, so an answer under another id is another container.
        rw [not_not] at hid
        subst hid
        exact dockerTarget_containerId (resolutionOf_running hfound)
  | kubernetes podNamespace pod podUid container =>
    obtain ⟨found, -, hfound⟩ := Except.bind_eq_ok.mp h
    cases found with
    | none => cases hfound
    | some report =>
      dsimp only at hfound
      split at hfound
      · cases hfound
      · rename_i huid
        rw [not_not] at huid
        subst huid
        exact kubernetesTarget_metadata (resolutionOf_running hfound)

/-- The target is gone exactly when it was removed or replaced. -/
theorem resolveAgain_gone_iff : identity.resolveAgain world = .ok .gone ↔ identity.Replaced world := by
  cases identity with
  | process pid startTimeTicks =>
    unfold resolveAgain Replaced
    dsimp only
    cases world.processStartTime pid with
    | error error => simp
    | ok current =>
      by_cases hcurrent : current = startTimeTicks
      · simp [hcurrent]
      · simp [hcurrent]
  | docker containerId =>
    unfold resolveAgain Replaced
    rw [Except.bind_eq_ok]
    constructor
    · rintro ⟨found, hfound, h⟩
      cases found with
      | none => exact Or.inl hfound
      | some inspect =>
        dsimp only at h
        split at h
        · rename_i hid
          exact Or.inr ⟨inspect, hfound, hid⟩
        · exact absurd h (resolutionOf_ne_gone _)
    · rintro (hnone | ⟨inspect, hfound, hid⟩)
      · exact ⟨none, hnone, rfl⟩
      · exact ⟨some inspect, hfound, if_pos hid⟩
  | kubernetes podNamespace pod podUid container =>
    unfold resolveAgain Replaced
    rw [Except.bind_eq_ok]
    constructor
    · rintro ⟨found, hfound, h⟩
      cases found with
      | none => exact Or.inl hfound
      | some report =>
        dsimp only at h
        split at h
        · rename_i huid
          exact Or.inr ⟨report, hfound, huid⟩
        · exact absurd h (resolutionOf_ne_gone _)
    · rintro (hnone | ⟨report, hfound, huid⟩)
      · exact ⟨none, hnone, rfl⟩
      · exact ⟨some report, hfound, if_pos huid⟩

end LogicalIdentity

/-! ## A session -/

inductive ResolverCall where
  | refresh (world : TargetWorld)
  | wait (previous : ResolvedMetadata) (turns : List (Option TargetWorld))

namespace TargetResolver

def after (self : TargetResolver) : ResolverCall → TargetResolver
  | .refresh world => (self.refresh world).2
  | .wait previous turns => (waitForRestartedTarget previous turns self).2

structure Follows (resolver next : TargetResolver) : Prop where
  identity : next.identity = resolver.identity
  current : resolver.identity.Matches next.current

variable {resolver self : TargetResolver} {world : TargetWorld}

theorem refresh_spec (self : TargetResolver) (world : TargetWorld) :
    (self.refresh world).2.identity = self.identity ∧
      ((self.refresh world).1 = .ok .running → self.identity.Matches (self.refresh world).2.current) ∧
      ((self.refresh world).1 ≠ .ok .running → (self.refresh world).2 = self) ∧
      ((self.refresh world).1 = .ok .gone ↔ self.identity.Replaced world) := by
  rw [← LogicalIdentity.resolveAgain_gone_iff]
  unfold refresh
  cases hresolved : self.identity.resolveAgain world with
  | error error => simp
  | ok resolution =>
    cases resolution with
    | running target => simpa [current] using LogicalIdentity.resolveAgain_running hresolved
    | waiting => simp
    | gone => simp

theorem Follows.refresh (h : Follows resolver self) (world : TargetWorld) :
    Follows resolver (self.refresh world).2 := by
  obtain ⟨hidentity, hrunning, hkept, -⟩ := self.refresh_spec world
  refine ⟨hidentity.trans h.identity, ?_⟩
  by_cases hstate : (self.refresh world).1 = .ok .running
  · rw [← h.identity]
    exact hrunning hstate
  · rw [hkept hstate]
    exact h.current

/-- The loop ends with a target only where its process is another than the previous one. -/
theorem Follows.wait (previous : ResolvedMetadata) (turns : List (Option TargetWorld)) (h : Follows resolver self) :
    Follows resolver (waitForRestartedTarget previous turns self).2 ∧
      ∀ target, (waitForRestartedTarget previous turns self).1 = some (.ok (some target)) →
        target = (waitForRestartedTarget previous turns self).2.current ∧
          (target.pid, target.metadata.processStartTimeTicks) ≠ (previous.pid, previous.processStartTimeTicks) := by
  induction turns generalizing self with
  | nil =>
    rw [waitForRestartedTarget]
    exact ⟨h, fun _ htarget => by cases htarget⟩
  | cons turn turns ih =>
    cases turn with
    | none =>
      rw [waitForRestartedTarget]
      exact ⟨h, fun _ htarget => by cases htarget⟩
    | some world =>
      have hnext := h.refresh world
      rw [waitForRestartedTarget]
      cases hrefresh : self.refresh world with
      | mk state next =>
        rw [hrefresh] at hnext
        cases state with
        | error error => exact ⟨hnext, fun _ htarget => by cases htarget⟩
        | ok state =>
          cases state with
          | waiting => exact ih hnext
          | gone => exact ⟨hnext, fun _ htarget => by cases htarget⟩
          | running =>
            dsimp only
            split
            · rename_i hother
              refine ⟨hnext, fun target htarget => ?_⟩
              cases htarget
              refine ⟨rfl, fun hsame => ?_⟩
              obtain ⟨hpid, htime⟩ := Prod.mk.inj hsame
              exact hother.elim (fun hne => hne hpid) fun hne => hne htime
            · exact ih hnext

theorem Follows.after (h : Follows resolver self) (call : ResolverCall) : Follows resolver (self.after call) := by
  cases call with
  | refresh world => exact h.refresh world
  | wait previous turns => exact (h.wait previous turns).1

theorem Follows.calls : ∀ (l : List ResolverCall) {self : TargetResolver}, Follows resolver self →
    Follows resolver (l.foldl TargetResolver.after self)
  | [], _, h => h
  | call :: l, _, h => Follows.calls l (h.after call)

theorem resolveInitial_follows {args : TargetArgs} (h : resolveInitial args world = .ok resolver) :
    Follows resolver resolver := by
  unfold resolveInitial at h
  obtain ⟨selector, -, h⟩ := Except.bind_eq_ok.mp h
  obtain ⟨⟨identity, last⟩, hresolved, h⟩ := Except.bind_eq_ok.mp h
  cases h
  exact ⟨rfl, Selector.resolveInitial_matches hresolved⟩

/-- **The logical target is fixed.** After any calls, whatever the world
answered, the identity is the first one and the current target has it; the next
refresh moves to a target of that identity or leaves everything, and says that
the target is gone exactly when it was removed or replaced. -/
theorem identity_fixed {args : TargetArgs} {first : TargetWorld} {resolver : TargetResolver}
    (hresolved : resolveInitial args first = .ok resolver) (l : List ResolverCall) :
    let self := l.foldl TargetResolver.after resolver
    (self.identity = resolver.identity ∧ resolver.identity.Matches self.current) ∧
    (∀ world : TargetWorld,
      ((self.refresh world).1 = .ok .running → resolver.identity.Matches (self.refresh world).2.current) ∧
      ((self.refresh world).1 ≠ .ok .running → (self.refresh world).2.current = self.current) ∧
      ((self.refresh world).1 = .ok .gone ↔ resolver.identity.Replaced world)) ∧
    ∀ (previous : ResolvedMetadata) (turns : List (Option TargetWorld)) (target : ResolvedTarget),
      (waitForRestartedTarget previous turns self).1 = some (.ok (some target)) →
        (target.pid, target.metadata.processStartTimeTicks) ≠ (previous.pid, previous.processStartTimeTicks) ∧
          resolver.identity.Matches target := by
  intro self
  have h : Follows resolver self := (resolveInitial_follows hresolved).calls l
  refine ⟨⟨h.identity, h.current⟩, fun world => ?_, fun previous turns target htarget => ?_⟩
  · obtain ⟨-, hrunning, hkept, hgone⟩ := self.refresh_spec world
    rw [h.identity] at hrunning hgone
    exact ⟨hrunning, fun hstate => congrArg current (hkept hstate), hgone⟩
  · obtain ⟨hfollows, hreturned⟩ := h.wait previous turns
    obtain ⟨rfl, hother⟩ := hreturned target htarget
    exact ⟨hother, hfollows.current⟩

def containerAt (pid : ℤ) : TargetWorld where
  dockerInspect := fun _ => .ok (some { id := "c0ffee", name := "/app", state := ⟨true, pid⟩ })
  kubernetesPod := fun _ _ => .ok none
  nodeName := none
  procEntries := .ok []
  stat := fun _ => .ok "7 (app) S 0 0 0 0 0 0 0 0 0 0 0 0 0 0 0 0 0 0 1234"

theorem containerAt_resolved : resolveInitial { dockerContainer := some "app" } (containerAt 7) = .ok
    { selector := .docker "app"
      identity := .docker "c0ffee"
      last :=
        { pid := 7
          metadata :=
            { pid := 7, kind := .docker, processStartTimeTicks := 1234, containerId := some "c0ffee"
              containerName := some "app" } } } := by
  decide +kernel

theorem identity_fixed_container : ∃ resolver,
    resolveInitial { dockerContainer := some "app" } (containerAt 7) = .ok resolver ∧
      resolver.identity = .docker "c0ffee" ∧ (resolver.after (.refresh (containerAt 8))).current.pid = 8 ∧
      resolver.identity.Matches (resolver.after (.refresh (containerAt 8))).current := by
  have h := (identity_fixed containerAt_resolved [.refresh (containerAt 8)]).1.2
  exact ⟨_, containerAt_resolved, rfl, by decide +kernel, h⟩

end TargetResolver

end RustProfile
