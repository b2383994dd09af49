import RustProfile.Launch

/-!
# What a launch leaves behind

Whenever `launch` returns, on whatever path and however the target and its
descendants interleave, the target has been reaped and nothing of its control
group goes on. A signal goes to the target while it is ours.
-/

namespace RustProfile

namespace Launch

open Run

def Unreaped (s : LaunchState) : Prop := ∃ child, s.child = some child ∧ child.isReaped = false

def Reaped (s : LaunchState) : Prop := ∃ status, s.child = some (.reaped status)

def PhaseFits (s : LaunchState) : Phase → Prop
  | .spawn => s.child = none ∧ s.cgroup = none
  | .waitStopped => Unreaped s ∧ s.cgroup = none
  | .createCgroup => Unreaped s ∧ s.cgroup = none
  | .prepare => Unreaped s
  | .record => Unreaped s
  | .tryWait => Unreaped s
  | .terminate after => AfterFits s after
  | .killListed _ child after => AfterFits s after ∧ (child = true → Unreaped s)
  | .sigterm => AfterFits s .sigterm
  | .wait => Reaped s ∨ Unreaped s ∧ s.childTermed = true
  | .removeDir after => AfterFits s after ∧ after ≠ .sigterm
  | .killChild _ => Unreaped s ∨ s.endedEarly = true
  | .waitKilled _ => Reaped s ∨ s.childKilled = true
  | .returned result => (s.child = none ∨ Reaped s) ∧ (result = .ok () → s.recording = .ok () ∧
    ∃ status, s.child = some (.reaped status) ∧ (s.stoppedByProfiler = true ∨ status.success = true))
where
  AfterFits (s : LaunchState) : After → Prop
    | .sigterm => if s.stoppedByProfiler = true then Unreaped s else Reaped s
    | .finish => Reaped s
    | .unwind _ => Unreaped s

def Phase.settled : Phase → Bool
  | .sigterm => true
  | .wait => true
  | .terminate .finish => true
  | .removeDir _ => true
  | .killChild _ => true
  | .waitKilled _ => true
  | .returned _ => true
  | _ => false

structure Kept (s : LaunchState) : Prop where
  early : s.endedEarly = true → Reaped s ∧ s.cgroup = none
  sent : ∀ signal ∈ s.sent, signal.2.isReaped = true → s.endedEarly = true
  swept : s.swept = true → s.childKilled = true ∧
    ∀ cgroup, s.cgroup = some cgroup → ∀ id killed, cgroup.members.lookup id = some killed → killed = true

structure LaunchInv (s : LaunchState) : Prop where
  kept : Kept s
  fits : PhaseFits s s.phase
  settled : s.phase.settled = true → ∀ cgroup, s.cgroup = some cgroup → cgroup.hasKill = true → s.faulty = false →
    s.swept = true
  listed : ∀ listed child after, s.phase = .killListed listed child after → ∀ cgroup, s.cgroup = some cgroup →
    cgroup.hasKill = false

theorem launchInv_start : LaunchInv {} where
  kept := ⟨fun h => (by cases h), fun _ h => (by cases h), fun h => by cases h⟩
  fits := ⟨rfl, rfl⟩
  settled := fun h => by cases h
  listed := fun _ _ _ h => by cases h

section
variable {s : LaunchState}

theorem Unreaped.not_reaped (h : Unreaped s) : ¬Reaped s := by
  rintro ⟨status, hreaped⟩
  obtain ⟨child, hchild, hunreaped⟩ := h
  cases hreaped.symm.trans hchild
  cases hunreaped

theorem Unreaped.not_early (h : Unreaped s) (hkept : Kept s) : s.endedEarly ≠ true := fun hearly =>
  h.not_reaped (hkept.early hearly).1

namespace Kept

variable (h : Kept s)
include h

theorem goTo (phase : Phase) : Kept (s.goTo phase) := ⟨h.early, h.sent, h.swept⟩

theorem reaps (status : ExitStatus) : Kept (s.reaps status) :=
  ⟨fun hearly => ⟨⟨status, rfl⟩, (h.early hearly).2⟩, h.sent, h.swept⟩

theorem signals (hchild : Unreaped s ∨ s.endedEarly = true) (signal : Signal) : Kept (s.signals signal) := by
  refine ⟨h.early, fun other hother hreaped => ?_, h.swept⟩
  obtain hold | hnew := List.mem_append.mp hother
  · exact h.sent other hold hreaped
  · obtain hunreaped | hearly := hchild
    · obtain ⟨child, hchild, hnot⟩ := hunreaped
      rw [hchild, Option.map_some, Option.toList_some, List.mem_singleton] at hnew
      rw [hnew] at hreaped
      cases hnot.symm.trans hreaped
    · exact hearly

theorem sweeps {cgroup : LaunchCgroup} (hcgroup : s.cgroup = some cgroup) : Kept (s.sweeps cgroup) := by
  refine ⟨fun hearly => ?_, h.sent, fun _ => ⟨rfl, fun cgroup' hcgroup' id killed hkilled => ?_⟩⟩
  · rw [(h.early hearly).2] at hcgroup
    cases hcgroup
  · cases hcgroup'
    rw [Table.lookup_mapValues] at hkilled
    obtain ⟨_, -, rfl⟩ := Option.map_eq_some_iff.mp hkilled
    rfl

theorem kills {cgroup : LaunchCgroup} (hcgroup : s.cgroup = some cgroup) (listed : List ℕ) :
    Kept { s with cgroup := some (cgroup.kills listed) } := by
  refine ⟨fun hearly => ?_, h.sent, fun hswept => ⟨(h.swept hswept).1, fun other hother id killed hkilled => ?_⟩⟩
  · cases hcgroup.symm.trans (h.early hearly).2
  · cases hother
    obtain ⟨⟨other, old⟩, hmem, heq⟩ := List.mem_map.mp (Table.mem_entries.mpr hkilled)
    cases heq
    rw [(h.swept hswept).2 cgroup hcgroup other old (Table.mem_entries.mp hmem), Bool.true_or]

end Kept

/-- An error returns early. -/
theorem Kept.unwinds (h : Kept s) (hchild : Unreaped s ∨ s.endedEarly = true) (error : LaunchError) :
    LaunchInv (s.unwinds error) := by
  unfold LaunchState.unwinds
  cases hcgroup : s.cgroup with
  | none =>
    refine ⟨h.goTo _, hchild, fun _ cgroup hsome => ?_, fun _ _ _ hphase => by cases hphase⟩
    cases hcgroup.symm.trans hsome
  | some cgroup =>
    refine ⟨h.goTo _, ?_, fun hsettled => (by cases hsettled), fun _ _ _ hphase => by cases hphase⟩
    obtain hunreaped | hearly := hchild
    · exact hunreaped
    · cases hcgroup.symm.trans (h.early hearly).2

def Settled (s : LaunchState) : Prop :=
  ∀ cgroup, s.cgroup = some cgroup → cgroup.hasKill = true → s.faulty = false → s.swept = true

theorem LaunchInv.of_phase {s : LaunchState} (hkept : Kept s) (hfits : PhaseFits s s.phase)
    (hsettled : s.phase.settled = true → Settled s)
    (hphase : ∀ listed child after, s.phase ≠ .killListed listed child after) : LaunchInv s :=
  ⟨hkept, hfits, hsettled, fun _ _ _ hlisted => absurd hlisted (hphase _ _ _)⟩

theorem Kept.finishes (h : Kept s) {status : ExitStatus} (hchild : s.child = some (.reaped status))
    (hsettled : Settled s) : LaunchInv (s.finishes status) := by
  refine .of_phase (h.goTo _) ⟨.inr ⟨status, hchild⟩, fun hok => ?_⟩ (fun _ => hsettled)
    fun _ _ _ hphase => by cases hphase
  cases hrecording : s.recording with
  | error error =>
    rw [hrecording] at hok
    cases hok
  | ok value =>
    rw [hrecording] at hok
    refine ⟨hrecording, status, hchild, ?_⟩
    by_cases hstopped : s.stoppedByProfiler = true
    · exact .inl hstopped
    · refine .inr ?_
      by_contra hfailed
      simp only [Bool.not_eq_true] at hstopped hfailed
      simp only [hstopped, hfailed, Bool.not_false, Bool.and_self, if_true] at hok
      cases hok

theorem Kept.terminated (h : Kept s) {after : After} (hfits : PhaseFits.AfterFits s after) (hsettled : Settled s) :
    LaunchInv (s.terminated after) := by
  cases after with
  | sigterm => exact .of_phase (h.goTo _) hfits (fun _ => hsettled) fun _ _ _ hphase => by cases hphase
  | finish =>
    exact .of_phase (h.goTo _) ⟨hfits, fun hne => by cases hne⟩ (fun _ => hsettled) fun _ _ _ hphase => by cases hphase
  | unwind error =>
    exact .of_phase (h.goTo _) ⟨hfits, fun hne => by cases hne⟩ (fun _ => hsettled) fun _ _ _ hphase => by cases hphase

theorem unreaped_of_alive (h : s.child.any Child.alive = true) : Unreaped s := by
  cases hchild : s.child with
  | none =>
    rw [hchild] at h
    cases h
  | some child =>
    rw [hchild] at h
    refine ⟨child, hchild, ?_⟩
    cases child with
    | reaped status => cases h
    | _ => rfl

theorem Kept.terminates (h : Kept s) {after : After} (hfits : PhaseFits.AfterFits s after) {cgroup : LaunchCgroup}
    (hcgroup : s.cgroup = some cgroup) (ok : Bool) : LaunchInv (s.terminates after ok cgroup) := by
  have hfaulty : Kept { s with faulty := true } := ⟨h.early, h.sent, h.swept⟩
  unfold LaunchState.terminates
  split
  case isTrue hkill =>
    split
    · refine (h.sweeps hcgroup).terminated ?_ fun _ _ _ _ => rfl
      cases after <;> exact hfits
    · refine hfaulty.terminated ?_ fun _ _ _ hnot => by cases hnot
      cases after <;> exact hfits
  case isFalse hkill =>
    split
    · refine ⟨h.goTo _, ⟨?_, unreaped_of_alive⟩, fun hsettled => (by cases hsettled), fun _ _ _ _ other hother => ?_⟩
      · cases after <;> exact hfits
      · cases hcgroup.symm.trans hother
        simpa using hkill
    · refine hfaulty.terminated ?_ fun _ _ _ hnot => by cases hnot
      cases after <;> exact hfits

/-- The phase fits when the target is what it was, or is still to be reaped. -/
theorem PhaseFits.mono {s t : LaunchState} (hunreaped : Unreaped s → Unreaped t)
    (hreaped : ∀ status, s.child = some (.reaped status) → t.child = some (.reaped status))
    (hnone : s.child = none → t.child = none) (hcgroup : s.cgroup = none → t.cgroup = none)
    (hstopped : t.stoppedByProfiler = s.stoppedByProfiler) (htermed : t.childTermed = s.childTermed)
    (hkilled : t.childKilled = s.childKilled) (hearly : t.endedEarly = s.endedEarly)
    (hrecording : t.recording = s.recording) {phase : Phase} (h : PhaseFits s phase) : PhaseFits t phase := by
  have hreaped' : Reaped s → Reaped t := fun ⟨status, hstatus⟩ => ⟨status, hreaped status hstatus⟩
  have hafter : ∀ after, AfterFits s after → AfterFits t after := fun after hfits => by
    cases after with
    | sigterm =>
      change if t.stoppedByProfiler = true then Unreaped t else Reaped t
      change if s.stoppedByProfiler = true then Unreaped s else Reaped s at hfits
      rw [hstopped]
      by_cases hstop : s.stoppedByProfiler = true
      · rw [if_pos hstop] at hfits ⊢
        exact hunreaped hfits
      · rw [if_neg hstop] at hfits ⊢
        exact hreaped' hfits
    | finish => exact hreaped' hfits
    | unwind error => exact hunreaped hfits
  cases phase with
  | spawn => exact ⟨hnone h.1, hcgroup h.2⟩
  | waitStopped => exact ⟨hunreaped h.1, hcgroup h.2⟩
  | createCgroup => exact ⟨hunreaped h.1, hcgroup h.2⟩
  | prepare => exact hunreaped h
  | record => exact hunreaped h
  | tryWait => exact hunreaped h
  | terminate after => exact hafter after h
  | killListed listed child after => exact ⟨hafter after h.1, fun hchild => hunreaped (h.2 hchild)⟩
  | sigterm => exact hafter .sigterm h
  | wait => exact h.imp hreaped' fun hwait => ⟨hunreaped hwait.1, htermed.trans hwait.2⟩
  | removeDir after => exact ⟨hafter after h.1, h.2⟩
  | killChild error => exact h.imp hunreaped hearly.trans
  | waitKilled error => exact h.imp hreaped' hkilled.trans
  | returned result =>
    refine ⟨h.1.imp hnone hreaped', fun hok => ?_⟩
    obtain ⟨hrecorded, status, hstatus, hresult⟩ := h.2 hok
    exact ⟨hrecording.trans hrecorded, status, hreaped status hstatus, hresult.imp_left hstopped.trans⟩

theorem triedWait_exited {status : ExitStatus} (hchild : s.child = some (.exited status)) : s.triedWait =
    { s.reaps status with
      phase := if s.cgroup.isSome then .terminate .sigterm else .sigterm, stoppedByProfiler := false } := by
  unfold LaunchState.triedWait
  rw [hchild]

theorem triedWait_alive (h : ∀ status, s.child ≠ some (.exited status)) : s.triedWait =
    { s with phase := if s.cgroup.isSome then .terminate .sigterm else .sigterm, stoppedByProfiler := true } := by
  unfold LaunchState.triedWait
  cases hchild : s.child with
  | none => rfl
  | some child =>
    cases child with
    | exited status => exact absurd hchild (h status)
    | _ => rfl

namespace LaunchInv

variable (h : LaunchInv s)
include h

/-- The target stops, goes on or exits. -/
theorem childGoes {child next : Child} (hchild : s.child = some child) (hunreaped : child.isReaped = false)
    (hnext : next.isReaped = false) : LaunchInv { s with child := some next } := by
  have hnot : ∀ status, s.child ≠ some (.reaped status) := fun status hreaped => by
    cases hreaped.symm.trans hchild
    cases hunreaped
  refine ⟨⟨fun hearly => ?_, h.kept.sent, h.kept.swept⟩, ?_, h.settled, h.listed⟩
  · obtain ⟨⟨status, hreaped⟩, -⟩ := h.kept.early hearly
    exact absurd hreaped (hnot status)
  · refine h.fits.mono (t := { s with child := some next }) (fun _ => ⟨next, rfl, hnext⟩)
      (fun status hreaped => absurd hreaped (hnot status)) (fun hnone => ?_) id rfl rfl rfl rfl rfl
    cases hnone.symm.trans hchild

/-- The control group has other members. -/
theorem membersGo {cgroup : LaunchCgroup} (hcgroup : s.cgroup = some cgroup) {members : Table ℕ Bool}
    (hmembers : s.swept = true → ∀ id killed, members.lookup id = some killed → killed = true) :
    LaunchInv { s with cgroup := some { cgroup with members := members } } := by
  refine ⟨⟨fun hearly => ?_, h.kept.sent, fun hswept => ⟨(h.kept.swept hswept).1, fun other hother => ?_⟩⟩, ?_,
    fun hsettled other hother hkill => ?_, fun listed child after hphase other hother => ?_⟩
  · cases hcgroup.symm.trans (h.kept.early hearly).2
  · cases hother
    exact hmembers hswept
  · exact PhaseFits.mono (s := s) (t := { s with cgroup := some { cgroup with members := members } })
      id (fun _ => id) id (fun hnone => by cases hcgroup.symm.trans hnone) rfl rfl rfl rfl rfl h.fits
  · cases hother
    exact h.settled hsettled cgroup hcgroup hkill
  · cases hother
    exact h.listed listed child after hphase cgroup hcgroup

theorem forks {cgroup : LaunchCgroup} (hcgroup : s.cgroup = some cgroup) (hfork : s.canFork cgroup = true) (id : ℕ) :
    LaunchInv { s with cgroup := some { cgroup with members := cgroup.members.insert id false } } := by
  refine h.membersGo hcgroup fun hswept => ?_
  obtain ⟨hkilled, hall⟩ := h.kept.swept hswept
  unfold LaunchState.canFork at hfork
  rw [hkilled, Bool.not_true, Bool.and_false, Bool.false_or, List.any_eq_true] at hfork
  obtain ⟨⟨other, killed⟩, hmem, hnot⟩ := hfork
  have hother := hall cgroup hcgroup other killed (Table.mem_entries.mp hmem)
  rw [hother] at hnot
  cases hnot

theorem memberExits {cgroup : LaunchCgroup} (hcgroup : s.cgroup = some cgroup) (id : ℕ) :
    LaunchInv { s with cgroup := some { cgroup with members := cgroup.members.erase id } } := by
  refine h.membersGo hcgroup fun hswept other killed hother => ?_
  exact (h.kept.swept hswept).2 cgroup hcgroup other killed (Table.lookup_erase_eq_some.mp hother).2

theorem waitedStopped {t : LaunchState} (hphase : s.phase = .waitStopped) (ht : s.waitedStopped = some t) :
    LaunchInv t := by
  have hfits := h.fits
  rw [hphase] at hfits
  unfold LaunchState.waitedStopped at ht
  split at ht
  · cases ht
    exact .of_phase (h.kept.goTo _) hfits (fun hsettled => by cases hsettled) fun _ _ _ hlisted => by cases hlisted
  · rename_i status hchild
    cases ht
    have hkept : Kept { s.reaps status with endedEarly := true } :=
      ⟨fun _ => ⟨⟨status, rfl⟩, hfits.2⟩, fun _ _ _ => rfl, h.kept.swept⟩
    exact hkept.unwinds (.inr rfl) _
  · cases ht

theorem createsCgroup (hphase : s.phase = .createCgroup) (hasKill : Bool) :
    LaunchInv { s with phase := .prepare, cgroup := some { hasKill := hasKill } } := by
  have hfits := h.fits
  rw [hphase] at hfits
  refine .of_phase ⟨fun hearly => absurd hearly (hfits.1.not_early h.kept), h.kept.sent, fun hswept => ?_⟩ hfits.1
    (fun hsettled => by cases hsettled) fun _ _ _ hlisted => by cases hlisted
  refine ⟨(h.kept.swept hswept).1, fun cgroup hcgroup id killed hkilled => ?_⟩
  cases hcgroup
  cases hkilled

theorem triedWait (hphase : s.phase = .tryWait) : LaunchInv s.triedWait := by
  have hfits := h.fits
  rw [hphase] at hfits
  have hunreaped : Unreaped s := hfits
  have hnext : ∀ {t : LaunchState}, Kept t → PhaseFits.AfterFits t .sigterm → t.cgroup = s.cgroup →
      t.phase = (if s.cgroup.isSome then .terminate .sigterm else .sigterm) → LaunchInv t := by
    intro t hkept hafter hsame ht
    cases hcgroup : s.cgroup with
    | none =>
      rw [hcgroup] at ht
      refine .of_phase hkept (by rw [ht]; exact hafter) (fun _ cgroup hsome => ?_) fun _ _ _ hlisted => ?_
      · cases hcgroup.symm.trans (hsame.symm.trans hsome)
      · cases ht.symm.trans hlisted
    | some cgroup =>
      rw [hcgroup] at ht
      refine .of_phase hkept (by rw [ht]; exact hafter) (fun hsettled => ?_) fun _ _ _ hlisted => ?_
      · rw [ht] at hsettled
        cases hsettled
      · cases ht.symm.trans hlisted
  by_cases hexited : ∃ status, s.child = some (.exited status)
  · obtain ⟨status, hchild⟩ := hexited
    have hkept := h.kept.reaps status
    rw [triedWait_exited hchild]
    exact hnext ⟨hkept.early, hkept.sent, hkept.swept⟩ ⟨status, rfl⟩ rfl rfl
  · rw [triedWait_alive fun status hchild => hexited ⟨status, hchild⟩]
    exact hnext ⟨h.kept.early, h.kept.sent, h.kept.swept⟩ hunreaped rfl rfl

theorem killsListed {listed : List ℕ} {child : Bool} {after : After} (hphase : s.phase = .killListed listed child after)
    {cgroup : LaunchCgroup} (hcgroup : s.cgroup = some cgroup) :
    LaunchInv ((s.killsListed cgroup listed child).terminated after) := by
  have hfits := h.fits
  rw [hphase] at hfits
  have hsettled : Settled (s.killsListed cgroup listed child) := fun other hother hkill => by
    cases hother
    cases (h.listed _ _ _ hphase cgroup hcgroup).symm.trans hkill
  cases child with
  | false =>
    refine (h.kept.kills hcgroup listed).terminated ?_ hsettled
    cases after <;> exact hfits.1
  | true =>
    have hsignals := h.kept.signals (.inl (hfits.2 rfl)) .kill
    have hkilled : Kept { s.signals .kill with childKilled := true } :=
      ⟨hsignals.early, hsignals.sent, fun hswept => ⟨rfl, (hsignals.swept hswept).2⟩⟩
    refine (hkilled.kills hcgroup listed).terminated ?_ hsettled
    cases after <;> exact hfits.1

theorem waited {t : LaunchState} (hphase : s.phase = .wait) (ht : s.waited = some t) : LaunchInv t := by
  have hsettled : Settled s := h.settled (by rw [hphase]; rfl)
  have hends : ∀ status, LaunchInv (if s.cgroup.isSome then (s.reaps status).goTo (.terminate .finish)
      else (s.reaps status).finishes status) := fun status => by
    have hkept := h.kept.reaps status
    split
    · exact .of_phase (hkept.goTo _) ⟨status, rfl⟩ (fun _ => hsettled) fun _ _ _ hlisted => by cases hlisted
    · exact hkept.finishes rfl hsettled
  unfold LaunchState.waited at ht
  split at ht
  · cases ht
    exact hends _
  · cases ht
    exact hends _
  · cases ht

theorem waitedKilled {t : LaunchState} {error : LaunchError} (hphase : s.phase = .waitKilled error)
    (ht : s.waitedKilled error = some t) : LaunchInv t := by
  have hsettled : Settled s := h.settled (by rw [hphase]; rfl)
  have hends : ∀ status, LaunchInv ((s.reaps status).goTo (.returned (.error error))) := fun status =>
    .of_phase ((h.kept.reaps status).goTo _) ⟨.inr ⟨status, rfl⟩, fun hok => by cases hok⟩ (fun _ => hsettled)
      fun _ _ _ hlisted => by cases hlisted
  unfold LaunchState.waitedKilled at ht
  split at ht
  · cases ht
    exact hends _
  · cases ht
    exact hends _
  · cases ht

theorem removes {t : LaunchState} {after : After} {removed : Bool} (hphase : s.phase = .removeDir after)
    (ht : s.removes after removed = some t) : LaunchInv t := by
  have hfits := h.fits
  rw [hphase] at hfits
  have hsettled : Settled s := h.settled (by rw [hphase]; rfl)
  have hremoved : Kept { s with cgroup := none } :=
    ⟨fun hearly => ⟨(h.kept.early hearly).1, rfl⟩, h.kept.sent,
      fun hswept => ⟨(h.kept.swept hswept).1, fun _ hnone => by cases hnone⟩⟩
  have hgone : Settled { s with cgroup := none } := fun _ hnone => by cases hnone
  unfold LaunchState.removes at ht
  cases after with
  | sigterm => exact absurd rfl hfits.2
  | finish =>
    obtain ⟨status, hchild⟩ : Reaped s := hfits.1
    cases removed with
    | true =>
      have ht' : some (LaunchState.finishes { s with cgroup := none } status) = some t := by
        rw [← ht, if_pos rfl]
        simp only [hchild]
      cases ht'
      exact hremoved.finishes hchild hgone
    | false =>
      have ht' : some (s.finishes status) = some t := by
        rw [← ht]
        simp only [Bool.false_eq_true, if_false, hchild]
      cases ht'
      exact h.kept.finishes hchild hsettled
  | unwind error =>
    have hunreaped : Unreaped s := hfits.1
    cases removed with
    | true =>
      cases ht
      exact .of_phase (hremoved.goTo _) (.inl hunreaped) (fun _ => hgone) fun _ _ _ hlisted => by cases hlisted
    | false =>
      cases ht
      exact .of_phase (h.kept.goTo _) (.inl hunreaped) (fun _ => hsettled) fun _ _ _ hlisted => by cases hlisted

theorem sigterms (hphase : s.phase = .sigterm) :
    LaunchInv (if s.stoppedByProfiler then { s.signals .term with phase := .wait, childTermed := true }
      else s.goTo .wait) := by
  have hfits := h.fits
  rw [hphase] at hfits
  have hafter : PhaseFits.AfterFits s .sigterm := hfits
  have hsettled : Settled s := h.settled (by rw [hphase]; rfl)
  unfold PhaseFits.AfterFits at hafter
  by_cases hstopped : s.stoppedByProfiler = true
  · simp only [if_pos hstopped] at hafter ⊢
    have hsignals := h.kept.signals (.inl hafter) .term
    exact .of_phase ⟨hsignals.early, hsignals.sent, hsignals.swept⟩ (.inr ⟨hafter, rfl⟩) (fun _ => hsettled)
      fun _ _ _ hlisted => by cases hlisted
  · simp only [if_neg hstopped] at hafter ⊢
    exact .of_phase (h.kept.goTo _) (.inl hafter) (fun _ => hsettled) fun _ _ _ hlisted => by cases hlisted

theorem killsChild {error : LaunchError} (hphase : s.phase = .killChild error) :
    LaunchInv { s.signals .kill with phase := .waitKilled error, childKilled := true } := by
  have hfits := h.fits
  rw [hphase] at hfits
  have hsettled : Settled s := h.settled (by rw [hphase]; rfl)
  have hsignals := h.kept.signals hfits .kill
  exact .of_phase ⟨hsignals.early, hsignals.sent, fun hswept => ⟨rfl, (hsignals.swept hswept).2⟩⟩ (.inr rfl)
    (fun _ => hsettled) fun _ _ _ hlisted => by cases hlisted

theorem step {allowPartial : Bool} {step : LaunchStep} {t : LaunchState} (ht : s.step allowPartial step = some t) :
    LaunchInv t := by
  have hfits := h.fits
  -- most steps only go on to a phase before the termination
  have hgoes : ∀ {next : Phase}, PhaseFits s next → next.settled = false → (∀ l c a, next ≠ .killListed l c a) →
      LaunchInv (s.goTo next) := fun {next} hnext hsettled hlisted =>
    .of_phase (h.kept.goTo _)
      (PhaseFits.mono (s := s) (t := s.goTo next) id (fun _ => id) id id rfl rfl rfl rfl rfl hnext)
      (fun htrue => by cases hsettled.symm.trans htrue) hlisted
  cases step with
  | spawn error =>
    simp only [LaunchState.step] at ht
    split at ht
    · rename_i hphase
      rw [hphase] at hfits
      cases ht
      -- there is no child yet that could have ended
      have hearly : s.endedEarly ≠ true := fun hearly => by
        obtain ⟨⟨_, hchild⟩, -⟩ := h.kept.early hearly
        cases hfits.1.symm.trans hchild
      exact .of_phase ⟨fun h => absurd h hearly, h.kept.sent, h.kept.swept⟩ ⟨⟨.starting, rfl, rfl⟩, hfits.2⟩
        (fun hsettled => by cases hsettled) fun _ _ _ hlisted => by cases hlisted
    · rename_i hphase
      rw [hphase] at hfits
      cases ht
      refine .of_phase (h.kept.goTo _) ⟨.inl hfits.1, fun hok => by cases hok⟩ (fun _ cgroup hcgroup => ?_)
        fun _ _ _ hlisted => by cases hlisted
      cases hfits.2.symm.trans hcgroup
    · cases ht
  | waitStopped error =>
    simp only [LaunchState.step] at ht
    split at ht
    · rename_i hphase
      exact h.waitedStopped hphase ht
    · rename_i hphase
      rw [hphase] at hfits
      cases ht
      exact h.kept.unwinds (.inl hfits.1) _
    · cases ht
  | createCgroup created =>
    simp only [LaunchState.step] at ht
    split at ht
    · rename_i hphase
      cases ht
      exact h.createsCgroup hphase _
    · rename_i hphase
      rw [hphase] at hfits
      cases ht
      split
      · exact hgoes hfits.1 rfl fun _ _ _ hlisted => by cases hlisted
      · exact h.kept.unwinds (.inl hfits.1) _
    · cases ht
  | prepare error =>
    simp only [LaunchState.step] at ht
    split at ht
    · rename_i hphase
      rw [hphase] at hfits
      cases ht
      exact hgoes hfits rfl fun _ _ _ hlisted => by cases hlisted
    · rename_i hphase
      rw [hphase] at hfits
      cases ht
      exact h.kept.unwinds (.inl hfits) _
    · cases ht
  | recordEnds result =>
    simp only [LaunchState.step] at ht
    split at ht
    · rename_i hphase
      rw [hphase] at hfits
      cases ht
      exact .of_phase ⟨h.kept.early, h.kept.sent, h.kept.swept⟩ hfits (fun hsettled => by cases hsettled)
        fun _ _ _ hlisted => by cases hlisted
    · cases ht
  | tryWait error =>
    simp only [LaunchState.step] at ht
    split at ht
    · rename_i hphase
      cases ht
      exact h.triedWait hphase
    · rename_i hphase
      rw [hphase] at hfits
      cases ht
      exact h.kept.unwinds (.inl hfits) _
    · cases ht
  | terminate ok =>
    simp only [LaunchState.step] at ht
    split at ht
    · rename_i hphase
      rw [hphase] at hfits
      obtain ⟨cgroup, hcgroup, rfl⟩ := Option.map_eq_some_iff.mp ht
      exact h.kept.terminates hfits hcgroup ok
    · cases ht
  | killListed =>
    simp only [LaunchState.step] at ht
    split at ht
    · rename_i hphase
      obtain ⟨cgroup, hcgroup, rfl⟩ := Option.map_eq_some_iff.mp ht
      exact h.killsListed hphase hcgroup
    · cases ht
  | sigterm =>
    simp only [LaunchState.step] at ht
    split at ht
    · rename_i hphase
      rw [← Option.some.inj ht]
      exact h.sigterms hphase
    · cases ht
  | wait =>
    simp only [LaunchState.step] at ht
    split at ht
    · rename_i hphase
      exact h.waited hphase ht
    · cases ht
  | removeDir removed =>
    simp only [LaunchState.step] at ht
    split at ht
    · rename_i hphase
      split at ht
      · cases ht
      · exact h.removes hphase ht
    · cases ht
  | killChild =>
    simp only [LaunchState.step] at ht
    split at ht
    · rename_i hphase
      cases ht
      exact h.killsChild hphase
    · cases ht
  | waitKilled =>
    simp only [LaunchState.step] at ht
    split at ht
    · rename_i hphase
      exact h.waitedKilled hphase ht
    · cases ht
  | childStops =>
    simp only [LaunchState.step] at ht
    split at ht
    · rename_i hchild
      cases ht
      exact h.childGoes hchild rfl rfl
    · cases ht
  | childResumes =>
    simp only [LaunchState.step] at ht
    split at ht
    · rename_i hchild
      cases ht
      exact h.childGoes hchild rfl rfl
    · cases ht
  | childExits status =>
    simp only [LaunchState.step] at ht
    split at ht
    · rename_i halive
      obtain ⟨child, hchild, hunreaped⟩ := unreaped_of_alive halive
      cases ht
      exact h.childGoes hchild hunreaped rfl
    · cases ht
  | fork id =>
    obtain ⟨cgroup, hcgroup, ht⟩ := Option.bind_eq_some_iff.mp ht
    split at ht
    · rename_i hfork
      cases ht
      exact h.forks hcgroup hfork.1 id
    · cases ht
  | memberExits id =>
    obtain ⟨cgroup, hcgroup, rfl⟩ := Option.map_eq_some_iff.mp ht
    exact h.memberExits hcgroup id

end LaunchInv

end

/-- What `launch` never leaves behind, and what it waits for. -/
structure LeavesNothing (s : LaunchState) : Prop where
  reaped : ∀ result, s.phase = .returned result → s.child = none ∨ Reaped s
  /-- Unless the control group cannot be killed as a whole, all of it is gone or has been killed. -/
  swept : ∀ result, s.phase = .returned result → s.faulty = false → ∀ cgroup, s.cgroup = some cgroup →
    cgroup.hasKill = true → ∀ id killed, cgroup.members.lookup id = some killed → killed = true
  ok : s.phase = .returned (.ok ()) → s.recording = .ok () ∧
    ∃ status, s.child = some (.reaped status) ∧ (s.stoppedByProfiler = true ∨ status.success = true)
  /-- A signal reaches the target before it is reaped, if it stopped at first. -/
  sent : s.endedEarly = false → ∀ signal ∈ s.sent, signal.2.isReaped = false
  /-- What it waits for has been killed, or has at least been told to end. -/
  waits : s.phase = .wait → s.child.any Child.alive = true → s.childTermed = true ∧
    (s.faulty = false → ∀ cgroup, s.cgroup = some cgroup → cgroup.hasKill = true → s.childKilled = true)
  waitsKilled : ∀ error, s.phase = .waitKilled error → s.child.any Child.alive = true → s.childKilled = true

theorem LaunchInv.leavesNothing {s : LaunchState} (h : LaunchInv s) : LeavesNothing s where
  reaped := fun result hphase => by
    have hfits := h.fits
    rw [hphase] at hfits
    exact hfits.1
  swept := fun result hphase hfaulty cgroup hcgroup hkill => by
    have hswept := h.settled (by rw [hphase]; rfl) cgroup hcgroup hkill hfaulty
    exact (h.kept.swept hswept).2 cgroup hcgroup
  ok := fun hphase => by
    have hfits := h.fits
    rw [hphase] at hfits
    exact hfits.2 rfl
  sent := fun hearly signal hsignal => by
    cases hreaped : signal.2.isReaped with
    | false => rfl
    | true => cases hearly.symm.trans (h.kept.sent signal hsignal hreaped)
  waits := fun hphase halive => by
    have hfits := h.fits
    rw [hphase] at hfits
    obtain hreaped | ⟨-, htermed⟩ := hfits
    · exact absurd hreaped (unreaped_of_alive halive).not_reaped
    · refine ⟨htermed, fun hfaulty cgroup hcgroup hkill => ?_⟩
      exact (h.kept.swept (h.settled (by rw [hphase]; rfl) cgroup hcgroup hkill hfaulty)).1
  waitsKilled := fun error hphase halive => by
    have hfits := h.fits
    rw [hphase] at hfits
    obtain hreaped | hkilled := hfits
    · exact absurd hreaped (unreaped_of_alive halive).not_reaped
    · exact hkilled

/-- **A launch leaves nothing behind**, whatever fails and whatever the target does. -/
theorem launch_leavesNothing {allowPartial : Bool} {steps : List LaunchStep} {s : LaunchState}
    (h : run (LaunchState.step · allowPartial) {} steps = some s) : LeavesNothing s :=
  (run_inv' _ (fun _ _ _ hs ht => LaunchInv.step hs ht) launchInv_start h).leavesNothing

def Phase.returnedOk : Phase → Bool
  | .returned (.ok _) => true
  | _ => false

theorem Phase.eq_returned_of_ok {phase : Phase} (h : phase.returnedOk = true) : phase = .returned (.ok ()) := by
  cases phase with
  | returned result =>
    cases result with
    | ok _ => rfl
    | error _ => cases h
  | _ => cases h

/-- The target forks and does not end by itself. -/
def forkingTarget : List LaunchStep :=
  [.spawn none, .childStops, .waitStopped none, .createCgroup (.ok true), .prepare none, .childResumes, .fork 8,
    .recordEnds (.ok ()), .tryWait none, .terminate true, .sigterm, .childExits (.signal 9), .wait, .terminate true,
    .removeDir false]

theorem launch_leavesNothing_forking : ∃ s,
    run (LaunchState.step · false) {} forkingTarget = some s ∧ s.phase = .returned (.ok ()) ∧
      s.child = some (.reaped (.signal 9)) ∧ LeavesNothing s := by
  have hend : (run (LaunchState.step · false) {} forkingTarget).map
      (fun s => (s.phase.returnedOk, s.child)) = some (true, some (.reaped (.signal 9))) := by
    decide +kernel
  obtain ⟨s, hrun, hs⟩ := Option.map_eq_some_iff.mp hend
  obtain ⟨hphase, hchild⟩ := Prod.mk.inj hs
  exact ⟨s, hrun, Phase.eq_returned_of_ok hphase, hchild, launch_leavesNothing hrun⟩

end Launch

end RustProfile
