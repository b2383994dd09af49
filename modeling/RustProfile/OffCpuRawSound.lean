import RustProfile.OffCpuRaw

/-!
# Where a completed interval starts

A switch-out that cannot be recorded leaves the pending interval of its thread
as it is. So the next switch-in of the thread completes an interval that starts
at an earlier switch-out, and exactly then.
-/

namespace RustProfile

def SwitchEvent.Recordable (event : SwitchEvent) : Prop := event.kind = .switchOut ∧ event.frames ≠ []

def SwitchEvent.Unrecordable (event : SwitchEvent) : Prop := event.kind = .switchOut ∧ event.frames = []

def lastSwitchOut (events : List SwitchEvent) (tid : UInt32) : Option SwitchEvent :=
  (events.filter fun event => event.tid = tid ∧ event.kind = .switchOut).getLast?

/-- A thread's switch-out that cannot be recorded comes between one that was and the switch-in that
completes that one. -/
def Overtaken (events : List SwitchEvent) : Prop :=
  ∃ before out between lost more resumed rest,
    events = before ++ out :: (between ++ lost :: (more ++ resumed :: rest)) ∧
      out.Recordable ∧ lost.Unrecordable ∧ resumed.kind = .switchIn ∧ lost.tid = out.tid ∧ resumed.tid = out.tid ∧
      ∀ event ∈ between ++ more, event.tid = out.tid → event.Unrecordable

section
variable (self : OffCpuCollector) (comm : Comm)

/-- Applying the records, some switch-in completes `interval`; `out` is the latest switch-out of its thread. -/
def Completes (records : List (List UInt8)) (interval : PendingInterval) (out : SwitchEvent) : Prop :=
  ∃ before bytes after resumed, records = before ++ bytes :: after ∧
    rawSwitch bytes = some resumed ∧ resumed.kind = .switchIn ∧
    (before.foldl (OffCpuCollector.applyRaw · comm) self).pending.lookup resumed.tid = some interval ∧
    lastSwitchOut (before.filterMap rawSwitch) resumed.tid = some out

/-- A completed interval starts at the latest switch-out of its thread, or later, and was not left by one before it. -/
def LatestStart (records : List (List UInt8)) : Prop :=
  ∀ interval out, Completes self comm records interval out → out.timestamp ≤ interval.started ∧ ¬ out.Unrecordable

end

/-! ## Last switches -/

theorem getLast?_filter_iff {α : Type} {p : α → Bool} {l : List α} {x : α} :
    (l.filter p).getLast? = some x ↔ p x = true ∧ ∃ a b, l = a ++ x :: b ∧ ∀ y ∈ b, ¬ p y = true := by
  rw [List.getLast?_filter, List.find?_eq_some_iff_append]
  refine and_congr_right fun _ => ⟨?_, ?_⟩
  · rintro ⟨as, bs, h, has⟩
    refine ⟨bs.reverse, as.reverse, ?_, fun y hy => ?_⟩
    · rw [← List.reverse_reverse l, h]
      simp
    · have hn := has y (List.mem_reverse.mp hy)
      simpa using hn
  · rintro ⟨a, b, rfl, hb⟩
    refine ⟨b.reverse, a.reverse, by simp, fun y hy => ?_⟩
    have hn := hb y (List.mem_reverse.mp hy)
    simpa using hn

section
variable {events later : List SwitchEvent} {tid : UInt32} {event : SwitchEvent}

theorem lastSwitch_iff : lastSwitch events tid = some event ↔
    (event.tid = tid ∧ (event.kind = .switchIn ∨ event.frames ≠ [])) ∧
      ∃ a b, events = a ++ event :: b ∧ ∀ e ∈ b, e.tid = tid → e.Unrecordable := by
  unfold lastSwitch
  rw [getLast?_filter_iff, decide_eq_true_iff]
  refine and_congr_right fun _ => exists_congr fun a => exists_congr fun b => and_congr_right fun _ =>
    forall₂_congr fun e _ => ?_
  rw [decide_eq_true_iff]
  unfold SwitchEvent.Unrecordable
  cases e.kind with
  | switchOut => simp
  | switchIn => simp

theorem mem_of_lastSwitchOut (h : lastSwitchOut events tid = some event) : event ∈ events ∧ event.tid = tid := by
  obtain ⟨hmem, hp⟩ := List.mem_filter.mp (List.mem_of_getLast? h)
  exact ⟨hmem, (of_decide_eq_true hp).1⟩

theorem lastSwitchOut_cons {out : SwitchEvent} (htid : out.tid = tid) (hkind : out.kind = .switchOut) :
    lastSwitchOut (events ++ out :: later) tid = some ((lastSwitchOut later tid).getD out) := by
  unfold lastSwitchOut
  rw [List.filter_append, List.filter_cons_of_pos (by simp [htid, hkind]), List.getLast?_append, List.getLast?_cons]
  rfl

end

/-! ## The pending interval -/

section
variable {self : OffCpuCollector} (comm : Comm) (hself : self.pending = ∅)

include hself

/-- The pending interval of a thread is that of its last switch-out with a stack, unless it was resumed since. -/
theorem pending_iff {records : List (List UInt8)} {tid : UInt32} {interval : PendingInterval} :
    (records.foldl (OffCpuCollector.applyRaw · comm) self).pending.lookup tid = some interval ↔
      ∃ out, lastSwitch (records.filterMap rawSwitch) tid = some out ∧ out.Recordable ∧
        interval = { pid := out.pid, started := out.timestamp, stack := Stack.ofAddresses out.frames } := by
  rw [OffCpuCollector.foldl_applyRaw_pending, OffCpuCollector.foldl_apply_pending]
  cases hl : lastSwitch (records.filterMap rawSwitch) tid with
  | none => simp [hself]
  | some out =>
    have hout := (mem_of_lastSwitch hl).2.2
    dsimp only
    cases hk : out.kind with
    | switchIn =>
      have hnone : OffCpuCollector.pendingAfter none out = none := by
        unfold OffCpuCollector.pendingAfter
        rw [hk]
      rw [hnone]
      refine ⟨nofun, ?_⟩
      rintro ⟨out', he, ⟨hkind, -⟩, -⟩
      rw [← Option.some.inj he, hk] at hkind
      cases hkind
    | switchOut =>
      have hf : out.frames ≠ [] := hout.resolve_left (by rw [hk]; nofun)
      have hsome : OffCpuCollector.pendingAfter none out =
          some { pid := out.pid, started := out.timestamp, stack := Stack.ofAddresses out.frames } := by
        unfold OffCpuCollector.pendingAfter
        rw [hk]
        exact if_neg hf
      rw [hsome, Option.some.injEq]
      refine ⟨fun h => ⟨out, rfl, ⟨hk, hf⟩, h.symm⟩, ?_⟩
      rintro ⟨out', he, -, rfl⟩
      rw [Option.some.inj he]

/-- **The exact condition.** -/
theorem latestStart_iff (records : List (List UInt8)) :
    LatestStart self comm records ↔ ¬ Overtaken (records.filterMap rawSwitch) := by
  refine ⟨fun h => ?_, fun h => ?_⟩
  · rintro ⟨before, out, between, lost, more, resumed, rest, hevents, hout, hlost, hresumed, htid, htid', hlate⟩
    obtain ⟨records₁, records₂, rfl, h₁, h₂⟩ := List.filterMap_eq_append_iff.mp
      (show records.filterMap rawSwitch = (before ++ out :: (between ++ lost :: more)) ++ resumed :: rest by
        rw [hevents]
        simp)
    obtain ⟨skipped, bytes, after, rfl, hskipped, hbytes, -⟩ := List.filterMap_eq_cons_iff.mp h₂
    have hbefore : (records₁ ++ skipped).filterMap rawSwitch = before ++ out :: (between ++ lost :: more) := by
      rw [List.filterMap_append, h₁, List.filterMap_eq_nil_iff.mpr hskipped, List.append_nil]
    have hunrecordable : ∀ event ∈ between ++ lost :: more, event.tid = resumed.tid → event.Unrecordable := by
      intro event hmem hevent
      rw [htid'] at hevent
      rcases List.mem_append.mp hmem with hmem | hmem
      · exact hlate event (List.mem_append_left _ hmem) hevent
      · rcases List.mem_cons.mp hmem with rfl | hmem
        · exact hlost
        · exact hlate event (List.mem_append_right _ hmem) hevent
    have hpending := (pending_iff comm hself).mpr ⟨out, lastSwitch_iff.mpr ⟨⟨htid'.symm, Or.inr hout.2⟩, before,
      between ++ lost :: more, hbefore, hunrecordable⟩, hout, rfl⟩
    -- the latest switch-out is `lost` or one behind it
    have hlast : lastSwitchOut ((records₁ ++ skipped).filterMap rawSwitch) resumed.tid =
        some ((lastSwitchOut more resumed.tid).getD lost) := by
      rw [hbefore, show before ++ out :: (between ++ lost :: more) = (before ++ out :: between) ++ lost :: more by simp]
      exact lastSwitchOut_cons (htid.trans htid'.symm) hlost.1
    refine (h _ _ ⟨records₁ ++ skipped, bytes, after, resumed, by simp, hbytes, hresumed, hpending, hlast⟩).2 ?_
    cases hmore : lastSwitchOut more resumed.tid with
    | none => exact hlost
    | some last =>
      obtain ⟨hmem, hlast⟩ := mem_of_lastSwitchOut hmore
      exact hunrecordable last (List.mem_append_right _ (List.mem_cons_of_mem _ hmem)) hlast
  · rintro interval last ⟨before, bytes, after, resumed, rfl, hbytes, hresumed, hpending, hlast⟩
    obtain ⟨out, hswitch, hout, rfl⟩ := (pending_iff comm hself).mp hpending
    obtain ⟨⟨htid, -⟩, earlier, later, hevents, hlater⟩ := lastSwitch_iff.mp hswitch
    rw [hevents, lastSwitchOut_cons htid hout.1] at hlast
    cases hl : lastSwitchOut later resumed.tid with
    | none =>
      rw [hl] at hlast
      cases hlast
      exact ⟨Nat.le_refl _, fun hn => hout.2 hn.2⟩
    | some lost =>
      -- a later switch-out would have overtaken the one that is pending
      obtain ⟨hmem, hlost⟩ := mem_of_lastSwitchOut hl
      obtain ⟨between, more, rfl⟩ := List.append_of_mem hmem
      refine (h ⟨earlier, out, between, lost, more, resumed, after.filterMap rawSwitch, ?_, hout,
        hlater lost hmem hlost, hresumed, hlost.trans htid.symm, htid.symm, ?_⟩).elim
      · rw [List.filterMap_append, hevents, List.filterMap_cons_some hbytes]
        simp
      · intro event hevent htid'
        refine hlater event ?_ (htid'.trans htid)
        rcases List.mem_append.mp hevent with hevent | hevent
        · exact List.mem_append_left _ hevent
        · exact List.mem_append_right _ (List.mem_cons_of_mem _ hevent)

end

/-- **Completed intervals start at the latest switch-out of their thread, unless it is one that cannot be recorded.** -/
theorem completed_latestStart_iff (maxStacks maxThreads : ℕ) (comm : Comm) (records : List (List UInt8)) :
    LatestStart (.new maxStacks maxThreads) comm records ↔ ¬ Overtaken (records.filterMap rawSwitch) :=
  latestStart_iff comm rfl records

def unreadStack : List (List UInt8) :=
  [({ kind := .switchOut, pid := 1, tid := 7, timestamp := 100, stackLen := 8, ips := [4096] } : SwitchEvent).bytes
      (List.replicate 126 0),
    ({ kind := .switchIn, pid := 1, tid := 7, timestamp := 200 } : SwitchEvent).bytes [],
    ({ kind := .switchOut, pid := 1, tid := 7, timestamp := 300, stackLen := 8, ips := [4096] } : SwitchEvent).bytes
      (List.replicate 126 0),
    ({ kind := .switchOut, pid := 1, tid := 7, timestamp := 500 } : SwitchEvent).bytes (List.replicate 127 0),
    ({ kind := .switchIn, pid := 1, tid := 7, timestamp := 600 } : SwitchEvent).bytes []]

/-- The interval starts at the switch-out before. -/
theorem unreadStack_earlierStart : ¬ LatestStart (.new 8 8) (fun _ _ => none) unreadStack := by
  intro h
  have hpending : ((unreadStack.take 4).foldl (OffCpuCollector.applyRaw · fun _ _ => none)
      (.new 8 8)).pending.lookup 7 =
        some { pid := 1, started := 300, stack := Stack.ofAddresses [4096] } := by decide +kernel
  have hlast : ((lastSwitchOut ((unreadStack.take 4).filterMap rawSwitch) 7).map SwitchEvent.timestamp) = some 500 := by
    decide +kernel
  obtain ⟨out, hout, htime⟩ := Option.map_eq_some_iff.mp hlast
  have hle := (h _ out ⟨unreadStack.take 4, _, [], _, rfl, rfl, rfl, hpending, hout⟩).1
  rw [htime] at hle
  exact absurd hle (by decide)

end RustProfile
