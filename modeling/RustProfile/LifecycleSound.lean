import RustProfile.Lifecycle
import RustProfile.Lib.Run

/-!
# What a consume tells

The tracepoints of the target that found room are cut, in their order, into one
batch for each report and those that are still to be told. A report says of its
batch whether a thread came or went and whether there was an exec, and its batch
has all that could be taken from the ring when the consume began. Where one finds
no room there is always something left to be told.
-/

namespace RustProfile

open Reservations Run

namespace Lifecycle

/-! ## Loading -/

theorem readU32_ofNat {n : ℕ} (hn : n < 2 ^ 32) (rest : List UInt8) :
    readU32 (Bytes.ofNat 4 n ++ rest) 0 = UInt32.ofNat n := by
  unfold readU32
  have hread : Bytes.readAt 4 0 (Bytes.ofNat 4 n ++ rest) = some n :=
    @Bytes.readAt_field [] 0 4 n rfl (by simpa using hn) rest
  rw [hread]
  rfl

/-- The programs compare with the number of the process that was asked for. -/
theorem targetTgid_loadObject {pid : ℤ} {initialValue : Option (List UInt8)} {rodata : List UInt8}
    (h : loadObject pid initialValue = .ok rodata) : ((targetTgid rodata).toNat : ℤ) = pid % 2 ^ 32 := by
  unfold loadObject at h
  split at h
  · cases h
  · split at h
    · cases h
    · cases h
      have hnonneg : 0 ≤ pid % 2 ^ 32 := Int.emod_nonneg _ (by decide)
      have hlt : pid % 2 ^ 32 < 2 ^ 32 := Int.emod_lt_of_pos _ (by decide)
      have hnat : (pid % 2 ^ 32).toNat < 2 ^ 32 := by omega
      unfold targetTgid
      rw [readU32_ofNat hnat, UInt32.toNat_ofNat', Nat.mod_eq_of_lt hnat, Int.toNat_of_nonneg hnonneg]

/-! ## Flags -/

theorem flag_event (hit : Hit) : flag hit.event = if hit.program = .processExec then 2 else 1 := by
  have hkind : readU32 hit.event 0 = hit.program.kind := by
    unfold Hit.event Bytes.fields
    rw [List.flatMap_cons, readU32_ofNat (UInt32.toNat_lt _)]
    exact UInt32.ofNat_toNat
  unfold flag
  rw [hkind]
  cases hit.program <;> rfl

def coalesced (batch : List Hit) : Recorder.LifecycleEvents where
  threadChange := batch.any fun hit => hit.program ≠ .processExec
  exec := batch.any fun hit => hit.program = .processExec

def flagsOf (events : Recorder.LifecycleEvents) : UInt8 :=
  (if events.threadChange then 1 else 0) ||| (if events.exec then 2 else 0)

theorem flagsOf_change (events : Recorder.LifecycleEvents) :
    flagsOf { events with threadChange := true } = flagsOf events ||| 1 := by
  rcases events with ⟨threadChange, exec⟩
  cases threadChange <;> cases exec <;> rfl

theorem flagsOf_exec (events : Recorder.LifecycleEvents) :
    flagsOf { events with exec := true } = flagsOf events ||| 2 := by
  rcases events with ⟨threadChange, exec⟩
  cases threadChange <;> cases exec <;> rfl

theorem flagsOf_snoc (batch : List Hit) (hit : Hit) :
    flagsOf (coalesced (batch ++ [hit])) = flagsOf (coalesced batch) ||| flag hit.event := by
  rw [flag_event]
  by_cases hexec : hit.program = .processExec
  · rw [if_pos hexec, ← flagsOf_exec]
    simp [coalesced, hexec]
  · rw [if_neg hexec, ← flagsOf_change]
    simp [coalesced, hexec]

theorem events_flagsOf {self : LifecycleNotifier} {events : Recorder.LifecycleEvents}
    (h : self.pending = flagsOf events) : self.events = events := by
  rcases events with ⟨threadChange, exec⟩
  unfold LifecycleNotifier.events
  rw [h]
  cases threadChange <;> cases exec <;> rfl

theorem flagsOf_eq_zero {events : Recorder.LifecycleEvents} (h : flagsOf events = 0) :
    events.threadChange = false ∧ events.exec = false := by
  rcases events with ⟨threadChange, exec⟩
  cases threadChange <;> cases exec <;> first | exact ⟨rfl, rfl⟩ | cases h

theorem eq_nil_of_flagsOf {batch : List Hit} (h : flagsOf (coalesced batch) = 0) : batch = [] := by
  obtain ⟨hchange, hexec⟩ := flagsOf_eq_zero h
  cases batch with
  | nil => rfl
  | cons hit batch =>
    simp only [coalesced, List.any_cons, Bool.or_eq_false_iff] at hchange hexec
    simp_all

/-! ## Reports -/

/-- What the reports have told, a batch for each. -/
inductive Told : List Hit → List Report → Prop
  | nil : Told [] []
  | snoc {told batch : List Hit} {reports : List Report} {report : Report} (h : Told told reports)
      (events : report.events = coalesced batch) (due : report.due ≤ (told ++ batch).length) :
      Told (told ++ batch) (reports ++ [report])

def targetHit (pid : ℤ) : LifecycleStep → Option Hit
  | .hit hit => if (hit.tgid.toNat : ℤ) = pid % 2 ^ 32 then some hit else none
  | _ => none

def targetHits (pid : ℤ) (steps : List LifecycleStep) : List Hit := steps.filterMap (targetHit pid)

/-- Of the admitted tracepoints `told` have been reported, `flagged` have been taken from the ring, and `queued` are in
it. -/
structure NotifierInv (s : LifecycleNotifier) (told flagged queued : List Hit) : Prop where
  admitted : s.admitted = told ++ flagged ++ queued
  reports : Told told s.reports
  pending : s.pending = flagsOf (coalesced flagged)
  ring : s.ring.values = queued.map Hit.event
  due : s.phase ≠ .idle → s.due ≤ (told ++ flagged).length + s.ring.ready.length
  drained : s.phase = .drained → s.due ≤ (told ++ flagged).length
  missed : s.missed = true → flagged ++ queued ≠ []
  room : s.ring.slots.length ≤ s.ring.room ∧ 0 < s.ring.room

section
variable {s : LifecycleNotifier} {told flagged queued : List Hit} (h : NotifierInv s told flagged queued)

include h

namespace NotifierInv

theorem length_admitted : s.admitted.length - s.ring.values.length = (told ++ flagged).length := by
  rw [h.admitted, h.ring, List.length_map, List.length_append, Nat.add_sub_cancel]

theorem emits (target : UInt32) (hit : Hit) :
    ∃ queued', NotifierInv (s.emitIfTarget target hit) told flagged queued' := by
  unfold LifecycleNotifier.emitIfTarget
  by_cases htarget : hit.tgid ≠ target
  · rw [if_pos htarget]
    exact ⟨queued, h⟩
  rw [if_neg htarget]
  cases hreserve : s.ring.reserve hit.event with
  | some ring =>
    obtain ⟨hvalues, hready, hroom, hlt⟩ := reserve_some hreserve
    refine ⟨queued ++ [hit], ?_, h.reports, h.pending, ?_, ?_, h.drained, fun _ => by simp, ?_⟩
    · have hadmitted := h.admitted
      unfold LifecycleNotifier.admitted at hadmitted ⊢
      simp [hadmitted]
    · simp [hvalues, h.ring]
    · dsimp only
      rw [hready]
      exact h.due
    · have hlength := congrArg List.length hvalues
      simp only [length_values, List.length_append, List.length_singleton] at hlength
      dsimp only
      have hpos := h.room.2
      omega
  | none =>
    have hfull := reserve_none hreserve
    refine ⟨queued, ?_, h.reports, h.pending, h.ring, h.due, h.drained, fun _ hnil => ?_, h.room⟩
    · have hadmitted := h.admitted
      unfold LifecycleNotifier.admitted at hadmitted ⊢
      simp [hadmitted]
    · -- the ring has room for some, and all of it is used
      have hlength := congrArg List.length h.ring
      rw [length_values, (List.append_eq_nil_iff.mp hnil).2, List.map_nil, List.length_nil] at hlength
      have hpos := h.room.2
      omega

theorem submits (slot : ℕ) : NotifierInv { s with ring := s.ring.commit slot } told flagged queued where
  admitted := h.admitted
  reports := h.reports
  pending := h.pending
  ring := (commit_values s.ring slot).trans h.ring
  due := fun hphase => (h.due hphase).trans (Nat.add_le_add_left (ready_commit s.ring slot).length_le _)
  drained := h.drained
  missed := h.missed
  room := by
    have hlength := congrArg List.length (commit_values s.ring slot)
    rw [length_values, length_values] at hlength
    rw [hlength]
    exact h.room

theorem starts : NotifierInv { s with
    phase := .draining
    due := s.admitted.length - s.ring.values.length + s.ring.ready.length } told flagged queued where
  admitted := h.admitted
  reports := h.reports
  pending := h.pending
  ring := h.ring
  due := fun _ => by rw [h.length_admitted]
  drained := fun hphase => by cases hphase
  missed := h.missed
  room := h.room

theorem takes {data : List UInt8} {ring : SlotRing (List UInt8)} (hphase : s.phase = .draining)
    (htake : s.ring.take = some (data, ring)) : ∃ hit queued', queued = hit :: queued' ∧
      NotifierInv { s with ring := ring, pending := s.pending ||| flag data } told (flagged ++ [hit]) queued' := by
  obtain ⟨hvalues, hready, hroom⟩ := take_some htake
  have hring := h.ring
  rw [hvalues] at hring
  cases queued with
  | nil => cases hring
  | cons hit queued =>
    obtain ⟨hdata, hrest⟩ := List.cons.inj hring
    have hlength := congrArg List.length hvalues
    rw [length_values, List.length_cons, length_values] at hlength
    refine ⟨hit, queued, rfl, ?_, h.reports, ?_, hrest, fun _ => ?_, fun hdrained => ?_, fun _ => by simp, ?_⟩
    · have hadmitted := h.admitted
      unfold LifecycleNotifier.admitted at hadmitted ⊢
      simp [hadmitted]
    · rw [flagsOf_snoc, h.pending, hdata]
    · have hdue := h.due (by rw [hphase]; decide)
      rw [hready] at hdue
      simp only [List.length_append, List.length_cons, List.length_nil] at hdue ⊢
      omega
    · cases hphase.symm.trans hdrained
    · have hle := h.room
      dsimp only
      omega

theorem ends (hphase : s.phase = .draining) (htake : s.ring.take = none) :
    NotifierInv { s with phase := .drained } told flagged queued := by
  have hdue := h.due (by rw [hphase]; decide)
  rw [take_none htake, List.length_nil, Nat.add_zero] at hdue
  exact ⟨h.admitted, h.reports, h.pending, h.ring, fun _ => hdue.trans (Nat.le_add_right _ _), fun _ => hdue, h.missed,
    h.room⟩

theorem fails : NotifierInv { s with phase := .idle } told flagged queued where
  admitted := h.admitted
  reports := h.reports
  pending := h.pending
  ring := h.ring
  due := fun hphase => absurd rfl hphase
  drained := fun hphase => by cases hphase
  missed := h.missed
  room := h.room

theorem swaps (hphase : s.phase = .drained) : NotifierInv s.swap (told ++ flagged) [] queued where
  admitted := by
    have hadmitted := h.admitted
    unfold LifecycleNotifier.admitted at hadmitted ⊢
    rw [List.append_nil]
    exact hadmitted
  reports := h.reports.snoc (events_flagsOf h.pending) (h.drained hphase)
  pending := rfl
  ring := h.ring
  due := fun hidle => absurd rfl hidle
  drained := fun hdrained => by cases hdrained
  missed := fun hmissed => by
    obtain ⟨hmissed, hzero⟩ := Bool.and_eq_true_iff.mp hmissed
    have hflagged : flagged = [] := eq_nil_of_flagsOf (h.pending.symm.trans (of_decide_eq_true hzero))
    simpa [hflagged] using h.missed hmissed
  room := h.room

end NotifierInv

end

/-! ## Runs -/

def start (room : ℕ) : LifecycleNotifier := { ring := { room := room } }

theorem notifierInv_start {room : ℕ} (hroom : 0 < room) : NotifierInv (start room) [] [] [] where
  admitted := rfl
  reports := .nil
  pending := rfl
  ring := rfl
  due := fun hidle => absurd rfl hidle
  drained := fun hdrained => by cases hdrained
  missed := fun hmissed => by cases hmissed
  room := ⟨Nat.zero_le _, hroom⟩

def Accounts (s : LifecycleNotifier) : Prop := ∃ told flagged queued, NotifierInv s told flagged queued

section
variable {target : UInt32} {s t : LifecycleNotifier}

theorem Accounts.step (h : Accounts s) {step : LifecycleStep} (ht : s.step target step = some t) : Accounts t := by
  -- What the programs emitted is told in reports, flagged since the last report, or still in the ring.
  obtain ⟨told, flagged, queued, h⟩ := h
  cases step with
  | hit hit =>
    cases ht
    exact ⟨told, flagged, h.emits target hit⟩
  | submit slot =>
    simp only [LifecycleNotifier.step] at ht
    split at ht
    · cases ht
      exact ⟨told, flagged, queued, h.submits slot⟩
    · cases ht
  | consume =>
    simp only [LifecycleNotifier.step] at ht
    split at ht
    · cases ht
      exact ⟨told, flagged, queued, h.starts⟩
    · cases ht
  | callback =>
    simp only [LifecycleNotifier.step] at ht
    split at ht
    · rename_i hphase
      obtain ⟨⟨data, ring⟩, htake, rfl⟩ := Option.map_eq_some_iff.mp ht
      obtain ⟨hit, queued', -, hinv⟩ := h.takes hphase htake
      exact ⟨told, flagged ++ [hit], queued', hinv⟩
    · cases ht
  | consumed ok =>
    simp only [LifecycleNotifier.step] at ht
    split at ht
    · rename_i hphase
      cases ok with
      | true =>
        simp only [if_true] at ht
        split at ht
        · rename_i htake
          cases ht
          exact ⟨told, flagged, queued, h.ends hphase (Option.isNone_iff_eq_none.mp htake)⟩
        · cases ht
      | false =>
        cases ht
        exact ⟨told, flagged, queued, h.fails⟩
    · cases ht
  | swap =>
    simp only [LifecycleNotifier.step] at ht
    split at ht
    · rename_i hphase
      cases ht
      exact ⟨told ++ flagged, [], queued, h.swaps hphase⟩
    · cases ht

/-- Only the programs add to the tracepoints, and those of other processes add nothing. -/
theorem hits_step {pid : ℤ} (htarget : (target.toNat : ℤ) = pid % 2 ^ 32) {step : LifecycleStep}
    (ht : s.step target step = some t) : t.hits.map Prod.fst = s.hits.map Prod.fst ++ (targetHit pid step).toList := by
  cases step with
  | hit hit =>
    cases ht
    have htgid : hit.tgid = target ↔ (hit.tgid.toNat : ℤ) = pid % 2 ^ 32 := by
      rw [← htarget, Nat.cast_inj, UInt32.toNat_inj]
    unfold LifecycleNotifier.emitIfTarget targetHit
    dsimp only
    by_cases heq : hit.tgid = target
    · rw [if_neg (not_not_intro heq), if_pos (htgid.mp heq)]
      cases s.ring.reserve hit.event <;> simp
    · rw [if_pos heq, if_neg (mt htgid.mpr heq)]
      simp
  | submit slot =>
    simp only [LifecycleNotifier.step] at ht
    split at ht <;> cases ht
    simp [targetHit]
  | consume =>
    simp only [LifecycleNotifier.step] at ht
    split at ht <;> cases ht
    simp [targetHit]
  | callback =>
    simp only [LifecycleNotifier.step] at ht
    split at ht
    · obtain ⟨_, -, rfl⟩ := Option.map_eq_some_iff.mp ht
      simp [targetHit]
    · cases ht
  | consumed ok =>
    simp only [LifecycleNotifier.step] at ht
    split at ht
    · cases ok with
      | true =>
        simp only [if_true] at ht
        split at ht <;> cases ht
        simp [targetHit]
      | false =>
        cases ht
        simp [targetHit]
    · cases ht
  | swap =>
    simp only [LifecycleNotifier.step] at ht
    split at ht <;> cases ht
    simp [targetHit, LifecycleNotifier.swap]

theorem hits_run {pid : ℤ} (htarget : (target.toNat : ℤ) = pid % 2 ^ 32) :
    ∀ {steps : List LifecycleStep} {s t : LifecycleNotifier}, run (LifecycleNotifier.step · target) s steps = some t →
      t.hits.map Prod.fst = s.hits.map Prod.fst ++ targetHits pid steps
  | [], s, t, h => by
    cases h
    simp [targetHits]
  | step :: steps, s, t, h => by
    obtain ⟨u, hu, hrun⟩ := Option.bind_eq_some_iff.mp h
    have hsplit : targetHits pid (step :: steps) = (targetHit pid step).toList ++ targetHits pid steps := by
      unfold targetHits
      cases htaken : targetHit pid step <;> simp [htaken]
    rw [hits_run htarget hrun, hits_step htarget hu, hsplit, List.append_assoc]

/-- A consume that no program comes between, with so many records in the ring. -/
def undisturbed (records : ℕ) : List LifecycleStep :=
  .consume :: (List.replicate records .callback ++ [.consumed true, .swap])

theorem takes_all : ∀ {queued told flagged : List Hit} {s : LifecycleNotifier}, NotifierInv s told flagged queued →
    s.phase = .draining → s.ring.ready = s.ring.values →
    ∃ t, run (LifecycleNotifier.step · target) s (List.replicate queued.length .callback) = some t ∧
      NotifierInv t told (flagged ++ queued) [] ∧ t.phase = .draining ∧ t.reports = s.reports
  | [], told, flagged, s, h, hphase, _ => ⟨s, rfl, by rwa [List.append_nil], hphase, rfl⟩
  | hit :: queued, told, flagged, s, h, hphase, hready => by
    cases htake : s.ring.take with
    | none =>
      have hvalues := h.ring
      rw [← hready, take_none htake] at hvalues
      cases hvalues
    | some taken =>
      obtain ⟨data, ring⟩ := taken
      obtain ⟨hit', queued', hqueued, hinv⟩ := h.takes hphase htake
      obtain ⟨rfl, rfl⟩ := List.cons.inj hqueued
      obtain ⟨hvalues, htaken, -⟩ := take_some htake
      have hrest : ring.ready = ring.values := by
        rw [hvalues, htaken] at hready
        exact (List.cons.inj hready).2
      obtain ⟨t, hrun, hall, hdraining, hkept⟩ := takes_all hinv hphase hrest
      refine ⟨t, ?_, by simpa using hall, hdraining, hkept⟩
      have hstep : s.step target .callback =
          some { s with ring := ring, pending := s.pending ||| flag data } := by
        simp [LifecycleNotifier.step, hphase, htake]
      rw [List.length_cons, List.replicate_succ, run_cons, hstep]
      exact hrun

/-- A consume that nothing comes between tells of everything, if all that was reserved is submitted. -/
theorem Accounts.drains (h : Accounts s) (hphase : s.phase = .idle) (hready : s.ring.ready = s.ring.values) :
    ∃ t, run (LifecycleNotifier.step · target) s (undisturbed s.ring.values.length) = some t ∧
      t.reports.length = s.reports.length + 1 ∧ Told s.admitted t.reports ∧ t.missed = false := by
  obtain ⟨told, flagged, queued, h⟩ := h
  obtain ⟨t, hrun, hall, hdraining, hreports⟩ := @takes_all target _ _ _ _ h.starts rfl hready
  have hempty : t.ring.values = [] := hall.ring
  have htake : t.ring.take = none := by
    cases htake : t.ring.take with
    | none => rfl
    | some taken =>
      have hvalues := (take_some htake).1
      rw [hempty] at hvalues
      cases hvalues
  have hended : NotifierInv ({ t with phase := .drained } : LifecycleNotifier).swap
      (told ++ (flagged ++ queued)) [] [] := (hall.ends hdraining htake).swaps rfl
  have hsteps : run (LifecycleNotifier.step · target) t [.consumed true, .swap] =
      some ({ t with phase := .drained } : LifecycleNotifier).swap := by
    simp [run, LifecycleNotifier.step, hdraining, htake]
  have hconsume : s.step target .consume = some { s with
      phase := .draining
      due := s.admitted.length - s.ring.values.length + s.ring.ready.length } := by
    simp [LifecycleNotifier.step, hphase]
  have hlength : s.ring.values.length = queued.length := by rw [h.ring, List.length_map]
  rw [← hlength] at hrun
  have hwhole : run (LifecycleNotifier.step · target) s (undisturbed s.ring.values.length) =
      some ({ t with phase := .drained } : LifecycleNotifier).swap := by
    unfold undisturbed
    rw [run_cons, hconsume, Option.bind_some, run_append, hrun]
    exact hsteps
  refine ⟨_, hwhole, (List.length_append).trans (congrArg (·.length + 1) hreports), ?_, ?_⟩
  · rw [h.admitted, List.append_assoc]
    exact hended.reports
  · exact eq_false_of_ne_true fun hmissed => hended.missed hmissed rfl

end

/-- A thread of process 7 is started on one CPU while another one executes; its record is submitted last. -/
def forkBesideExec : List LifecycleStep :=
  [.hit ⟨.processFork, 0x700000007⟩, .hit ⟨.processExec, 0x700000008⟩, .hit ⟨.processExit, 0x900000009⟩, .submit 1,
    .consume, .consumed true, .swap, .submit 0]

end Lifecycle

end RustProfile
