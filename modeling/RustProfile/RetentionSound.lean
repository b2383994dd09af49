import RustProfile.Retention
import RustProfile.Lib.Run

/-!
# Retention

The exporter tests for a diagnostics file and writes it in two steps. When the
worker never removes the file in between, the files on disk are those of the
retained windows, whatever the order of the two threads' steps.
-/

namespace RustProfile

open Run

def StillThere (s : RetentionState) : RetentionStep → Prop
  | .exporter => ∀ job, s.exporter = .persisting job → job.diagnosticsPath ∈ s.disk
  | _ => True

/-! ## The invariant -/

/-- A file of the window that the worker is writing or removing. -/
def WorkerPhase.Holds (phase : WorkerPhase) (p : SessionFile) : Prop :=
  match phase with
  | .publishing window _ left => ∃ done, done ++ published left = window.outputs ∧ p ∈ done
  | .pruning _ left => p ∈ left
  | _ => False

/-- What the worker's phase says when the first `k` windows have expired. -/
def WorkerPhase.Fits (keepWindows k : ℕ) (s : RetentionState) : WorkerPhase → Prop
  | .publishing window _ left => window.Listed s.written.length ∧
      (∃ done, done ++ published left = window.outputs) ∧ s.written.length ≤ k + keepWindows
  | .pruning _ left => left.Nodup ∧ ∀ p ∈ left, p.window < k
  | .persisting job => job.diagnosticsPath ∈ s.disk ∧ s.written.length ≤ k + keepWindows
  | _ => s.written.length ≤ k + keepWindows

structure Retention (keepWindows k : ℕ) (s : RetentionState) : Prop where
  window : ∀ (i : ℕ) (outputs : List SessionFile), s.written[i]? = some outputs → ∀ p ∈ outputs, p.window = i
  nodup : ∀ outputs ∈ s.written, outputs.Nodup
  retained : s.retained = s.written.drop k
  bound : k ≤ s.written.length - keepWindows
  disk : ∀ p, p ∈ s.disk ↔ (∃ outputs ∈ s.retained, p ∈ outputs) ∨ s.worker.Holds p
  phase : s.worker.Fits keepWindows k s

theorem holds_publishing {window : WindowOutput} {encodes : Bool} {left : List Publication} {done : List SessionFile}
    (h : done ++ published left = window.outputs) (p : SessionFile) :
    (WorkerPhase.publishing window encodes left).Holds p ↔ p ∈ done := by
  constructor
  · rintro ⟨done', h', hp⟩
    rwa [List.append_cancel_right (h.trans h'.symm)]
  · exact fun hp => ⟨done, h, hp⟩

namespace Retention

variable {keepWindows k : ℕ} {s : RetentionState} (h : Retention keepWindows k s)
include h

/-- The files of a retained window come from no expired one. -/
theorem le_window {outputs : List SessionFile} (ho : outputs ∈ s.retained) {p : SessionFile} (hp : p ∈ outputs) :
    k ≤ p.window := by
  rw [h.retained] at ho
  obtain ⟨i, hi⟩ := List.mem_iff_getElem?.mp ho
  rw [List.getElem?_drop] at hi
  rw [h.window _ _ hi p hp]
  omega

theorem receive (args : OutputArgs) (pending : ℕ) (encodes : Bool) (hw : s.worker = .idle) :
    Retention keepWindows k { s with
      worker := .publishing (.submit args s.written.length pending) encodes
        (WindowOutput.submit args s.written.length pending).publications } := by
  have hl := WindowOutput.submit_listed args s.written.length pending
  generalize WindowOutput.submit args s.written.length pending = window at hl ⊢
  have hdone : [] ++ published window.publications = window.outputs := by
    rw [List.nil_append, window.published_publications, hl.outputs]
  have hph := h.phase
  rw [hw] at hph
  refine ⟨h.window, h.nodup, h.retained, h.bound, fun p => ?_, hl, ⟨[], hdone⟩, hph⟩
  rw [holds_publishing hdone, h.disk p, hw]
  simp [WorkerPhase.Holds]

theorem publishFile {window : WindowOutput} {encodes : Bool} {path : SessionFile} {left : List Publication}
    (hw : s.worker = .publishing window encodes (.file path :: left)) :
    Retention keepWindows k { s with
      disk := insert path s.disk
      worker := .publishing window encodes left } := by
  have hph := h.phase
  rw [hw] at hph
  obtain ⟨hl, ⟨done, hd⟩, hlen⟩ := hph
  have hd' : (done ++ [path]) ++ published left = window.outputs := by
    rw [List.append_assoc]
    exact hd
  refine ⟨h.window, h.nodup, h.retained, h.bound, fun p => ?_, hl, ⟨_, hd'⟩, hlen⟩
  rw [holds_publishing hd', Finset.mem_insert, h.disk p, hw, holds_publishing hd]
  simp only [List.mem_append, List.mem_singleton]
  generalize (∃ outputs ∈ s.retained, p ∈ outputs) = kept
  tauto

theorem publishTimeline {window : WindowOutput} {encodes : Bool} {left : List Publication}
    (hw : s.worker = .publishing window encodes (.timeline :: left)) :
    Retention keepWindows k { s with worker := .publishing window encodes left } := by
  have hph := h.phase
  rw [hw] at hph
  refine ⟨h.window, h.nodup, h.retained, h.bound, fun p => ?_, hph⟩
  rw [h.disk p, hw]
  rfl

theorem retain {window : WindowOutput} {encodes : Bool} (hw : s.worker = .publishing window encodes []) :
    Retention keepWindows k { s with
      retained := s.retained ++ [window.outputs]
      written := s.written ++ [window.outputs]
      worker := .pruning (window.job encodes) [] } := by
  have hph := h.phase
  rw [hw] at hph
  obtain ⟨hl, ⟨done, hd⟩, hlen⟩ := hph
  have hb := h.bound
  have hfull : done = window.outputs := (List.append_nil done).symm.trans hd
  refine ⟨fun i outputs ho p hp => ?_, fun outputs ho => ?_, ?_, ?_, fun p => ?_, List.nodup_nil, by simp⟩
  · rcases Nat.lt_or_ge i s.written.length with hi | hi
    · rw [List.getElem?_append_left hi] at ho
      exact h.window i outputs ho p hp
    · rw [List.getElem?_append_right hi, List.getElem?_singleton] at ho
      split at ho
      · cases ho
        rw [hl.window p (hl.outputs ▸ hp)]
        omega
      · cases ho
  · rcases List.mem_append.mp ho with ho | ho
    · exact h.nodup outputs ho
    · rw [List.mem_singleton.mp ho, hl.outputs]
      exact hl.nodup
  · dsimp only
    rw [List.drop_append_of_le_length (by omega), h.retained]
  · simp only [List.length_append, List.length_singleton]
    omega
  · rw [h.disk p, hw, holds_publishing hd, hfull]
    simp [WorkerPhase.Holds, or_and_right, exists_or]

theorem removeFile {job : Option ExportJob} {path : SessionFile} {left : List SessionFile}
    (hw : s.worker = .pruning job (path :: left)) :
    Retention keepWindows k { s with disk := s.disk.erase path, worker := .pruning job left } := by
  have hph := h.phase
  rw [hw] at hph
  obtain ⟨hnd, hlt⟩ := hph
  rw [List.nodup_cons] at hnd
  refine ⟨h.window, h.nodup, h.retained, h.bound, fun p => ?_, hnd.2, fun p hp => hlt p (List.mem_cons_of_mem _ hp)⟩
  have hkept : (∃ outputs ∈ s.retained, p ∈ outputs) → p ≠ path := by
    rintro ⟨outputs, ho, hp⟩ rfl
    exact absurd (h.le_window ho hp) (Nat.not_le_of_lt (hlt p (by simp)))
  have hleft : p ∈ left → p ≠ path := fun hp e => hnd.1 (e ▸ hp)
  rw [Finset.mem_erase, h.disk p, hw]
  simp only [WorkerPhase.Holds, List.mem_cons]
  generalize (∃ outputs ∈ s.retained, p ∈ outputs) = kept at hkept ⊢
  tauto

theorem expire {job : Option ExportJob} {outputs : List SessionFile} {retained : List (List SessionFile)}
    (hw : s.worker = .pruning job []) (hr : s.retained = outputs :: retained)
    (hlen : s.retained.length > keepWindows) :
    Retention keepWindows (k + 1) { s with retained := retained, worker := .pruning job outputs } := by
  have hdrop : s.written.drop k = outputs :: retained := h.retained.symm.trans hr
  have hk : s.written[k]? = some outputs := by
    rw [← List.head?_drop, hdrop, List.head?_cons]
  have hlt : keepWindows < s.written.length - k := by
    rw [← List.length_drop, ← h.retained]
    exact hlen
  refine ⟨h.window, h.nodup, ?_, by dsimp only; omega, fun p => ?_,
    h.nodup _ (List.mem_of_getElem? hk), fun p hp => by rw [h.window k outputs hk p hp]; omega⟩
  · dsimp only
    rw [← List.tail_drop, hdrop, List.tail_cons]
  · rw [h.disk p, hw, hr]
    simp only [WorkerPhase.Holds, List.mem_cons, List.not_mem_nil, or_false, exists_eq_or_imp]
    exact or_comm

theorem congr {s' : RetentionState} (hd : s'.disk = s.disk) (hr : s'.retained = s.retained)
    (hwr : s'.written = s.written) (hw : s'.worker = s.worker) : Retention keepWindows k s' := by
  refine ⟨hwr ▸ h.window, hwr ▸ h.nodup, hr.trans (hwr ▸ h.retained), hwr ▸ h.bound, fun p => ?_, ?_⟩
  · rw [hd, hr, hw]
    exact h.disk p
  · have hph := h.phase
    unfold WorkerPhase.Fits at hph ⊢
    rw [hw, hd, hwr]
    exact hph

/-- The worker moves on to a phase in which it holds no file. -/
theorem move {phase : WorkerPhase} (hold : ∀ p, ¬ s.worker.Holds p) (hnew : ∀ p, ¬ phase.Holds p)
    (hph : phase.Fits keepWindows k s) : Retention keepWindows k { s with worker := phase } := by
  refine ⟨h.window, h.nodup, h.retained, h.bound, fun p => ?_, hph⟩
  rw [h.disk p]
  simp [hold p, hnew p]

theorem worker {s' : RetentionState} (hs : s.workerStep keepWindows = some s') :
    ∃ k', Retention keepWindows k' s' := by
  have hph := h.phase
  unfold RetentionState.workerStep at hs
  split at hs
  · cases hs
  · rename_i hw
    cases hs
    exact ⟨k, h.publishFile hw⟩
  · rename_i hw
    cases hs
    exact ⟨k, h.publishTimeline hw⟩
  · rename_i hw
    cases hs
    exact ⟨k, h.retain hw⟩
  · rename_i hw
    cases hs
    exact ⟨k, h.removeFile hw⟩
  · rename_i job hw
    have hnone : ∀ p, ¬ s.worker.Holds p := fun p => by simp [hw, WorkerPhase.Holds]
    -- expired windows are the first `k` of those written
    have hlen : s.retained.length = s.written.length - k := by rw [h.retained, List.length_drop]
    split at hs
    · rename_i outputs retained hr
      split at hs
      · rename_i hgt
        cases hs
        exact ⟨k + 1, h.expire hw hr hgt⟩
      · cases hs
        exact ⟨k, h.move hnone (fun p => id) (by simp only [WorkerPhase.Fits]; omega)⟩
    · rename_i hr
      cases hs
      rw [hr, List.length_nil] at hlen
      exact ⟨k, h.move hnone (fun p => id) (by simp only [WorkerPhase.Fits]; omega)⟩
  · rename_i hw
    cases hs
    rw [hw] at hph
    exact ⟨k, h.move (fun p => by simp [hw, WorkerPhase.Holds]) (fun p => id) hph⟩
  · rename_i job hw
    have hnone : ∀ p, ¬ s.worker.Holds p := fun p => by simp [hw, WorkerPhase.Holds]
    rw [hw] at hph
    split at hs
    · cases hs
      -- the job goes into the queue, and nothing on the disk changes
      have hidle : Retention keepWindows k { s with worker := .idle } := h.move hnone (fun p => id) hph
      exact ⟨k, hidle.congr rfl rfl rfl rfl⟩
    · split at hs
      · rename_i hmem
        cases hs
        exact ⟨k, h.move hnone (fun p => id) ⟨hmem, hph⟩⟩
      · cases hs
        exact ⟨k, h.move hnone (fun p => id) hph⟩
  · rename_i job hw
    cases hs
    rw [hw] at hph
    have hidle : Retention keepWindows k { s with worker := .idle } :=
      h.move (fun p => by simp [hw, WorkerPhase.Holds]) (fun p => id) hph.2
    exact ⟨k, hidle.congr (Finset.insert_eq_of_mem hph.1) rfl rfl rfl⟩

theorem exporter {s' : RetentionState} (ha : StillThere s .exporter) (hs : s.exporterStep = some s') :
    Retention keepWindows k s' := by
  unfold RetentionState.exporterStep at hs
  split at hs
  · split at hs
    · cases hs
      exact h.congr rfl rfl rfl rfl
    · cases hs
  · split at hs
    · cases hs
      exact h.congr rfl rfl rfl rfl
    · cases hs
      exact h.congr rfl rfl rfl rfl
  · rename_i job hj
    cases hs
    exact h.congr (Finset.insert_eq_of_mem (ha job hj)) rfl rfl rfl

theorem step {a : RetentionStep} {s' : RetentionState} (ha : StillThere s a) (hs : s.step keepWindows a = some s') :
    ∃ k', Retention keepWindows k' s' := by
  cases a with
  | receive args pending encodes =>
    unfold RetentionState.step at hs
    dsimp only at hs
    split at hs
    · rename_i hw
      cases hs
      exact ⟨k, h.receive args pending encodes hw⟩
    · cases hs
  | worker => exact h.worker hs
  | exporter => exact ⟨k, h.exporter ha hs⟩

end Retention

theorem start_retention (keepWindows : ℕ) : Retention keepWindows 0 .start where
  window := fun i outputs ho => by simp [RetentionState.start] at ho
  nodup := fun outputs ho => by simp [RetentionState.start] at ho
  retained := rfl
  bound := Nat.zero_le _
  disk := fun p => by simp [RetentionState.start, WorkerPhase.Holds]
  phase := Nat.zero_le _

/-! ## Main theorem -/

/-- **Retention is exact.** In a run in which the exporter never writes a file
that has been removed since it tested for it, whenever the worker is idle the files on disk
are those of the last `keep_windows` windows. -/
theorem retention_exact (keepWindows : ℕ) {as : List RetentionStep} {s : RetentionState}
    (hg : Guarded (RetentionState.step · keepWindows) StillThere .start as)
    (hrun : run (RetentionState.step · keepWindows) .start as = some s)
    (hworker : s.worker = .idle) :
    s.disk = (s.written.drop (s.written.length - min s.written.length keepWindows)).flatten.toFinset := by
  have hstep : ∀ s a t, (∃ k, Retention keepWindows k s) → StillThere s a → s.step keepWindows a = some t →
      ∃ k, Retention keepWindows k t := fun s a t ⟨_, h⟩ ha hs => h.step ha hs
  obtain ⟨k, h⟩ := run_inv (RetentionState.step · keepWindows) hstep ⟨0, start_retention keepWindows⟩ hg hrun
  have hph := h.phase
  have hb := h.bound
  rw [hworker] at hph
  have hk : s.written.length - min s.written.length keepWindows = k := by
    simp only [WorkerPhase.Fits] at hph
    omega
  ext p
  rw [h.disk p, hworker, hk, ← h.retained]
  simp [WorkerPhase.Holds]

/-! ## The worker's steps and `write` -/

section
variable (keepWindows : ℕ)

def WorkerRuns (s t : RetentionState) : Prop :=
  ∃ n, run (RetentionState.step · keepWindows) s (List.replicate n .worker) = some t

variable {keepWindows}

theorem WorkerRuns.refl (s : RetentionState) : WorkerRuns keepWindows s s := ⟨0, rfl⟩

theorem WorkerRuns.step {s t u : RetentionState} (hs : s.workerStep keepWindows = some t)
    (h : WorkerRuns keepWindows t u) : WorkerRuns keepWindows s u := by
  obtain ⟨n, hn⟩ := h
  refine ⟨n + 1, ?_⟩
  rw [List.replicate_succ, run_cons]
  exact (congrArg (Option.bind · _) hs).trans hn

theorem WorkerRuns.trans {s t u : RetentionState} (h : WorkerRuns keepWindows s t) (h' : WorkerRuns keepWindows t u) :
    WorkerRuns keepWindows s u := by
  obtain ⟨n, hn⟩ := h
  obtain ⟨m, hm⟩ := h'
  refine ⟨n + m, ?_⟩
  rw [List.replicate_add, run_append, hn]
  exact hm

theorem publishAll_runs {window : WindowOutput} {encodes : Bool} : ∀ (left : List Publication) (s : RetentionState),
    s.worker = .publishing window encodes left →
    ∃ disk, publishAll Faults.none left s.disk = (.ok (), disk) ∧
      WorkerRuns keepWindows s { s with disk := disk, worker := .publishing window encodes [] }
  | [], s, hw => ⟨s.disk, rfl, by rw [← hw]; exact .refl s⟩
  | .file path :: left, s, hw => by
    obtain ⟨disk, hd, hr⟩ := publishAll_runs left
      { s with disk := insert path s.disk, worker := .publishing window encodes left } rfl
    exact ⟨disk, hd, .step (by rw [RetentionState.workerStep, hw]) hr⟩
  | .timeline :: left, s, hw => by
    obtain ⟨disk, hd, hr⟩ := publishAll_runs left { s with worker := .publishing window encodes left } rfl
    exact ⟨disk, hd, .step (by rw [RetentionState.workerStep, hw]) hr⟩

theorem removeExpired_runs {job : Option ExportJob} : ∀ (left : List SessionFile) (s : RetentionState),
    s.worker = .pruning job left →
    ∃ disk, removeExpired Faults.none left s.disk = (.ok (), disk) ∧
      WorkerRuns keepWindows s { s with disk := disk, worker := .pruning job [] }
  | [], s, hw => ⟨s.disk, rfl, by rw [← hw]; exact .refl s⟩
  | path :: left, s, hw => by
    obtain ⟨disk, hd, hr⟩ := removeExpired_runs left
      { s with disk := s.disk.erase path, worker := .pruning job left } rfl
    exact ⟨disk, hd, .step (by rw [RetentionState.workerStep, hw]) hr⟩

theorem prune_runs {job : Option ExportJob} : ∀ (retained : List (List SessionFile)) (s : RetentionState),
    s.retained = retained → s.worker = .pruning job [] →
    ∃ session, pruneSessionWindows Faults.none keepWindows retained s.disk = (.ok (), session) ∧
      WorkerRuns keepWindows s
        { s with disk := session.disk, retained := session.retained, worker := .submitting job }
  | [], s, hr, hw => by
    refine ⟨⟨s.disk, []⟩, rfl, .step ?_ (.refl _)⟩
    rw [RetentionState.workerStep, hw]
    dsimp only
    rw [hr]
  | outputs :: retained, s, hr, hw => by
    have hstep : s.workerStep keepWindows = if (outputs :: retained).length > keepWindows then
        some { s with retained := retained, worker := .pruning job outputs }
        else some { s with worker := .submitting job } := by
      rw [RetentionState.workerStep, hw]
      dsimp only
      rw [hr]
    unfold pruneSessionWindows
    by_cases hlen : (outputs :: retained).length > keepWindows
    · rw [if_pos hlen] at hstep
      obtain ⟨disk, hd, hrm⟩ := removeExpired_runs outputs
        { s with retained := retained, worker := .pruning job outputs } rfl
      obtain ⟨session, hp, hpr⟩ := prune_runs retained
        { s with disk := disk, retained := retained, worker := .pruning job [] } rfl rfl
      refine ⟨session, ?_, .step hstep (hrm.trans hpr)⟩
      rw [if_pos hlen, hd]
      exact hp
    · rw [if_neg hlen] at hstep ⊢
      refine ⟨⟨s.disk, outputs :: retained⟩, rfl, .step hstep ?_⟩
      rw [← hr]
      exact .refl _

/-- Left alone, the worker does what `write` does when nothing fails. -/
theorem write_runs {s : RetentionState} {window : WindowOutput} {encodes : Bool}
    (hw : s.worker = .publishing window encodes window.publications) :
    ∃ job session, window.write Faults.none keepWindows encodes ⟨s.disk, s.retained⟩ = (.ok job, session) ∧
      WorkerRuns keepWindows s { s with
        disk := session.disk
        retained := session.retained
        written := s.written ++ [window.outputs]
        worker := .submitting job } := by
  obtain ⟨disk, hd, hpub⟩ := publishAll_runs window.publications s hw
  obtain ⟨session, hp, hprune⟩ := prune_runs (s.retained ++ [window.outputs])
    { s with
      disk := disk
      retained := s.retained ++ [window.outputs]
      written := s.written ++ [window.outputs]
      worker := .pruning (window.job encodes) [] } rfl rfl
  refine ⟨window.job encodes, session, ?_, hpub.trans (.step rfl hprune)⟩
  unfold WindowOutput.write WindowOutput.writeInner
  dsimp only at hp
  rw [hd]
  dsimp only
  rw [hp]

end

/-! ## Two windows, of which one is kept -/

/-- The worker writes a CPU profile, retains it and submits its job, after `removals` steps of pruning. -/
def exportedWindow (removals : ℕ) : List RetentionStep :=
  .receive { otlp := true } 0 true :: List.replicate (5 + removals) .worker

theorem exportedWindow_guarded (removals : ℕ) (s : RetentionState) :
    Guarded (RetentionState.step · 1) StillThere s (exportedWindow removals) :=
  guarded_of_forall _ fun a ha s => by
    rcases List.mem_cons.mp ha with rfl | ha
    · trivial
    · rw [List.eq_of_mem_replicate ha]
      trivial

/-- The exporter finishes the first window's job before the second window is written. -/
def exportedInTurn : List RetentionStep :=
  exportedWindow 0 ++ ([.exporter, .exporter, .exporter] ++ exportedWindow 3)

theorem retention_exact_exportedInTurn : ∃ s, run (RetentionState.step · 1) .start exportedInTurn = some s ∧
    s.disk = (s.written.drop (s.written.length - min s.written.length 1)).flatten.toFinset := by
  refine ⟨_, rfl, @retention_exact 1 exportedInTurn _ ?_ rfl rfl⟩
  refine (guarded_append _ rfl).mpr ⟨exportedWindow_guarded 0 _, ?_⟩
  refine (guarded_append _ rfl).mpr ⟨?_, exportedWindow_guarded 3 _⟩
  refine guarded_cons _ nofun rfl (guarded_cons _ nofun rfl (guarded_cons _ (fun job hj => ?_) rfl trivial))
  cases hj
  decide

/-- The exporter tests for the first window's file, and writes it when the worker has removed it. -/
def exportedLate : List RetentionStep :=
  exportedWindow 0 ++ List.replicate 2 .exporter ++ exportedWindow 3 ++ List.replicate 4 .exporter

/-- The diagnostics of a window that has been pruned are written again. -/
theorem exportedLate_recreates : ∃ s, run (RetentionState.step · 1) .start exportedLate = some s ∧
    s.worker = .idle ∧ s.exporter = .idle ∧ s.queue = [] ∧ ⟨.diagnostics, 0⟩ ∈ s.disk ∧
    s.disk ≠ (s.written.drop (s.written.length - min s.written.length 1)).flatten.toFinset :=
  ⟨_, rfl, rfl, rfl, rfl, by decide, by decide⟩

end RustProfile
