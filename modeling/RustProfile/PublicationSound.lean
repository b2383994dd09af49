import RustProfile.Output

/-!
# Publication

A window that fails while its files are published leaves no trace. One that
fails while the oldest window is pruned is already listed in `retained`, and the
window being removed is not any more.
-/

namespace RustProfile

def Faults.fails (faults : Faults) : Publication → Prop
  | .file path => faults.write path ≠ .ok
  | .timeline => faults.timeline = true

structure Retains (session : OutputSession) : Prop where
  complete : ∀ outputs ∈ session.retained, ∀ p ∈ outputs, p ∈ session.disk
  owned : ∀ p ∈ session.disk, ∃ outputs ∈ session.retained, p ∈ outputs

/-- A failed window has left no file, and the session's files are those of the retained windows. -/
structure RolledBack (outputs : List SessionFile) (session : OutputSession) : Prop extends Retains session where
  absent : ∀ p ∈ outputs, p ∉ session.disk

section
variable (faults : Faults)

/-! ## The parts of a write -/

structure Published (publications : List Publication) (disk : Disk) (result : Except WriteError Unit × Disk) :
    Prop where
  kept : ∀ p ∈ disk, p ∈ result.2
  added : ∀ p ∈ result.2, p ∈ disk ∨ p ∈ published publications
  all : result.1 = .ok () → ∀ p ∈ published publications, p ∈ result.2
  failed : (∃ error, result.1 = .error error) ↔ ∃ publication ∈ publications, faults.fails publication

theorem Published.nil (disk : Disk) : Published faults [] disk (.ok (), disk) :=
  ⟨fun _ h => h, fun _ h => Or.inl h, fun _ _ hp => absurd hp List.not_mem_nil, by simp⟩

variable {faults}

theorem Published.cons {publication : Publication} {rest : List Publication} {disk disk' : Disk}
    {result : Except WriteError Unit × Disk} (hok : ¬ faults.fails publication)
    (hdisk : ∀ p, p ∈ disk' ↔ p ∈ disk ∨ publication.path = some p) (h : Published faults rest disk' result) :
    Published faults (publication :: rest) disk result := by
  have hmem : ∀ p, p ∈ published (publication :: rest) ↔ publication.path = some p ∨ p ∈ published rest := fun p => by
    unfold published
    cases hp : publication.path <;> simp [hp, eq_comm]
  refine ⟨fun p hp => h.kept p ((hdisk p).mpr (Or.inl hp)), fun p hp => ?_, fun hr p hp => ?_, ?_⟩
  · rw [hmem, ← or_assoc, ← hdisk]
    exact h.added p hp
  · rcases (hmem p).mp hp with hp | hp
    · exact h.kept p ((hdisk p).mpr (Or.inr hp))
    · exact h.all hr p hp
  · rw [h.failed]
    simp [hok]

theorem Published.fail {publication : Publication} {rest : List Publication} {disk disk' : Disk} {error : WriteError}
    (hfail : faults.fails publication) (hkept : ∀ p ∈ disk, p ∈ disk')
    (hdisk : ∀ p ∈ disk', p ∈ disk ∨ publication.path = some p) :
    Published faults (publication :: rest) disk (.error error, disk') := by
  refine ⟨hkept, fun p hp => (hdisk p hp).imp id fun h => ?_, nofun, iff_of_true ⟨_, rfl⟩ ⟨publication, by simp, hfail⟩⟩
  simp [published, h]

variable (faults)

theorem publishAll_published (publications : List Publication) (disk : Disk) :
    Published faults publications disk (publishAll faults publications disk) := by
  induction publications generalizing disk with
  | nil => exact Published.nil faults disk
  | cons publication rest ih =>
    cases publication with
    | timeline =>
      unfold publishAll
      by_cases ht : faults.timeline = true
      · rw [if_pos ht]
        exact Published.fail ht (fun _ h => h) fun _ h => Or.inl h
      · rw [if_neg ht]
        exact Published.cons ht (by simp [Publication.path]) (ih disk)
    | file path =>
      have hinsert : ∀ p, p ∈ insert path disk ↔ p ∈ disk ∨ (Publication.file path).path = some p := fun p => by
        rw [Finset.mem_insert, or_comm, Publication.path, Option.some.injEq, eq_comm]
      unfold publishAll atomicWrite
      cases hw : faults.write path with
      | ok => exact Published.cons (by simp [Faults.fails, hw]) hinsert (ih _)
      | unpublished => exact Published.fail (by simp [Faults.fails, hw]) (fun _ h => h) fun _ h => Or.inl h
      | unsynced =>
        exact Published.fail (by simp [Faults.fails, hw]) (fun _ h => Finset.mem_insert_of_mem h) fun p =>
          (hinsert p).mp

theorem mem_rollback {outputs : List SessionFile} (h : ∀ p ∈ outputs, faults.rollback p = false) {disk : Disk}
    {p : SessionFile} : p ∈ rollbackIncompleteWindow faults outputs disk ↔ p ∈ disk ∧ p ∉ outputs := by
  unfold rollbackIncompleteWindow
  induction outputs generalizing disk with
  | nil => simp
  | cons q outputs ih =>
    rw [List.foldl_cons, h q (by simp), ih fun p hp => h p (List.mem_cons_of_mem _ hp)]
    simp [Finset.mem_erase]
    tauto

/-- A failing prune leaves the newest window listed. -/
theorem prune_error_mem {keepWindows : ℕ} (hkeep : 0 < keepWindows) {outputs : List SessionFile} {error : WriteError} :
    ∀ {retained : List (List SessionFile)} {disk : Disk},
      (pruneSessionWindows faults keepWindows (retained ++ [outputs]) disk).1 = .error error →
        outputs ∈ (pruneSessionWindows faults keepWindows (retained ++ [outputs]) disk).2.retained
  | [], disk, h => by
    rw [List.nil_append, pruneSessionWindows, if_neg (by simp; omega)] at h
    cases h
  | oldest :: retained, disk, h => by
    rw [List.cons_append, pruneSessionWindows] at h ⊢
    split at h
    · rename_i hlen
      rw [if_pos hlen]
      split at h
      · exact prune_error_mem hkeep h
      · simp
    · cases h

end

/-! ## Main theorem -/

section
variable {faults : Faults} {keepWindows : ℕ} {encodes : Bool} {index : ℕ} {window : WindowOutput}
  {session : OutputSession} (hw : window.Listed index) (hs : Retains session)
  (hfresh : ∀ outputs ∈ session.retained, ∀ p ∈ outputs, p.window ≠ index)
  (hroll : ∀ p ∈ window.outputs, faults.rollback p = false)
include hw hs hfresh hroll

/-- A window that fails while it is published is rolled back. -/
theorem rolledBack_of_publication {error : WriteError} {disk : Disk}
    (hp : publishAll faults window.publications session.disk = (.error error, disk)) :
    RolledBack window.outputs { session with disk := rollbackIncompleteWindow faults window.outputs disk } := by
  have hpub := publishAll_published faults window.publications session.disk
  rw [hp] at hpub
  have hfiles : published window.publications = window.outputs := window.published_publications.trans hw.outputs.symm
  refine ⟨⟨fun outputs ho p hpo => ?_, fun p hpd => ?_⟩, fun p hpo hpd => ((mem_rollback faults hroll).mp hpd).2 hpo⟩
  · refine (mem_rollback faults hroll).mpr ⟨hpub.kept p (hs.complete outputs ho p hpo), fun hpw => ?_⟩
    exact hfresh outputs ho p hpo (hw.window p (hw.outputs ▸ hpw))
  · obtain ⟨hpd, hpw⟩ := (mem_rollback faults hroll).mp hpd
    exact hs.owned p ((hpub.added p hpd).resolve_right (hfiles ▸ hpw))

end

/-- **Publication is atomic while it publishes.** A write that fails leaves no
file of its window, and on disk exactly the files of the retained windows, if
and only if one of the window's own publications failed. -/
theorem write_rolledBack_iff (args : OutputArgs) (index pending : ℕ) (faults : Faults) (encodes : Bool)
    {keepWindows : ℕ} (hkeep : 0 < keepWindows) {session : OutputSession} (hs : Retains session)
    (hfresh : ∀ outputs ∈ session.retained, ∀ p ∈ outputs, p.window ≠ index)
    (hroll : ∀ p ∈ (WindowOutput.submit args index pending).outputs, faults.rollback p = false)
    {error : WriteError} {session' : OutputSession}
    (hwrite : (WindowOutput.submit args index pending).write faults keepWindows encodes session =
      (.error error, session')) :
    RolledBack (WindowOutput.submit args index pending).outputs session' ↔
      ∃ publication ∈ (WindowOutput.submit args index pending).publications, faults.fails publication := by
  have hw := WindowOutput.submit_listed args index pending
  generalize WindowOutput.submit args index pending = window at hw hroll hwrite ⊢
  have hpub := publishAll_published faults window.publications session.disk
  unfold WindowOutput.write WindowOutput.writeInner at hwrite
  rcases hp : publishAll faults window.publications session.disk with ⟨failure | _, disk⟩
  · rw [hp] at hwrite hpub
    cases hwrite
    exact iff_of_true (rolledBack_of_publication hw hs hfresh hroll hp) (hpub.failed.mp ⟨_, rfl⟩)
  · rw [hp] at hwrite hpub
    refine iff_of_false (fun hback => ?_) (fun hfail => by simpa using hpub.failed.mpr hfail)
    dsimp only at hwrite
    have hlisted := @prune_error_mem faults keepWindows hkeep window.outputs error session.retained disk
    rcases hpr : pruneSessionWindows faults keepWindows (session.retained ++ [window.outputs]) disk with
      ⟨failure | _, pruned⟩
    · rw [hpr] at hwrite hlisted
      cases hwrite
      have hmem : window.diagnosticsPath ∈ window.outputs := hw.outputs ▸ window.diagnosticsPath_mem
      exact hback.absent _ hmem (hback.complete _ (hlisted rfl) _ hmem)
    · rw [hpr] at hwrite
      cases hwrite

/-! ## A second window -/

def firstWindow : OutputSession where
  disk := {⟨.cpu, 0⟩, ⟨.diagnostics, 0⟩}
  retained := [[⟨.cpu, 0⟩, ⟨.diagnostics, 0⟩]]

theorem firstWindow_retains : Retains firstWindow := by
  refine ⟨fun outputs ho p hp => ?_, fun p hp => ⟨_, List.mem_singleton.mpr rfl, by simpa [firstWindow] using hp⟩⟩
  rw [List.mem_singleton.mp ho] at hp
  simpa [firstWindow] using hp

/-- The directory of the second window's diagnostics cannot be synced. -/
def unsyncedDiagnostics : Faults := { Faults.none with
  write := fun path => if path = ⟨.diagnostics, 1⟩ then .unsynced else .ok }

theorem write_rolledBack_unsyncedDiagnostics : ∃ error session',
    (WindowOutput.submit {} 1 0).write unsyncedDiagnostics 1 true firstWindow = (.error error, session') ∧
    (RolledBack (WindowOutput.submit {} 1 0).outputs session' ↔
      ∃ publication ∈ (WindowOutput.submit {} 1 0).publications, unsyncedDiagnostics.fails publication) := by
  refine ⟨_, _, rfl, write_rolledBack_iff {} 1 0 unsyncedDiagnostics true (by decide : 0 < 1) firstWindow_retains ?_
    (fun _ _ => rfl) rfl⟩
  decide

/-- The first window's CPU profile cannot be removed. -/
def stuckProfile : Faults := { Faults.none with remove := fun path => decide (path = ⟨.cpu, 0⟩) }

/-- When the expired window cannot be removed, the failed window stays listed
without its files and the expired one is forgotten with its files on disk. -/
theorem stuckProfile_not_rolledBack : ∃ error session',
    (WindowOutput.submit {} 1 0).write stuckProfile 1 true firstWindow = (.error error, session') ∧
    (∃ outputs ∈ session'.retained, ∃ p ∈ outputs, p ∉ session'.disk) ∧
    (∃ p ∈ session'.disk, ∀ outputs ∈ session'.retained, p ∉ outputs) ∧
    ¬ RolledBack (WindowOutput.submit {} 1 0).outputs session' := by
  have hlost : (⟨.diagnostics, 1⟩ : SessionFile) ∉
      ((WindowOutput.submit {} 1 0).write stuckProfile 1 true firstWindow).2.disk := by decide
  refine ⟨_, _, rfl, ⟨_, List.mem_singleton.mpr rfl, ⟨.diagnostics, 1⟩, by decide, hlost⟩,
    ⟨⟨.cpu, 0⟩, by decide, by decide⟩, fun h => hlost ?_⟩
  exact h.complete _ (List.mem_singleton.mpr rfl) _ (by decide)

end RustProfile
