import RustProfile.CpuWindowSound
import RustProfile.ImportRun

/-!
# An import accounts for every sample

Writing a window moves it from the pending windows to the calls, so the windows
ever opened are the calls followed by the pending ones, in increasing order: a
call lies below the line `flushedBefore` and a pending window does not. Each holds
exactly the samples that were counted to its index.
-/

namespace RustProfile

open Queues Accepted

inductive ImportFate where
  | late
  | noAddress
  | counted (index : ℕ) (sample : ImportSample)
  deriving DecidableEq, Repr

def ImportFate.countedTo (index : ℕ) : ImportFate → Option ImportSample
  | .counted i sample => if i = index then some sample else none
  | .late => none
  | .noAddress => none

abbrev SampleFates := List (SampleRecord × ImportFate)

namespace Importing

section
variable (command : ImportCommand) (self : Importing)

def fateAt (sample : SampleRecord) (timestamp : ℕ) (thread : UInt32 × UInt32) : ImportFate :=
  let index := (timestamp - self.firstTimestamp.getD timestamp) / command.windowNanos
  if index < self.flushedBefore then .late
  else if sample.addresses = [] then .noAddress
  else .counted index (self.add command index timestamp thread sample.addresses).1

def fate : PerfFileRecord → Option (SampleRecord × ImportFate)
  | .sample sample => sample.thread.map fun key => (sample, self.fateAt command sample key.1 key.2)
  | .comm _ => none
  | .other => none

end

/-- The samples that a run reads, as long as no write fails, each with its fate. -/
def fates (command : ImportCommand) (iter : IterOrder) (writes : ℕ → Option String) :
    List PerfFileRecord → Importing → SampleFates
  | [], _ => []
  | record :: rest, self =>
    let result := self.record command iter writes record
    (self.fate command record).toList ++ if result.1 = .ok () then fates command iter writes rest result.2 else []

def opened (self : Importing) : List (ℕ × ImportWindow) := self.calls ++ self.windows.entries

end Importing

def PerfFileRecord.eligible : PerfFileRecord → Option SampleRecord
  | .sample s => if s.thread.isSome then some s else none
  | .comm _ => none
  | .other => none

def eligible (records : List PerfFileRecord) : List SampleRecord := records.filterMap PerfFileRecord.eligible

def firstTimestampOf (samples : List SampleRecord) : Option ℕ := (samples.findSome? SampleRecord.thread).map Prod.fst

def samplesOf (index : ℕ) (done : SampleFates) : List ImportSample := done.filterMap fun p => p.2.countedTo index

/-- The fate of a sample fits its addresses and its distance from the first sample. -/
structure Fated (command : ImportCommand) (first : ℕ) (sample : SampleRecord) (fate : ImportFate) : Prop where
  thread : sample.thread.isSome
  noAddress : fate = .noAddress → sample.addresses = []
  counted : ∀ index s, fate = .counted index s →
    sample.addresses ≠ [] ∧ sample.thread = some (s.timestamp, s.pid, s.tid) ∧
      index = (s.timestamp - first) / command.windowNanos

/-- The windows opened hold the samples that were counted. -/
structure Imported (command : ImportCommand) (st : Importing) (done : SampleFates) : Prop where
  first : st.firstTimestamp = firstTimestampOf (done.map Prod.fst)
  fated : ∀ p ∈ done, Fated command (st.firstTimestamp.getD 0) p.1 p.2
  sorted : st.opened.Pairwise fun a b => a.1 < b.1
  holds : ∀ e ∈ st.opened, e.2 = (samplesOf e.1 done).foldl (ImportWindow.add command.toImportArgs) {}
  opened : ∀ p ∈ done, ∀ index s, p.2 = .counted index s → ∃ window, (index, window) ∈ st.opened
  late : st.lateSamplesDropped = min (done.countP (·.2 = .late)) u64Max

/-- The calls lie below the line and the pending windows do not. -/
structure Lined (st : Importing) : Prop where
  calls : ∀ e ∈ st.calls, e.1 < st.flushedBefore
  pending : ∀ e ∈ st.windows.entries, st.flushedBefore ≤ e.1
  bounded : ∀ e ∈ st.windows.entries, e.1 ≤ u64Max

section
variable {command : ImportCommand} {iter : IterOrder} {writes : ℕ → Option String} {self self' : Importing}
  {done : SampleFates} {index : ℕ} {window : ImportWindow} {pending : List (ℕ × ImportWindow)}

/-! ## Writing windows -/

structure SameAccounts (a b : Importing) : Prop where
  first : b.firstTimestamp = a.firstTimestamp
  opened : b.opened = a.opened
  late : b.lateSamplesDropped = a.lateSamplesDropped

theorem SameAccounts.refl (a : Importing) : SameAccounts a a := ⟨rfl, rfl, rfl⟩

theorem SameAccounts.trans {a b c : Importing} (hab : SameAccounts a b) (hbc : SameAccounts b c) : SameAccounts a c :=
  ⟨hbc.first.trans hab.first, hbc.opened.trans hab.opened, hbc.late.trans hab.late⟩

theorem Imported.congr (h : Imported command self done) (hs : SameAccounts self self') :
    Imported command self' done := by
  refine ⟨by rw [hs.first, h.first], ?_, by rw [hs.opened]; exact h.sorted, ?_, ?_, by rw [hs.late, h.late]⟩
  · rw [hs.first]
    exact h.fated
  · rw [hs.opened]
    exact h.holds
  · rw [hs.opened]
    exact h.opened

structure Written (command : ImportCommand) (iter : IterOrder) (writes : ℕ → Option String) (index : ℕ)
    (window : ImportWindow) (pending : List (ℕ × ImportWindow)) (st : Importing)
    (result : Except ImportError Unit × Importing) : Prop where
  same : SameAccounts st result.2
  calls : result.2.calls = st.calls ++ [(index, window)]
  pending : result.2.windows.entries = pending
  line : result.2.flushedBefore = st.flushedBefore
  files : result.1 = .ok () → result.2.written = st.written ++ [command.writeImportWindow iter index window]
  error : ∀ error, result.1 = .error error → ∃ message, error = .write message ∧ writes st.calls.length = some message

theorem written_of_first (hp : self.windows.entries = (index, window) :: pending) :
    Written command iter writes index window pending self
      (Importing.writeWindow command iter writes { self with windows := self.windows.erase index } index window) := by
  have herase := OrdMap.entries_erase_first hp
  have hopened : (self.calls ++ [(index, window)]) ++ (self.windows.erase index).entries = self.opened := by
    rw [herase, Importing.opened, hp, List.append_assoc, List.singleton_append]
  unfold Importing.writeWindow
  cases hw : writes self.calls.length with
  | some message =>
    exact ⟨⟨rfl, hopened, rfl⟩, rfl, herase, rfl, nofun, fun error he => ⟨message, by cases he; rfl, hw⟩⟩
  | none =>
    exact ⟨⟨rfl, hopened, rfl⟩, rfl, herase, rfl, fun _ => rfl, nofun⟩

def FilesOfCalls (command : ImportCommand) (iter : IterOrder) (st : Importing) : Prop :=
  st.written = st.calls.map fun call => command.writeImportWindow iter call.1 call.2

theorem Written.published {result : Except ImportError Unit × Importing}
    (h : Written command iter writes index window pending self result) (hf : FilesOfCalls command iter self)
    (hok : result.1 = .ok ()) : FilesOfCalls command iter result.2 := by
  unfold FilesOfCalls at *
  rw [h.files hok, h.calls, List.map_append, hf]
  rfl

structure Advanced (command : ImportCommand) (iter : IterOrder) (writes : ℕ → Option String) (st : Importing)
    (result : Except ImportError Unit × Importing) : Prop where
  same : SameAccounts st result.2
  published : FilesOfCalls command iter st → result.1 = .ok () → FilesOfCalls command iter result.2
  error : ∀ error, result.1 = .error error → ∃ n message, error = .write message ∧ writes n = some message

theorem Advanced.refl (self : Importing) : Advanced command iter writes self (.ok (), self) :=
  ⟨SameAccounts.refl self, fun h _ => h, nofun⟩

theorem Written.advanced {result : Except ImportError Unit × Importing}
    (h : Written command iter writes index window pending self result) : Advanced command iter writes self result := by
  refine ⟨h.same, fun hf hok => h.published hf hok, fun error he => ?_⟩
  obtain ⟨message, hm, hw⟩ := h.error error he
  exact ⟨_, message, hm, hw⟩

theorem Advanced.trans {result : Except ImportError Unit × Importing} {result' : Except ImportError Unit × Importing}
    (h : Advanced command iter writes self result) (hok : result.1 = .ok ())
    (h' : Advanced command iter writes result.2 result') : Advanced command iter writes self result' :=
  ⟨h.same.trans h'.same, fun hf hok' => h'.published (h.published hf hok) hok', h'.error⟩

theorem Lined.advance (h : Lined self) (hs : self.opened.Pairwise fun a b => a.1 < b.1)
    (hp : self.windows.entries = (index, window) :: pending) (hne : pending ≠ []) {result : Importing}
    (hc : result.calls = self.calls ++ [(index, window)]) (hr : result.windows.entries = pending)
    (hl : result.flushedBefore = saturatingAddU64 index 1) : Lined result := by
  have hsorted := (List.pairwise_append.mp hs).2.1
  rw [hp, List.pairwise_cons] at hsorted
  have hmem : (index, window) ∈ self.windows.entries := hp ▸ List.mem_cons_self
  have hsub : ∀ e ∈ pending, e ∈ self.windows.entries := fun e he => hp ▸ List.mem_cons_of_mem _ he
  have hline : result.flushedBefore = index + 1 := by
    obtain ⟨e, he⟩ := List.exists_mem_of_ne_nil pending hne
    have hlt : index < e.1 := hsorted.1 e he
    have hmax := h.bounded e (hsub e he)
    rw [hl]
    exact min_eq_left (by omega)
  refine ⟨fun e he => ?_, fun e he => ?_, fun e he => ?_⟩
  · rw [hc] at he
    rw [hline]
    rcases List.mem_append.mp he with he | he
    · have hlt := h.calls e he
      have hle := h.pending _ hmem
      dsimp only at hle
      omega
    · rw [List.mem_singleton.mp he]
      exact Nat.lt_succ_self index
  · rw [hr] at he
    rw [hline]
    exact hsorted.1 e he
  · rw [hr] at he
    exact h.bounded e (hsub e he)

/-- Flushing writes the lowest windows until at most `MAX_PENDING_WINDOWS` are pending. -/
theorem flush_advanced : ∀ (pending : List (ℕ × ImportWindow)) {self : Importing}, self.windows.entries = pending →
    Lined self → self.opened.Pairwise (fun a b => a.1 < b.1) →
    Advanced command iter writes self (Importing.flush command iter writes pending self) ∧
      ((Importing.flush command iter writes pending self).1 = .ok () →
        Lined (Importing.flush command iter writes pending self).2) ∧
      (pending.length ≤ maxPendingWindows + 1 →
        (Importing.flush command iter writes pending self).2.windows.entries.length ≤ maxPendingWindows)
  | [], self, hp, hl, hs => by
    refine ⟨Advanced.refl self, fun _ => hl, fun _ => ?_⟩
    simp only [Importing.flush, hp, List.length_nil]
    exact Nat.zero_le _
  | (index, window) :: pending, self, hp, hl, hs => by
    rw [Importing.flush]
    by_cases hlen : ((index, window) :: pending).length > maxPendingWindows
    · rw [if_pos hlen]
      have hw := @written_of_first command iter writes self index window pending hp
      rcases hr : Importing.writeWindow command iter writes { self with windows := self.windows.erase index } index
        window with ⟨result, next⟩
      rw [hr] at hw
      cases result with
      | error error =>
        refine ⟨hw.advanced, nofun, fun hle => ?_⟩
        simp only [List.length_cons] at hle
        dsimp only
        rw [hw.pending]
        omega
      | ok _ =>
        dsimp only
        -- A higher window stays pending, so `index + 1` does not saturate.
        have hne : pending ≠ [] := by
          rintro rfl
          simp [maxPendingWindows] at hlen
        have hlined : Lined (next.advance index) := hl.advance hs hp hne hw.calls hw.pending rfl
        have hnext : Advanced command iter writes self (.ok (), next.advance index) :=
          ⟨⟨hw.same.first, hw.same.opened, hw.same.late⟩, fun hf _ => hw.published hf rfl, nofun⟩
        obtain ⟨hadv, hline, hcap⟩ := @flush_advanced pending (next.advance index) hw.pending hlined
          (hw.same.opened ▸ hs)
        refine ⟨hnext.trans rfl hadv, hline, fun hle => hcap ?_⟩
        simp only [List.length_cons] at hle
        omega
    · rw [if_neg hlen]
      refine ⟨Advanced.refl self, fun _ => hl, fun _ => ?_⟩
      dsimp only
      rw [hp]
      exact not_lt.mp hlen

theorem writeRemaining_advanced : ∀ (pending : List (ℕ × ImportWindow)) {self : Importing},
    self.windows.entries = pending →
    Advanced command iter writes self (Importing.writeRemaining command iter writes pending self) ∧
      ((Importing.writeRemaining command iter writes pending self).1 = .ok () →
        (Importing.writeRemaining command iter writes pending self).2.windows.entries = [])
  | [], self, hp => ⟨Advanced.refl self, fun _ => hp⟩
  | (index, window) :: pending, self, hp => by
    rw [Importing.writeRemaining]
    have hw := @written_of_first command iter writes self index window pending hp
    rcases hr : Importing.writeWindow command iter writes { self with windows := self.windows.erase index } index
      window with ⟨result, next⟩
    rw [hr] at hw
    cases result with
    | error error => exact ⟨hw.advanced, nofun⟩
    | ok _ =>
      obtain ⟨hadv, hempty⟩ := writeRemaining_advanced pending hw.pending
      exact ⟨hw.advanced.trans rfl hadv, hempty⟩

/-! ## One record -/

theorem samplesOf_append (done done' : SampleFates) :
    samplesOf index (done ++ done') = samplesOf index done ++ samplesOf index done' := List.filterMap_append

theorem samplesOf_singleton (sample : SampleRecord) (fate : ImportFate) :
    samplesOf index [(sample, fate)] = (fate.countedTo index).toList := by
  unfold samplesOf
  cases h : fate.countedTo index <;> simp [h]

theorem firstTimestampOf_snoc (done : List SampleRecord) {sample : SampleRecord} {timestamp : ℕ}
    {thread : UInt32 × UInt32} (h : sample.thread = some (timestamp, thread)) :
    firstTimestampOf (done ++ [sample]) = some ((firstTimestampOf done).getD timestamp) := by
  unfold firstTimestampOf
  rw [List.findSome?_append, List.findSome?_singleton, h]
  cases done.findSome? SampleRecord.thread <;> rfl

/-- What a fate that is not `counted` adds. -/
theorem Imported.snoc (h : Imported command self done) {sample : SampleRecord} {fate : ImportFate} {timestamp : ℕ}
    {thread : UInt32 × UInt32} (ht : sample.thread = some (timestamp, thread))
    (hf : Fated command (self.firstTimestamp.getD timestamp) sample fate)
    (hfirst : self'.firstTimestamp = some (self.firstTimestamp.getD timestamp))
    (hlate : self'.lateSamplesDropped =
      if fate = .late then saturatingAddU64 self.lateSamplesDropped 1 else self.lateSamplesDropped)
    (hsorted : self'.opened.Pairwise fun a b => a.1 < b.1)
    (hholds : ∀ e ∈ self'.opened, e.2 =
      (samplesOf e.1 (done ++ [(sample, fate)])).foldl (ImportWindow.add command.toImportArgs) {})
    (hopened : ∀ p ∈ done ++ [(sample, fate)], ∀ index s, p.2 = .counted index s →
      ∃ window, (index, window) ∈ self'.opened) : Imported command self' (done ++ [(sample, fate)]) := by
  refine ⟨?_, fun p hp => ?_, hsorted, hholds, hopened, ?_⟩
  · rw [hfirst, List.map_append, List.map_singleton, firstTimestampOf_snoc _ ht, h.first]
  · rw [hfirst, Option.getD_some]
    rcases List.mem_append.mp hp with hp | hp
    · have hfated := h.fated p hp
      cases hs : self.firstTimestamp with
      | some first => rwa [hs] at hfated
      | none =>
        rw [h.first, firstTimestampOf, Option.map_eq_none_iff, List.findSome?_eq_none_iff] at hs
        have hnone := hs p.1 (List.mem_map_of_mem hp)
        have hthread := hfated.thread
        rw [hnone] at hthread
        cases hthread
    · rw [List.mem_singleton.mp hp]
      exact hf
  · rw [hlate, List.countP_append, List.countP_singleton, h.late]
    by_cases hl : fate = .late
    · simp only [hl, ite_true, decide_true, saturatingAddU64, Sat.add]
      omega
    · simp only [hl, ite_false, decide_false, Bool.false_eq_true, Nat.add_zero]

theorem Imported.uncounted (h : Imported command self done) {sample : SampleRecord} {fate : ImportFate} {timestamp : ℕ}
    {thread : UInt32 × UInt32} (ht : sample.thread = some (timestamp, thread))
    (hf : Fated command (self.firstTimestamp.getD timestamp) sample fate)
    (hfirst : self'.firstTimestamp = some (self.firstTimestamp.getD timestamp)) (ho : self'.opened = self.opened)
    (hlate : self'.lateSamplesDropped =
      if fate = .late then saturatingAddU64 self.lateSamplesDropped 1 else self.lateSamplesDropped)
    (hnone : ∀ index s, fate ≠ .counted index s) : Imported command self' (done ++ [(sample, fate)]) := by
  have hsame : ∀ index, samplesOf index (done ++ [(sample, fate)]) = samplesOf index done := by
    intro index
    rw [samplesOf_append, samplesOf_singleton]
    cases fate with
    | late => exact List.append_nil _
    | noAddress => exact List.append_nil _
    | counted i s => exact absurd rfl (hnone i s)
  refine h.snoc ht hf hfirst hlate (ho ▸ h.sorted) (fun e he => ?_) fun p hp index s hs => ?_
  · rw [hsame]
    exact h.holds e (ho ▸ he)
  · rw [ho]
    rcases List.mem_append.mp hp with hp | hp
    · exact h.opened p hp index s hs
    · rw [List.mem_singleton.mp hp] at hs
      exact absurd hs (hnone index s)

theorem samplesOf_counted (done : SampleFates) (sample : SampleRecord) (s : ImportSample) (i : ℕ) :
    samplesOf i (done ++ [(sample, .counted index s)]) = samplesOf i done ++ if index = i then [s] else [] := by
  rw [samplesOf_append, samplesOf_singleton, ImportFate.countedTo]
  by_cases hi : index = i
  · rw [if_pos hi, if_pos hi]
    rfl
  · rw [if_neg hi, if_neg hi]
    rfl

theorem Imported.unopened (h : Imported command self done) (hne : ∀ e ∈ self.opened, e.1 ≠ index) :
    samplesOf index done = [] := by
  refine List.filterMap_eq_nil_iff.mpr fun p hp => ?_
  cases hfate : p.2 with
  | late => rfl
  | noAddress => rfl
  | counted i t =>
    obtain ⟨window, hw⟩ := h.opened p hp i t hfate
    rw [ImportFate.countedTo, if_neg (hne _ hw)]

theorem Imported.update_holds (h : Imported command self done) (hbelow : ∀ e ∈ self.calls, e.1 ≠ index)
    (sample : SampleRecord) (s : ImportSample) :
    ∀ e ∈ upsert index {} (ImportWindow.add command.toImportArgs · s) self.windows.entries, e.2 =
      (samplesOf e.1 (done ++ [(sample, .counted index s)])).foldl (ImportWindow.add command.toImportArgs) {} := by
  refine @upsert_family ℕ ImportWindow _ index {} _
    (fun i => (samplesOf i done).foldl (ImportWindow.add command.toImportArgs) {})
    (fun i => (samplesOf i (done ++ [(sample, .counted index s)])).foldl (ImportWindow.add command.toImportArgs) {})
    ?_ ?_ _ self.windows.sorted ?_ ?_
  · rw [samplesOf_counted, if_pos rfl, List.foldl_append]
    rfl
  · intro i hi
    rw [samplesOf_counted, if_neg (Ne.symm hi), List.append_nil]
  · intro e he
    exact h.holds e (List.mem_append_right _ he)
  · intro hclosed
    have hne : ∀ e ∈ self.opened, e.1 ≠ index := by
      intro e he
      rcases List.mem_append.mp he with he | he
      · exact hbelow e he
      · exact hclosed e he
    rw [h.unopened hne]
    rfl

theorem Imported.update_opened (h : Imported command self done) (sample : SampleRecord) (s : ImportSample) :
    ∀ p ∈ done ++ [(sample, .counted index s)], ∀ i t, p.2 = .counted i t → ∃ window, (i, window) ∈
      self.calls ++ upsert index {} (ImportWindow.add command.toImportArgs · s) self.windows.entries := by
  intro p hp i t hfate
  rcases List.mem_append.mp hp with hp | hp
  · obtain ⟨window, hw⟩ := h.opened p hp i t hfate
    rcases List.mem_append.mp hw with hw | hw
    · exact ⟨window, List.mem_append_left _ hw⟩
    · obtain ⟨window', hw'⟩ := key_upsert index {} (ImportWindow.add command.toImportArgs · s) (Or.inr ⟨window, hw⟩)
      exact ⟨window', List.mem_append_right _ hw'⟩
  · rw [List.mem_singleton.mp hp] at hfate
    cases hfate
    obtain ⟨window', hw'⟩ := @key_upsert _ _ _ index {} (ImportWindow.add command.toImportArgs · s) index
      self.windows.entries (Or.inl rfl)
    exact ⟨window', List.mem_append_right _ hw'⟩

theorem Imported.counted (h : Imported command self done) (hl : Lined self) {sample : SampleRecord}
    {s : ImportSample} (ht : sample.thread = some (s.timestamp, s.pid, s.tid)) (hline : self.flushedBefore ≤ index)
    (hmax : index ≤ u64Max)
    (hf : Fated command (self.firstTimestamp.getD s.timestamp) sample (.counted index s))
    (hfirst : self'.firstTimestamp = some (self.firstTimestamp.getD s.timestamp)) (hcalls : self'.calls = self.calls)
    (hwindows : self'.windows = self.windows.update index {} (·.add command.toImportArgs s))
    (hlate : self'.lateSamplesDropped = self.lateSamplesDropped) (hflushed : self'.flushedBefore = self.flushedBefore) :
    Imported command self' (done ++ [(sample, .counted index s)]) ∧ Lined self' ∧
      self'.windows.entries.length ≤ self.windows.entries.length + 1 := by
  have hentries : self'.windows.entries =
      upsert index {} (ImportWindow.add command.toImportArgs · s) self.windows.entries := by
    rw [hwindows]
    rfl
  have hkeys : ∀ e ∈ self'.windows.entries, self.flushedBefore ≤ e.1 ∧ e.1 ≤ u64Max := by
    intro e he
    rw [hentries] at he
    rcases key_of_mem_upsert he with hk | ⟨e', he', hk⟩
    · rw [hk]
      exact ⟨hline, hmax⟩
    · rw [hk]
      exact ⟨hl.pending e' he', hl.bounded e' he'⟩
  -- A written window is before the watermark, the sample's window is not.
  have hbelow : ∀ e ∈ self.calls, e.1 ≠ index := fun e he => (lt_of_lt_of_le (hl.calls e he) hline).ne
  refine ⟨h.snoc ht hf hfirst ?_ ?_ ?_ ?_, ⟨?_, ?_, ?_⟩, ?_⟩
  · rw [hlate, if_neg nofun]
  · rw [Importing.opened, hcalls]
    refine List.pairwise_append.mpr ⟨(List.pairwise_append.mp h.sorted).1, self'.windows.sorted, fun a ha b hb => ?_⟩
    exact lt_of_lt_of_le (hl.calls a ha) (hkeys b hb).1
  · intro e he
    rcases List.mem_append.mp he with he | he
    · rw [hcalls] at he
      rw [samplesOf_counted, if_neg (hbelow e he).symm, List.append_nil]
      exact h.holds e (List.mem_append_left _ he)
    · rw [hentries] at he
      exact h.update_holds hbelow sample s e he
  · rw [Importing.opened, hcalls, hentries]
    exact h.update_opened sample s
  · rw [hcalls, hflushed]
    exact hl.calls
  · intro e he
    rw [hflushed]
    exact (hkeys e he).1
  · exact fun e he => (hkeys e he).2
  · rw [hentries]
    exact length_upsert_le _ _ _ _

theorem thread_bounded {sample : SampleRecord} {timestamp : ℕ} {thread : UInt32 × UInt32}
    (h : sample.thread = some (timestamp, thread)) : timestamp ≤ u64Max := by
  unfold SampleRecord.thread at h
  simp only [Option.bind_eq_bind, Option.bind_eq_some_iff, Option.pure_def, Option.some.injEq, Prod.mk.injEq] at h
  obtain ⟨t, -, -, -, -, -, -, -, -, -, rfl, -⟩ := h
  exact toNat_le_u64Max t

structure Reached (command : ImportCommand) (iter : IterOrder) (writes : ℕ → Option String) (st : Importing)
    (result : Except ImportError Unit × Importing) (done : SampleFates) : Prop where
  imported : Imported command result.2 done
  pending : result.2.windows.entries.length ≤ maxPendingWindows
  lined : result.1 = .ok () → Lined result.2
  published : FilesOfCalls command iter st → result.1 = .ok () → FilesOfCalls command iter result.2
  error : ∀ error, result.1 = .error error → ∃ n message, error = .write message ∧ writes n = some message

theorem Reached.still (h : Imported command self' done) (hl : Lined self')
    (hp : self'.windows.entries.length ≤ maxPendingWindows) (hc : self'.calls = self.calls)
    (hw : self'.written = self.written) : Reached command iter writes self (.ok (), self') done := by
  refine ⟨h, hp, fun _ => hl, fun hf _ => ?_, nofun⟩
  unfold FilesOfCalls at *
  rw [hw, hc]
  exact hf

structure Entered (command : ImportCommand) (index timestamp : ℕ) (thread : UInt32 × UInt32) (st : Importing)
    (result : ImportSample × Importing) : Prop where
  timestamp : result.1.timestamp = timestamp
  thread : (result.1.pid, result.1.tid) = thread
  windows : result.2.windows = st.windows.update index {} (·.add command.toImportArgs result.1)
  calls : result.2.calls = st.calls
  written : result.2.written = st.written
  line : result.2.flushedBefore = st.flushedBefore
  late : result.2.lateSamplesDropped = st.lateSamplesDropped
  first : result.2.firstTimestamp = st.firstTimestamp

theorem add_entered (self : Importing) (index timestamp : ℕ) (thread : UInt32 × UInt32) (addresses : List UInt64) :
    Entered command index timestamp thread self (self.add command index timestamp thread addresses) := by
  unfold Importing.add Importing.delta
  by_cases hd : thread ∈ self.lastThreadTimestamp ∨ self.lastThreadTimestamp.size < maxTrackedThreads
  · rw [if_pos hd]
    exact ⟨rfl, rfl, rfl, rfl, rfl, rfl, rfl, rfl⟩
  · rw [if_neg hd]
    exact ⟨rfl, rfl, rfl, rfl, rfl, rfl, rfl, rfl⟩

theorem add_first (self : Importing) (first : Option ℕ) (index timestamp : ℕ) (thread : UInt32 × UInt32)
    (addresses : List UInt64) :
    (Importing.add command { self with firstTimestamp := first } index timestamp thread addresses).1 =
      (self.add command index timestamp thread addresses).1 := by
  unfold Importing.add Importing.delta
  by_cases hd : thread ∈ self.lastThreadTimestamp ∨ self.lastThreadTimestamp.size < maxTrackedThreads
  · simp only [hd, ite_true]
  · simp only [hd, ite_false]

/-- A sample that is counted opens at most one window more, which flushing makes up for. -/
theorem entered_reached (h : Imported command self done) (hl : Lined self)
    (hp : self.windows.entries.length ≤ maxPendingWindows) {sample : SampleRecord} {timestamp : ℕ}
    {thread : UInt32 × UInt32} {started : Importing} {result : ImportSample × Importing}
    (ht : sample.thread = some (timestamp, thread)) (haddress : sample.addresses ≠ [])
    (hline : self.flushedBefore ≤ index)
    (hindex : index = (timestamp - self.firstTimestamp.getD timestamp) / command.windowNanos)
    (hstarted : started = { self with firstTimestamp := some (self.firstTimestamp.getD timestamp) })
    (hentered : Entered command index timestamp thread started result) :
    Reached command iter writes self
      (Importing.flush command iter writes result.2.windows.entries result.2)
      (done ++ [(sample, .counted index result.1)]) := by
  subst hstarted
  obtain ⟨s, added⟩ := result
  have htime : s.timestamp = timestamp := hentered.timestamp
  have hthread : (s.pid, s.tid) = thread := hentered.thread
  have hmax : index ≤ u64Max := by
    rw [hindex]
    exact (Nat.div_le_self _ _).trans ((Nat.sub_le _ _).trans (thread_bounded ht))
  rw [← htime, ← hthread] at ht
  have hf : Fated command (self.firstTimestamp.getD s.timestamp) sample (.counted index s) := by
    refine ⟨by rw [ht]; rfl, nofun, fun i t he => ?_⟩
    cases he
    exact ⟨haddress, ht, by rw [hindex, htime]⟩
  obtain ⟨himported, hlined, hlength⟩ := h.counted hl ht hline hmax hf (by rw [htime]; exact hentered.first)
    hentered.calls hentered.windows hentered.late hentered.line
  obtain ⟨hadv, hnext, hcap⟩ :=
    @flush_advanced command iter writes added.windows.entries added rfl hlined himported.sorted
  refine ⟨himported.congr hadv.same, hcap (hlength.trans (Nat.succ_le_succ hp)), hnext,
    fun hfiles hok => ?_, hadv.error⟩
  refine hadv.published ?_ hok
  unfold FilesOfCalls at *
  have hcalls : added.calls = self.calls := hentered.calls
  have hwritten : added.written = self.written := hentered.written
  rw [hcalls, hwritten]
  exact hfiles

theorem sample_reached (h : Imported command self done) (hl : Lined self)
    (hp : self.windows.entries.length ≤ maxPendingWindows) (sample : SampleRecord) :
    Reached command iter writes self (self.sample command iter writes sample)
      (done ++ (self.fate command (.sample sample)).toList) := by
  unfold Importing.sample
  cases ht : sample.thread with
  | none =>
    simp only [Importing.fate, ht, Option.map_none, Option.toList_none, List.append_nil]
    exact Reached.still h hl hp rfl rfl
  | some key =>
    obtain ⟨timestamp, thread⟩ := key
    simp only [Importing.fate, ht, Option.map_some, Option.toList_some, Importing.fateAt]
    by_cases hlate : (timestamp - self.firstTimestamp.getD timestamp) / command.windowNanos < self.flushedBefore
    · rw [if_pos hlate, if_pos hlate]
      refine Reached.still (h.uncounted ht ⟨by rw [ht]; rfl, nofun, nofun⟩ rfl rfl rfl nofun) ?_ hp rfl rfl
      exact ⟨hl.calls, hl.pending, hl.bounded⟩
    · rw [if_neg hlate, if_neg hlate]
      by_cases haddress : sample.addresses = []
      · rw [if_pos haddress, if_pos haddress]
        refine Reached.still (h.uncounted ht ⟨by rw [ht]; rfl, fun _ => haddress, nofun⟩ rfl rfl rfl nofun) ?_ hp
          rfl rfl
        exact ⟨hl.calls, hl.pending, hl.bounded⟩
      · rw [if_neg haddress, if_neg haddress]
        have hentered := @add_entered command { self with firstTimestamp := some (self.firstTimestamp.getD timestamp) }
          ((timestamp - self.firstTimestamp.getD timestamp) / command.windowNanos) timestamp thread sample.addresses
        rw [← @add_first command self (some (self.firstTimestamp.getD timestamp))]
        exact entered_reached h hl hp ht haddress (not_lt.mp hlate) rfl rfl hentered

theorem comm_reached (h : Imported command self done) (hl : Lined self)
    (hp : self.windows.entries.length ≤ maxPendingWindows) (comm : CommRecord) :
    Reached command iter writes self (.ok (), self.comm comm) done := by
  unfold Importing.comm
  split
  · split
    · refine Reached.still ?_ ⟨hl.calls, hl.pending, hl.bounded⟩ hp rfl rfl
      exact h.congr ⟨rfl, rfl, rfl⟩
    · exact Reached.still h hl hp rfl rfl
  · exact Reached.still h hl hp rfl rfl

theorem record_reached (h : Imported command self done) (hl : Lined self)
    (hp : self.windows.entries.length ≤ maxPendingWindows) (record : PerfFileRecord) :
    Reached command iter writes self (self.record command iter writes record)
      (done ++ (self.fate command record).toList) := by
  cases record with
  | comm comm =>
    simp only [Importing.fate, Option.toList_none, List.append_nil]
    exact comm_reached h hl hp comm
  | sample sample => exact sample_reached h hl hp sample
  | other =>
    simp only [Importing.fate, Option.toList_none, List.append_nil]
    exact Reached.still h hl hp rfl rfl

/-! ## A run -/

theorem records_reached : ∀ (records : List PerfFileRecord) {self : Importing} {done : SampleFates},
    Imported command self done → Lined self → self.windows.entries.length ≤ maxPendingWindows →
    Reached command iter writes self (Importing.records command iter writes records self)
      (done ++ Importing.fates command iter writes records self)
  | [], self, done, h, hl, hp => by
    rw [Importing.fates, List.append_nil]
    exact Reached.still h hl hp rfl rfl
  | record :: rest, self, done, h, hl, hp => by
    have hstep := @record_reached command iter writes self done h hl hp record
    rw [Importing.records, Importing.fates]
    rcases hr : self.record command iter writes record with ⟨result, next⟩
    rw [hr] at hstep
    cases result with
    | error error =>
      simp only [reduceCtorEq, if_false, List.append_nil]
      exact hstep
    | ok _ =>
      simp only [if_true, ← List.append_assoc]
      have hrest := records_reached rest hstep.imported (hstep.lined rfl) hstep.pending
      exact ⟨hrest.imported, hrest.pending, hrest.lined, fun hf hok => hrest.published (hstep.published hf rfl) hok,
        hrest.error⟩

theorem fresh_imported : Imported command {} [] :=
  ⟨rfl, fun _ h => absurd h List.not_mem_nil, List.Pairwise.nil, fun _ h => absurd h List.not_mem_nil,
    fun _ h => absurd h List.not_mem_nil, rfl⟩

theorem fresh_lined : Lined {} := ⟨nofun, nofun, nofun⟩

/-- Every sample with a thread is settled unless a write fails. -/
theorem fates_eligible : ∀ (records : List PerfFileRecord) {self : Importing},
    (Importing.records command iter writes records self).1 = .ok () →
    (Importing.fates command iter writes records self).map Prod.fst = eligible records
  | [], _, _ => rfl
  | record :: rest, self, hok => by
    rw [Importing.records] at hok
    rw [Importing.fates]
    have hone : (self.fate command record).toList.map Prod.fst = record.eligible.toList := by
      cases record with
      | comm comm => rfl
      | sample sample =>
        unfold Importing.fate PerfFileRecord.eligible
        cases ht : sample.thread <;> simp [ht]
      | other => rfl
    have hcons : eligible (record :: rest) = record.eligible.toList ++ eligible rest := by
      unfold eligible
      cases he : record.eligible <;> simp [he]
    rcases hr : self.record command iter writes record with ⟨result, next⟩
    rw [hr] at hok
    cases result with
    | error error => cases hok
    | ok _ =>
      simp only [if_true, List.map_append, hone, hcons]
      rw [fates_eligible rest hok]

theorem length_fates_le : ∀ (records : List PerfFileRecord) {self : Importing},
    (Importing.fates command iter writes records self).length ≤ records.length
  | [], _ => Nat.le_refl _
  | record :: rest, self => by
    have hone : (self.fate command record).toList.length ≤ 1 := by
      cases self.fate command record <;> simp
    rw [Importing.fates, List.length_append, List.length_cons]
    by_cases hok : (self.record command iter writes record).1 = .ok ()
    · have hrest := @length_fates_le rest (self.record command iter writes record).2
      simp only [hok, if_true]
      omega
    · simp only [hok, if_false, List.length_nil]
      omega

end

/-! ## The windows -/

section
variable (args : ImportArgs) (window : ImportWindow)

theorem aggregate_timeline (maxStacks : ℕ) (key : AttributedStack) (delta : ℕ) :
    (window.aggregate maxStacks key delta).timeline = window.timeline ∧
      (window.aggregate maxStacks key delta).timelineDroppedSamples = window.timelineDroppedSamples := by
  unfold ImportWindow.aggregate
  cases window.samples.lookup key with
  | some values => exact ⟨rfl, rfl⟩
  | none =>
    dsimp only
    split
    · exact ⟨rfl, rfl⟩
    · exact ⟨rfl, rfl⟩

theorem internStack_timeline (stack : Stack) (maxStacks : ℕ) :
    (window.internStack stack maxStacks).2.timeline = window.timeline ∧
      (window.internStack stack maxStacks).2.timelineDroppedSamples = window.timelineDroppedSamples := by
  unfold ImportWindow.internStack
  split
  · exact ⟨rfl, rfl⟩
  · split
    · exact ⟨rfl, rfl⟩
    · exact ⟨rfl, rfl⟩

structure TimelineStep (before after : ImportWindow) : Prop where
  length : after.timeline.length = min (before.timeline.length + 1) (max before.timeline.length args.maxTimelineSamples)
  dropped : after.timelineDroppedSamples =
    if before.timeline.length < args.maxTimelineSamples then before.timelineDroppedSamples
    else saturatingAddU64 before.timelineDroppedSamples 1

variable {args window} in
theorem TimelineStep.congr {before after : ImportWindow} (h : TimelineStep args before after)
    (hl : before.timeline = window.timeline) (hd : before.timelineDroppedSamples = window.timelineDroppedSamples) :
    TimelineStep args window after := ⟨by rw [← hl, h.length], by rw [← hl, ← hd, h.dropped]⟩

theorem recordTimeline_step (hfirefox : args.firefoxProfile = true) (sample : ImportSample) (stack : Stack) :
    TimelineStep args window (window.recordTimeline args sample stack) := by
  unfold ImportWindow.recordTimeline
  rw [if_pos hfirefox]
  by_cases hroom : window.timeline.length < args.maxTimelineSamples
  · rw [if_pos hroom]
    refine ⟨?_, (if_pos hroom).symm⟩
    rw [max_eq_right hroom.le, min_eq_left hroom]
    exact List.length_append
  · rw [if_neg hroom]
    refine ⟨?_, (if_neg hroom).symm⟩
    rw [max_eq_left (not_lt.mp hroom), min_eq_right (Nat.le_succ _)]

theorem add_timeline (hfirefox : args.firefoxProfile = true) (sample : ImportSample) :
    TimelineStep args window (window.add args sample) := by
  obtain ⟨hlist, hdropped⟩ := internStack_timeline window sample.stack args.maxStacks
  unfold ImportWindow.add
  rcases hi : window.internStack sample.stack args.maxStacks with ⟨stack, interned⟩
  rw [hi] at hlist hdropped
  obtain ⟨hlist', hdropped'⟩ :=
    aggregate_timeline { interned with totalSamples := saturatingAddU64 interned.totalSamples 1 }
    args.maxStacks { stack := stack, pid := sample.pid, tid := sample.tid, threadName := sample.name } sample.delta
  have hstep := recordTimeline_step args
    ({ interned with totalSamples := saturatingAddU64 interned.totalSamples 1 }.aggregate args.maxStacks
      { stack := stack, pid := sample.pid, tid := sample.tid, threadName := sample.name } sample.delta)
    hfirefox sample stack
  exact hstep.congr (hlist'.trans hlist) (hdropped'.trans hdropped)

theorem foldl_add_timeline (hfirefox : args.firefoxProfile = true) (samples : List ImportSample) :
    let held := samples.foldl (ImportWindow.add args) {}
    held.timeline.length = min samples.length args.maxTimelineSamples ∧
      held.timelineDroppedSamples = min (samples.length - args.maxTimelineSamples) u64Max := by
  induction samples using List.reverseRecOn with
  | nil => exact ⟨by simp, by simp⟩
  | append_singleton samples sample ih =>
    obtain ⟨hlength, hdropped⟩ := ih
    rw [List.foldl_append, List.length_append, List.length_singleton]
    obtain ⟨hl, hd⟩ := add_timeline args (samples.foldl (ImportWindow.add args) {}) hfirefox sample
    refine ⟨?_, ?_⟩
    · rw [List.foldl_cons, List.foldl_nil, hl, hlength]
      omega
    · rw [List.foldl_cons, List.foldl_nil, hd, hlength, hdropped]
      unfold saturatingAddU64 Sat.add
      generalize u64Max = top
      split <;> omega

end

structure WindowAccounts (command : ImportCommand) (window : ImportWindow) : Prop where
  aggregated : Table.sumOver (fun (_ : AttributedStack) (values : CpuValues) => values.samples) window.samples +
    window.aggregationDroppedSamples = window.totalSamples
  timeline : command.firefoxProfile = true →
    window.timeline.length + window.timelineDroppedSamples = window.totalSamples

theorem windowAccounts_foldl (command : ImportCommand) (samples : List ImportSample)
    (h : 8 * samples.length ≤ u64Max) :
    WindowAccounts command (samples.foldl (ImportWindow.add command.toImportArgs) {}) ∧
      (samples.foldl (ImportWindow.add command.toImportArgs) {}).totalSamples = samples.length := by
  have ht := importTallied_foldl command.toImportArgs samples
  have hkept := length_tally command.maxStacks (samples.map ImportSample.accepted)
  have hlength : (samples.map ImportSample.accepted).length = samples.length := List.length_map _
  have hsmall : samples.length ≤ i64Max := by
    simp only [u64Max, i64Max] at *
    omega
  have htotal : (samples.foldl (ImportWindow.add command.toImportArgs) {}).totalSamples = samples.length := by
    rw [ht.total, hlength]
    exact min_eq_left (by omega)
  have hdropped : (samples.foldl (ImportWindow.add command.toImportArgs) {}).aggregationDroppedSamples =
      (tally command.maxStacks (samples.map ImportSample.accepted)).2.length := by
    rw [ht.droppedSamples]
    exact min_eq_left (by omega)
  have hcount : ∀ k, ((samples.map ImportSample.accepted).filter (·.key = k)).length ≤ i64Max := fun k =>
    (List.length_filter_le _ _).trans (hlength ▸ hsmall)
  refine ⟨⟨?_, fun hfirefox => ?_⟩, htotal⟩
  · rw [ht.samples, sum_tally command.maxStacks _ hcount, hdropped, htotal]
    omega
  · obtain ⟨hlist, hover⟩ := foldl_add_timeline command.toImportArgs hfirefox samples
    rw [hlist, hover, htotal]
    omega

/-- Each sample with a thread is late, without an address, or counted in the one window of its index. -/
structure ImportAccounts (command : ImportCommand) (iter : IterOrder) (file : PerfFile) (st : Importing)
    (done : SampleFates) : Prop where
  eligible : done.map Prod.fst = eligible file.records
  fated : ∀ p ∈ done, Fated command ((firstTimestampOf (RustProfile.eligible file.records)).getD 0) p.1 p.2
  late : st.lateSamplesDropped = done.countP (·.2 = .late)
  counted : ∀ p ∈ done, ∀ index s, p.2 = .counted index s → ∃! call, call ∈ st.calls ∧ call.1 = index
  totals : ∀ call ∈ st.calls, call.2.totalSamples = (samplesOf call.1 done).length
  written : st.written = st.calls.map fun call => command.writeImportWindow iter call.1 call.2

section
variable {command : ImportCommand} {iter : IterOrder} {writes : ℕ → Option String}

structure Ended (command : ImportCommand) (iter : IterOrder) (writes : ℕ → Option String) (file : PerfFile)
    (result : Except ImportError Unit × Importing) : Prop where
  imported : Imported command result.2 (Importing.fates command iter writes file.records {})
  completed : result.1 = .ok () ∨ result.1 = .error .noSamples →
    result.2.windows.entries = [] ∧ FilesOfCalls command iter result.2 ∧
      (Importing.records command iter writes file.records {}).1 = .ok ()
  completes : (∀ n, writes n = none) → file.error = none → result.1 = .ok () ∨ result.1 = .error .noSamples

theorem finish_ended {file : PerfFile} {st : Importing}
    (hr : Importing.records command iter writes file.records {} = (.ok (), st)) :
    Ended command iter writes file (st.finish command iter writes) := by
  have hreached := @records_reached command iter writes file.records {} [] fresh_imported fresh_lined (Nat.zero_le _)
  rw [hr, List.nil_append] at hreached
  have hfiles : FilesOfCalls command iter st := hreached.published rfl rfl
  unfold Importing.finish
  by_cases hbail : st.windows.entries = [] ∧ st.wroteWindows = 0
  · rw [if_pos hbail]
    exact ⟨hreached.imported, fun _ => ⟨hbail.1, hfiles, by rw [hr]⟩, fun _ _ => Or.inr rfl⟩
  · rw [if_neg hbail]
    obtain ⟨hadv, hempty⟩ := @writeRemaining_advanced command iter writes st.windows.entries st rfl
    refine ⟨hreached.imported.congr hadv.same, fun hok => ?_, fun hwrites _ => ?_⟩
    · rcases hok with hok | hno
      · exact ⟨hempty hok, hadv.published hfiles hok, by rw [hr]⟩
      · obtain ⟨n, message, he, -⟩ := hadv.error _ hno
        cases he
    · cases hresult : (Importing.writeRemaining command iter writes st.windows.entries st).1 with
      | ok _ => exact Or.inl rfl
      | error error =>
        obtain ⟨n, message, -, hw⟩ := hadv.error error hresult
        rw [hwrites n] at hw
        cases hw

theorem importRun_ended (file : PerfFile) (hwindow : 0 < command.window) :
    Ended command iter writes file (importRun command iter writes file) := by
  have hreached := @records_reached command iter writes file.records {} [] fresh_imported fresh_lined (Nat.zero_le _)
  unfold importRun
  rw [if_neg hwindow.ne']
  rcases hr : Importing.records command iter writes file.records {} with ⟨result, st⟩
  rw [hr, List.nil_append] at hreached
  cases result with
  | error error =>
    obtain ⟨n, message, rfl, hw⟩ := hreached.error error rfl
    refine ⟨hreached.imported, fun hok => ?_, fun hwrites _ => ?_⟩
    · rcases hok with hok | hok <;> cases hok
    · rw [hwrites n] at hw
      cases hw
  | ok _ =>
    cases hfile : file.error with
    | some message =>
      dsimp only
      refine ⟨hreached.imported, fun hok => ?_, fun _ hnone => ?_⟩
      · rcases hok with hok | hok <;> cases hok
      · rw [hfile] at hnone
        cases hnone
    | none =>
      dsimp only
      exact finish_ended hr

theorem length_samplesOf_le (index : ℕ) (file : PerfFile) :
    8 * (samplesOf index (Importing.fates command iter writes file.records {})).length ≤ u64Max := by
  have hle : (samplesOf index (Importing.fates command iter writes file.records {})).length ≤ file.records.length :=
    (List.length_filterMap_le _ _).trans (length_fates_le file.records)
  have hbounded := file.bounded
  omega

theorem Ended.accounts {file : PerfFile} {result : Except ImportError Unit × Importing}
    (h : Ended command iter writes file result) (hok : result.1 = .ok () ∨ result.1 = .error .noSamples) :
    ImportAccounts command iter file result.2 (Importing.fates command iter writes file.records {}) := by
  obtain ⟨hempty, hfiles, hrecords⟩ := h.completed hok
  have heligible := fates_eligible file.records hrecords
  have hopened : result.2.opened = result.2.calls := by rw [Importing.opened, hempty, List.append_nil]
  have himported := h.imported
  have hcount : ∀ p : SampleRecord × ImportFate → Bool,
      (Importing.fates command iter writes file.records {}).countP p ≤ u64Max := by
    intro p
    have hle := (List.countP_le_length (p := p)).trans (@length_fates_le command iter writes file.records {})
    have hbounded := file.bounded
    omega
  refine ⟨heligible, fun p hp => ?_, ?_, fun p hp index s hs => ?_, fun call hc => ?_, hfiles⟩
  · have hfated := himported.fated p hp
    rw [himported.first, heligible] at hfated
    exact hfated
  · rw [himported.late]
    exact min_eq_left (hcount _)
  · obtain ⟨window, hw⟩ := himported.opened p hp index s hs
    rw [hopened] at hw
    refine ⟨(index, window), ⟨hw, rfl⟩, fun call hc => ?_⟩
    have hsorted := himported.sorted
    rw [hopened] at hsorted
    have hnodup : (result.2.calls.map Prod.fst).Nodup := (List.pairwise_map.mpr hsorted).imp fun hlt => hlt.ne
    exact List.inj_on_of_nodup_map hnodup hc.1 hw hc.2
  · have hholds := himported.holds call (by rw [hopened]; exact hc)
    rw [hholds]
    exact (windowAccounts_foldl command _ (length_samplesOf_le call.1 file)).2

end

/-- **An import accounts for every sample and publishes each window once.** -/
theorem import_accounts (command : ImportCommand) (iter : IterOrder) (writes : ℕ → Option String) (file : PerfFile)
    (hwindow : 0 < command.window) :
    let run := importRun command iter writes file
    (∀ n, (Importing.records command iter writes (file.records.take n) {}).2.windows.entries.length ≤
        maxPendingWindows) ∧
      (run.2.calls.map Prod.fst).Pairwise (· < ·) ∧
      (∀ call ∈ run.2.calls, WindowAccounts command call.2) ∧
      (run.1 = .ok () ∨ run.1 = .error .noSamples →
        ImportAccounts command iter file run.2 (Importing.fates command iter writes file.records {})) ∧
      ((∀ n, writes n = none) → file.error = none → run.1 = .ok () ∨ run.1 = .error .noSamples) := by
  intro run
  have hended := @importRun_ended command iter writes file hwindow
  have hsub : run.2.calls.Sublist run.2.opened := List.sublist_append_left _ _
  refine ⟨fun n => ?_, ?_, fun call hc => ?_, hended.accounts, hended.completes⟩
  · exact (@records_reached command iter writes (file.records.take n) {} [] fresh_imported fresh_lined
      (Nat.zero_le _)).pending
  · exact List.pairwise_map.mpr (hended.imported.sorted.sublist hsub)
  · rw [hended.imported.holds call (hsub.subset hc)]
    exact (windowAccounts_foldl command _ (length_samplesOf_le call.1 file)).1

/-! ## A sample of a thread with a negative id -/

section

def shortImport : ImportCommand where
  maxStacks := 10
  firefoxProfile := true
  maxTimelineSamples := 1
  window := 10
  input := "perf.data"
  output := "out"
  sourceName := "perf.data"
  format := .perfData
  firefoxFormat := .json
  baseUnixNanos := 0

def recordAt (timestamp : UInt64) (pid : ℤ) : SampleRecord where
  timestamp := some timestamp
  pid := some pid
  tid := some 7
  ip := some 16
  callchain := none

def exitingThread : PerfFile where
  records := [.sample (recordAt 100 7), .sample (recordAt 101 (-1)), .sample (recordAt 102 7)]
  error := none
  bounded := by decide

/-- Six windows of which the lowest is written before a sample of it arrives. -/
def lateSample : PerfFile where
  records := [100, 110, 120, 130, 140, 150, 105].map fun timestamp => .sample (recordAt timestamp 7)
  error := none
  bounded := by decide

theorem import_accounts_lateSample :
    0 < shortImport.window ∧
      ImportAccounts shortImport .stored lateSample (importRun shortImport .stored (fun _ => none) lateSample).2
        (Importing.fates shortImport .stored (fun _ => none) lateSample.records {}) ∧
      (importRun shortImport .stored (fun _ => none) lateSample).2.lateSamplesDropped = 1 := by
  have hwindow : 0 < shortImport.window := by decide
  obtain ⟨-, -, -, haccounts, hcompletes⟩ :=
    import_accounts shortImport .stored (fun _ => none) lateSample hwindow
  exact ⟨hwindow, haccounts (hcompletes (fun _ => rfl) rfl), by decide +kernel⟩

/-- A sample with a timestamp, a pid, a tid and an address is neither late nor counted. -/
theorem exitingThread_unaccounted :
    (∀ record ∈ exitingThread.records, ∃ sample, record = .sample sample ∧ sample.timestamp.isSome ∧
        sample.pid.isSome ∧ sample.tid.isSome ∧ sample.addresses ≠ []) ∧
      exitingThread.records.length = 3 ∧
      (importRun shortImport .stored (fun _ => none) exitingThread).1 = .ok () ∧
      (importRun shortImport .stored (fun _ => none) exitingThread).2.lateSamplesDropped = 0 ∧
      ((importRun shortImport .stored (fun _ => none) exitingThread).2.calls.map fun call =>
        call.2.totalSamples) = [2] := by
  refine ⟨?_, rfl, by decide +kernel, by decide +kernel, by decide +kernel⟩
  intro record hr
  simp only [exitingThread, List.mem_cons, List.not_mem_nil, or_false] at hr
  rcases hr with rfl | rfl | rfl
  · exact ⟨_, rfl, rfl, rfl, rfl, by decide⟩
  · exact ⟨_, rfl, rfl, rfl, rfl, by decide⟩
  · exact ⟨_, rfl, rfl, rfl, rfl, by decide⟩

end

end RustProfile
