import RustProfile.OtlpClient

/-!
# Exports are retried faithfully and stop

What `export` returns sums up the replies: it tells the last one, and those
before it were worth another try. Once the stop flag is set the thread starts at
most one more request or sleep, however many jobs are left.
-/

namespace RustProfile

namespace Record

namespace Client

open Attempt Otlp

/-! ## After the stop flag is set -/

def ClientEvent.late : ClientEvent → Bool
  | .sends _ _ stopped => stopped
  | .sleeps _ stopped => stopped
  | _ => false

section
variable {ω : Type} (world : ClientWorld ω)

structure Quiet (s : ClientState ω) : Prop where
  late : s.events.countP ClientEvent.late ≤ 1
  seen : 0 < s.events.countP ClientEvent.late → world.stopping s.outside = true

/-- Nothing has started since, so something may. -/
def Clear (s : ClientState ω) : Prop := s.events.countP ClientEvent.late = 0

variable {world} (hlaws : world.Lawful)

theorem Clear.quiet {s : ClientState ω} (h : Clear s) : Quiet world s where
  late := by rw [h]; exact Nat.zero_le 1
  seen := fun hpos => by rw [h] at hpos; exact absurd hpos (lt_irrefl 0)

theorem Quiet.passes {s : ClientState ω} (h : Quiet world s) {outside : ω} (hpasses : Passes world s.outside outside) :
    Quiet world { s with outside := outside } where
  late := h.late
  seen := fun hpos => hpasses.stops (h.seen hpos)

/-- What starts was begun with nothing late before it. -/
theorem Clear.starts {s : ClientState ω} (h : Clear s) {outside : ω} (hpasses : Passes world s.outside outside)
    {event : ClientEvent} (hevent : event.late = true → world.stopping s.outside = true) :
    Quiet world { outside := outside, events := s.events ++ [event] } := by
  have hcount : (s.events ++ [event]).countP ClientEvent.late = if event.late = true then 1 else 0 := by
    rw [List.countP_append, h, Nat.zero_add, List.countP_singleton]
  constructor
  · rw [hcount]
    split <;> simp
  · intro hpos
    rw [hcount] at hpos
    by_cases hlate : event.late = true
    · exact hpasses.stops (hevent hlate)
    · rw [if_neg hlate] at hpos
      exact absurd hpos (lt_irrefl 0)

/-- What is no request and no sleep may be done at any time. -/
theorem Quiet.appends {s : ClientState ω} (h : Quiet world s) {outside : ω} (hpasses : Passes world s.outside outside)
    {event : ClientEvent} (hevent : event.late = false) :
    Quiet world { outside := outside, events := s.events ++ [event] } := by
  have hcount : (s.events ++ [event]).countP ClientEvent.late = s.events.countP ClientEvent.late := by
    rw [List.countP_append, List.countP_singleton, hevent]
    rfl
  exact ⟨hcount ▸ h.late, fun hpos => hpasses.stops (h.seen (hcount ▸ hpos))⟩

theorem Passes.refl (w : ω) : Passes world w w := ⟨id, le_rfl⟩

theorem clear_now : Keeps (Clear (ω := ω)) (now world) := fun _ hs => hs

include hlaws

theorem loadStopping_quiet : Triple (Quiet world) (loadStopping world)
    (fun stopped s => Quiet world s ∧ (stopped = false → Clear s)) (Quiet world) := by
  intro s hs
  refine ⟨hs.passes (hlaws.load s.outside), fun hstopped => ?_⟩
  refine Nat.eq_zero_of_not_pos fun hpos => ?_
  rw [hs.seen hpos] at hstopped
  cases hstopped

theorem now_quiet : Keeps (Quiet world) (now world) := fun s hs => hs.passes (hlaws.now s.outside)

theorem send_quiet (request : HttpRequest) :
    Triple Clear (send world request) (fun _ => Quiet world) (Quiet world) :=
  fun s hs => Clear.starts hs (hlaws.send request s.outside) id

theorem sleep_quiet (duration : ℕ) : Triple Clear (sleep world duration) (fun _ => Quiet world) (Quiet world) :=
  fun s hs => Clear.starts hs (hlaws.sleep duration s.outside) id

theorem sleepRound_quiet (deadline : ℕ) : Keeps (Quiet world) (sleepRound world deadline) := by
  refine (now_quiet hlaws).bind fun started => Keeps.ite ?_ (keeps_pure false)
  refine Triple.bind (loadStopping_quiet hlaws) fun stopped => ?_
  cases stopped with
  | true => exact triple_pure fun _ hs => hs.1
  | false =>
    refine Triple.pre (P := Clear) ?_ fun _ hs => hs.2 rfl
    refine Triple.bind (clear_now.fails fun _ hs => Clear.quiet hs) fun current => ?_
    exact (sleep_quiet hlaws _).bind fun _ => triple_pure fun _ hs => hs

theorem sleepInterruptibly_quiet (limit duration : ℕ) :
    Keeps (Quiet world) (sleepInterruptibly world limit duration) := by
  refine Keeps.bind (keeps_modify fun s hs => hs.appends (Passes.refl _) rfl) fun _ => ?_
  refine (now_quiet hlaws).bind fun started => ?_
  cases checkedAdd started duration with
  | none => exact keeps_pure ()
  | some deadline => exact (sleepRound_quiet hlaws deadline).turns limit

theorem delayOf_quiet (error : SendError) (attempt : ℕ) : Keeps (Quiet world) (delayOf world error attempt) := by
  unfold delayOf
  cases error.retryAfter with
  | some delay => exact keeps_pure _
  | none =>
    have hmillis : Keeps (Quiet world) (subsecMillis world) := fun s hs => hs.passes (hlaws.subsecMillis s.outside)
    exact (hmillis.bind fun _ => keeps_pure _).bind fun _ => keeps_pure _

theorem givesUp_quiet (error : SendError) (attempt : ℕ) : Keeps (Quiet world) (givesUp world error attempt) :=
  (keeps_pure true).ite ((loadStopping_quiet hlaws).post fun _ _ hs => hs.1)

/-- The first attempt is not checked again; it follows a check of the loop over the jobs. -/
theorem interrupted_quiet (attempt : ℕ) :
    Triple (fun s => Quiet world s ∧ (attempt ≤ 1 → Clear s)) (interrupted world attempt)
      (fun stopped s => Quiet world s ∧ (stopped = false → Clear s)) (Quiet world) :=
  Triple.ite (fun _ => (loadStopping_quiet hlaws).pre fun _ hs => hs.1)
    fun hfirst => triple_pure fun _ hs => ⟨hs.1, fun _ => hs.2 (not_lt.mp hfirst)⟩

variable (codec : Codec) (config : OtlpConfig) (limit : ℕ)

theorem attemptEach_quiet (request : HttpRequest) : ∀ (left : List ℕ) (attempts : ℕ) (lastError : Option String),
    (∀ attempt ∈ left.tail, 1 < attempt) →
      Triple (fun s => Quiet world s ∧ (left.head?.getD 2 ≤ 1 → Clear s))
        (attemptEach world codec limit request left attempts lastError) (fun _ => Quiet world) (Quiet world)
  | [], attempts, lastError, _ => triple_pure fun _ hs => hs.1
  | attempt :: left, attempts, lastError, hleft => by
    refine Triple.bind (interrupted_quiet hlaws attempt) fun stopped => ?_
    cases stopped with
    | true => exact triple_pure fun _ hs => hs.1
    | false =>
      refine Triple.pre (P := Clear) ?_ fun _ hs => hs.2 rfl
      refine (send_quiet hlaws request).bind fun reply => ?_
      cases readReply codec reply with
      | ok answer => exact triple_pure fun _ hs => hs
      | error error =>
        refine Triple.bind (givesUp_quiet hlaws error attempt) fun stops => ?_
        cases stops with
        | true => exact triple_pure fun _ hs => hs
        | false =>
          refine Triple.bind (delayOf_quiet hlaws error attempt) fun delay => ?_
          refine Triple.bind (sleepInterruptibly_quiet hlaws limit delay) fun _ => ?_
          refine (attemptEach_quiet request left attempt (some error.message) fun next hnext =>
            hleft next (List.mem_of_mem_tail hnext)).pre fun _ hs => ⟨hs, fun hfirst => ?_⟩
          cases left with
          | nil => exact absurd hfirst (by decide)
          | cons next left => exact absurd (hleft next List.mem_cons_self) (not_lt.mpr hfirst)

theorem exportPayload_quiet (version : String) (payload : ExportPayload) :
    Triple (fun s => Quiet world s ∧ Clear s) (exportPayload world codec config limit version payload)
      (fun _ => Quiet world) (Quiet world) := by
  unfold exportPayload
  cases prepareBody codec config payload with
  | error message => exact triple_pure fun _ hs => hs.1
  | ok prepared =>
    refine (attemptEach_quiet hlaws codec limit _ _ _ _ ?_).pre fun _ hs => ⟨hs.1, fun _ => hs.2⟩
    decide

theorem exportLoop_keeps_quiet (version : String) : ∀ jobs : List ExportJob,
    Keeps (Quiet world) (exportLoop world codec config limit version jobs)
  | [] => keeps_modify fun s hs => hs.passes (hlaws.receive s.outside)
  | job :: jobs => by
    refine Keeps.bind (keeps_modify fun s hs => hs.passes (hlaws.receive s.outside)) fun _ => ?_
    refine Keeps.bind (Triple.bind (loadStopping_quiet hlaws) fun stopped => ?_) fun settled => ?_
    · cases stopped with
      | true => exact triple_pure fun _ hs => hs.1
      | false =>
        refine Triple.bind ((exportPayload_quiet hlaws codec config limit version job.payload).pre fun _ hs =>
          ⟨hs.1, hs.2 rfl⟩) fun _ => triple_pure fun _ hs => hs
    · refine Keeps.bind (keeps_modify fun s hs => hs.appends (hlaws.persist settled s.outside) rfl) fun _ => ?_
      exact exportLoop_keeps_quiet version jobs

end

/-! ## What was sent -/

def sentOf (events : List ClientEvent) : List (HttpRequest × Reply) :=
  events.filterMap fun
    | .sends request reply _ => some (request, reply)
    | _ => none

def delaysOf (events : List ClientEvent) : List ℕ :=
  events.filterMap fun
    | .pauses delay => some delay
    | _ => none

def persistedOf (events : List ClientEvent) : List ExportJob :=
  events.filterMap fun
    | .persists job => some job
    | _ => none

/-- The requests and the pauses since the events before, and nothing else that matters. -/
structure Traced {ω : Type} (before : List ClientEvent) (sent : List (HttpRequest × Reply)) (delays : List ℕ)
    (s : ClientState ω) : Prop where
  sent : sentOf s.events = sentOf before ++ sent
  delays : delaysOf s.events = delaysOf before ++ delays
  persisted : persistedOf s.events = persistedOf before

/-- The same request is worth another try: the network failed, or the server says that it may not fail again. -/
def Transient : Reply → Prop
  | .error error => error.kind ≠ .other
  | .ok response => response.status ∈ [408, 429, 502, 503, 504]

/-- The pause after a failure: what the server asks for, or half a second that doubles, and up to 250 ms more. -/
def DelayFits (attempt : ℕ) (error : SendError) (delay : ℕ) : Prop :=
  match error.retryAfter with
  | some asked => delay = min asked maxRetryDelay
  | none => ∃ jitter < 250, delay = (500 * 2 ^ (attempt - 1) + jitter) * 10 ^ 6

section
variable (codec : Codec) (request : HttpRequest)

/-- The tries so far: each failed, was worth another, and was followed by a pause. -/
inductive Retried : List (HttpRequest × Reply) → List ℕ → Prop where
  | first : Retried [] []
  | again {sent : List (HttpRequest × Reply)} {delays : List ℕ} (before : Retried sent delays) {reply : Reply}
      {error : SendError} (failed : readReply codec reply = .error error) (retryable : error.retryable = true)
      {delay : ℕ} (fits : DelayFits (sent.length + 1) error delay) :
      Retried (sent ++ [(request, reply)]) (delays ++ [delay])

def Tells (reply : Reply) (outcome : ExportOutcome) : Prop :=
  match readReply codec reply with
  | .ok (rejected, message) => outcome.delivered = true ∧ outcome.rejectedProfiles = rejected ∧ outcome.error = message
  | .error error =>
    outcome.delivered = false ∧ outcome.rejectedProfiles = 0 ∧ outcome.error = some error.message

structure FaithfulExport (sent : List (HttpRequest × Reply)) (delays : List ℕ) (outcome : ExportOutcome)
    (stopped : Bool) : Prop where
  same : ∀ exchange ∈ sent, exchange.1 = request
  attempts : outcome.attempts = sent.length
  bound : sent.length ≤ maxAttempts
  retried : ∀ exchange ∈ sent.dropLast, Transient exchange.2
  delays : ∀ i delay, delays[i]? = some delay → ∃ exchange error, sent[i]? = some exchange ∧
    readReply codec exchange.2 = .error error ∧ DelayFits (i + 1) error delay ∧ delay ≤ maxRetryDelay
  told : ∃ last, sent.getLast? = some last ∧ Tells codec last.2 outcome ∧
    (Transient last.2 → sent.length = maxAttempts ∨ stopped = true)

end

theorem readReply_retryable {codec : Codec} {reply : Reply} {error : SendError}
    (h : readReply codec reply = .error error) : error.retryable = true ↔ Transient reply := by
  cases reply with
  | error failure =>
    cases h
    obtain ⟨kind, text⟩ := failure
    cases kind <;> simp [retryableTransportError, Transient]
  | ok response =>
    change error.retryable = true ↔ response.status ∈ [408, 429, 502, 503, 504]
    dsimp only [readReply] at h
    by_cases hstatus : response.status ≠ 200
    · rw [if_pos hstatus] at h
      cases h
      exact decide_eq_true_iff
    · rw [if_neg hstatus] at h
      have hnone : error.retryable = false := by
        cases hbody : response.readToVec maxResponseBytes with
        | error failure =>
          rw [hbody] at h
          cases h
          rfl
        | ok bytes =>
          rw [hbody] at h
          cases bytes with
          | nil => cases h
          | cons byte bytes =>
            dsimp only at h
            cases hdecoded : codec.decode (byte :: bytes) with
            | error failure =>
              rw [hdecoded] at h
              cases h
              rfl
            | ok partialSuccess =>
              rw [hdecoded] at h
              cases partialSuccess <;> cases h
      rw [hnone, not_not.mp hstatus]
      decide

theorem not_transient_of_ok {codec : Codec} {reply : Reply} {answer : ℤ × Option String}
    (h : readReply codec reply = .ok answer) : ¬ Transient reply := by
  cases reply with
  | error failure => cases h
  | ok response =>
    intro htransient
    change response.status ∈ [408, 429, 502, 503, 504] at htransient
    have hstatus : response.status ≠ 200 := by
      intro hok
      rw [hok] at htransient
      exact absurd htransient (by decide)
    dsimp only [readReply] at h
    rw [if_pos hstatus] at h
    cases h

section
variable {codec : Codec} {request : HttpRequest} {sent : List (HttpRequest × Reply)} {delays : List ℕ}

theorem DelayFits.le {attempt : ℕ} {error : SendError} {delay : ℕ} (h : DelayFits attempt error delay)
    (hattempt : attempt ≤ maxAttempts) : delay ≤ maxRetryDelay := by
  unfold DelayFits at h
  cases hasked : error.retryAfter with
  | some asked =>
    rw [hasked] at h
    rw [h]
    exact min_le_right _ _
  | none =>
    rw [hasked] at h
    obtain ⟨jitter, hjitter, rfl⟩ := h
    have hpow : 2 ^ (attempt - 1) ≤ 2 ^ 4 := Nat.pow_le_pow_right (by decide) (by unfold maxAttempts at hattempt; omega)
    unfold maxRetryDelay
    omega

theorem Retried.same_length (h : Retried codec request sent delays) : delays.length = sent.length := by
  induction h with
  | first => rfl
  | again before failed retryable fits ih => simp [ih]

theorem Retried.forall_sent (h : Retried codec request sent delays) :
    ∀ exchange ∈ sent, exchange.1 = request ∧ Transient exchange.2 := by
  induction h with
  | first => exact fun _ hmem => absurd hmem List.not_mem_nil
  | again before failed retryable fits ih =>
    intro exchange hmem
    rcases List.mem_append.mp hmem with hbefore | hlast
    · exact ih exchange hbefore
    · rw [List.mem_singleton.mp hlast]
      exact ⟨rfl, (readReply_retryable failed).mp retryable⟩

theorem Retried.delay_fits (h : Retried codec request sent delays) : ∀ i delay, delays[i]? = some delay →
    ∃ exchange error, sent[i]? = some exchange ∧ readReply codec exchange.2 = .error error ∧
      DelayFits (i + 1) error delay := by
  induction h with
  | first => exact fun i delay hdelay => by simp at hdelay
  | @again sent delays before reply error failed retryable delay fits ih =>
    intro i delay' hdelay
    have hlength := before.same_length
    by_cases hi : i < delays.length
    · rw [List.getElem?_append_left hi] at hdelay
      obtain ⟨exchange, error, hsent, hread, hfits⟩ := ih i delay' hdelay
      exact ⟨exchange, error, by rw [List.getElem?_append_left (hlength ▸ hi), hsent], hread, hfits⟩
    · have hlast : i = delays.length := by
        have hbound : i < (delays ++ [delay]).length := (List.getElem?_eq_some_iff.mp hdelay).1
        rw [List.length_append, List.length_singleton] at hbound
        omega
      subst hlast
      rw [List.getElem?_concat_length] at hdelay
      cases hdelay
      refine ⟨(request, reply), error, ?_, failed, ?_⟩
      · rw [hlength, List.getElem?_concat_length]
      · rw [hlength]
        exact fits

end

/-! ## An export -/

section
variable {ω : Type} {world : ClientWorld ω} (hlaws : world.Lawful) {before : List ClientEvent}
  {sent : List (HttpRequest × Reply)} {delays : List ℕ}

theorem Traced.sends {s : ClientState ω} (h : Traced before sent delays s) (outside : ω) (request : HttpRequest)
    (reply : Reply) (stopped : Bool) : Traced before (sent ++ [(request, reply)]) delays
      { outside := outside, events := s.events ++ [.sends request reply stopped] } := by
  constructor
  · rw [sentOf, List.filterMap_append, ← sentOf, h.sent, List.append_assoc]
    rfl
  · rw [delaysOf, List.filterMap_append, ← delaysOf, h.delays]
    exact List.append_nil _
  · rw [persistedOf, List.filterMap_append, ← persistedOf, h.persisted]
    exact List.append_nil _

theorem Traced.pauses {s : ClientState ω} (h : Traced before sent delays s) (delay : ℕ) :
    Traced before sent (delays ++ [delay]) { s with events := s.events ++ [.pauses delay] } := by
  constructor
  · rw [sentOf, List.filterMap_append, ← sentOf, h.sent]
    exact List.append_nil _
  · rw [delaysOf, List.filterMap_append, ← delaysOf, h.delays, List.append_assoc]
    rfl
  · rw [persistedOf, List.filterMap_append, ← persistedOf, h.persisted]
    exact List.append_nil _

theorem Traced.sleeps {s : ClientState ω} (h : Traced before sent delays s) (outside : ω) (duration : ℕ)
    (stopped : Bool) :
    Traced before sent delays { outside := outside, events := s.events ++ [.sleeps duration stopped] } := by
  constructor
  · rw [sentOf, List.filterMap_append, ← sentOf, h.sent]
    exact List.append_nil _
  · rw [delaysOf, List.filterMap_append, ← delaysOf, h.delays]
    exact List.append_nil _
  · rw [persistedOf, List.filterMap_append, ← persistedOf, h.persisted]
    exact List.append_nil _

def Never (_ : ClientState ω) : Prop := False

/-- The events, with so many tenths of a second left to the deadline. -/
def Sleeping (world : ClientWorld ω) (before : List ClientEvent) (sent : List (HttpRequest × Reply)) (delays : List ℕ)
    (deadline tenths : ℕ) (s : ClientState ω) : Prop :=
  Traced before sent delays s ∧ deadline ≤ world.clock s.outside + tenths * (100 * 10 ^ 6)

theorem Sleeping.passes {deadline tenths : ℕ} {s : ClientState ω}
    (h : Sleeping world before sent delays deadline tenths s) {outside : ω} (hpasses : Passes world s.outside outside) :
    Sleeping world before sent delays deadline tenths { s with outside := outside } :=
  ⟨⟨h.1.sent, h.1.delays, h.1.persisted⟩, h.2.trans (Nat.add_le_add_right hpasses.passes _)⟩

include hlaws

/-- The time that is read is not later than what follows. -/
theorem now_sleeping (deadline tenths : ℕ) : Triple (Sleeping world before sent delays deadline tenths) (now world)
    (fun time s => Sleeping world before sent delays deadline tenths s ∧ time ≤ world.clock s.outside ∧
      deadline ≤ time + tenths * (100 * 10 ^ 6)) Never := fun s hs =>
  ⟨hs.passes (hlaws.now s.outside), (hlaws.now s.outside).passes, hs.2⟩

theorem loadStopping_sleeping (deadline tenths : ℕ) : Triple (Sleeping world before sent delays deadline tenths)
    (loadStopping world) (fun _ => Sleeping world before sent delays deadline tenths) Never :=
  fun s hs => hs.passes (hlaws.load s.outside)

theorem sleep_sleeping {deadline tenths time : ℕ} (hleft : 0 < tenths) :
    Triple (fun s => Sleeping world before sent delays deadline tenths s ∧ time ≤ world.clock s.outside ∧
        deadline ≤ time + tenths * (100 * 10 ^ 6))
      (sleep world (min (100 * 10 ^ 6) (deadline - time)))
      (fun _ => Sleeping world before sent delays deadline (tenths - 1)) Never := by
  rintro s ⟨hs, htime, hdeadline⟩
  refine ⟨hs.1.sleeps _ _ _, ?_⟩
  have hslept := hlaws.slept (min (100 * 10 ^ 6) (deadline - time)) s.outside
  change deadline ≤ world.clock (world.sleep _ s.outside) + (tenths - 1) * (100 * 10 ^ 6)
  obtain ⟨left, rfl⟩ : ∃ left, tenths = left + 1 := ⟨tenths - 1, by omega⟩
  rw [Nat.add_sub_cancel]
  omega

theorem sleepRound_nears (deadline tenths : ℕ) : Triple (Sleeping world before sent delays deadline tenths)
    (sleepRound world deadline)
    (fun again s => if again = true then ∃ left < tenths, Sleeping world before sent delays deadline left s
      else Traced before sent delays s) Never := by
  refine Triple.bind (now_sleeping hlaws deadline tenths) fun started => Triple.ite (fun hstarted => ?_) fun _ =>
    triple_pure fun _ hs => hs.1.1
  intro s hs
  have hpos : 0 < tenths := by
    have := hs.2.2
    omega
  revert s
  refine Triple.bind ((loadStopping_sleeping hlaws deadline tenths).pre fun _ hs => hs.1) fun stopped =>
    Triple.ite (fun _ => triple_pure fun _ hs => hs.1) fun _ => ?_
  refine Triple.bind (now_sleeping hlaws deadline tenths) fun time => ?_
  refine Triple.bind (sleep_sleeping hlaws hpos) fun _ => ?_
  exact triple_pure fun _ hs => ⟨tenths - 1, Nat.sub_lt hpos Nat.one_pos, hs⟩

theorem sleepInterruptibly_pauses {limit duration : ℕ} (hlimit : 300 < limit) (hduration : duration ≤ maxRetryDelay) :
    Triple (Traced before sent delays) (sleepInterruptibly world limit duration)
      (fun _ => Traced before sent (delays ++ [duration])) Never := by
  refine Triple.bind (Q := fun _ => Traced before sent (delays ++ [duration])) (triple_modify fun _ hs => hs.pauses _)
    fun _ => ?_
  refine Triple.bind (Q := fun time s => Traced before sent (delays ++ [duration]) s ∧ time ≤ world.clock s.outside)
    (fun s hs => ⟨⟨hs.sent, hs.delays, hs.persisted⟩, (hlaws.now s.outside).passes⟩) fun started => ?_
  unfold checkedAdd
  by_cases hfits : started + duration ≤ instantMax
  · rw [if_pos hfits]
    refine (Triple.turns_variant (sleepRound_nears hlaws (started + duration)) limit 300 hlimit).pre fun s hs =>
      ⟨hs.1, ?_⟩
    have hstarted := hs.2
    unfold maxRetryDelay at hduration
    omega
  · rw [if_neg hfits]
    exact triple_pure fun _ hs => hs.1

omit hlaws in
theorem delayOf_fits (error : SendError) {attempt : ℕ} (hattempt : attempt ≤ maxAttempts) :
    Triple (Traced before sent delays) (delayOf world error attempt)
      (fun delay s => Traced before sent delays s ∧ DelayFits attempt error delay) Never := by
  unfold delayOf DelayFits
  cases error.retryAfter with
  | some asked => exact triple_pure fun _ hs => ⟨hs, rfl⟩
  | none =>
    have hpow : 2 ^ (attempt - 1) ≤ 2 ^ 4 := Nat.pow_le_pow_right (by decide) (by unfold maxAttempts at hattempt; omega)
    refine Triple.bind (Q := fun delay s => Traced before sent delays s ∧
      ∃ jitter < 250, delay = (500 * 2 ^ (attempt - 1) + jitter) * 10 ^ 6) ?_ fun delay => ?_
    · refine Triple.bind (Q := fun _ => Traced before sent delays)
        (fun s hs => ⟨hs.sent, hs.delays, hs.persisted⟩) fun millis =>
          triple_pure fun _ hs => ⟨hs, millis % 250, ?_, ?_⟩
      · exact Nat.mod_lt _ (by decide)
      · have hjitter : millis % 250 < 250 := Nat.mod_lt _ (by decide)
        have hmin : min (attempt - 1) 6 = attempt - 1 := min_eq_left (by unfold maxAttempts at hattempt; omega)
        rw [hmin]
        unfold saturatingAddU64 Sat.add u64Max
        omega
    · refine triple_pure fun _ hs => ⟨hs.1, ?_⟩
      obtain ⟨jitter, hjitter, rfl⟩ := hs.2
      refine ⟨jitter, hjitter, min_eq_left ?_⟩
      unfold maxRetryDelay
      omega

end

section
variable {codec : Codec} {request : HttpRequest} {sent : List (HttpRequest × Reply)} {delays : List ℕ}

theorem Retried.ends (h : Retried codec request sent delays) {reply : Reply} (hbound : sent.length < maxAttempts)
    {outcome : ExportOutcome} (htells : Tells codec reply outcome) (hattempts : outcome.attempts = sent.length + 1)
    {stopped : Bool} (hgivesUp : Transient reply → sent.length + 1 = maxAttempts ∨ stopped = true) :
    FaithfulExport codec request (sent ++ [(request, reply)]) delays outcome stopped := by
  have hlength : (sent ++ [(request, reply)]).length = sent.length + 1 := List.length_append
  constructor
  · intro exchange hmem
    rcases List.mem_append.mp hmem with hbefore | hlast
    · exact (h.forall_sent exchange hbefore).1
    · rw [List.mem_singleton.mp hlast]
  · rw [hattempts, hlength]
  · rw [hlength]
    exact hbound
  · rw [List.dropLast_concat]
    exact fun exchange hmem => (h.forall_sent exchange hmem).2
  · intro i delay hdelay
    obtain ⟨exchange, error, hsent, hread, hfits⟩ := h.delay_fits i delay hdelay
    have hi : i < sent.length := (List.getElem?_eq_some_iff.mp hsent).1
    exact ⟨exchange, error, by rw [List.getElem?_append_left hi, hsent], hread, hfits, hfits.le (by omega)⟩
  · exact ⟨_, List.getLast?_concat, htells, hlength ▸ hgivesUp⟩

/-- The tries were interrupted, or there were enough of them. -/
theorem Retried.interrupted (h : Retried codec request sent delays) (hbound : sent.length ≤ maxAttempts)
    {last : HttpRequest × Reply} (hlast : sent.getLast? = some last) {error : SendError}
    (hread : readReply codec last.2 = .error error) {stopped : Bool}
    (hgivesUp : sent.length = maxAttempts ∨ stopped = true) :
    FaithfulExport codec request sent delays ⟨sent.length, 0, some error.message, false⟩ stopped where
  same := fun exchange hmem => (h.forall_sent exchange hmem).1
  attempts := rfl
  bound := hbound
  retried := fun exchange hmem => (h.forall_sent exchange (List.mem_of_mem_dropLast hmem)).2
  delays := fun i delay hdelay => by
    obtain ⟨exchange, error, hsent, hread, hfits⟩ := h.delay_fits i delay hdelay
    have hi : i < sent.length := (List.getElem?_eq_some_iff.mp hsent).1
    exact ⟨exchange, error, hsent, hread, hfits, hfits.le (by omega)⟩
  told := by
    refine ⟨last, hlast, ?_, fun _ => hgivesUp⟩
    unfold Tells
    rw [hread]
    exact ⟨rfl, rfl, rfl⟩

end

section
variable {ω : Type} {world : ClientWorld ω} (hlaws : world.Lawful) (codec : Codec) (request : HttpRequest)
  (before : List ClientEvent)

/-- What the loop knows before an attempt: the last error is that of the last reply. -/
def Tried (attempts : ℕ) (lastError : Option String) (s : ClientState ω) : Prop :=
  ∃ sent delays, Traced before sent delays s ∧ Retried codec request sent delays ∧ sent.length = attempts ∧
    ∀ last ∈ sent.getLast?, ∃ error, readReply codec last.2 = .error error ∧ lastError = some error.message

def Done (world : ClientWorld ω) (outcome : ExportOutcome) (s : ClientState ω) : Prop :=
  ∃ sent delays, Traced before sent delays s ∧
    FaithfulExport codec request sent delays outcome (world.stopping s.outside)

variable {codec request before}

theorem Traced.outside {sent : List (HttpRequest × Reply)} {delays : List ℕ} {s : ClientState ω}
    (h : Traced before sent delays s) (outside : ω) : Traced before sent delays { s with outside := outside } :=
  ⟨h.sent, h.delays, h.persisted⟩

theorem Tried.done {attempts : ℕ} {lastError : Option String} {s : ClientState ω}
    (h : Tried codec request before attempts lastError s) (hpos : 0 < attempts) (hbound : attempts ≤ maxAttempts)
    (hgivesUp : attempts = maxAttempts ∨ world.stopping s.outside = true) :
    Done codec request before world ⟨attempts, 0, lastError, false⟩ s := by
  obtain ⟨sent, delays, htraced, hretried, rfl, hlast⟩ := h
  cases hend : sent.getLast? with
  | none =>
    rw [List.getLast?_eq_none_iff.mp hend] at hpos
    exact absurd hpos (lt_irrefl 0)
  | some last =>
    obtain ⟨error, hread, rfl⟩ := hlast last hend
    exact ⟨sent, delays, htraced, hretried.interrupted hbound hend hread hgivesUp⟩

include hlaws

theorem interrupted_tried (attempts : ℕ) (lastError : Option String) :
    Triple (Tried codec request before attempts lastError) (interrupted world (attempts + 1))
      (fun stops s => Tried codec request before attempts lastError s ∧
        (stops = true → 0 < attempts ∧ world.stopping s.outside = true)) Never := by
  refine Triple.ite (fun hlater => ?_) fun _ => triple_pure fun _ hs => ⟨hs, fun hfalse => by cases hfalse⟩
  rintro s ⟨sent, delays, htraced, hrest⟩
  refine ⟨⟨sent, delays, htraced.outside _, hrest⟩, fun hstops => ⟨by omega, ?_⟩⟩
  exact (hlaws.load s.outside).stops hstops

theorem givesUp_traced {sent : List (HttpRequest × Reply)} {delays : List ℕ} (error : SendError) (attempt : ℕ) :
    Triple (Traced before sent delays) (givesUp world error attempt)
      (fun stops s => Traced before sent delays s ∧
        (stops = true → error.retryable = true → attempt = maxAttempts ∨ world.stopping s.outside = true) ∧
        (stops = false → error.retryable = true ∧ attempt ≠ maxAttempts)) Never := by
  refine Triple.ite (fun hfinal => ?_) fun hmore => ?_
  · refine triple_pure fun _ hs => ⟨hs, fun _ hretryable => ?_, fun hfalse => by cases hfalse⟩
    rw [hretryable] at hfinal
    exact .inl (by simpa using hfinal)
  · intro s hs
    refine ⟨hs.outside _, fun hstops _ => .inr ((hlaws.load s.outside).stops hstops), fun _ => ?_⟩
    simpa using hmore

variable (codec request before) (limit : ℕ)

theorem attemptEach_done (hlimit : 300 < limit) : ∀ (left : List ℕ) (attempts : ℕ) (lastError : Option String),
    left = List.range' (attempts + 1) left.length → attempts + left.length = maxAttempts →
      Triple (Tried codec request before attempts lastError)
        (attemptEach world codec limit request left attempts lastError) (Done codec request before world) Never
  | [], attempts, lastError, _, hcount => by
    have hattempts : attempts = maxAttempts := hcount
    refine triple_pure fun s hs => hs.done ?_ hattempts.le (.inl hattempts)
    rw [hattempts]
    decide
  | attempt :: left, attempts, lastError, hleft, hcount => by
    rw [List.length_cons, List.range'_succ] at hleft
    obtain ⟨rfl, hrest⟩ := List.cons.inj hleft
    rw [List.length_cons] at hcount
    refine (interrupted_tried hlaws attempts lastError).bind fun stops => Triple.ite (fun hstops => ?_) fun _ => ?_
    · refine triple_pure fun s hs => ?_
      obtain ⟨hpos, hstopping⟩ := hs.2 hstops
      exact hs.1.done hpos (by omega) (.inr hstopping)
    -- The transcript so far is fixed before the next request goes out, so that the reply extends it.
    rintro s ⟨⟨sent, delays, htraced, hretried, rfl, -⟩, -⟩
    revert s
    change Triple (Traced before sent delays) _ _ _
    have hbound : sent.length < maxAttempts := by omega
    refine Triple.bind (Q := fun reply => Traced before (sent ++ [(request, reply)]) delays)
      (fun s hs => hs.sends _ request _ _) fun reply => ?_
    cases hread : readReply codec reply with
    | ok answer =>
      obtain ⟨rejected, message⟩ := answer
      refine triple_pure fun s hs => ⟨_, _, hs, hretried.ends hbound ?_ rfl fun htransient => ?_⟩
      · unfold Tells
        rw [hread]
        exact ⟨rfl, rfl, rfl⟩
      · exact absurd htransient (not_transient_of_ok hread)
    | error error =>
      have htells : Tells codec reply ⟨sent.length + 1, 0, some error.message, false⟩ := by
        unfold Tells
        rw [hread]
        exact ⟨rfl, rfl, rfl⟩
      refine (givesUp_traced hlaws error (sent.length + 1)).bind fun stops =>
        Triple.ite (fun hstops => ?_) fun hstops => ?_
      · refine triple_pure fun s hs => ⟨_, _, hs.1, hretried.ends hbound htells rfl fun htransient => ?_⟩
        exact hs.2.1 hstops ((readReply_retryable hread).mpr htransient)
      · intro s hs
        obtain ⟨hretryable, hmore⟩ := hs.2.2 (by simpa using hstops)
        replace hs := hs.1
        revert s
        change Triple (Traced before (sent ++ [(request, reply)]) delays) _ _ _
        refine (delayOf_fits error hbound).bind fun delay => Triple.assume fun hfits => ?_
        refine (sleepInterruptibly_pauses hlaws hlimit (hfits.le hbound)).bind fun _ => ?_
        refine (attemptEach_done hlimit left (sent.length + 1) (some error.message) hrest (by omega)).pre fun s hs => ?_
        refine ⟨_, _, hs, hretried.again hread hretryable hfits, List.length_append, fun last hlast => ?_⟩
        rw [List.getLast?_concat] at hlast
        cases hlast
        exact ⟨error, hread, rfl⟩

/-- **An export is retried faithfully.** It returns, whatever the server answers. -/
theorem exportPayload_faithful (hlimit : 300 < limit) (config : OtlpConfig) (version : String) (payload : ExportPayload)
    (s : ClientState ω) : ∃ result t,
    outcome (exportPayload world codec config limit version payload) s = (.ok result, t) ∧
      match prepareBody codec config payload with
      | .error message => result = ⟨0, 0, some message, false⟩ ∧ t = s
      | .ok (body, compressed) => ∃ sent delays, Traced s.events sent delays t ∧
        FaithfulExport codec (httpRequest config version body compressed) sent delays result
          (world.stopping t.outside) := by
  unfold exportPayload
  cases hprepared : prepareBody codec config payload with
  | error message => exact ⟨_, _, rfl, rfl, rfl⟩
  | ok prepared =>
    obtain ⟨body, compressed⟩ := prepared
    have hdone := attemptEach_done hlaws codec (httpRequest config version body compressed) s.events limit hlimit
      (List.range' 1 maxAttempts) 0 none rfl rfl
    have hstart : Tried codec (httpRequest config version body compressed) s.events 0 none s :=
      ⟨[], [], ⟨(List.append_nil _).symm, (List.append_nil _).symm, rfl⟩, .first, rfl, fun _ hlast => by cases hlast⟩
    dsimp only
    cases hend : outcome (attemptEach world codec limit (httpRequest config version body compressed)
        (List.range' 1 maxAttempts) 0 none) s with
    | mk result t =>
      cases result with
      | error error => exact (hdone.error hstart hend).elim
      | ok result => exact ⟨result, t, rfl, hdone.ok hstart hend⟩

/-! ## The loop over the jobs -/

/-- The outcome of exporting the payload: a body that cannot be made, or what the server has answered. -/
def Answers (codec : Codec) (config : OtlpConfig) (version : String) (payload : ExportPayload)
    (outcome : ExportOutcome) : Prop :=
  match prepareBody codec config payload with
  | .error message => outcome = ⟨0, 0, some message, false⟩
  | .ok (body, compressed) => ∃ sent delays stopped,
    FaithfulExport codec (httpRequest config version body compressed) sent delays outcome stopped

inductive Settles (codec : Codec) (config : OtlpConfig) (version : String) (job : ExportJob) : ExportJob → Prop where
  | cancelled : Settles codec config version job
      (job.settle .failed (some "OTLP export was not flushed before shutdown"))
  | responded {outcome : ExportOutcome} (answers : Answers codec config version job.payload outcome) :
      Settles codec config version job (job.respond outcome)

omit hlaws in
theorem persistedOf_snoc (events : List ClientEvent) (job : ExportJob) :
    persistedOf (events ++ [.persists job]) = persistedOf events ++ [job] := List.filterMap_append

theorem exportJob_settles (hlimit : 300 < limit) (config : OtlpConfig) (version : String) (job : ExportJob)
    (persisted : List ExportJob) :
    Triple (fun s => persistedOf s.events = persisted) (exportJob world codec config limit version job)
      (fun settled s => persistedOf s.events = persisted ∧ Settles codec config version job settled) Never := by
  have hload : Triple (fun s : ClientState ω => persistedOf s.events = persisted) (loadStopping world)
      (fun _ s => persistedOf s.events = persisted) Never := fun s hs => hs
  refine Triple.bind hload fun stopped => ?_
  refine Triple.ite (fun _ => triple_pure fun _ hs => ⟨hs, .cancelled⟩) fun _ => ?_
  refine Triple.bind (Q := fun result s => persistedOf s.events = persisted ∧
    Answers codec config version job.payload result) (fun s hs => ?_) fun result =>
    triple_pure fun _ hs => ⟨hs.1, .responded hs.2⟩
  obtain ⟨result, t, hend, hsent⟩ := exportPayload_faithful hlaws codec limit hlimit config version job.payload s
  rw [hend]
  change persistedOf t.events = persisted ∧ Answers codec config version job.payload result
  unfold Answers
  cases hprepared : prepareBody codec config job.payload with
  | error message =>
    rw [hprepared] at hsent
    exact ⟨hsent.2 ▸ hs, hsent.1⟩
  | ok prepared =>
    rw [hprepared] at hsent
    obtain ⟨sent, delays, htraced, hfaithful⟩ := hsent
    exact ⟨htraced.persisted.trans hs, sent, delays, _, hfaithful⟩

theorem exportLoop_settles (hlimit : 300 < limit) (config : OtlpConfig) (version : String) :
    ∀ (jobs persisted : List ExportJob),
      Triple (fun s => persistedOf s.events = persisted) (exportLoop world codec config limit version jobs)
        (fun _ s => ∃ settled, persistedOf s.events = persisted ++ settled ∧
          List.Forall₂ (Settles codec config version) jobs settled) Never
  | [], persisted => triple_modify fun s hs => ⟨[], by rw [List.append_nil]; exact hs, .nil⟩
  | job :: jobs, persisted => by
    refine Triple.bind (Q := fun _ s => persistedOf s.events = persisted) (triple_modify fun s hs => hs) fun _ => ?_
    refine (exportJob_settles hlaws codec limit hlimit config version job persisted).bind fun settled =>
      Triple.assume fun hsettled => ?_
    refine Triple.bind (Q := fun _ s => persistedOf s.events = persisted ++ [settled])
      (triple_modify fun s hs => by rw [persistedOf_snoc, hs]) fun _ => ?_
    refine (exportLoop_settles hlimit config version jobs (persisted ++ [settled])).post fun _ s hs => ?_
    obtain ⟨rest, hpersisted, hrest⟩ := hs
    exact ⟨settled :: rest, by rw [hpersisted, List.append_assoc]; rfl, .cons hsettled hrest⟩

/-- **The exporter stops.** It settles each job once, in their order, and starts at most one request or sleep after the
stop flag is set. -/
theorem exportLoop_stops (hlimit : 300 < limit) (config : OtlpConfig) (version : String) (jobs : List ExportJob)
    (outside : ω) : ∃ t, outcome (exportLoop world codec config limit version jobs) ⟨outside, []⟩ = (.ok (), t) ∧
      t.events.countP ClientEvent.late ≤ 1 ∧
        List.Forall₂ (Settles codec config version) jobs (persistedOf t.events) := by
  have hquiet : Quiet world (⟨outside, []⟩ : ClientState ω) := Clear.quiet rfl
  cases hend : outcome (exportLoop world codec config limit version jobs) ⟨outside, []⟩ with
  | mk result t =>
    cases result with
    | error error =>
      exact (Triple.error (exportLoop_settles hlaws codec limit hlimit config version jobs []) rfl hend).elim
    | ok value =>
      obtain ⟨settled, hpersisted, hsettled⟩ :=
        Triple.ok (exportLoop_settles hlaws codec limit hlimit config version jobs []) rfl hend
      have hlate := Triple.ok (exportLoop_keeps_quiet hlaws codec config limit version jobs) hquiet hend
      exact ⟨t, rfl, hlate.late, hpersisted ▸ hsettled⟩

end

/-! A server that is unavailable for the first request. The clock and the requests are counted. -/

def busyServer (stopping : ℕ × ℕ → Bool) : ClientWorld (ℕ × ℕ) where
  stopping := stopping
  clock := Prod.fst
  load := id
  now := id
  subsecMillis := fun w => (0, w)
  send := fun _ w =>
    (.ok (if w.2 = 0 then ⟨503, some "1", fun _ => .ok []⟩ else ⟨200, none, fun _ => .ok []⟩), (w.1, w.2 + 1))
  sleep := fun duration w => (w.1 + duration, w.2)
  receive := id
  persist := fun _ => id

theorem busyServer_lawful (stopping : ℕ × ℕ → Bool)
    (h : ∀ time time' sent sent', sent ≤ sent' → stopping (time, sent) = true → stopping (time', sent') = true) :
    (busyServer stopping).Lawful where
  load := fun _ => ⟨id, le_rfl⟩
  now := fun _ => ⟨id, le_rfl⟩
  subsecMillis := fun _ => ⟨id, le_rfl⟩
  send := fun _ w => ⟨h w.1 w.1 w.2 (w.2 + 1) (Nat.le_succ _), le_rfl⟩
  sleep := fun duration w => ⟨h w.1 (w.1 + duration) w.2 w.2 le_rfl, Nat.le_add_right _ _⟩
  slept := fun _ _ => le_rfl
  receive := fun _ => ⟨id, le_rfl⟩
  persist := fun _ _ => ⟨id, le_rfl⟩

def plainCodec : Codec := ⟨fun _ => [1, 2, 3], .ok, fun _ => .ok none⟩

def collectorConfig : OtlpConfig where
  endpoint := "http://collector:4318/v1development/profiles"
  headers := ∅
  timeout := defaultTimeout
  compression := .none
  ca := none
  resourceAttributes := ∅
  endpointFits := ⟨by decide, by decide, by decide⟩
  headersFit := by decide
  timeoutPos := by decide

def smallPayload : ExportPayload := ⟨⟨[], ⟨[], [], [], [], [], [], []⟩⟩, 0⟩

def smallJob (index : ℕ) : ExportJob where
  payload := smallPayload
  diagnosticsPath := ⟨.diagnostics, index⟩
  diagnostics :=
    { target := { pid := 7 }
      startedUnixNanos := 0
      endedUnixNanos := 1
      profilesWritten := []
      timelineEventsDropped := 0
      firefox := ⟨false, none, 0, 0, none⟩
      otlp := { status := .pending }
      outputs := []
      warnings := [] }

theorem exportPayload_faithful_busy : ∃ result t,
    outcome (exportPayload (busyServer fun _ => false) plainCodec collectorConfig 301 "0.1.0" smallPayload)
      ⟨(0, 0), []⟩ = (.ok result, t) ∧ result.attempts = 2 ∧ result.delivered = true ∧
      ∃ sent delays, FaithfulExport plainCodec (httpRequest collectorConfig "0.1.0" [1, 2, 3] false) sent delays result
        false := by
  obtain ⟨result, t, hend, sent, delays, -, hfaithful⟩ := exportPayload_faithful
    (busyServer_lawful (fun _ => false) fun _ _ _ _ _ => id) plainCodec 301 (by decide) collectorConfig
    "0.1.0" smallPayload ⟨(0, 0), []⟩
  have hvalue : (outcome (exportPayload (busyServer fun _ => false) plainCodec collectorConfig 301 "0.1.0"
      smallPayload) ⟨(0, 0), []⟩).1.toOption.map (fun result => (result.attempts, result.delivered)) =
        some (2, true) := by decide +kernel
  rw [hend] at hvalue
  obtain ⟨hattempts, hdelivered⟩ := Prod.mk.inj (Option.some.inj hvalue)
  exact ⟨result, t, hend, hattempts, hdelivered, sent, delays, hfaithful⟩

/-- The flag is set while the first request is answered. -/
theorem exportLoop_stops_busy : ∃ t,
    outcome (exportLoop (busyServer fun w => 1 ≤ w.2) plainCodec collectorConfig 301 "0.1.0" [smallJob 0, smallJob 1])
      ⟨(0, 0), []⟩ = (.ok (), t) ∧ (sentOf t.events).length = 1 ∧
      (persistedOf t.events).map (fun job => job.diagnostics.otlp.error) =
        [some "OTLP endpoint returned HTTP 503", some "OTLP export was not flushed before shutdown"] ∧
      t.events.countP ClientEvent.late ≤ 1 := by
  have hlaws : (busyServer fun w => decide (1 ≤ w.2)).Lawful :=
    busyServer_lawful _ fun time time' sent sent' hle hstop => by simp at hstop ⊢; omega
  obtain ⟨t, hend, hlate, -⟩ := exportLoop_stops hlaws plainCodec 301 (by decide) collectorConfig "0.1.0"
    [smallJob 0, smallJob 1] (0, 0)
  have hsent : (sentOf (outcome (exportLoop (busyServer fun w => decide (1 ≤ w.2)) plainCodec collectorConfig 301
      "0.1.0" [smallJob 0, smallJob 1]) ⟨(0, 0), []⟩).2.events).length = 1 := by decide +kernel
  have herrors : (persistedOf (outcome (exportLoop (busyServer fun w => decide (1 ≤ w.2)) plainCodec collectorConfig 301
      "0.1.0" [smallJob 0, smallJob 1]) ⟨(0, 0), []⟩).2.events).map (·.diagnostics.otlp.error) =
        [some "OTLP endpoint returned HTTP 503", some "OTLP export was not flushed before shutdown"] := by
    decide +kernel
  rw [hend] at hsent herrors
  exact ⟨t, hend, hsent, herrors, hlate⟩

end Client

end Record

end RustProfile
