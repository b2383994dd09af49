import Mathlib.Data.List.Chain
import Mathlib.Data.Nat.Init

/-!
# Metering intervals in windows

A meter adds up intervals, each from a start to the next stop, and is read at
cuts: a cut charges what has run so far to the window it closes, and restarts
the running interval at the cut. Stops and starts may arrive after a cut that is
later than they are. The total over the windows is then the elapsed time plus an
overcharge, which is zero exactly when no stop is older than the last cut of its
interval.
-/

inductive Tick where
  | start (time : ℕ)
  | stop (time : ℕ)
  | cut (time : ℕ)
  deriving DecidableEq, Repr

namespace Tick

def time : Tick → ℕ
  | start t => t
  | stop t => t
  | cut t => t

def isStart : Tick → Bool
  | start _ => true
  | _ => false

def isCut : Tick → Bool
  | cut _ => true
  | _ => false

end Tick

/-- A meter with its running interval, its open window and its closed windows. -/
structure Meter where
  running : Option ℕ := none
  window : ℕ := 0
  closed : ℕ := 0

/-- The time that has elapsed: the closed intervals and the start of the open one. -/
structure Elapsed where
  since : Option ℕ := none
  total : ℕ := 0

namespace Meter

def tick (m : Meter) : Tick → Meter
  | .start t => { m with running := some t }
  | .stop t => match m.running with
    | some s => { m with running := none, window := m.window + (t - s) }
    | none => m
  | .cut t => match m.running with
    | some s => { running := some t, window := 0, closed := m.closed + (m.window + (t - s)) }
    | none => { m with window := 0, closed := m.closed + m.window }

def read (ticks : List Tick) : Meter := ticks.foldl tick {}

section
variable {m : Meter} {s : ℕ} (t : ℕ)

theorem tick_start : m.tick (.start t) = { m with running := some t } := rfl

theorem tick_stop (h : m.running = some s) :
    m.tick (.stop t) = { m with running := none, window := m.window + (t - s) } := by
  simp only [tick, h]

theorem tick_stop_idle (h : m.running = none) : m.tick (.stop t) = m := by
  simp only [tick, h]

theorem tick_cut (h : m.running = some s) :
    m.tick (.cut t) = { running := some t, window := 0, closed := m.closed + (m.window + (t - s)) } := by
  simp only [tick, h]

theorem tick_cut_idle (h : m.running = none) :
    m.tick (.cut t) = { running := none, window := 0, closed := m.closed + m.window } := by
  simp only [tick, h]

end

theorem read_snoc (l : List Tick) (a : Tick) : read (l ++ [a]) = (read l).tick a := List.foldl_concat ..

end Meter

namespace Elapsed

def tick (x : Elapsed) : Tick → Elapsed
  | .start t => { x with since := some t }
  | .stop t => match x.since with
    | some s => { since := none, total := x.total + (t - s) }
    | none => x
  | .cut _ => x

def read (ticks : List Tick) : Elapsed := ticks.foldl tick {}

def atTime (x : Elapsed) (now : ℕ) : ℕ := x.total + (x.since.map (now - ·)).getD 0

theorem read_snoc (l : List Tick) (a : Tick) : read (l ++ [a]) = (read l).tick a := List.foldl_concat ..

end Elapsed

/-- Starts and stops alternate and their times do not decrease; a cut is not
earlier than anything before it. -/
structure WellTimed (ticks : List Tick) : Prop where
  alternates : ((ticks.filter (!·.isCut)).map Tick.isStart).IsChain (· ≠ ·)
  ordered : ticks.Pairwise fun a b => (a.isCut = true → b.isCut = true) → a.time ≤ b.time

/-- No stop is earlier than the last cut since its start (`since`: that cut, or the start). -/
def Timely : Option ℕ → List Tick → Prop
  | _, [] => True
  | _, .start t :: l => Timely (some t) l
  | since, .stop t :: l => (∀ s ∈ since, s ≤ t) ∧ Timely none l
  | since, .cut t :: l => Timely (since.map fun _ => t) l

namespace Meter

/-! ## Appending a tick -/

def OnTime (m : Meter) : Tick → Prop
  | .stop t => ∀ s ∈ m.running, s ≤ t
  | _ => True

theorem timely_append : ∀ (l : List Tick) (a : Tick) (m : Meter),
    Timely m.running (l ++ [a]) ↔ Timely m.running l ∧ (l.foldl tick m).OnTime a
  | [], a, m => by cases a <;> simp [Timely, OnTime]
  | .start t :: l, a, m => timely_append l a (m.tick (.start t))
  | .stop t :: l, a, m => by
    have ih := timely_append l a (m.tick (.stop t))
    have hr : (m.tick (.stop t)).running = none := by
      cases hm : m.running with
      | none => rw [tick_stop_idle t hm, hm]
      | some s => rw [tick_stop t hm]
    rw [hr] at ih
    rw [List.cons_append, Timely, Timely, ih, and_assoc]
    rfl
  | .cut t :: l, a, m => by
    have ih := timely_append l a (m.tick (.cut t))
    have hr : (m.tick (.cut t)).running = m.running.map fun _ => t := by
      cases hm : m.running with
      | none => rw [tick_cut_idle t hm]; rfl
      | some s => rw [tick_cut t hm]; rfl
    rw [hr] at ih
    exact ih

theorem timely_snoc (l : List Tick) (a : Tick) : Timely none (l ++ [a]) ↔ Timely none l ∧ (read l).OnTime a :=
  timely_append l a {}

end Meter

namespace WellTimed

variable {l : List Tick} {a : Tick} (h : WellTimed (l ++ [a]))
include h

theorem init : WellTimed l := by
  refine ⟨?_, (List.pairwise_append.mp h.ordered).1⟩
  have := h.alternates
  rw [List.filter_append, List.map_append] at this
  exact this.left_of_append

theorem time_le {b : Tick} (hb : b ∈ l) (hc : b.isCut = true → a.isCut = true) : b.time ≤ a.time :=
  (List.pairwise_append.mp h.ordered).2.2 b hb a (by simp) hc

theorem since_eq_none {t : ℕ} (ha : a = .start t) : (Elapsed.read l).since = none := by
  subst ha
  -- Cuts apart, starts and stops alternate: the last of them says whether the clock runs.
  have hlast : ∀ l : List Tick, (Elapsed.read l).since.isSome =
      (((l.filter (!·.isCut)).map Tick.isStart).getLast?.getD false) := by
    intro l
    induction l using List.reverseRecOn with
    | nil => rfl
    | append_singleton l b ih =>
      rw [Elapsed.read_snoc, List.filter_append, List.map_append]
      cases b with
      | start t => simp [Elapsed.tick, Tick.isCut, Tick.isStart]
      | stop t => cases hn : (Elapsed.read l).since <;> simp [Elapsed.tick, Tick.isCut, Tick.isStart, hn]
      | cut t => simpa [Elapsed.tick, Tick.isCut] using ih
  have halt := h.alternates
  rw [List.filter_append, List.map_append, List.isChain_append] at halt
  rw [← Option.not_isSome_iff_eq_none, hlast]
  cases hg : ((l.filter (!·.isCut)).map Tick.isStart).getLast? with
  | none => simp
  | some b =>
    have hne := halt.2.2 b hg true (by simp [Tick.isCut, Tick.isStart])
    simpa using hne

omit h in
theorem left {l l' : List Tick} (h : WellTimed (l ++ l')) : WellTimed l := by
  induction l' using List.reverseRecOn with
  | nil => rwa [List.append_nil] at h
  | append_singleton l' a ih =>
    rw [← List.append_assoc] at h
    exact ih h.init

end WellTimed

namespace Meter

/-! ## The meter and the elapsed time -/

/-- No interval is open; the windows add up to the elapsed time and `excess`. -/
structure Idle (l : List Tick) (m : Meter) (x : Elapsed) (excess : ℕ) : Prop where
  running : m.running = none
  since : x.since = none
  window : m.window = 0 ∨ ∃ b ∈ l, b.isCut = false ∧ m.window ≤ b.time
  total : m.closed + m.window = x.total + excess

/-- An interval that started at `s` has been charged up to `s'`. -/
structure Busy (l : List Tick) (m : Meter) (x : Elapsed) (s s' excess : ℕ) : Prop where
  running : m.running = some s'
  since : x.since = some s
  start_mem : .start s ∈ l
  mem : ∃ b ∈ l, b.time = s'
  le : s ≤ s'
  window : m.window = 0 ∨ m.window ≤ s' ∧ .start s' ∈ l
  total : m.closed + m.window + s = x.total + s' + excess

def Metered (l : List Tick) (m : Meter) (x : Elapsed) : Prop :=
  ∃ excess, (excess = 0 ↔ Timely none l) ∧ (Idle l m x excess ∨ ∃ s s', Busy l m x s s' excess)

section
variable {l : List Tick} {m : Meter} {x : Elapsed} {t excess : ℕ}

theorem Idle.start (hi : Idle l m x excess) (h : WellTimed (l ++ [.start t])) :
    Busy (l ++ [.start t]) (m.tick (.start t)) (x.tick (.start t)) t t excess := by
  refine ⟨rfl, rfl, by simp, ⟨.start t, by simp, rfl⟩, le_rfl, ?_, ?_⟩
  · rcases hi.window with hw | ⟨b, hb, hc, hw⟩
    · exact Or.inl hw
    · have hle := h.time_le hb (fun hcut => by rw [hc] at hcut; cases hcut)
      exact Or.inr ⟨hw.trans hle, by simp⟩
  · have := hi.total
    simp only [tick, Elapsed.tick]
    omega

theorem Idle.stop (hi : Idle l m x excess) : Idle (l ++ [.stop t]) (m.tick (.stop t)) (x.tick (.stop t)) excess := by
  rw [tick_stop_idle t hi.running]
  have hx : x.tick (.stop t) = x := by simp only [Elapsed.tick, hi.since]
  rw [hx]
  refine ⟨hi.running, hi.since, ?_, hi.total⟩
  exact hi.window.imp id fun ⟨b, hb, hc, hw⟩ => ⟨b, List.mem_append_left _ hb, hc, hw⟩

theorem Idle.cut (hi : Idle l m x excess) : Idle (l ++ [.cut t]) (m.tick (.cut t)) (x.tick (.cut t)) excess := by
  rw [tick_cut_idle t hi.running]
  exact ⟨rfl, hi.since, Or.inl rfl, hi.total⟩

variable {s s' : ℕ}

theorem Busy.stop_le (hb : Busy l m x s s' excess) (h : WellTimed (l ++ [.stop t])) : m.window + (t - s') ≤ t := by
  rcases hb.window with hw | ⟨hw, hs⟩
  · omega
  · have hst : s' ≤ t := h.time_le hs (fun hcut => by cases hcut)
    omega

theorem Busy.cut_le (hb : Busy l m x s s' excess) (h : WellTimed (l ++ [.cut t])) : m.window + (t - s') ≤ t := by
  obtain ⟨b, hb', rfl⟩ := hb.mem
  have hst : b.time ≤ t := h.time_le hb' fun _ => rfl
  have := hb.window
  omega

theorem Busy.stop (hb : Busy l m x s s' excess) (h : WellTimed (l ++ [.stop t])) :
    Idle (l ++ [.stop t]) (m.tick (.stop t)) (x.tick (.stop t)) (excess + (s' - t)) := by
  have hst : s ≤ t := h.time_le hb.start_mem (fun hcut => by cases hcut)
  have hx : x.tick (.stop t) = { since := none, total := x.total + (t - s) } := by simp only [Elapsed.tick, hb.since]
  rw [tick_stop t hb.running, hx]
  refine ⟨rfl, rfl, Or.inr ⟨.stop t, by simp, rfl, hb.stop_le h⟩, ?_⟩
  have := hb.total
  have := hb.le
  dsimp only
  omega

theorem Busy.cut (hb : Busy l m x s s' excess) (h : WellTimed (l ++ [.cut t])) :
    Busy (l ++ [.cut t]) (m.tick (.cut t)) (x.tick (.cut t)) s t excess := by
  obtain ⟨b, hb', hbs⟩ := hb.mem
  have hst : s' ≤ t := hbs ▸ h.time_le hb' fun _ => rfl
  rw [tick_cut t hb.running]
  refine ⟨rfl, hb.since, List.mem_append_left _ hb.start_mem, ⟨.cut t, by simp, rfl⟩, hb.le.trans hst, Or.inl rfl, ?_⟩
  have := hb.total
  simp only [Elapsed.tick]
  omega

end

theorem metered {l : List Tick} (h : WellTimed l) : Metered l (read l) (Elapsed.read l) := by
  induction l using List.reverseRecOn with
  | nil => exact ⟨0, by simp [Timely], Or.inl ⟨rfl, rfl, Or.inl rfl, rfl⟩⟩
  | append_singleton l a ih =>
    obtain ⟨excess, ht, hl⟩ := ih h.init
    unfold Metered
    simp only [timely_snoc]
    rw [read_snoc, Elapsed.read_snoc]
    rcases hl with hi | ⟨s, s', hb⟩
    · refine ⟨excess, ?_, ?_⟩
      · cases a <;> simp [OnTime, hi.running, ht]
      · cases a with
        | start t => exact Or.inr ⟨t, t, hi.start h⟩
        | stop t => exact Or.inl hi.stop
        | cut t => exact Or.inl hi.cut
    · cases a with
      | start t =>
        have := h.since_eq_none rfl
        rw [hb.since] at this
        cases this
      | stop t =>
        refine ⟨excess + (s' - t), ?_, Or.inl (hb.stop h)⟩
        simp [OnTime, hb.running, ← ht]
        omega
      | cut t => exact ⟨excess, by simp [OnTime, ht], Or.inr ⟨s, t, hb.cut h⟩⟩

theorem closed_foldl : ∀ (l : List Tick) (m : Meter), (∀ a ∈ l, a.isCut = false) → (l.foldl tick m).closed = m.closed
  | [], _, _ => rfl
  | a :: l, m, h => by
    rw [List.foldl_cons, closed_foldl l _ fun b hb => h b (List.mem_cons_of_mem _ hb)]
    cases a with
    | start t => rfl
    | stop t => cases hr : m.running <;> simp [tick, hr]
    | cut t => exact absurd (h (.cut t) (by simp)) (by simp [Tick.isCut])

theorem window_tick_cut (m : Meter) (t : ℕ) : (m.tick (.cut t)).window = 0 := by
  cases hr : m.running with
  | none => rw [tick_cut_idle t hr]
  | some s => rw [tick_cut t hr]

/-- No window is longer than the clock has run. -/
theorem window_le {l : List Tick} (h : WellTimed l) {top : ℕ} (ht : ∀ a ∈ l, a.time ≤ top) :
    (read l).window ≤ top := by
  obtain ⟨excess, -, hi | ⟨s, s', hb⟩⟩ := metered h
  · rcases hi.window with hw | ⟨b, hb, -, hw⟩
    · omega
    · exact hw.trans (ht b hb)
  · rcases hb.window with hw | ⟨hw, hs⟩
    · omega
    · exact hw.trans (ht _ hs)

/-- **Conservation.** The windows closed at a cut add up to the elapsed time
exactly when every stop was timely. -/
theorem closed_eq_elapsed_iff {l : List Tick} {t : ℕ} (h : WellTimed (l ++ [.cut t])) :
    (read (l ++ [.cut t])).closed = (Elapsed.read (l ++ [.cut t])).atTime t ↔ Timely none (l ++ [.cut t]) := by
  obtain ⟨excess, ht, hl⟩ := metered h.init
  have htl : Timely none (l ++ [.cut t]) ↔ Timely none l := by simp [timely_snoc, OnTime]
  rw [htl, ← ht, read_snoc, Elapsed.read_snoc]
  rcases hl with hi | ⟨s, s', hb⟩
  · rw [tick_cut_idle t hi.running]
    have := hi.total
    simp only [Elapsed.tick, Elapsed.atTime, hi.since, Option.map_none, Option.getD_none]
    omega
  · obtain ⟨b, hb', hbs⟩ := hb.mem
    have hst : s' ≤ t := hbs ▸ h.time_le hb' fun _ => rfl
    rw [tick_cut t hb.running]
    have := hb.total
    have := hb.le
    simp only [Elapsed.tick, Elapsed.atTime, hb.since, Option.map_some, Option.getD_some]
    omega

end Meter
