import Mathlib.Algebra.Order.Archimedean.Basic
import Mathlib.Algebra.Order.Ring.Rat
import Mathlib.Data.Rat.Floor
import Mathlib.Data.List.Sort
import Mathlib.Order.Bounds.Basic
import Mathlib.Tactic.Linarith
import Mathlib.Tactic.Ring
import PearlAlgo.Lts.Reach
import PearlAlgo.Py.IsoFormat
import PearlAlgo.Py.While

/-!
# The fixed cadence of the service loop

`CadenceScheduler` sends each cycle to the next point of a grid that is not past. Points that are past are skipped, and
counted. The constructor takes any interval, and the skipping ends only where the interval is positive.
-/

namespace PearlAlgo.Cadence

/-- `deque(maxlen=...)` -/
structure Deque where
  maxlen : Nat
  items : List ℚ := []

/-- A full deque drops from its left end. -/
def Deque.append (d : Deque) (x : ℚ) : Deque :=
  { d with items := (d.items ++ [x]).drop (d.items.length + 1 - d.maxlen) }

structure CadenceMetrics where
  cycleStartedAtUtc : Option String := none
  cycleDurationMs : ℚ := 0
  sleepScheduledMs : ℚ := 0
  cadenceLagMs : ℚ := 0
  velocityModeActive : Bool := false
  velocityReason : String := ""
  currentIntervalSeconds : ℚ := 0
  durationP50Ms : ℚ := 0
  durationP95Ms : ℚ := 0
  missedCycles : Int := 0
  velocityCycles : Int := 0

structure CadenceScheduler where
  intervalSeconds : ℚ
  maxHistory : Int := 100
  nextScheduled : Option ℚ := none
  cycleStart : Option ℚ := none
  cycleStartUtc : Option Py.NaiveDatetime := none
  durationHistory : Deque := { maxlen := 100 }
  totalMissedCycles : Int := 0
  totalVelocityCycles : Int := 0
  lastMetrics : CadenceMetrics := {}
  velocityModeActive : Bool := false
  velocityReason : String := ""

/-- `ValueError(f"Interval must be positive, got {got}")` -/
inductive IntervalError
  | notPositive (got : ℚ)

/-- The percentiles of the durations so far, where there are any. -/
def CadenceMetrics.withPercentiles (m : CadenceMetrics) (durations : List ℚ) : CadenceMetrics :=
  match durations.mergeSort with
  | [] => m
  | sorted@(first :: _) =>
    let n := sorted.length
    { m with
      durationP50Ms := sorted.getD (n / 2) first
      durationP95Ms := if 1 < n then sorted.getD (n * 95 / 100) first else first }

/-- `while next_scheduled < now: next_scheduled += interval; missed += 1` -/
def skipAhead (fuel : Nat) (now interval next : ℚ) : Option (ℚ × Nat) :=
  Py.whileLoop (fun s : ℚ × Nat => decide (s.1 < now)) (fun s => (s.1 + interval, s.2 + 1)) fuel (next, 0)

namespace CadenceScheduler

def markCycleStart (now : ℚ) (utc : Py.NaiveDatetime) (s : CadenceScheduler) : ℚ × CadenceScheduler :=
  let lagMs := match s.nextScheduled with
    | some next => max 0 ((now - next) * 1000)
    | none => 0
  let metrics := { s.lastMetrics with
    cycleStartedAtUtc := some utc.isoformatUtc
    cadenceLagMs := lagMs
    velocityModeActive := s.velocityModeActive
    velocityReason := s.velocityReason
    currentIntervalSeconds := s.intervalSeconds }
  let s := { s with cycleStart := some now, cycleStartUtc := some utc, lastMetrics := metrics }
  if s.velocityModeActive then
    let total := s.totalVelocityCycles + 1
    (lagMs, { s with totalVelocityCycles := total, lastMetrics := { s.lastMetrics with velocityCycles := total } })
  else
    (lagMs, s)

/-- What `mark_cycle_end` does before it looks at the schedule. -/
def recordDuration (now : ℚ) (s : CadenceScheduler) : CadenceScheduler :=
  let durationMs := match s.cycleStart with
    | some start => (now - start) * 1000
    | none => 0
  let history := s.durationHistory.append durationMs
  { s with
    durationHistory := history
    lastMetrics := { s.lastMetrics with cycleDurationMs := durationMs }.withPercentiles history.items }

def setSleep (sleep : ℚ) (s : CadenceScheduler) : CadenceScheduler :=
  { s with lastMetrics := { s.lastMetrics with sleepScheduledMs := sleep * 1000 } }

def addMissed (missed : Nat) (s : CadenceScheduler) : CadenceScheduler :=
  if 0 < missed then
    let total := s.totalMissedCycles + missed
    { s with totalMissedCycles := total, lastMetrics := { s.lastMetrics with missedCycles := total } }
  else s

/-- The seconds to sleep and the scheduler after it; `none` where the fuel does not reach the end of the loop. -/
def markCycleEnd (fuel : Nat) (now : ℚ) (s : CadenceScheduler) : Option (ℚ × CadenceScheduler) :=
  let s := s.recordDuration now
  match s.nextScheduled with
  | none =>
    let sleep := s.intervalSeconds
    some (sleep, { s with nextScheduled := some (now + s.intervalSeconds) }.setSleep sleep)
  | some previous =>
    (skipAhead fuel now s.intervalSeconds (previous + s.intervalSeconds)).map fun (next, missed) =>
      let sleep := max 0 (next - now)
      (sleep, ({ s with nextScheduled := some next }.addMissed missed).setSleep sleep)

def reset (s : CadenceScheduler) : CadenceScheduler :=
  { s with nextScheduled := none, cycleStart := none, cycleStartUtc := none }

def setInterval (newInterval : ℚ) (velocityMode : Bool) (velocityReason : String) (s : CadenceScheduler) :
    Except IntervalError CadenceScheduler :=
  if newInterval ≤ 0 then
    .error (.notPositive newInterval)
  else if newInterval ≠ s.intervalSeconds then
    .ok { s with
      intervalSeconds := newInterval
      velocityModeActive := velocityMode
      velocityReason := if velocityMode then velocityReason else ""
      nextScheduled := none }
  else
    .ok s

end CadenceScheduler

/-- The sleep, the next scheduled time and the missed cycles. -/
def computeSleepTimeFixedCadence (fuel : Nat) (now interval : ℚ) (nextScheduled : Option ℚ) :
    Option (Except IntervalError (ℚ × ℚ × Nat)) :=
  if interval ≤ 0 then
    some (.error (.notPositive interval))
  else
    match nextScheduled with
    | none => some (.ok (interval, now + interval, 0))
    | some previous =>
      (skipAhead fuel now interval (previous + interval)).map fun (next, missed) =>
        .ok (max 0 (next - now), next, missed)

/-! ### Runs -/

inductive Call
  | markCycleStart (utc : Py.NaiveDatetime)
  | markCycleEnd
  | setInterval (newInterval : ℚ) (velocityMode : Bool) (velocityReason : String)
  | reset

/-- A call, and the monotonic time at which it is made. -/
structure Event where
  now : ℚ
  call : Call

/-- The scheduler after a call. One that raises leaves it as it is. -/
def exec (fuel : Nat) (e : Event) (s : CadenceScheduler) : Option CadenceScheduler :=
  match e.call with
  | .markCycleStart utc => some (s.markCycleStart e.now utc).2
  | .markCycleEnd => (s.markCycleEnd fuel e.now).map Prod.snd
  | .setInterval newInterval mode reason =>
    match s.setInterval newInterval mode reason with
    | .ok s' => some s'
    | .error _ => some s
  | .reset => some s.reset

/-- The scheduler, and the time of the last call. -/
structure Clocked where
  clock : ℚ
  scheduler : CadenceScheduler

def Clocked.step (c : Clocked) (a : Nat × Event) : Option Clocked :=
  (exec a.1 a.2 c.scheduler).map fun s => { clock := a.2.now, scheduler := s }

/-- The cycle that ends at `now` ends no earlier than its scheduled start. -/
def Started (now : ℚ) (s : CadenceScheduler) : Prop :=
  ∀ previous, s.nextScheduled = some previous → previous ≤ now

/-- Time does not go back, and no cycle ends before its scheduled start. -/
def InTime (c : Clocked) (a : Nat × Event) : Prop :=
  c.clock ≤ a.2.now ∧ (a.2.call = .markCycleEnd → Started a.2.now c.scheduler)

/-- The points of the grid after `previous` that are not past. -/
def gridFrom (previous interval now : ℚ) : Set ℚ :=
  { x | (∃ k : Nat, 1 ≤ k ∧ x = previous + k * interval) ∧ now ≤ x }

/-- What a cycle that ends after `k` intervals leaves. -/
structure CycleEnd (fuel : Nat) (now : ℚ) (s : CadenceScheduler) (k : Nat) (sleep next : ℚ) (s' : CadenceScheduler) :
    Prop where
  returned : s.markCycleEnd fuel now = some (sleep, s')
  scheduled : s'.nextScheduled = some next
  first : s.nextScheduled = none → k = 1 ∧ next = now + s.intervalSeconds
  later : ∀ previous, s.nextScheduled = some previous →
    next = previous + k * s.intervalSeconds ∧ IsLeast (gridFrom previous s.intervalSeconds now) next
  positive : 1 ≤ k
  missed : s'.totalMissedCycles = s.totalMissedCycles + (k - 1)
  sleep_nonneg : 0 ≤ sleep
  sleep_le : sleep ≤ s.intervalSeconds
  agrees : computeSleepTimeFixedCadence fuel now s.intervalSeconds s.nextScheduled = some (.ok (sleep, next, k - 1))

/-- `mark_cycle_end` terminates, and keeps to the grid. -/
def KeepsCadence (now : ℚ) (s : CadenceScheduler) : Prop :=
  ∃ fuel k sleep next s', CycleEnd fuel now s k sleep next s'

/-! ### The end of a cycle -/

section
variable {now interval next previous sleep : ℚ} {s s' : CadenceScheduler} {fuel k : Nat}

theorem skipAhead_iterate (interval next : ℚ) (j : Nat) :
    (fun s : ℚ × Nat => (s.1 + interval, s.2 + 1))^[j] (next, 0) = (next + j * interval, j) := by
  induction j with
  | zero => simp
  | succ j ih =>
    rw [Function.iterate_succ_apply', ih]
    refine Prod.ext ?_ rfl
    push_cast
    ring

/-- The points that are skipped are those before now. -/
theorem skipAhead_eq (hbefore : ∀ j < k, next + j * interval < now) (hend : now ≤ next + k * interval) :
    skipAhead (k + 1) now interval next = some (next + k * interval, k) := by
  unfold skipAhead
  rw [Py.whileLoop_of_first (k := k), skipAhead_iterate]
  · intro j hj
    rw [skipAhead_iterate]
    exact decide_eq_true (hbefore j hj)
  · rw [skipAhead_iterate]
    exact decide_eq_false hend.not_gt

/-- Where the interval is not positive, a schedule that is past stays past. -/
theorem skipAhead_eq_none (hinterval : interval ≤ 0) (hnext : next < now) : skipAhead fuel now interval next = none := by
  unfold skipAhead
  refine Py.whileLoop_eq_none (fun j => ?_) fuel
  rw [skipAhead_iterate]
  have hback : (j : ℚ) * interval ≤ 0 := mul_nonpos_of_nonneg_of_nonpos j.cast_nonneg hinterval
  exact decide_eq_true (by linarith)

/-- A positive interval comes to the first point of the grid that is not past. -/
theorem exists_first_point (hinterval : 0 < interval) (next now : ℚ) :
    ∃ k : Nat, now ≤ next + k * interval ∧ ∀ j < k, next + j * interval < now := by
  have hex : ∃ k : Nat, now ≤ next + k * interval := by
    obtain ⟨k, hk⟩ := exists_nat_ge ((now - next) / interval)
    refine ⟨k, ?_⟩
    rw [div_le_iff₀ hinterval] at hk
    linarith
  exact ⟨Nat.find hex, Nat.find_spec hex, fun j hj => not_le.1 (Nat.find_min hex hj)⟩

theorem isLeast_gridFrom (hinterval : 0 < interval) (hend : now ≤ previous + interval + k * interval)
    (hbefore : ∀ j < k, previous + interval + j * interval < now) :
    IsLeast (gridFrom previous interval now) (previous + (k + 1 : Nat) * interval) := by
  refine ⟨⟨⟨k + 1, k.succ_pos, rfl⟩, ?_⟩, ?_⟩
  · push_cast
    linarith
  · rintro x ⟨⟨j, hj, rfl⟩, hx⟩
    rcases Nat.lt_or_ge (j - 1) k with hlt | hle
    · have hpast := hbefore (j - 1) hlt
      have hcast : ((j - 1 : Nat) : ℚ) = j - 1 := by
        rw [Nat.cast_sub hj, Nat.cast_one]
      rw [hcast] at hpast
      linarith
    · have hcast : ((k + 1 : Nat) : ℚ) ≤ j := Nat.cast_le.2 (by omega)
      have hmul := mul_le_mul_of_nonneg_right hcast hinterval.le
      linarith

namespace CadenceScheduler

@[simp] theorem recordDuration_intervalSeconds : (s.recordDuration now).intervalSeconds = s.intervalSeconds := rfl
@[simp] theorem recordDuration_nextScheduled : (s.recordDuration now).nextScheduled = s.nextScheduled := rfl
@[simp] theorem recordDuration_totalMissedCycles : (s.recordDuration now).totalMissedCycles = s.totalMissedCycles := rfl
@[simp] theorem setSleep_intervalSeconds : (s.setSleep sleep).intervalSeconds = s.intervalSeconds := rfl
@[simp] theorem setSleep_nextScheduled : (s.setSleep sleep).nextScheduled = s.nextScheduled := rfl
@[simp] theorem setSleep_totalMissedCycles : (s.setSleep sleep).totalMissedCycles = s.totalMissedCycles := rfl

@[simp] theorem addMissed_intervalSeconds : (s.addMissed k).intervalSeconds = s.intervalSeconds := by
  unfold addMissed
  split <;> rfl

@[simp] theorem addMissed_nextScheduled : (s.addMissed k).nextScheduled = s.nextScheduled := by
  unfold addMissed
  split <;> rfl

@[simp] theorem addMissed_totalMissedCycles : (s.addMissed k).totalMissedCycles = s.totalMissedCycles + k := by
  unfold addMissed
  split
  · rfl
  · have hk : k = 0 := by omega
    simp [hk]

theorem intervalSeconds_of_markCycleEnd (h : s.markCycleEnd fuel now = some (sleep, s')) :
    s'.intervalSeconds = s.intervalSeconds := by
  unfold markCycleEnd at h
  dsimp only at h
  split at h
  · cases h
    rfl
  · obtain ⟨⟨next, missed⟩, -, h⟩ := Option.map_eq_some_iff.1 h
    cases h
    simp

theorem markCycleStart_intervalSeconds (utc : Py.NaiveDatetime) :
    (s.markCycleStart now utc).2.intervalSeconds = s.intervalSeconds := by
  unfold markCycleStart
  dsimp only
  split <;> rfl

theorem setInterval_pos {mode : Bool} {reason : String} (hs : 0 < s.intervalSeconds)
    (h : s.setInterval interval mode reason = .ok s') : 0 < s'.intervalSeconds := by
  unfold setInterval at h
  split at h
  · cases h
  next hpos =>
    split at h
    · cases h
      exact not_le.1 hpos
    · cases h
      exact hs

end CadenceScheduler

theorem cycleEnd_first (hinterval : 0 < s.intervalSeconds) (hnone : s.nextScheduled = none) : KeepsCadence now s := by
  refine ⟨0, 1, s.intervalSeconds, now + s.intervalSeconds,
    { s.recordDuration now with nextScheduled := some (now + s.intervalSeconds) }.setSleep s.intervalSeconds, ?_⟩
  constructor
  case returned => simp [CadenceScheduler.markCycleEnd, hnone]
  case scheduled => rfl
  case first => exact fun _ => ⟨rfl, rfl⟩
  case later =>
    intro previous hprevious
    rw [hnone] at hprevious
    cases hprevious
  case positive => exact Nat.le_refl 1
  case missed => simp
  case sleep_nonneg => exact hinterval.le
  case sleep_le => exact le_rfl
  case agrees => simp [computeSleepTimeFixedCadence, hnone, hinterval]

theorem cycleEnd_later (hinterval : 0 < s.intervalSeconds) (hprevious : s.nextScheduled = some previous)
    (hstarted : previous ≤ now) : KeepsCadence now s := by
  obtain ⟨k, hend, hbefore⟩ := exists_first_point hinterval (previous + s.intervalSeconds) now
  have hskip := skipAhead_eq hbefore hend
  have hnext : previous + s.intervalSeconds + k * s.intervalSeconds = previous + (k + 1 : Nat) * s.intervalSeconds := by
    push_cast
    ring
  have hleast := isLeast_gridFrom hinterval hend hbefore
  rw [hnext] at hskip hend
  refine ⟨k + 1, k + 1, max 0 (previous + (k + 1 : Nat) * s.intervalSeconds - now), previous + (k + 1 : Nat) * s.intervalSeconds,
    ({ s.recordDuration now with nextScheduled := some (previous + (k + 1 : Nat) * s.intervalSeconds) }.addMissed k).setSleep
      (max 0 (previous + (k + 1 : Nat) * s.intervalSeconds - now)), ?_⟩
  constructor
  case returned => simp [CadenceScheduler.markCycleEnd, hprevious, hskip]
  case scheduled => simp
  case first =>
    intro hnone
    rw [hprevious] at hnone
    cases hnone
  case later =>
    intro previous' hprevious'
    rw [hprevious] at hprevious'
    cases hprevious'
    exact ⟨rfl, hleast⟩
  case positive => exact k.succ_pos
  case missed => simp
  case sleep_nonneg => exact le_max_left _ _
  case sleep_le =>
    refine max_le hinterval.le ?_
    -- The point before this one is past, or is the previous one.
    rcases Nat.eq_zero_or_pos k with rfl | hk
    · push_cast
      linarith
    · have hpast := hbefore (k - 1) (Nat.sub_lt hk Nat.one_pos)
      rw [Nat.cast_sub hk] at hpast
      push_cast at hpast ⊢
      linarith
  case agrees => simp [computeSleepTimeFixedCadence, hprevious, hinterval, hskip]

theorem keepsCadence (hinterval : 0 < s.intervalSeconds) (hstarted : Started now s) : KeepsCadence now s := by
  rcases hnext : s.nextScheduled with _ | previous
  · exact cycleEnd_first hinterval hnext
  · exact cycleEnd_later hinterval hnext (hstarted previous hnext)

/-- Where the interval is not positive, what computes the schedule refuses it. -/
theorem not_keepsCadence (hinterval : s.intervalSeconds ≤ 0) : ¬ KeepsCadence now s := by
  rintro ⟨fuel, k, sleep, next, s', h⟩
  have hagrees := h.agrees
  simp [computeSleepTimeFixedCadence, hinterval] at hagrees

theorem exec_pos {e : Event} (hs : 0 < s.intervalSeconds) (h : exec fuel e s = some s') : 0 < s'.intervalSeconds := by
  unfold exec at h
  split at h
  · cases h
    rw [CadenceScheduler.markCycleStart_intervalSeconds]
    exact hs
  · obtain ⟨⟨sleep, s''⟩, hend, rfl⟩ := Option.map_eq_some_iff.1 h
    rw [CadenceScheduler.intervalSeconds_of_markCycleEnd hend]
    exact hs
  · split at h
    next hset =>
      cases h
      exact CadenceScheduler.setInterval_pos hs hset
    · cases h
      exact hs
  · cases h
    exact hs

end

/-- Every cycle of every run keeps to the grid if and only if the scheduler was made with an interval that is positive. -/
theorem keepsCadence_iff (s₀ : CadenceScheduler) :
    (∀ clock c, Lts.Reach Clocked.step InTime ⟨clock, s₀⟩ c → ∀ now, c.clock ≤ now → Started now c.scheduler →
      KeepsCadence now c.scheduler) ↔ 0 < s₀.intervalSeconds := by
  constructor
  · intro h
    by_contra hinterval
    -- The first call is the end of a cycle, at the time of its schedule.
    have hstarted : Started (s₀.nextScheduled.getD 0) s₀ := by
      intro previous hprevious
      simp [hprevious]
    exact not_keepsCadence (not_lt.1 hinterval) (h _ _ .start (s₀.nextScheduled.getD 0) le_rfl hstarted)
  · intro hinterval clock c hreach now _ hstarted
    have hpos : 0 < c.scheduler.intervalSeconds := by
      refine hreach.invariant (I := fun c => 0 < c.scheduler.intervalSeconds) hinterval fun c a c' hc _ hstep => ?_
      obtain ⟨s', hexec, rfl⟩ := Option.map_eq_some_iff.1 hstep
      exact exec_pos hc hexec
    exact keepsCadence hpos hstarted

/-- `CadenceScheduler(interval_seconds=0.0)`; its second cycle ends one second after the first. -/
def stalled : CadenceScheduler where
  intervalSeconds := 0

theorem stalled_never_ends : ∃ c, Lts.Reach Clocked.step InTime ⟨0, stalled⟩ c ∧ ∃ now, c.clock ≤ now ∧
    Started now c.scheduler ∧ (∀ fuel, c.scheduler.markCycleEnd fuel now = none) ∧ ¬ KeepsCadence now c.scheduler := by
  have hnever : ∀ fuel, CadenceScheduler.markCycleEnd fuel 1
      ({ stalled.recordDuration 0 with nextScheduled := some 0 }.setSleep 0) = none := by
    intro fuel
    have hskip : skipAhead fuel 1 0 0 = none := skipAhead_eq_none le_rfl zero_lt_one
    simp [CadenceScheduler.markCycleEnd, stalled, hskip]
  refine ⟨⟨0, { stalled.recordDuration 0 with nextScheduled := some 0 }.setSleep 0⟩,
    .step (a := (0, { now := 0, call := .markCycleEnd })) .start ⟨le_rfl, fun _ previous h => ?_⟩ ?_, 1, zero_le_one,
    fun previous h => ?_, hnever, ?_⟩
  · cases h
  · simp [Clocked.step, exec, CadenceScheduler.markCycleEnd, stalled]
  · cases h
    exact zero_le_one
  · rintro ⟨fuel, k, sleep, next, s', h⟩
    have hreturned := h.returned
    rw [hnever] at hreturned
    cases hreturned

end PearlAlgo.Cadence
