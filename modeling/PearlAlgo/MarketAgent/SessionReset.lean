import PearlAlgo.Lts.Reach
import PearlAlgo.MarketAgent.BreakerRuns
import PearlAlgo.MarketAgent.Service

/-!
# The session boundary (`market_agent/service_loop.py`, `execution_orchestrator.py`)

Each pass of `_run_loop` calls the daily reset of the orchestrator, which resets the counters of the adapter. The
one of the service, which also resets the circuit breaker, is not called. A run is any sequence of cycles, of the
other steps of the service and of restarts; `session_reset_iff` says when the breaker is nevertheless as it should be
at each change of the trading day.
-/

namespace PearlAlgo
open TradingCircuitBreaker Lts

/-- The date of `get_trading_day_start`, which changes at 18:00 Eastern. -/
def tradingDay (zone : Zone) (now : ℚ) : Int := ((zone.ofUtc now - 18 * 3600) / 86400).floor

/-- The start of a cycle, with the breaker on both sides of the daily reset. -/
structure CycleStart where
  now : ℚ
  /-- The trading day has changed since the last cycle. -/
  crossed : Bool
  before : Option TradingCircuitBreaker
  after : Option TradingCircuitBreaker

/-- No code reads `lastCycleDay`, which outlives the service, nor `cycles`. -/
structure SessionRun where
  service : MarketAgentService
  lastCycleDay : Option Int := none
  cycles : List CycleStart := []

inductive SessionAct
  | cycle (now : ℚ)
  | service (a : ServiceAct)
  | restart (c : ServiceSettings)

namespace SessionRun

def start (c : ServiceSettings) : SessionRun := { service := .init c }

def startCycle (now : ℚ) (s : SessionRun) : SessionRun :=
  let today := tradingDay s.service.virtualTradeManager.zone now
  let service := s.service.checkDailyReset today
  { service
    lastCycleDay := some today
    cycles := s.cycles ++
      [{ now, crossed := s.lastCycleDay.any (· ≠ today), before := s.service.breaker, after := service.breaker }] }

def step (s : SessionRun) : SessionAct → Option SessionRun
  | .cycle now => some (s.startCycle now)
  | .service (.checkDailyReset _) => none
  | .service a => (s.service.step a).map fun service => { s with service }
  | .restart c => some { s with service := .init c }

end SessionRun

/-- The reasons of the profit lock and of the loss counters. -/
def lossReasons : List BlockReason := [.sessionProfitLock, .consecutiveLosses, .tieredLossHalt]

namespace TradingCircuitBreaker

/-- A cooldown of the profit lock or of the loss counters is on. -/
def CarriesCooldown (now : ℚ) (cb : TradingCircuitBreaker) : Prop :=
  (∃ t ∈ cb.cooldownUntil, now < t) ∧ ∃ reason ∈ cb.cooldownReason, reason ∈ lossReasons

instance (now : ℚ) (cb : TradingCircuitBreaker) : Decidable (cb.CarriesCooldown now) :=
  inferInstanceAs (Decidable ((∃ t ∈ cb.cooldownUntil, _) ∧ ∃ reason ∈ cb.cooldownReason, _))

theorem CarriesCooldown.denies {cfg : TradingCircuitBreakerConfig} {clock : Clock} {cb : TradingCircuitBreaker}
    (h : cb.CarriesCooldown clock.now) (call : SignalCall) : (decide cfg clock call cb).1.allowed = false := by
  obtain ⟨⟨t, ht, hnow⟩, -⟩ := h
  rw [decide_of_lt ht hnow]
  rfl

end TradingCircuitBreaker

/-- The first cycle of a session resets the breaker and finds no cooldown of the profit lock or of the loss counters,
and the other cycles do not reset. -/
def CycleStart.Lawful (c : CycleStart) : Prop :=
  if c.crossed then c.after = c.before.map resetDaily ∧ ∀ cb ∈ c.after, ¬ cb.CarriesCooldown c.now
  else c.after = c.before

instance (c : CycleStart) : Decidable c.Lawful :=
  inferInstanceAs (Decidable (if c.crossed then _ ∧ ∀ cb ∈ c.after, ¬ _ else _))

/-- The sessions before have left nothing to reset, and no such cooldown. -/
def CycleStart.NothingLeft (c : CycleStart) : Prop :=
  ∀ cb ∈ c.before, cb.resetDaily = cb ∧ ¬ cb.CarriesCooldown c.now

namespace SessionRun

variable {c : ServiceSettings} {s : SessionRun}

theorem checkDailyReset_breaker (s : MarketAgentService) (today : Int) : (s.checkDailyReset today).breaker = s.breaker := by
  unfold MarketAgentService.checkDailyReset
  split
  · rfl
  · rfl
  · split <;> rfl

theorem step_cases {a : SessionAct} {s' : SessionRun} (hs : s.step a = some s') :
    s'.cycles = s.cycles ∨ ∃ now, s' = s.startCycle now := by
  cases a with
  | cycle now => exact .inr ⟨now, (Option.some.inj hs).symm⟩
  | service a =>
    have hmap : s.step (.service a) = none ∨
        s.step (.service a) = (s.service.step a).map fun service => { s with service } := by
      cases a with
      | checkDailyReset today => exact .inl rfl
      | _ => exact .inr rfl
    rcases hmap with hmap | hmap
    · rw [hmap] at hs
      cases hs
    · rw [hmap] at hs
      obtain ⟨service, -, heq⟩ := Option.map_eq_some_iff.1 hs
      exact .inl (by rw [← heq])
  | restart c => exact .inl (by rw [← Option.some.inj hs])

/-- The daily reset of the loop leaves the breaker alone. -/
theorem cycles_after (h : Reach step AnyStep (start c) s) : ∀ k ∈ s.cycles, k.after = k.before := by
  refine h.invariant (I := fun s => ∀ k ∈ s.cycles, k.after = k.before) ?_ ?_
  · intro k hk
    exact absurd hk List.not_mem_nil
  · intro s a s' hI _ hs k hk
    rcases step_cases hs with heq | ⟨now, rfl⟩
    · exact hI k (heq ▸ hk)
    · rcases List.mem_append.1 hk with hk | hk
      · exact hI k hk
      · rw [List.mem_singleton.1 hk]
        exact checkDailyReset_breaker _ _

/-- In every run the breaker is reset at each change of the trading day, and only there, exactly when there is nothing
to reset and no cooldown of the profit lock or of the loss counters is left. -/
theorem session_reset_iff (h : Reach step AnyStep (start c) s) :
    (∀ k ∈ s.cycles, k.Lawful) ↔ ∀ k ∈ s.cycles, k.crossed = true → k.NothingLeft := by
  refine forall₂_congr fun k hk => ?_
  have hafter := cycles_after h k hk
  unfold CycleStart.Lawful CycleStart.NothingLeft
  by_cases hcrossed : k.crossed = true
  · rw [if_pos hcrossed, hafter]
    rcases k.before with _ | cb
    · exact ⟨fun _ _ _ hcb => absurd hcb nofun, fun _ => ⟨rfl, fun _ hcb => absurd hcb nofun⟩⟩
    · simp only [hcrossed, Option.map_some, Option.some.injEq, Option.mem_def, forall_eq', true_implies]
      exact and_congr_left fun _ => eq_comm
  · rw [if_neg hcrossed]
    exact ⟨fun _ hc => absurd hc hcrossed, fun _ => hafter⟩

/-! ### A lock that outlives its session -/

/-- The profit lock is on; Eastern time is five hours behind. -/
def lockSettings : ServiceSettings where
  execution := { enabled := some true, armed := some true, mode := some "paper" }
  zone := ⟨fun t => some (t + 18000), fun t => t - 18000⟩
  breaker := some { enableSessionProfitLock := true }
  clock := ⟨75600, 16, 82800⟩

/-- A profit of 400 falls to 200 at five in the afternoon, and a cycle of the evening follows. -/
def lockedEvening : List SessionAct :=
  [.cycle 75600, .service (.pollAccount ⟨75600, 16, 82800⟩ 400), .cycle 79200,
    .service (.pollAccount ⟨79200, 17, 82800⟩ 200), .cycle 84600]

/-- The evening's signals are denied for the afternoon's profit lock. -/
theorem lock_outlives_session : ∃ s, Reach step AnyStep (start lockSettings) s ∧ ¬ (∀ k ∈ s.cycles, k.Lawful) ∧
    (s.service.checkCircuitBreaker ⟨84600, 18, 169200⟩ {} {} none {}).1 = false := by
  obtain ⟨s, hreach, hs⟩ := exists_reach step AnyStep (start lockSettings) lockedEvening
    (fun s => ¬ (∀ k ∈ s.cycles, k.Lawful) ∧
      (s.service.checkCircuitBreaker ⟨84600, 18, 169200⟩ {} {} none {}).1 = false) (by decide +kernel)
  exact ⟨s, hreach, of_decide_eq_true hs⟩

theorem session_reset_iff_quiet : ∃ s, Reach step AnyStep (start lockSettings) s ∧
    (s.cycles.map CycleStart.crossed = [false, true]) ∧
    ((∀ k ∈ s.cycles, k.Lawful) ↔ ∀ k ∈ s.cycles, k.crossed = true → k.NothingLeft) := by
  obtain ⟨s, hreach, hs⟩ := exists_reach step AnyStep (start lockSettings) [.cycle 79200, .cycle 84600]
    (fun s => s.cycles.map CycleStart.crossed = [false, true]) (by decide +kernel)
  exact ⟨s, hreach, of_decide_eq_true hs, session_reset_iff hreach⟩

end SessionRun

end PearlAlgo
