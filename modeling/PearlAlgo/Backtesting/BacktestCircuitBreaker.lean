import PearlAlgo.Lts.Reach
import PearlAlgo.MarketAgent.BreakerDecision

/-!
# The backtest's circuit breaker (`scripts/backtesting/backtest_engine.py`)

`BacktestCircuitBreaker` does the checks of the live breaker on simulated time. Both decide as `gate` does of their own
numbers (`shouldAllow_gate` and `live_gate`), and on one day the numbers are the same (`Sim`). The regimes are not: the
backtest does not take the names of the blocked ones to lower case, and reads an empty list as its default.
-/

namespace PearlAlgo
open Py

/-- The arguments of `__init__`. -/
structure BacktestBreakerConfig where
  maxConsecutiveLosses : Int := 3
  cooldownMinutes : Int := 30
  maxSessionDrawdown : ℚ := 1800
  maxDailyDrawdown : ℚ := 99999
  maxDailyProfit : ℚ := 3000
  rollingWindow : Nat := 20
  minRollingWinRate : ℚ := 3/10
  enableDirectionGating : Bool := true
  directionGatingMinConfidence : ℚ := 1/2
  enableRegimeAvoidance : Bool := true
  blockedRegimes : Option (List String) := none
  regimeAvoidanceMinConfidence : ℚ := 7/10

/-- `blocked_regimes or ["ranging", "volatile"]` -/
def BacktestBreakerConfig.blocked (c : BacktestBreakerConfig) : List String :=
  if c.blockedRegimes.getD [] = [] then ["ranging", "volatile"] else c.blockedRegimes.getD []

/-- `sim_time`, with its `tm_yday` and what the live breaker reads at that time. -/
structure SimTime extends GateTime where
  yday : Nat

def SimTime.now (t : SimTime) : ℚ := t.clock.now

structure BacktestCircuitBreaker where
  consecutiveLosses : Nat := 0
  dailyPnl : ℚ := 0
  sessionPnl : ℚ := 0
  recentTrades : List TradeResult := []
  cooldownUntil : Option ℚ := none
  currentDay : Option Nat := none
  blocks : Dict String Nat := .empty
  totalBlocks : Nat := 0

namespace BacktestCircuitBreaker
variable (lower : String → String) (c : BacktestBreakerConfig)

def recordBlock (reason : String) (cb : BacktestCircuitBreaker) : BacktestCircuitBreaker :=
  { cb with
    totalBlocks := cb.totalBlocks + 1
    blocks := cb.blocks.set reason ((cb.blocks.get? reason).getD 0 + 1) }

def deny (reason : String) (cb : BacktestCircuitBreaker) : (Bool × String) × BacktestCircuitBreaker :=
  ((false, reason), cb.recordBlock reason)

def denyFor (t : SimTime) (reason : String) (minutes : Int) (cb : BacktestCircuitBreaker) :
    (Bool × String) × BacktestCircuitBreaker :=
  deny reason { cb with cooldownUntil := some (t.now + minutes * 60) }

/-- The daily reset. -/
def enterDay (t : SimTime) (cb : BacktestCircuitBreaker) : BacktestCircuitBreaker :=
  let cb :=
    if cb.currentDay.any (· ≠ t.yday) then
      { cb with dailyPnl := 0, sessionPnl := 0, consecutiveLosses := 0, cooldownUntil := none }
    else cb
  { cb with currentDay := some t.yday }

def lowWinRate (cb : BacktestCircuitBreaker) : Bool :=
  c.rollingWindow / 2 ≤ cb.recentTrades.length ∧
    TradingCircuitBreaker.winRate (lastN c.rollingWindow cb.recentTrades) < c.minRollingWinRate

def regimeType (r : MarketRegime) : String := lower (r.regime.getD "unknown")

def confidence (r : MarketRegime) : ℚ := r.confidence.getD 0

def allowedDir (r : MarketRegime) : String :=
  let effective := if c.directionGatingMinConfidence ≤ confidence r then regimeType lower r else "unknown"
  if effective = "trending_down" then "short" else "long"

def gatesDirection (sig : GatedSignal) (r : MarketRegime) : Bool :=
  c.enableDirectionGating ∧ lower (sig.direction.getD "") ≠ allowedDir lower c r

def avoidsRegime (r : MarketRegime) : Bool :=
  c.enableRegimeAvoidance ∧ c.regimeAvoidanceMinConfidence ≤ confidence r ∧ regimeType lower r ∈ c.blocked

/-- `should_allow` after the cooldown, without the numbers in the reasons; `regime` is `none` for an empty dictionary as
well. -/
def checkLimits (sig : GatedSignal) (t : SimTime) (regime : Option MarketRegime) (cb : BacktestCircuitBreaker) :
    (Bool × String) × BacktestCircuitBreaker :=
  if c.maxConsecutiveLosses ≤ cb.consecutiveLosses then denyFor t "consecutive_losses" c.cooldownMinutes cb
  else if cb.sessionPnl ≤ -c.maxSessionDrawdown then denyFor t "session_drawdown" 60 cb
  else if cb.dailyPnl ≤ -c.maxDailyDrawdown then denyFor t "daily_drawdown" 720 cb
  else if 0 < c.maxDailyProfit ∧ c.maxDailyProfit ≤ cb.dailyPnl then denyFor t "daily_profit_cap" 720 cb
  else if cb.lowWinRate c then denyFor t "rolling_win_rate" c.cooldownMinutes cb
  else if regime.any (gatesDirection lower c sig) then deny "direction_gating" cb
  else if regime.any (avoidsRegime lower c) then deny "regime_avoidance" cb
  else ((true, "passed"), cb)

def shouldAllow (sig : GatedSignal) (t : SimTime) (regime : Option MarketRegime) (cb : BacktestCircuitBreaker) :
    (Bool × String) × BacktestCircuitBreaker :=
  let cb := cb.enterDay t
  if cb.cooldownUntil.any (t.now < ·) then deny "cooldown" cb
  else
    let cb := if cb.cooldownUntil.any (· ≤ t.now) then { cb with cooldownUntil := none } else cb
    checkLimits lower c sig t regime cb

def recordTrade (t : TradeResult) (cb : BacktestCircuitBreaker) : BacktestCircuitBreaker :=
  { cb with
    consecutiveLosses := if t.isWin then 0 else cb.consecutiveLosses + 1
    dailyPnl := cb.dailyPnl + t.pnl
    sessionPnl := cb.sessionPnl + t.pnl
    recentTrades := trimTo (c.rollingWindow * 2) (cb.recentTrades ++ [t]) }

end BacktestCircuitBreaker

/-! ### What both decide -/

/-- The facts of one call: which limits and filters deny the signal, and the ends of the cooldowns. -/
structure GateFacts where
  losses : Bool
  session : Bool
  rate : Bool
  direction : Bool
  regime : Bool
  lossesUntil : ℚ
  sessionUntil : ℚ
  rateUntil : ℚ

/-- The decision outside of a cooldown, and the end of the cooldown after it. -/
def gate (f : GateFacts) : Bool × Option ℚ :=
  if f.losses then (false, some f.lossesUntil)
  else if f.session then (false, some f.sessionUntil)
  else if f.rate then (false, some f.rateUntil)
  else (!f.direction && !f.regime, none)

namespace TradingCircuitBreaker
variable (cfg : TradingCircuitBreakerConfig)

/-- The features that the backtest does not model are off. -/
structure FeaturesOff : Prop where
  tieredLossResponse : cfg.enableTieredLossResponse = false
  triggerFilters : cfg.enableTriggerFilters = false
  equityCurveFilter : cfg.enableEquityCurveFilter = false
  todRiskScaling : cfg.enableTodRiskScaling = false
  volatilityRiskScaling : cfg.enableVolatilityRiskScaling = false
  tvPaperEvalGate : cfg.enableTvPaperEvalGate = false
  requireWinningTradeToResume : cfg.requireWinningTradeToResume = false

/-- The daily drawdown and the daily profit cap are not reached. -/
def WithinDay (dailyPnl : ℚ) : Prop :=
  -cfg.maxDailyDrawdown < dailyPnl ∧ (cfg.maxDailyProfit ≤ 0 ∨ dailyPnl < cfg.maxDailyProfit)

instance (dailyPnl : ℚ) : Decidable (WithinDay cfg dailyPnl) := inferInstanceAs (Decidable (_ ∧ _))

def liveFacts (now : ℚ) (filters : Filters) (cb : TradingCircuitBreaker) : GateFacts where
  losses := cfg.maxConsecutiveLosses ≤ cb.consecutiveLosses
  session := cb.sessionPnl ≤ -cfg.maxSessionDrawdown
  rate := cfg.rollingWindowTrades / 2 ≤ cb.recentTrades.length ∧
    rollingWinRate cfg cb < cfg.minRollingWinRate
  direction := cfg.enableDirectionGating && !filters.directionGating.allowed
  regime := cfg.enableRegimeAvoidance && !filters.regimeAvoidance.allowed
  lossesUntil := now + cfg.consecutiveLossCooldownMinutes * 60
  sessionUntil := now + cfg.drawdownCooldownMinutes * 60
  rateUntil := now + cfg.winRateCooldownMinutes * 60

variable {cfg} {clock : Clock} {filters : Filters} {cb : TradingCircuitBreaker}

variable {check next : Check} {d : CircuitBreakerDecision} {cb' : TradingCircuitBreaker}

theorem require_allow (h : check cb = (d, cb')) (hd : d.allowed = true) : require check next cb = next cb' := by
  unfold TradingCircuitBreaker.require
  rw [h]
  exact if_pos hd

theorem require_deny (h : check cb = (d, cb')) (hd : d.allowed = false) :
    require check next cb = (d, cb'.recordBlock d.reason) := by
  unfold TradingCircuitBreaker.require
  rw [h]
  exact if_neg (by simp [hd])

theorem scaling_pass {next : ℚ → Check} (h : check cb = (.pass 1, cb)) : scaling check 1 next cb = next 1 cb := by
  unfold TradingCircuitBreaker.scaling
  rw [h]
  rfl

theorem scaling_off {next : ℚ → Check} : scaling (checkIf false check) 1 next cb = next 1 cb := scaling_pass rfl

theorem scaling_deny {next : ℚ → Check} (h : check cb = (d, cb')) (hd : d.allowed = false) :
    scaling check 1 next cb = (d, cb'.recordBlock d.reason) := by
  unfold TradingCircuitBreaker.scaling
  rw [h]
  exact if_neg (by simp [hd])

theorem checkIf_const {b : Bool} : checkIf b (.const d) cb = (if b then d else .pass 1, cb) := by
  cases b <;> rfl

theorem countedFilter_deny {enabled : Bool} {count : TradingCircuitBreaker → TradingCircuitBreaker}
    (h : enabled = true) : countedFilter enabled d count cb = (d, cb) := if_pos h

theorem countedFilter_allow {enabled : Bool} {count : TradingCircuitBreaker → TradingCircuitBreaker}
    (h : (enabled && !d.allowed) = false) (hcount : (count cb).cooldownUntil = cb.cooldownUntil) :
    ∃ d' cb', countedFilter enabled d count cb = (d', cb') ∧ d'.allowed = true ∧ cb'.cooldownUntil = cb.cooldownUntil := by
  unfold countedFilter
  cases enabled with
  | true => exact ⟨d, cb, rfl, by simpa using h, rfl⟩
  | false =>
    refine ⟨.pass 1, _, rfl, rfl, ?_⟩
    split
    · rfl
    · exact hcount

theorem dailyLimits_pass (hday : WithinDay cfg cb.dailyPnl) :
    checkDailyDrawdown cfg clock cb = (.pass 1, cb) ∧ checkDailyProfitCap cfg clock cb = (.pass 1, cb) := by
  obtain ⟨hlow, hcap⟩ := hday
  refine ⟨if_neg (not_le.2 hlow), ?_⟩
  unfold checkDailyProfitCap
  rcases hcap with hcap | hcap
  · exact if_pos hcap
  · rw [if_neg (not_le.2 hcap), ite_self]

theorem checkRollingWinRate_low (hlen : cfg.rollingWindowTrades / 2 ≤ cb.recentTrades.length)
    (hrate : rollingWinRate cfg cb < cfg.minRollingWinRate) : checkRollingWinRate cfg clock cb =
      denyFor clock .rollingWinRate .warning cfg.winRateCooldownMinutes cb := by
  unfold checkRollingWinRate
  rw [if_neg (not_lt.2 hlen), if_pos hrate]

theorem checkRollingWinRate_pass (h : ¬ (cfg.rollingWindowTrades / 2 ≤ cb.recentTrades.length ∧
    rollingWinRate cfg cb < cfg.minRollingWinRate)) : checkRollingWinRate cfg clock cb = (.pass 1, cb) := by
  unfold checkRollingWinRate
  split
  · rfl
  next hlen => rw [if_neg fun hrate => h ⟨not_lt.1 hlen, hrate⟩]

/-- The live breaker outside of a cooldown. -/
theorem live_gate (hoff : FeaturesOff cfg) (e : SignalEntry) (hcool : cb.cooldownUntil = none)
    (hday : WithinDay cfg cb.dailyPnl) :
    ((checkSignal cfg clock e filters none none cb).1.allowed,
      (checkSignal cfg clock e filters none none cb).2.cooldownUntil) = gate (liveFacts cfg clock.now filters cb) := by
  obtain ⟨hdrawdown, hprofit⟩ := @dailyLimits_pass cfg clock cb hday
  unfold checkSignal gate
  rw [if_neg (by simp [hoff.tieredLossResponse])]
  by_cases hlosses : cfg.maxConsecutiveLosses ≤ cb.consecutiveLosses
  · have hf : (liveFacts cfg clock.now filters cb).losses = true := decide_eq_true hlosses
    rw [scaling_deny (if_pos hlosses) rfl, if_pos hf]
    rfl
  have hf : (liveFacts cfg clock.now filters cb).losses = false := decide_eq_false hlosses
  rw [scaling_pass (if_neg hlosses), if_neg (by simp [hf])]
  by_cases hsession : cb.sessionPnl ≤ -cfg.maxSessionDrawdown
  · have hf : (liveFacts cfg clock.now filters cb).session = true := decide_eq_true hsession
    rw [require_deny (if_pos hsession) rfl, if_pos hf]
    rfl
  have hf : (liveFacts cfg clock.now filters cb).session = false := decide_eq_false hsession
  rw [require_allow (if_neg hsession) rfl, if_neg (by simp [hf])]
  rw [require_allow hdrawdown rfl, require_allow hprofit rfl]
  by_cases hrate : cfg.rollingWindowTrades / 2 ≤ cb.recentTrades.length ∧
      rollingWinRate cfg cb < cfg.minRollingWinRate
  · have hf : (liveFacts cfg clock.now filters cb).rate = true := decide_eq_true hrate
    rw [require_deny (checkRollingWinRate_low hrate.1 hrate.2) rfl, if_pos hf]
    rfl
  have hf : (liveFacts cfg clock.now filters cb).rate = false := decide_eq_false hrate
  have hpositions : Check.const ((none : Option (List SignalEntry)).elim (.pass 1)
      (checkPositionLimits cfg e)) cb =
      (.pass 1, cb) := rfl
  rw [require_allow (checkRollingWinRate_pass hrate) rfl, if_neg (by simp [hf]), require_allow hpositions rfl]
  rcases hdirection : (liveFacts cfg clock.now filters cb).direction with _ | _
  next =>
    have hallowed : (if cfg.enableDirectionGating = true then filters.directionGating.decision
        else .pass 1).allowed = true := by
      rcases henabled : cfg.enableDirectionGating with _ | _
      · rfl
      · simpa [liveFacts, henabled, FilterDecision.decision] using hdirection
    rw [require_allow checkIf_const hallowed]
    rcases hregime : (liveFacts cfg clock.now filters cb).regime with _ | _
    next =>
      obtain ⟨d, cb₁, hcheck, hd, hcool₁⟩ := @countedFilter_allow cb filters.regimeAvoidance.decision
        cfg.enableRegimeAvoidance (fun cb => { cb with wouldHaveBlockedRegime := cb.wouldHaveBlockedRegime + 1 })
        hregime rfl
      rw [require_allow hcheck hd]
      obtain ⟨d', cb₂, hcheck, hd', hcool₂⟩ := @countedFilter_allow cb₁ filters.triggerFilters.decision
        cfg.enableTriggerFilters (fun cb => { cb with wouldHaveBlockedTrigger := cb.wouldHaveBlockedTrigger + 1 })
        (by simp [hoff.triggerFilters]) rfl
      have hvolatility : checkIf cfg.enableVolatilityFilter ((none : Option AtrData).elim (.const (.pass 1))
          (checkVolatilityFilter cfg)) cb₂ = (.pass 1, cb₂) := by
        cases cfg.enableVolatilityFilter <;> rfl
      rw [require_allow hcheck hd', require_allow hvolatility rfl, hoff.equityCurveFilter, hoff.todRiskScaling,
        hoff.volatilityRiskScaling, hoff.tvPaperEvalGate, scaling_off, scaling_off, scaling_off,
        require_allow checkIf_const rfl]
      unfold allowAt
      rw [if_neg (by norm_num)]
      simp [CircuitBreakerDecision.pass, hcool₂, hcool₁, hcool]
    next =>
      obtain ⟨henabled, hdenied⟩ : cfg.enableRegimeAvoidance = true ∧ filters.regimeAvoidance.allowed = false := by
        simpa [liveFacts] using hregime
      rw [require_deny (countedFilter_deny henabled) hdenied]
      exact Prod.ext hdenied hcool
  next =>
    obtain ⟨henabled, hdenied⟩ : cfg.enableDirectionGating = true ∧ filters.directionGating.allowed = false := by
      simpa [liveFacts] using hdirection
    have hcheck : checkIf cfg.enableDirectionGating (.const filters.directionGating.decision) cb =
        (filters.directionGating.decision, cb) := by
      rw [henabled]
      rfl
    rw [require_deny hcheck hdenied]
    exact Prod.ext hdenied hcool

theorem shouldAllowSignal_gate (hoff : FeaturesOff cfg) (hresume : cfg.autoResumeAfterCooldown = true) (e : SignalEntry)
    (hday : WithinDay cfg cb.dailyPnl) :
    ((shouldAllowSignal cfg clock e filters none none cb).1.allowed,
      (shouldAllowSignal cfg clock e filters none none cb).2.cooldownUntil) =
      if cb.cooldownUntil.any (clock.now < ·) then (false, cb.cooldownUntil)
      else gate (liveFacts cfg clock.now filters cb) := by
  unfold shouldAllowSignal isInCooldown
  rcases hcool : cb.cooldownUntil with _ | u
  · exact live_gate hoff e hcool hday
  · dsimp only
    by_cases hu : u ≤ clock.now
    · have hover : (some u).any (clock.now < ·) = false := by simpa using hu
      rw [if_pos hu, hresume, if_pos rfl, hover, if_neg Bool.false_ne_true]
      exact @live_gate cfg clock filters cb.clearCooldown hoff e rfl hday
    · rw [if_neg hu, if_pos (by simpa using hu)]
      exact Prod.ext rfl hcool

end TradingCircuitBreaker

namespace BacktestCircuitBreaker
variable (lower : String → String) (c : BacktestBreakerConfig)

def facts (now : ℚ) (sig : GatedSignal) (r : MarketRegime) (cb : BacktestCircuitBreaker) : GateFacts where
  losses := c.maxConsecutiveLosses ≤ cb.consecutiveLosses
  session := cb.sessionPnl ≤ -c.maxSessionDrawdown
  rate := cb.lowWinRate c
  direction := gatesDirection lower c sig r
  regime := avoidsRegime lower c r
  lossesUntil := now + c.cooldownMinutes * 60
  sessionUntil := now + 60 * 60
  rateUntil := now + c.cooldownMinutes * 60

/-- A call changes the cooldown and the counters of blocks, and notes the day. -/
structure Keeps (cb cb' : BacktestCircuitBreaker) : Prop where
  consecutiveLosses : cb'.consecutiveLosses = cb.consecutiveLosses
  dailyPnl : cb'.dailyPnl = cb.dailyPnl
  sessionPnl : cb'.sessionPnl = cb.sessionPnl
  recentTrades : cb'.recentTrades = cb.recentTrades

variable {lower c} {sig : GatedSignal} {t : SimTime} {r : MarketRegime} {cb : BacktestCircuitBreaker}

theorem enterDay_same (h : ∀ d, cb.currentDay = some d → d = t.yday) : cb.enterDay t = { cb with currentDay := some t.yday } := by
  unfold enterDay
  rcases hd : cb.currentDay with _ | d
  · rfl
  · have := h d hd
    simp [this]

theorem checkLimits_keeps {regime : Option MarketRegime} : cb.Keeps (checkLimits lower c sig t regime cb).2 ∧
    (checkLimits lower c sig t regime cb).2.currentDay = cb.currentDay := by
  unfold checkLimits
  split_ifs <;> exact ⟨⟨rfl, rfl, rfl, rfl⟩, rfl⟩

/-- The backtest's breaker outside of a cooldown. -/
theorem checkLimits_gate (hcool : cb.cooldownUntil = none) (hlow : -c.maxDailyDrawdown < cb.dailyPnl)
    (hcap : c.maxDailyProfit ≤ 0 ∨ cb.dailyPnl < c.maxDailyProfit) :
    ((checkLimits lower c sig t (some r) cb).1.1, (checkLimits lower c sig t (some r) cb).2.cooldownUntil) =
      gate (facts lower c t.now sig r cb) := by
  have hprofit : ¬ (0 < c.maxDailyProfit ∧ c.maxDailyProfit ≤ cb.dailyPnl) := by
    rintro ⟨hpos, hreached⟩
    rcases hcap with hcap | hcap
    · exact absurd hpos (not_lt.2 hcap)
    · exact absurd hreached (not_le.2 hcap)
  unfold checkLimits gate
  by_cases hlosses : c.maxConsecutiveLosses ≤ cb.consecutiveLosses
  · have hf : (facts lower c t.now sig r cb).losses = true := decide_eq_true hlosses
    rw [if_pos hlosses, if_pos hf]
    rfl
  have hf : ¬ (facts lower c t.now sig r cb).losses = true := by simpa [facts] using hlosses
  rw [if_neg hlosses, if_neg hf]
  by_cases hsession : cb.sessionPnl ≤ -c.maxSessionDrawdown
  · have hf : (facts lower c t.now sig r cb).session = true := decide_eq_true hsession
    rw [if_pos hsession, if_pos hf]
    rfl
  have hf : ¬ (facts lower c t.now sig r cb).session = true := by simpa [facts] using hsession
  rw [if_neg hsession, if_neg hf, if_neg (not_le.2 hlow), if_neg hprofit]
  rcases hrate : cb.lowWinRate c with _ | _
  · have hf : ¬ (facts lower c t.now sig r cb).rate = true := by simp [facts, hrate]
    rw [if_neg Bool.false_ne_true, if_neg hf]
    rcases hd : gatesDirection lower c sig r with _ | _
    · rcases hr : avoidsRegime lower c r with _ | _ <;> simp [facts, deny, recordBlock, hd, hr, hcool]
    · simp [facts, deny, recordBlock, hd, hcool]
  · have hf : (facts lower c t.now sig r cb).rate = true := hrate
    rw [if_pos rfl, if_pos hf]
    rfl

theorem shouldAllow_gate (h : ∀ d, cb.currentDay = some d → d = t.yday) (hlow : -c.maxDailyDrawdown < cb.dailyPnl)
    (hcap : c.maxDailyProfit ≤ 0 ∨ cb.dailyPnl < c.maxDailyProfit) :
    ((shouldAllow lower c sig t (some r) cb).1.1, (shouldAllow lower c sig t (some r) cb).2.cooldownUntil) =
      (if cb.cooldownUntil.any (t.now < ·) then (false, cb.cooldownUntil) else gate (facts lower c t.now sig r cb)) ∧
    cb.Keeps (shouldAllow lower c sig t (some r) cb).2 ∧
    (shouldAllow lower c sig t (some r) cb).2.currentDay = some t.yday := by
  unfold shouldAllow
  rw [enterDay_same h]
  dsimp only
  by_cases hcool : cb.cooldownUntil.any (t.now < ·) = true
  · rw [if_pos hcool, if_pos hcool]
    exact ⟨rfl, ⟨rfl, rfl, rfl, rfl⟩, rfl⟩
  rw [if_neg hcool, if_neg hcool]
  have hexpire : (if cb.cooldownUntil.any (· ≤ t.now) = true then { cb with currentDay := some t.yday, cooldownUntil := none }
      else { cb with currentDay := some t.yday }) = { cb with currentDay := some t.yday, cooldownUntil := none } := by
    rcases hu : cb.cooldownUntil with _ | u
    · simp [← hu]
    · rw [if_pos]
      simpa [hu] using hcool
  rw [hexpire]
  obtain ⟨hkeeps, hday⟩ := @checkLimits_keeps lower c sig t { cb with currentDay := some t.yday, cooldownUntil := none }
    (some r)
  have hgate := @checkLimits_gate lower c sig t r { cb with currentDay := some t.yday, cooldownUntil := none } rfl hlow hcap
  exact ⟨hgate, ⟨hkeeps.1, hkeeps.2, hkeeps.3, hkeeps.4⟩, hday⟩

end BacktestCircuitBreaker

end PearlAlgo
