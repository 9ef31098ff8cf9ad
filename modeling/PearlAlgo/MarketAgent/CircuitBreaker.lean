import PearlAlgo.Py.Dict
import PearlAlgo.Py.Number
import PearlAlgo.Py.Seq

/-!
# Trading circuit breaker (`market_agent/trading_circuit_breaker.py`)

The breaker's state, `record_trade_result`, `sync_broker_pnl` with the session profit lock, the shadow
outcomes, and `should_allow_signal`. The clock is an argument (`Clock`), and so are the decisions of the
filters of `circuit_breaker_filters.py`, which look at the signal and not at the breaker (`Filters`).
Log messages and the `details` of a decision are left out. Money is exact.
-/

namespace PearlAlgo
open Py

/-- `CircuitBreakerDecision.reason` and the cooldown reasons, under the source's texts. -/
inductive BlockReason
  | passed
  | inCooldown
  | consecutiveLosses
  | tieredLossHalt
  | sessionDrawdown
  | dailyDrawdown
  | dailyProfitCap
  | rollingWinRate
  | maxPositions
  | positionClustering
  | lowVolatility
  | extremeVolatility
  | chopDetected
  | equityCurveHalt
  | riskScaleZero
  | sessionProfitLock
  | dailyDrawdownOnStartup
  | filter (text : String)  -- of `circuit_breaker_filters.py`
deriving DecidableEq

inductive Severity
  | info
  | warning
  | critical
deriving DecidableEq

structure CircuitBreakerDecision where
  allowed : Bool
  reason : BlockReason
  severity : Severity := .info
  riskScale : ℚ := 1
deriving DecidableEq

def CircuitBreakerDecision.pass (riskScale : ℚ) : CircuitBreakerDecision :=
  { allowed := true, reason := .passed, riskScale }

def CircuitBreakerDecision.deny (reason : BlockReason) (severity : Severity) : CircuitBreakerDecision :=
  { allowed := false, reason, severity }

@[simp] theorem CircuitBreakerDecision.pass_reason (riskScale : ℚ) : (pass riskScale).reason = .passed := rfl

@[simp] theorem CircuitBreakerDecision.deny_reason (reason : BlockReason) (severity : Severity) :
    (deny reason severity).reason = reason := rfl

inductive CircuitBreakerMode
  | enforce
  | warnOnly  -- `warn_only` and `shadow`
deriving DecidableEq

inductive TierAction
  | reduce
  | halt
  | haltSession
deriving DecidableEq

/-- One entry of `tiered_loss_levels`. -/
structure LossTier where
  losses : Option Int := none
  riskScale : ℚ := 1/2
  action : TierAction := .reduce
  cooldownMinutes : Int := 30

/-- One entry of `tod_risk_windows`. -/
structure RiskWindow where
  startHourEt : Int
  endHourEt : Int
  riskScale : ℚ

/-- The fields of `TradingCircuitBreakerConfig` that the functions below read. -/
structure TradingCircuitBreakerConfig where
  mode : CircuitBreakerMode := .enforce
  maxConsecutiveLosses : Int := 5
  consecutiveLossCooldownMinutes : Int := 30
  maxSessionDrawdown : ℚ := 500
  maxDailyDrawdown : ℚ := 1000
  maxDailyProfit : ℚ := 3000
  drawdownCooldownMinutes : Int := 60
  rollingWindowTrades : Nat := 20
  minRollingWinRate : ℚ := 3/10
  winRateCooldownMinutes : Int := 30
  maxConcurrentPositions : Int := 5
  minPriceDistancePct : ℚ := 1/2
  enableVolatilityFilter : Bool := true
  minAtrRatio : ℚ := 8/10
  maxAtrRatio : ℚ := 5/2
  chopDetectionWindow : Nat := 10
  chopWinRateThreshold : ℚ := 35/100
  autoResumeAfterCooldown : Bool := true
  requireWinningTradeToResume : Bool := false
  enableDirectionGating : Bool := true
  enableRegimeAvoidance : Bool := false
  enableTriggerFilters : Bool := false
  enableEquityCurveFilter : Bool := false
  equityCurveLookback : Nat := 20
  equityCurveHalfSizeBelowMa : Bool := true
  equityCurveHaltAtrMult : ℚ := 3/2
  enableTieredLossResponse : Bool := false
  tieredLossLevels : List LossTier := [{ losses := some 3, riskScale := 1/2 }, { losses := some 5, riskScale := 1/4 },
    { losses := some 7, riskScale := 0, action := .halt }, { losses := some 10, riskScale := 0, action := .haltSession }]
  enableTodRiskScaling : Bool := false
  todRiskWindows : List RiskWindow := []
  enableVolatilityRiskScaling : Bool := false
  volatilityHighAtrRatio : ℚ := 3/2
  volatilityHighRiskScale : ℚ := 1/2
  volatilityExtremeAtrRatio : ℚ := 2
  volatilityExtremeRiskScale : ℚ := 0
  enableSessionProfitLock : Bool := false
  sessionProfitLockActivationUsd : ℚ := 300
  sessionProfitLockRetracementPct : ℚ := 35/100
  sessionProfitLockMinFloorUsd : ℚ := 50
  sessionProfitLockCooldownMinutes : Int := 600
  enableTvPaperEvalGate : Bool := false

/-- What `record_trade_result` keeps of a trade. -/
structure TradeResult where
  isWin : Bool
  pnl : ℚ
deriving DecidableEq

/-- The `_session_profit_*` fields. -/
structure ProfitLock where
  hwm : ℚ := 0
  floor : Option ℚ := none
  locked : Bool := false
  tripTime : Option ℚ := none
  tripHwm : ℚ := 0
  tripPnl : ℚ := 0
deriving DecidableEq

structure ShadowOutcomes where
  wins : Nat := 0
  losses : Nat := 0
  pnl : ℚ := 0
deriving DecidableEq

/-- The state of a `TradingCircuitBreaker`; the defaults are those of `__init__`. No code reads `calls`, the
trades that `record_trade_result` was called with. -/
structure TradingCircuitBreaker where
  consecutiveLosses : Nat := 0
  sessionPnl : ℚ := 0
  dailyPnl : ℚ := 0
  cooldownUntil : Option ℚ := none
  cooldownReason : Option BlockReason := none
  recentTrades : List TradeResult := []
  totalBlocks : Nat := 0
  blocksByReason : Dict BlockReason Nat := .empty
  wouldBlockTotal : Nat := 0
  wouldBlockByReason : Dict BlockReason Nat := .empty
  wouldHaveBlockedRegime : Nat := 0
  wouldHaveBlockedTrigger : Nat := 0
  shadowBlocked : ShadowOutcomes := {}
  shadowAllowed : ShadowOutcomes := {}
  profitLock : ProfitLock := {}
  calls : List TradeResult := []
deriving DecidableEq

/-- The keys that `restore_persisted_state` reads; an absent number reads as zero, except for `hwm`. -/
structure PersistedState where
  cooldownUntil : Option ℚ := none
  cooldownReason : Option BlockReason := none
  dailyPnl : ℚ := 0
  sessionPnl : ℚ := 0
  consecutiveLosses : Nat := 0
  hwm : Option ℚ := none
  floor : Option ℚ := none
  locked : Bool := false
  tripTime : Option ℚ := none
  tripHwm : ℚ := 0
  tripPnl : ℚ := 0

/-- The clock as the breaker reads it: the instant, the hour on it in Eastern time, and the next 18:00
Eastern. -/
structure Clock where
  now : ℚ
  hourEt : Int
  nextReset : ℚ

/-- The keys of the signal that the position limits read. -/
structure SignalEntry where
  entryPrice : ℚ := 0
  direction : String := "unknown"

/-- The market data of a call: absent keys read as zero. -/
structure AtrData where
  atrCurrent : Option ℚ := none
  atrAverage : Option ℚ := none

structure FilterDecision where
  allowed : Bool := true
  text : String := ""
  severity : Severity := .info
  riskScale : ℚ := 1

def FilterDecision.decision (d : FilterDecision) : CircuitBreakerDecision :=
  { allowed := d.allowed, reason := .filter d.text, severity := d.severity, riskScale := d.riskScale }

structure Filters where
  directionGating : FilterDecision := {}
  regimeAvoidance : FilterDecision := {}
  triggerFilters : FilterDecision := {}
  tvPaperEvalGate : FilterDecision := {}

namespace TradingCircuitBreaker
variable (cfg : TradingCircuitBreakerConfig) (clock : Clock)

/-! ### Cooldowns and counters -/

def clearCooldown (cb : TradingCircuitBreaker) : TradingCircuitBreaker :=
  { cb with cooldownUntil := none, cooldownReason := none }

def activateCooldown (reason : BlockReason) (minutes : Int) (cb : TradingCircuitBreaker) : TradingCircuitBreaker :=
  { cb with cooldownUntil := some (clock.now + minutes * 60), cooldownReason := some reason }

/-- `force_cooldown`; any text is a reason. -/
def forceCooldown (reason : BlockReason) (minutes : Int) (cb : TradingCircuitBreaker) : TradingCircuitBreaker :=
  { cb with cooldownUntil := some (clock.now + minutes * 60), cooldownReason := some reason }

/-- `_is_in_cooldown`: an expired cooldown is cleared under auto-resume, and does not count either way. -/
def isInCooldown (cb : TradingCircuitBreaker) : Bool × TradingCircuitBreaker :=
  match cb.cooldownUntil with
  | none => (false, cb)
  | some t =>
    if t ≤ clock.now then (false, if cfg.autoResumeAfterCooldown then cb.clearCooldown else cb)
    else (true, cb)

def recordBlock (reason : BlockReason) (cb : TradingCircuitBreaker) : TradingCircuitBreaker :=
  { cb with
    totalBlocks := cb.totalBlocks + 1
    blocksByReason := cb.blocksByReason.set reason ((cb.blocksByReason.get? reason).getD 0 + 1) }

def recordWouldBlock (reason : BlockReason) (cb : TradingCircuitBreaker) : TradingCircuitBreaker :=
  { cb with
    wouldBlockTotal := cb.wouldBlockTotal + 1
    wouldBlockByReason := cb.wouldBlockByReason.set reason ((cb.wouldBlockByReason.get? reason).getD 0 + 1) }

def ShadowOutcomes.record (t : TradeResult) (o : ShadowOutcomes) : ShadowOutcomes :=
  { wins := o.wins + t.isWin.toNat, losses := o.losses + (!t.isWin).toNat, pnl := o.pnl + t.pnl }

def recordShadowOutcome (t : TradeResult) (wasWouldBlock : Bool) (cb : TradingCircuitBreaker) :
    TradingCircuitBreaker :=
  if wasWouldBlock then { cb with shadowBlocked := ShadowOutcomes.record t cb.shadowBlocked }
  else { cb with shadowAllowed := ShadowOutcomes.record t cb.shadowAllowed }

/-! ### Trade results and broker P&L -/

def maxHistory : Nat := max cfg.rollingWindowTrades cfg.chopDetectionWindow * 2

def recordTradeResult (t : TradeResult) (cb : TradingCircuitBreaker) : TradingCircuitBreaker :=
  let cb :=
    if t.isWin then
      let cb := { cb with consecutiveLosses := 0 }
      if cfg.requireWinningTradeToResume ∧
          (cb.cooldownReason = some .consecutiveLosses ∨ cb.cooldownReason = some .rollingWinRate) then
        cb.clearCooldown
      else cb
    else { cb with consecutiveLosses := cb.consecutiveLosses + 1 }
  { cb with
    sessionPnl := cb.sessionPnl + t.pnl
    dailyPnl := cb.dailyPnl + t.pnl
    calls := cb.calls ++ [t]
    recentTrades := trimTo (maxHistory cfg) (cb.recentTrades ++ [t]) }

/-- `_trip_session_profit_lock`: the flag file that it also writes is the caller's business. -/
def tripSessionProfitLock (pnl : ℚ) (cb : TradingCircuitBreaker) : TradingCircuitBreaker :=
  activateCooldown clock .sessionProfitLock cfg.sessionProfitLockCooldownMinutes
    { cb with profitLock := { cb.profitLock with
        locked := true, tripTime := some clock.now, tripHwm := cb.profitLock.hwm, tripPnl := pnl } }

/-- `_update_session_profit_lock`; the flag says whether a kill request is written. -/
def updateSessionProfitLock (pnl : ℚ) (cb : TradingCircuitBreaker) : Bool × TradingCircuitBreaker :=
  if cb.profitLock.locked then (false, cb)
  else
    let hwm := max cb.profitLock.hwm pnl
    let proposed := max (hwm * (1 - cfg.sessionProfitLockRetracementPct)) cfg.sessionProfitLockMinFloorUsd
    let floor :=
      if cfg.sessionProfitLockActivationUsd ≤ hwm then some (cb.profitLock.floor.elim proposed (max proposed))
      else cb.profitLock.floor
    let cb := { cb with profitLock := { cb.profitLock with hwm, floor } }
    match floor with
    | some f => if pnl ≤ f then (true, tripSessionProfitLock cfg clock pnl cb) else (false, cb)
    | none => (false, cb)

def syncBrokerPnl (realizedPnl : ℚ) (cb : TradingCircuitBreaker) : Bool × TradingCircuitBreaker :=
  let cb := { cb with dailyPnl := realizedPnl, sessionPnl := realizedPnl }
  if cfg.enableSessionProfitLock then updateSessionProfitLock cfg clock realizedPnl cb else (false, cb)

def resetSession (cb : TradingCircuitBreaker) : TradingCircuitBreaker :=
  { cb with sessionPnl := 0, consecutiveLosses := 0, profitLock := {} }

def resetDaily (cb : TradingCircuitBreaker) : TradingCircuitBreaker := resetSession { cb with dailyPnl := 0 }

/-! ### Start -/

/-- Whole minutes from `now` to `t`, at least an hour. -/
def minutesUntil (now t : ℚ) : Int := (max 60 ((t - now) / 60)).floor

/-- `hydrate_daily_pnl`, with the paired fills' realized P&L of the trading day, or `none` where it cannot
be had. -/
def hydrateDailyPnl (realizedPnl : Option ℚ) (cb : TradingCircuitBreaker) : TradingCircuitBreaker :=
  match realizedPnl with
  | none => cb
  | some pnl =>
    let cb := { cb with dailyPnl := pnl }
    if pnl ≤ -cfg.maxDailyDrawdown then
      cb.activateCooldown clock .dailyDrawdownOnStartup (minutesUntil clock.now clock.nextReset)
    else cb

def getPersistedState (cb : TradingCircuitBreaker) : PersistedState where
  cooldownUntil := cb.cooldownUntil
  cooldownReason := cb.cooldownReason
  dailyPnl := cb.dailyPnl
  sessionPnl := cb.sessionPnl
  consecutiveLosses := cb.consecutiveLosses
  hwm := some cb.profitLock.hwm
  floor := cb.profitLock.floor
  locked := cb.profitLock.locked
  tripTime := cb.profitLock.tripTime
  tripHwm := cb.profitLock.tripHwm
  tripPnl := cb.profitLock.tripPnl

def restorePersistedState (data : Option PersistedState) (cb : TradingCircuitBreaker) : TradingCircuitBreaker :=
  match data with
  | none => cb
  | some data =>
    let live := data.cooldownUntil.any (clock.now < ·)
    { cb with
      cooldownUntil := if live then data.cooldownUntil else cb.cooldownUntil
      cooldownReason := if live then data.cooldownReason else cb.cooldownReason
      dailyPnl := if cb.dailyPnl = 0 then data.dailyPnl else cb.dailyPnl
      sessionPnl := if data.sessionPnl = 0 then cb.sessionPnl else data.sessionPnl
      consecutiveLosses := max cb.consecutiveLosses data.consecutiveLosses
      profitLock := {
        hwm := data.hwm.getD cb.profitLock.hwm
        floor := data.floor.or cb.profitLock.floor
        locked := data.locked
        tripTime := data.tripTime.or cb.profitLock.tripTime
        tripHwm := data.tripHwm
        tripPnl := data.tripPnl } }

/-! ### Checks -/

/-- A check: the decision, and the breaker after it. -/
abbrev Check : Type := TradingCircuitBreaker → CircuitBreakerDecision × TradingCircuitBreaker

def Check.const (d : CircuitBreakerDecision) : Check := fun cb => (d, cb)

def denyFor (reason : BlockReason) (severity : Severity) (minutes : Int) : Check := fun cb =>
  (.deny reason severity, cb.activateCooldown clock reason minutes)

def checkConsecutiveLosses : Check := fun cb =>
  if cfg.maxConsecutiveLosses ≤ cb.consecutiveLosses then
    denyFor clock .consecutiveLosses .critical cfg.consecutiveLossCooldownMinutes cb
  else (.pass 1, cb)

def sortedTiers : List LossTier :=
  cfg.tieredLossLevels.mergeSort fun t t' => t'.losses.getD 0 ≤ t.losses.getD 0

def checkTieredLosses : Check := fun cb =>
  if cb.consecutiveLosses = 0 then (.pass 1, cb)
  else
    match (sortedTiers cfg).find? fun tier => tier.losses.getD 999 ≤ (cb.consecutiveLosses : Int) with
    | none => (.pass 1, cb)
    | some tier =>
      match tier.action with
      | .reduce => (.pass tier.riskScale, cb)
      | .halt => ({ CircuitBreakerDecision.deny .tieredLossHalt .critical with riskScale := 0 },
          cb.activateCooldown clock .tieredLossHalt tier.cooldownMinutes)
      | .haltSession => ({ CircuitBreakerDecision.deny .tieredLossHalt .critical with riskScale := 0 },
          cb.activateCooldown clock .tieredLossHalt (max tier.cooldownMinutes 240))

def checkSessionDrawdown : Check := fun cb =>
  if cb.sessionPnl ≤ -cfg.maxSessionDrawdown then
    denyFor clock .sessionDrawdown .critical cfg.drawdownCooldownMinutes cb
  else (.pass 1, cb)

/-- 5 AM UTC of the next UTC day. -/
def tomorrowFiveUtc (now : ℚ) : ℚ := ((now + 86400) / 86400).floor * 86400 + 5 * 3600

def checkDailyDrawdown : Check := fun cb =>
  if cb.dailyPnl ≤ -cfg.maxDailyDrawdown then
    denyFor clock .dailyDrawdown .critical (minutesUntil clock.now (tomorrowFiveUtc clock.now)) cb
  else (.pass 1, cb)

def checkDailyProfitCap : Check := fun cb =>
  if cfg.maxDailyProfit ≤ 0 then (.pass 1, cb)
  else if cfg.maxDailyProfit ≤ cb.dailyPnl then
    denyFor clock .dailyProfitCap .info (minutesUntil clock.now clock.nextReset) cb
  else (.pass 1, cb)

def winRate (trades : List TradeResult) : ℚ := (trades.countP TradeResult.isWin : ℚ) / trades.length

def rollingWinRate (cb : TradingCircuitBreaker) : ℚ :=
  let recent := lastN cfg.rollingWindowTrades cb.recentTrades
  if recent = [] then 1/2 else winRate recent

def checkRollingWinRate : Check := fun cb =>
  if cb.recentTrades.length < cfg.rollingWindowTrades / 2 then (.pass 1, cb)
  else if rollingWinRate cfg cb < cfg.minRollingWinRate then
    denyFor clock .rollingWinRate .warning cfg.winRateCooldownMinutes cb
  else (.pass 1, cb)

def checkPositionLimits (sig : SignalEntry) (activePositions : List SignalEntry) : CircuitBreakerDecision :=
  if cfg.maxConcurrentPositions ≤ activePositions.length then .deny .maxPositions .info
  else if 0 < sig.entryPrice ∧ ∃ p ∈ activePositions, 0 < p.entryPrice ∧
      |sig.entryPrice - p.entryPrice| / p.entryPrice * 100 < cfg.minPriceDistancePct ∧
      sig.direction = p.direction then .deny .positionClustering .info
  else .pass 1

def checkVolatilityFilter (m : AtrData) : Check := fun cb =>
  let current := m.atrCurrent.getD 0
  let average := m.atrAverage.getD 0
  if 0 < average ∧ 0 < current ∧ current / average < cfg.minAtrRatio then (.deny .lowVolatility .info, cb)
  else if 0 < average ∧ 0 < current ∧ cfg.maxAtrRatio < current / average then
    (.deny .extremeVolatility .warning, cb)
  else if cfg.chopDetectionWindow ≤ cb.recentTrades.length ∧
      winRate (lastN cfg.chopDetectionWindow cb.recentTrades) < cfg.chopWinRateThreshold then
    (.deny .chopDetected .warning, cb)
  else (.pass 1, cb)

def equityCurve (trades : List TradeResult) : List ℚ := ((trades.map TradeResult.pnl).scanl (· + ·) 0).tail

/-- The exponential moving average of a curve that starts at `e`. -/
def ema (multiplier : ℚ) (e : ℚ) (rest : List ℚ) : ℚ := rest.foldl (fun ema v => (v - ema) * multiplier + ema) e

/-- The average change along a curve, at least 1. -/
def equityAtr (curve : List ℚ) : ℚ :=
  let changes := (curve.zip curve.tail).map fun p => |p.2 - p.1|
  max (if changes = [] then 1 else changes.sum / changes.length) 1

def checkEquityCurve : Check := fun cb =>
  if cb.recentTrades.length < cfg.equityCurveLookback then (.pass 1, cb)
  else
    match equityCurve (lastN (cfg.equityCurveLookback * 2) cb.recentTrades) with
    | [] => (.pass 1, cb)
    | e :: rest =>
      let diff := (e :: rest).getLast (List.cons_ne_nil e rest) - ema (2 / (cfg.equityCurveLookback + 1)) e rest
      if diff < -(equityAtr (e :: rest) * cfg.equityCurveHaltAtrMult) then
        ({ CircuitBreakerDecision.deny .equityCurveHalt .critical with riskScale := 0 },
          cb.activateCooldown clock .equityCurveHalt 15)
      else if diff < 0 ∧ cfg.equityCurveHalfSizeBelowMa then (.pass (1/2), cb)
      else (.pass 1, cb)

/-- A window with `start > end` crosses midnight. -/
def RiskWindow.contains (hour : Int) (w : RiskWindow) : Bool :=
  if w.startHourEt ≤ w.endHourEt then w.startHourEt ≤ hour ∧ hour < w.endHourEt
  else w.startHourEt ≤ hour ∨ hour < w.endHourEt

def checkTodRiskScaling : CircuitBreakerDecision :=
  .pass (((cfg.todRiskWindows.find? (RiskWindow.contains clock.hourEt)).map RiskWindow.riskScale).getD 1)

def checkVolatilityRiskScaling (m : AtrData) : CircuitBreakerDecision :=
  let average := m.atrAverage.getD 0
  if average ≤ 0 then .pass 1
  else
    let ratio := m.atrCurrent.getD 0 / average
    if cfg.volatilityExtremeAtrRatio ≤ ratio then
      if cfg.volatilityExtremeRiskScale ≤ 0 then
        { CircuitBreakerDecision.deny .extremeVolatility .warning with riskScale := 0 }
      else .pass cfg.volatilityExtremeRiskScale
    else if cfg.volatilityHighAtrRatio ≤ ratio then .pass cfg.volatilityHighRiskScale
    else .pass 1

/-! ### `should_allow_signal` -/

/-- A hard-block check of `should_allow_signal`, with what follows it. -/
def require (check : Check) (next : Check) : Check := fun cb =>
  let (d, cb) := check cb
  if d.allowed then next cb else (d, cb.recordBlock d.reason)

/-- A check that may also lower the risk scale. -/
def scaling (check : Check) (scale : ℚ) (next : ℚ → Check) : Check := fun cb =>
  let (d, cb) := check cb
  if d.allowed then next (min scale d.riskScale) cb else (d, cb.recordBlock d.reason)

def checkIf (c : Bool) (check : Check) : Check := if c then check else .const (.pass 1)

/-- A filter that blocks when it is enabled, and is only counted when it is not. -/
def countedFilter (enabled : Bool) (d : CircuitBreakerDecision) (count : TradingCircuitBreaker → TradingCircuitBreaker) :
    Check := fun cb =>
  if enabled then (d, cb) else (.pass 1, if d.allowed then cb else count cb)

/-- The end of `should_allow_signal`: a risk scale that is zero blocks. -/
def allowAt (scale : ℚ) : Check := fun cb =>
  if scale ≤ 0 then
    ({ CircuitBreakerDecision.deny .riskScaleZero .warning with riskScale := 0 }, cb.recordBlock .riskScaleZero)
  else (.pass scale, cb)

/-- `should_allow_signal` after the cooldown check. -/
def checkSignal (sig : SignalEntry) (filters : Filters) (activePositions : Option (List SignalEntry))
    (m : Option AtrData) : Check :=
  scaling (if cfg.enableTieredLossResponse then checkTieredLosses cfg clock else checkConsecutiveLosses cfg clock) 1
    fun scale =>
  require (checkSessionDrawdown cfg clock) <|
  require (checkDailyDrawdown cfg clock) <|
  require (checkDailyProfitCap cfg clock) <|
  require (checkRollingWinRate cfg clock) <|
  require (.const (activePositions.elim (.pass 1) (checkPositionLimits cfg sig))) <|
  require (checkIf cfg.enableDirectionGating (.const filters.directionGating.decision)) <|
  require (countedFilter cfg.enableRegimeAvoidance filters.regimeAvoidance.decision
    fun cb => { cb with wouldHaveBlockedRegime := cb.wouldHaveBlockedRegime + 1 }) <|
  require (countedFilter cfg.enableTriggerFilters filters.triggerFilters.decision
    fun cb => { cb with wouldHaveBlockedTrigger := cb.wouldHaveBlockedTrigger + 1 }) <|
  require (checkIf cfg.enableVolatilityFilter (m.elim (.const (.pass 1)) (checkVolatilityFilter cfg))) <|
  scaling (checkIf cfg.enableEquityCurveFilter (checkEquityCurve cfg clock)) scale fun scale =>
  scaling (checkIf cfg.enableTodRiskScaling (.const (checkTodRiskScaling cfg clock))) scale fun scale =>
  scaling (checkIf cfg.enableVolatilityRiskScaling (.const (m.elim (.pass 1) (checkVolatilityRiskScaling cfg)))) scale
    fun scale =>
  require (checkIf cfg.enableTvPaperEvalGate (.const filters.tvPaperEvalGate.decision)) <|
  allowAt scale

def shouldAllowSignal (sig : SignalEntry) (filters : Filters) (activePositions : Option (List SignalEntry))
    (m : Option AtrData) : Check := fun cb =>
  match cb.isInCooldown cfg clock with
  | (true, cb) => ({ CircuitBreakerDecision.deny .inCooldown .warning with riskScale := 0 }, cb)
  | (false, cb) => checkSignal cfg clock sig filters activePositions m cb

/-! ### The loss history

Only `record_trade_result` writes the loss streak and the recent trades. -/

/-- `cb'` has the loss history of `cb`. -/
structure Keeps (cb cb' : TradingCircuitBreaker) : Prop where
  consecutiveLosses : cb'.consecutiveLosses = cb.consecutiveLosses
  recentTrades : cb'.recentTrades = cb.recentTrades
  calls : cb'.calls = cb.calls

variable {cfg clock} {cb cb' : TradingCircuitBreaker} {check next : Check}

theorem Keeps.refl (cb : TradingCircuitBreaker) : cb.Keeps cb := ⟨rfl, rfl, rfl⟩

theorem Keeps.trans {cb'' : TradingCircuitBreaker} (h : cb.Keeps cb') (h' : cb'.Keeps cb'') : cb.Keeps cb'' :=
  ⟨h'.consecutiveLosses.trans h.consecutiveLosses, h'.recentTrades.trans h.recentTrades, h'.calls.trans h.calls⟩

theorem recordShadowOutcome_keeps {t : TradeResult} {b : Bool} : cb.Keeps (cb.recordShadowOutcome t b) := by
  unfold recordShadowOutcome
  split <;> exact ⟨rfl, rfl, rfl⟩

theorem recordWouldBlock_keeps {r : BlockReason} : cb.Keeps (cb.recordWouldBlock r) := ⟨rfl, rfl, rfl⟩

theorem updateSessionProfitLock_keeps {pnl : ℚ} : cb.Keeps (cb.updateSessionProfitLock cfg clock pnl).2 := by
  unfold updateSessionProfitLock
  split
  · exact .refl cb
  · dsimp only
    split
    · split <;> exact ⟨rfl, rfl, rfl⟩
    · exact ⟨rfl, rfl, rfl⟩

theorem syncBrokerPnl_keeps {pnl : ℚ} : cb.Keeps (cb.syncBrokerPnl cfg clock pnl).2 := by
  have h : cb.Keeps { cb with dailyPnl := pnl, sessionPnl := pnl } := ⟨rfl, rfl, rfl⟩
  unfold syncBrokerPnl
  dsimp only
  split
  · exact h.trans updateSessionProfitLock_keeps
  · exact h

/-! ### What a signal looks at and what it changes

Decisions from a time on depend on the fields of `SameCore`. A signal changes the cooldown and the counters of
blocks, and keeps the evidence. -/

/-- No cooldown lasts beyond `t`. -/
def Expired (t : ℚ) (cb : TradingCircuitBreaker) : Prop := ∀ u, cb.cooldownUntil = some u → u ≤ t

/-- The breakers differ in counters, and in cooldowns that are over by `t`. -/
structure SameCore (t : ℚ) (a b : TradingCircuitBreaker) : Prop where
  consecutiveLosses : a.consecutiveLosses = b.consecutiveLosses
  sessionPnl : a.sessionPnl = b.sessionPnl
  dailyPnl : a.dailyPnl = b.dailyPnl
  recentTrades : a.recentTrades = b.recentTrades
  profitLock : a.profitLock = b.profitLock
  cooldown : (a.cooldownUntil = b.cooldownUntil ∧ a.cooldownReason = b.cooldownReason) ∨ Expired t a ∧ Expired t b

structure KeepsEvidence (cb cb' : TradingCircuitBreaker) : Prop where
  consecutiveLosses : cb'.consecutiveLosses = cb.consecutiveLosses
  sessionPnl : cb'.sessionPnl = cb.sessionPnl
  dailyPnl : cb'.dailyPnl = cb.dailyPnl
  recentTrades : cb'.recentTrades = cb.recentTrades
  profitLock : cb'.profitLock = cb.profitLock
  calls : cb'.calls = cb.calls

/-- What a check does with a breaker depends on its core. -/
structure Check.Local (check : Check) : Prop where
  same : ∀ t a b, SameCore t a b → (check a).1 = (check b).1 ∧ SameCore t (check a).2 (check b).2
  keeps : ∀ cb : TradingCircuitBreaker, cb.KeepsEvidence (check cb).2

theorem KeepsEvidence.refl (cb : TradingCircuitBreaker) : cb.KeepsEvidence cb := ⟨rfl, rfl, rfl, rfl, rfl, rfl⟩

theorem KeepsEvidence.trans {cb'' : TradingCircuitBreaker} (h : cb.KeepsEvidence cb') (h' : cb'.KeepsEvidence cb'') :
    cb.KeepsEvidence cb'' :=
  ⟨h'.consecutiveLosses.trans h.consecutiveLosses, h'.sessionPnl.trans h.sessionPnl, h'.dailyPnl.trans h.dailyPnl,
    h'.recentTrades.trans h.recentTrades, h'.profitLock.trans h.profitLock, h'.calls.trans h.calls⟩

theorem SameCore.activate {t : ℚ} {a b : TradingCircuitBreaker} (h : SameCore t a b) (r : BlockReason) (m : Int) :
    SameCore t (a.activateCooldown clock r m) (b.activateCooldown clock r m) :=
  { h with cooldown := .inl ⟨rfl, rfl⟩ }

theorem SameCore.recordBlock {t : ℚ} {a b : TradingCircuitBreaker} (h : SameCore t a b) (r r' : BlockReason) :
    SameCore t (a.recordBlock r) (b.recordBlock r') := ⟨h.1, h.2, h.3, h.4, h.5, h.6⟩

namespace Check

theorem local_const (d : CircuitBreakerDecision) : Local (.const d) := ⟨fun _ _ _ h => ⟨rfl, h⟩, .refl⟩

theorem local_denyFor {r : BlockReason} {sev : Severity} {m : Int} : Local (denyFor clock r sev m) :=
  ⟨fun _ _ _ h => ⟨rfl, h.activate r m⟩, fun _ => ⟨rfl, rfl, rfl, rfl, rfl, rfl⟩⟩

theorem Local.ite {p : TradingCircuitBreaker → Prop} [DecidablePred p] {other : Check}
    (hp : ∀ t a b, SameCore t a b → (p a ↔ p b)) (h : Local check) (h' : Local other) :
    Local fun cb => if p cb then check cb else other cb := by
  constructor
  · intro t a b hab
    by_cases ha : p a
    · simpa only [ha, (hp t a b hab).1 ha, ↓reduceIte] using h.same t a b hab
    · simpa only [ha, mt (hp t a b hab).2 ha, ↓reduceIte] using h'.same t a b hab
  · intro cb
    split
    · exact h.keeps cb
    · exact h'.keeps cb

theorem Local.require (h : Local check) (hn : Local next) : Local (require check next) := by
  constructor
  · intro t a b hab
    obtain ⟨hd, hcore⟩ := h.same t a b hab
    unfold TradingCircuitBreaker.require
    dsimp only
    rw [hd]
    split
    · exact hn.same _ _ _ hcore
    · exact ⟨rfl, hcore.recordBlock _ _⟩
  · intro cb
    unfold TradingCircuitBreaker.require
    dsimp only
    split
    · exact (h.keeps cb).trans (hn.keeps _)
    · exact (h.keeps cb).trans ⟨rfl, rfl, rfl, rfl, rfl, rfl⟩

theorem Local.scaling {scale : ℚ} {next : ℚ → Check} (h : Local check) (hn : ∀ q, Local (next q)) :
    Local (scaling check scale next) := by
  constructor
  · intro t a b hab
    obtain ⟨hd, hcore⟩ := h.same t a b hab
    unfold TradingCircuitBreaker.scaling
    dsimp only
    rw [hd]
    split
    · exact (hn _).same _ _ _ hcore
    · exact ⟨rfl, hcore.recordBlock _ _⟩
  · intro cb
    unfold TradingCircuitBreaker.scaling
    dsimp only
    split
    · exact (h.keeps cb).trans ((hn _).keeps _)
    · exact (h.keeps cb).trans ⟨rfl, rfl, rfl, rfl, rfl, rfl⟩

theorem Local.checkIf {c : Bool} (h : Local check) : Local (checkIf c check) := by
  unfold TradingCircuitBreaker.checkIf
  split
  · exact h
  · exact local_const _

theorem Local.countedFilter {enabled : Bool} {d : CircuitBreakerDecision}
    {count : TradingCircuitBreaker → TradingCircuitBreaker} (hsame : ∀ t a b, SameCore t a b → SameCore t (count a) (count b))
    (hkeeps : ∀ cb : TradingCircuitBreaker, cb.KeepsEvidence (count cb)) : Local (countedFilter enabled d count) := by
  unfold TradingCircuitBreaker.countedFilter
  constructor
  · intro t a b hab
    split
    · exact ⟨rfl, hab⟩
    · split
      · exact ⟨rfl, hab⟩
      · exact ⟨rfl, hsame t a b hab⟩
  · intro cb
    split
    · exact .refl cb
    · split
      · exact .refl cb
      · exact hkeeps cb

theorem local_consecutiveLosses : Local (checkConsecutiveLosses cfg clock) :=
  Local.ite (fun _ a b h => by rw [h.consecutiveLosses]) local_denyFor (local_const _)

theorem local_tieredLosses : Local (checkTieredLosses cfg clock) := by
  constructor
  · intro t a b h
    unfold checkTieredLosses
    rw [h.consecutiveLosses]
    split
    · exact ⟨rfl, h⟩
    · split
      · exact ⟨rfl, h⟩
      · split
        · exact ⟨rfl, h⟩
        · exact ⟨rfl, h.activate _ _⟩
        · exact ⟨rfl, h.activate _ _⟩
  · intro cb
    unfold checkTieredLosses
    split
    · exact .refl cb
    · split
      · exact .refl cb
      · split <;> exact ⟨rfl, rfl, rfl, rfl, rfl, rfl⟩

theorem local_sessionDrawdown : Local (checkSessionDrawdown cfg clock) :=
  Local.ite (fun _ a b h => by rw [h.sessionPnl]) local_denyFor (local_const _)

theorem local_dailyDrawdown : Local (checkDailyDrawdown cfg clock) :=
  Local.ite (fun _ a b h => by rw [h.dailyPnl]) local_denyFor (local_const _)

theorem local_dailyProfitCap : Local (checkDailyProfitCap cfg clock) :=
  Local.ite (fun _ _ _ _ => Iff.rfl) (local_const _)
    (Local.ite (fun _ a b h => by rw [h.dailyPnl]) local_denyFor (local_const _))

theorem local_rollingWinRate : Local (checkRollingWinRate cfg clock) :=
  Local.ite (fun _ a b h => by rw [h.recentTrades]) (local_const _)
    (Local.ite (fun _ a b h => by simp only [rollingWinRate, h.recentTrades]) local_denyFor (local_const _))

theorem local_volatilityFilter {m : AtrData} : Local (checkVolatilityFilter cfg m) :=
  Local.ite (fun _ _ _ _ => Iff.rfl) (local_const _) <|
    Local.ite (fun _ _ _ _ => Iff.rfl) (local_const _) <|
      Local.ite (fun _ a b h => by rw [h.recentTrades]) (local_const _) (local_const _)

theorem local_equityCurve : Local (checkEquityCurve cfg clock) := by
  constructor
  · intro t a b h
    unfold checkEquityCurve
    rw [h.recentTrades]
    split
    · exact ⟨rfl, h⟩
    · split
      · exact ⟨rfl, h⟩
      · dsimp only
        split
        · exact ⟨rfl, h.activate _ _⟩
        · split <;> exact ⟨rfl, h⟩
  · intro cb
    unfold checkEquityCurve
    split
    · exact .refl cb
    · split
      · exact .refl cb
      · dsimp only
        split
        · exact ⟨rfl, rfl, rfl, rfl, rfl, rfl⟩
        · split <;> exact .refl cb

theorem local_allowAt {scale : ℚ} : Local (allowAt scale) := by
  unfold allowAt
  constructor
  · intro t a b h
    dsimp only
    split
    · exact ⟨rfl, h.recordBlock _ _⟩
    · exact ⟨rfl, h⟩
  · intro cb
    dsimp only
    split
    · exact ⟨rfl, rfl, rfl, rfl, rfl, rfl⟩
    · exact .refl cb

end Check

section signal
variable {sig : SignalEntry} {filters : Filters} {activePositions : Option (List SignalEntry)} {m : Option AtrData}

theorem checkSignal_local : Check.Local (checkSignal cfg clock sig filters activePositions m) := by
  refine Check.Local.scaling ?_ fun scale => ?_
  · split
    · exact Check.local_tieredLosses
    · exact Check.local_consecutiveLosses
  refine Check.local_sessionDrawdown.require (Check.local_dailyDrawdown.require ?_)
  refine Check.local_dailyProfitCap.require (Check.local_rollingWinRate.require ?_)
  refine (Check.local_const _).require ((Check.local_const _).checkIf.require ?_)
  refine Check.Local.require (Check.Local.countedFilter (fun _ _ _ h => ⟨h.1, h.2, h.3, h.4, h.5, h.6⟩)
    fun cb => ⟨rfl, rfl, rfl, rfl, rfl, rfl⟩) ?_
  refine Check.Local.require (Check.Local.countedFilter (fun _ _ _ h => ⟨h.1, h.2, h.3, h.4, h.5, h.6⟩)
    fun cb => ⟨rfl, rfl, rfl, rfl, rfl, rfl⟩) ?_
  have hvolatility : Check.Local (m.elim (.const (.pass 1)) (checkVolatilityFilter cfg)) := by
    cases m with
    | none => exact Check.local_const _
    | some m => exact Check.local_volatilityFilter
  refine hvolatility.checkIf.require ?_
  refine Check.local_equityCurve.checkIf.scaling fun _ => ?_
  refine (Check.local_const _).checkIf.scaling fun _ => ?_
  refine (Check.local_const _).checkIf.scaling fun _ => ?_
  exact (Check.local_const _).checkIf.require Check.local_allowAt

theorem isInCooldown_keepsEvidence : cb.KeepsEvidence (cb.isInCooldown cfg clock).2 := by
  unfold isInCooldown
  split
  · exact .refl cb
  · split
    · split
      · exact ⟨rfl, rfl, rfl, rfl, rfl, rfl⟩
      · exact .refl cb
    · exact .refl cb

theorem shouldAllowSignal_keepsEvidence (cb : TradingCircuitBreaker) :
    cb.KeepsEvidence (shouldAllowSignal cfg clock sig filters activePositions m cb).2 := by
  have h := @isInCooldown_keepsEvidence cfg clock cb
  unfold shouldAllowSignal
  split
  next hc => rw [hc] at h; exact h
  next hc => rw [hc] at h; exact h.trans (checkSignal_local.keeps _)

theorem shouldAllowSignal_keeps (cb : TradingCircuitBreaker) :
    cb.Keeps (shouldAllowSignal cfg clock sig filters activePositions m cb).2 := by
  have h := @shouldAllowSignal_keepsEvidence cfg clock sig filters activePositions m cb
  exact ⟨h.consecutiveLosses, h.recentTrades, h.calls⟩

end signal

end TradingCircuitBreaker

end PearlAlgo
