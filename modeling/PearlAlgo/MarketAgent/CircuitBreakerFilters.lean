import PearlAlgo.MarketAgent.BreakerRuns

/-!
# Signal filters (`market_agent/circuit_breaker_filters.py`)

The filters that `should_allow_signal` asks about a signal. `lower` is `str.lower`. The news calendar answers for the
time of the call; it answers no where it cannot be read.
-/

namespace PearlAlgo

/-- The configuration with the fields that the filters read. -/
structure FilterConfig extends TradingCircuitBreakerConfig where
  directionGatingMinConfidence : ℚ := 7/10
  blockedRegimes : List String := ["ranging", "volatile"]
  regimeAvoidanceMinConfidence : ℚ := 7/10
  emaCrossRequireVolume : Bool := true
  lowRegimeRequireVolume : Bool := true
  tvPaperMaxContractsMini : Int := 5
  tvPaperTradingStartHourEt : Int := 18
  tvPaperTradingEndHourEt : Int := 16
  tvPaperTradingEndMinuteEt : Int := 10
  tvPaperEnableNewsBlackout : Bool := true

/-- A `market_regime` dictionary. A confidence that is not a number reads as an absent one. -/
structure MarketRegime where
  regime : Option String := none
  confidence : Option ℚ := none

/-- The keys of a signal that the breaker reads; a `market_regime` that is not a dictionary reads as absent. -/
structure GatedSignal where
  entryPrice : ℚ := 0
  direction : Option String := none
  marketRegime : Option MarketRegime := none
  entryTrigger : Option String := none
  type : Option String := none
  volumeConfirmed : Bool := false
  positionSize : Int := 1

structure GatedPosition where
  entryPrice : ℚ := 0
  direction : Option String := none
  positionSize : Int := 0
  quantity : Int := 0

/-- The time of a call: the clock, the seconds since midnight in Eastern time, and whether the news calendar is in a
blackout. -/
structure GateTime where
  clock : Clock
  secondsEt : ℚ
  newsBlackout : Bool := false

namespace GatedSignal
variable (lower : String → String) (cfg : FilterConfig) (sig : GatedSignal)

def regimeType : String := lower ((sig.marketRegime.bind MarketRegime.regime).getD "unknown")

def regimeConfidence : ℚ := (sig.marketRegime.bind MarketRegime.confidence).getD 0

def effectiveRegime : String :=
  if sig.regimeConfidence < cfg.directionGatingMinConfidence then "unknown" else sig.regimeType lower

def allowedDirection : String :=
  if sig.effectiveRegime lower cfg = "trending_up" then "long"
  else if sig.effectiveRegime lower cfg = "trending_down" then "short"
  else "long"

def checkDirectionGating : FilterDecision :=
  let direction := lower (sig.direction.getD "")
  if direction ≠ "long" ∧ direction ≠ "short" then { text := "direction_gating_unknown_direction" }
  else if direction = sig.allowedDirection lower cfg then { text := "direction_gating_ok" }
  else { allowed := false, text := "direction_gating" }

def checkRegimeAvoidance : FilterDecision :=
  if sig.regimeConfidence < cfg.regimeAvoidanceMinConfidence then { text := "regime_avoidance_low_confidence" }
  else if sig.regimeType lower ∈ cfg.blockedRegimes.map lower then { allowed := false, text := "regime_avoidance" }
  else { text := "regime_avoidance_ok" }

def checkTriggerFilters : FilterDecision :=
  let entryTrigger := lower (sig.entryTrigger.getD (sig.type.getD ""))
  if cfg.emaCrossRequireVolume ∧ entryTrigger = "ema_cross" ∧ sig.volumeConfirmed = false then
    { allowed := false, text := "trigger_ema_cross_no_volume" }
  else if cfg.lowRegimeRequireVolume ∧ sig.regimeType lower ∈ ["ranging", "volatile"] ∧ sig.volumeConfirmed = false then
    { allowed := false, text := "trigger_low_regime_no_volume" }
  else { text := "trigger_filters_ok" }

/-- `is_within_trading_window`: a window that starts after it ends goes over midnight. -/
def isWithinTradingWindow (secondsEt : ℚ) (startHourEt endHourEt endMinuteEt : Int) : Bool :=
  let start : ℚ := startHourEt * 3600
  let stop : ℚ := endHourEt * 3600 + endMinuteEt * 60
  if stop < start then start ≤ secondsEt ∨ secondsEt < stop else start ≤ secondsEt ∧ secondsEt < stop

/-- `abs(int(p.get("position_size", 0) or p.get("quantity", 0) or 1))` -/
def contracts (p : GatedPosition) : Int :=
  |if p.positionSize ≠ 0 then p.positionSize else if p.quantity ≠ 0 then p.quantity else 1|

def checkTvPaperEvalGate (time : GateTime) (activePositions : Option (List GatedPosition)) : FilterDecision :=
  let positions := activePositions.getD []
  let direction := lower (sig.direction.getD "")
  if isWithinTradingWindow time.secondsEt cfg.tvPaperTradingStartHourEt cfg.tvPaperTradingEndHourEt
      cfg.tvPaperTradingEndMinuteEt = false then
    { allowed := false, text := "tv_paper_outside_trading_hours", severity := .warning }
  else if positions ≠ [] ∧ cfg.tvPaperMaxContractsMini < (positions.map contracts).sum + sig.positionSize then
    { allowed := false, text := "tv_paper_max_contracts_exceeded", severity := .critical }
  else if ∃ p ∈ positions, lower (p.direction.getD "") ≠ "" ∧ direction ≠ "" ∧ lower (p.direction.getD "") ≠ direction then
    { allowed := false, text := "tv_paper_hedging_prohibited", severity := .critical }
  else if cfg.tvPaperEnableNewsBlackout ∧ time.newsBlackout then
    { allowed := false, text := "tv_paper_news_blackout", severity := .warning }
  else { text := "tv_paper_eval_gate_passed" }

/-- The arguments of `should_allow_signal`, with the decisions of the filters. -/
def call (time : GateTime) (activePositions : Option (List GatedPosition)) (marketData : Option AtrData) :
    SignalCall where
  sig := { entryPrice := sig.entryPrice, direction := sig.direction.getD "unknown" }
  filters := {
    directionGating := sig.checkDirectionGating lower cfg
    regimeAvoidance := sig.checkRegimeAvoidance lower cfg
    triggerFilters := sig.checkTriggerFilters lower cfg
    tvPaperEvalGate := sig.checkTvPaperEvalGate lower cfg time activePositions }
  activePositions := activePositions.map fun ps => ps.map fun p => ⟨p.entryPrice, p.direction.getD "unknown"⟩
  marketData

end GatedSignal

/-- `should_allow_signal` -/
def TradingCircuitBreaker.shouldAllow (lower : String → String) (cfg : FilterConfig) (time : GateTime) (sig : GatedSignal)
    (activePositions : Option (List GatedPosition)) (marketData : Option AtrData) : Check :=
  decide cfg.toTradingCircuitBreakerConfig time.clock (sig.call lower cfg time activePositions marketData)

end PearlAlgo
