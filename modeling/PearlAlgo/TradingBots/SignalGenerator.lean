import PearlAlgo.TradingBots.SmcSignals

/-!
# Signal generation (`trading_bots/signal_generator.py`)

`generate_signals` collects the candidates of the core and of three more generators, scales their confidences by the
market regime, and filters them. The long and the short branch of the core are mirror images, and one definition with
the side as an argument.
-/

namespace PearlAlgo.SignalGenerator
open Py

/-- What `update_opening_range` returns. -/
structure OpeningRange where
  orDefined : Bool := false
  barCount : Nat := 0
  sessionOpenPrice : Option ℚ := none
  orHigh : Option ℚ := none
  orLow : Option ℚ := none

/-- What a call takes from elsewhere: the opening range of the session, the extended indicators, the composite regime
score of the 5 minute bars, and the tables of the library. -/
structure Environment where
  orState : OpeningRange := {}
  extended : Extended := {}
  regimeScore : ℚ := 5
  smc : SmcTables := {}

/-! ### Triggers -/

structure DirectionalTriggers where
  emaCross : Bool
  vwapCross : Bool
  vwapRetest : Bool
  trendBreakout : Bool
  meanReversion : Bool
  emaPullback : Bool
  vwapReclaim : Bool
  trendMomentum : Bool

def Ohlcv.against (bar : Ohlcv) : PositionSide → ℚ
  | .long => bar.low
  | .short => bar.high

def Ohlcv.favorable (bar : Ohlcv) : PositionSide → ℚ
  | .long => bar.high
  | .short => bar.low

section Triggers
variable (config : Config) (df : Frame) (ind : IndicatorResult) (side : PositionSide)

/-- `ema_bull_trend`, `ema_bear_trend` -/
def emaTrend : Bool := side.lt ind.emaSlow ind.emaFast

/-- `price_above_vwap`, `price_below_vwap` -/
def priceBeyondVwap : Bool := ind.vwapVal.any fun vwap => side.lt vwap ind.close

def vwapRetest : Bool :=
  config.allowVwapRetestEntries && emaTrend ind side &&
    ind.vwapVal.any fun vwap => side.le (df.last.against side) vwap ∧ side.lt vwap ind.close

/-- A close beyond the extreme of the bars before the last one. -/
def trendBreakout : Bool :=
  let lookback := (max 1 (if config.trendBreakoutLookbackBars = 0 then 5 else config.trendBreakoutLookbackBars)).toNat
  config.allowTrendBreakoutEntries && lookback + 1 ≤ df.bars.length && emaTrend ind side && priceBeyondVwap ind side &&
    (lastN lookback df.bars.dropLast).all fun bar => side.lt (bar.favorable side) ind.close

def trendMomentum : Bool :=
  let mult := max 0 (if config.trendMomentumAtrMult = 0 then 5/10 else config.trendMomentumAtrMult)
  config.allowTrendMomentumEntries && emaTrend ind side && priceBeyondVwap ind side &&
    ind.atr * mult ≤ side.move ind.prevClose ind.close

/-- The index is on the far side and the price is stretched from the VWAP. -/
def meanReversion : Bool :=
  config.allowMeanReversionEntries && 14 ≤ df.bars.length && ind.vwapVal.any fun vwap => (rsi df).any fun (index : ℚ) =>
    let vwapDistPct := if vwap ≠ 0 then (ind.close - vwap) / vwap else 0
    match side with
    | .long => index < 35 ∧ vwapDistPct < -1/1000
    | .short => 65 < index ∧ 1/1000 < vwapDistPct

/-- The pullback takes the periods from the configuration itself. -/
def emaPullback : Bool :=
  let slow := ewmAdjusted (config.emaSlow.getD 21) df.closes
  let fast := ewmAdjusted (config.emaFast.getD 9) df.closes
  let touch := match side with
    | .long => slow * (1001/1000)
    | .short => slow * (999/1000)
  config.allowEmaPullbackEntries && 3 ≤ df.bars.length &&
    (side.lt slow fast ∧ side.le (df.last.against side) touch ∧ side.lt slow ind.close)

def vwapReclaim : Bool :=
  config.allowVwapReclaimEntries && 2 ≤ df.bars.length && ind.volumeConfirmed &&
    ind.vwapVal.any fun vwap => side.lt df.previous.close vwap ∧ side.lt vwap ind.close

def directionalTriggers : DirectionalTriggers where
  emaCross := match side with
    | .long => ind.emaCrossUp
    | .short => ind.emaCrossDown
  vwapCross := config.allowVwapCrossEntries && detectVwapCross side df
  vwapRetest := vwapRetest config df ind side
  trendBreakout := trendBreakout config df ind side
  meanReversion := meanReversion config df ind side
  emaPullback := emaPullback config df ind side
  vwapReclaim := vwapReclaim config df ind side
  trendMomentum := trendMomentum config ind side

/-- `long_trigger`, `short_trigger`. A VWAP cross triggers only with the trend. -/
def triggered (t : DirectionalTriggers) : Bool :=
  t.emaCross || (t.vwapCross && emaTrend ind side) || t.vwapRetest || t.trendMomentum || t.trendBreakout ||
    t.meanReversion || t.emaPullback || t.vwapReclaim

/-- Mean reversion and reclaim entries need not be on the trend side of the VWAP. -/
def entryAllowed (t : DirectionalTriggers) : Bool :=
  triggered ind side t && (priceBeyondVwap ind side || t.meanReversion || t.vwapReclaim)

end Triggers

/-! ### Scoring -/

/-- The active entry trigger and its base confidence. -/
def initializeDirectionalScore (t : DirectionalTriggers) (params : StrategyParams) : Option (EntryTrigger × ℚ) :=
  if t.emaCross then some (.emaCross, params.baseConfidence)
  else if t.vwapCross then some (.vwapCross, params.baseConfidence)
  else if t.vwapRetest then some (.vwapRetest, params.baseConfidence)
  else if t.trendBreakout then some (.trendBreakout, params.baseConfidence)
  else if t.meanReversion then some (.meanReversion, params.meanReversionBaseConfidence)
  else if t.emaPullback then some (.emaPullback, params.baseConfidence)
  else if t.vwapReclaim then some (.vwapReclaim, params.vwapReclaimBaseConfidence)
  else if t.trendMomentum then some (.trendMomentum, params.baseConfidence)
  else none

section Scoring
variable (params : StrategyParams) (ind : IndicatorResult) (side : PositionSide)

/-- The levels that a side bounces off, and those that it runs into. -/
def supportLevel (period : String) (ind : IndicatorResult) : PositionSide → Option ℚ
  | .long => (ind.keyLevels.get? ("prev_" ++ period ++ "_low")).join
  | .short => (ind.keyLevels.get? ("prev_" ++ period ++ "_high")).join

def obstacleLevel (period : String) (ind : IndicatorResult) : PositionSide → Option ℚ
  | .long => (ind.keyLevels.get? ("prev_" ++ period ++ "_high")).join
  | .short => (ind.keyLevels.get? ("prev_" ++ period ++ "_low")).join

/-- The boost of a level behind the close that is nearer than `within` per cent of it. -/
def bounceBoost (level : Option ℚ) (within boost : ℚ) : ℚ :=
  match level with
  | none => 0
  | some l =>
    if l ≠ 0 ∧ side.lt l ind.close ∧ safePct (side.move l ind.close) l 100 < within then boost else 0

/-- The penalty of a level ahead of the close that is nearer than `within` per cent of the close. -/
def cautionPenalty (level : Option ℚ) (within penalty : ℚ) : ℚ :=
  match level with
  | none => 0
  | some l =>
    if l ≠ 0 ∧ side.lt ind.close l ∧ safePct (side.move ind.close l) ind.close 100 < within then penalty else 0

def vwapBandAdjustment : ℚ :=
  if ind.vwapBandSignal = some (.extended side) then params.vwapExtendedPenalty
  else if ind.vwapBandSignal = some (.nearVwap side) then params.vwapBounceBoost
  else 0

def keyLevelAdjustment : ℚ :=
  if ind.keyLevelSignal = some (.bounce side) then ind.keyLevelConfidence + 5/100
  else if ind.keyLevelSignal = some (.breakout side) then ind.keyLevelConfidence + params.breakoutBoost
  else if ind.keyLevelSignal = some (.caution side) then ind.keyLevelConfidence
  else 0

def openingRangeAdjustment (orState : OpeningRange) : ℚ :=
  if orState.orDefined then
    match orState.orHigh, orState.orLow with
    | some high, some low =>
      if side = .long ∧ high < ind.close then 10/100
      else if side = .short ∧ ind.close < low then 10/100
      else if low < ind.close ∧ ind.close < high then -5/100
      else 0
    | _, _ => 0
  else 0

def applyDirectionalConfidenceAdjustments (orState : OpeningRange) (confidence : ℚ) : ℚ :=
  max 0 (min 1 (confidence + (if ind.volumeConfirmed then params.volumeBoost else 0) +
    (if ind.srSignal = some side then params.srBoost + ind.srConfidence * (5/100) else 0) +
    (if ind.tbtSignal = some side then params.tbtBoost + ind.tbtConfidence * (5/100) else 0) +
    (if ind.sdSignal = some side then params.sdBoost else 0) +
    vwapBandAdjustment params ind side + keyLevelAdjustment params ind side +
    bounceBoost ind side (supportLevel "day" ind side) params.pdlPdhDistancePct params.pdlPdhBoost +
    bounceBoost ind side (supportLevel "week" ind side) params.pwlPwhDistancePct params.pwlPwhBoost +
    cautionPenalty ind side (obstacleLevel "day" ind side) params.pdlPdhDistancePct params.pdhPdlCautionPenalty +
    cautionPenalty ind side (obstacleLevel "week" ind side) params.pwlPwhDistancePct params.pwhPwlCautionPenalty +
    openingRangeAdjustment ind side orState))

end Scoring

/-! ### Core candidates -/

/-- The multipliers of the stop and of the target by the regime, without the composite score. -/
def regimeMults (config : Config) (regime : Regime) : ℚ × ℚ :=
  let sl := config.stopLossAtrMult.getD 1
  let tp := config.takeProfitAtrMult.getD 2
  match regime with
  | .volatile => (sl * config.volatileSlMult, tp * config.volatileTpMult)
  | .ranging => (sl * config.rangingSlMult, tp * config.rangingTpMult)
  | _ => (sl, tp)

section Core
variable (config : Config) (params : StrategyParams) (df : Frame) (df5m : Option Frame) (env : Environment)
  (ind : IndicatorResult) (side : PositionSide)

def regimeScore : ℚ := if config.compositeRegimeEnabled ∧ df5m.isSome then env.regimeScore else 5

/-- `dynamic_sl_mult`: a high composite score widens the stop. -/
def dynamicSlMult : ℚ :=
  if config.compositeRegimeEnabled ∧ df5m.isSome ∧ 7 ≤ env.regimeScore then
    (regimeMults config ind.regime.regime).1 * config.volatileStopMultiplier
  else (regimeMults config ind.regime.regime).1

def dynamicTpMult : ℚ := (regimeMults config ind.regime.regime).2

def chopBlocked (confidence : ℚ) : Bool :=
  config.compositeRegimeEnabled ∧ config.chopZoneLow ≤ regimeScore config df5m env ∧
    regimeScore config df5m env ≤ config.chopZoneHigh ∧ confidence < config.chopZoneMinConfidence

/-- The candidate of a side with a score: the checks of its bracket. -/
def scoredCandidate (entryTrigger : EntryTrigger) (confidence : ℚ) : Option Signal :=
  if confidence < config.minConfidenceOf side ∨ chopBlocked config df5m env confidence then none
  else
    let entryPrice := ind.close
    let stopLoss := side.behind entryPrice (ind.atr * dynamicSlMult config df5m env ind)
    let takeProfit := side.ahead entryPrice (ind.atr * dynamicTpMult config ind)
    let riskAmount := side.move stopLoss entryPrice
    if side.le entryPrice stopLoss ∨ riskAmount ≤ 0 then none
    else if config.maxStopPoints < riskAmount then none
    else
      let riskReward := safeDiv (side.move entryPrice takeProfit) riskAmount 0
      if riskReward < config.minRiskReward then none
      else
        some { direction := side, entryPrice, stopLoss, takeProfit, confidence := min confidence (99/100), riskReward,
               entryTrigger, vwapPosition := some side }

/-- A branch of the core. `none`: there is no score, and `generate_signals` returns at once. -/
def directionalCandidate : Option (List Signal) :=
  let triggers := directionalTriggers config df ind side
  if entryAllowed ind side triggers then
    (initializeDirectionalScore triggers params).map fun (entryTrigger, base) =>
      (scoredCandidate config df5m env ind side entryTrigger
        (applyDirectionalConfidenceAdjustments params ind side env.orState base)).toList
  else some []

end Core

/-! ### Opening range breakout -/

structure OrbState where
  date : Option Int := none
  orbHigh : Option ℚ := none
  orbLow : Option ℚ := none
  orbDefined : Bool := false
  tradesToday : Nat := 0

/-- `datetime.replace(hour=9, minute=30 + minutes)`, `none` where it raises -/
def rangeEnd (minutes : Nat) : Option Nat := replaceTime (some (9, 30 + minutes))

/-- `_update_orb_range`: the state, and what is returned, `none` where it raises. With a `timestamp` column it raises
while the range is built, since it gives `pd.Timestamp` a time zone twice. -/
def updateOrbRange (orb : OrbState) (df : Frame) (now : EtTime) (params : StrategyParams) :
    OrbState × Option (Option ℚ × Option ℚ × Bool) :=
  match rangeEnd params.orbRangeMinutes with
  | none => (orb, none)
  | some rangeEnd =>
    let orb := if orb.date = some now.date then orb else { date := some now.date }
    if now.micros < microsAt 9 30 then (orb, some (none, none, false))
    else if now.micros ≤ rangeEnd ∧ ¬ orb.orbDefined then
      if df.timestamped then (orb, none)
      else
        let bars := lastN params.orbRangeMinutes df.bars
        let orb := { orb with
          orbHigh := (bars.map Ohlcv.high).max? <|> orb.orbHigh, orbLow := (bars.map Ohlcv.low).min? <|> orb.orbLow }
        (orb, some (orb.orbHigh, orb.orbLow, orb.orbDefined))
    else
      let orb := { orb with orbDefined := orb.orbDefined || (rangeEnd < now.micros && orb.orbHigh.isSome) }
      (orb, some (orb.orbHigh, orb.orbLow, orb.orbDefined))

section Orb
variable (ind : IndicatorResult) (params : StrategyParams)

def orbDirection (high low : ℚ) : Option PositionSide :=
  if ind.adxValue < params.adxRangingThreshold then none
  else if high < ind.close then some .long
  else if ind.close < low then some .short
  else none

def orbConfidence (side : PositionSide) : ℚ :=
  min (params.orbBaseConfidence + (if priceBeyondVwap ind side then params.orbVwapBoost else 0) +
    (if ind.volumeConfirmed then params.orbVolumeBoost else 0) +
    (if params.adxTrendingThreshold < ind.adxValue then params.orbAdxBoost else 0)) (99/100)

/-- The height of the range, or the stop by the range of the bars where that is wider. -/
def orbSlDistance (high low : ℚ) : ℚ := max (high - low) (ind.atr * params.orbSlAtrMult)

def orbSignal (side : PositionSide) (high low : ℚ) : Signal :=
  let slDistance := orbSlDistance ind params high low
  let stopLoss := side.behind ind.close slDistance
  let takeProfit := side.ahead ind.close (ind.atr * params.orbTpAtrMult)
  { direction := side, entryPrice := ind.close, stopLoss, takeProfit, confidence := orbConfidence ind params side,
    riskReward := if 0 < |ind.close - stopLoss| then |takeProfit - ind.close| / |ind.close - stopLoss| else 0,
    entryTrigger := .orbBreakout }

def orbSetup (orb : OrbState) (range : Option (Option ℚ × Option ℚ × Bool)) : Option (PositionSide × ℚ × ℚ) :=
  match range with
  | some (some high, some low, true) =>
    if params.orbMaxTradesPerDay ≤ orb.tradesToday then none
    else (orbDirection ind params high low).map fun side => (side, high, low)
  | _ => none

def orbWindowOpen (now : EtTime) : Bool :=
  params.allowOrbEntries && (rangeEnd params.orbRangeMinutes).any fun rangeEnd =>
    rangeEnd < now.micros ∧ now.micros ≤ (replaceTime params.orbWindowEnd).getD (microsAt 11 0)

/-- `_check_orb_signal`: the state, and the signal, `none` also where it raises. -/
def checkOrbSignal (orb : OrbState) (df : Frame) (now : EtTime) : OrbState × Option Signal :=
  if orbWindowOpen params now then
    let tracked := updateOrbRange orb df now params
    match orbSetup ind params tracked.1 tracked.2 with
    | none => (tracked.1, none)
    | some (side, high, low) =>
      ({ tracked.1 with tradesToday := tracked.1.tradesToday + 1 }, some (orbSignal ind params side high low))
  else (orb, none)

end Orb

/-! ### Mean reversion from the outer band of the VWAP -/

section Vwap2sd
variable (df : Frame) (ind : IndicatorResult) (params : StrategyParams) (now : EtTime)

/-- The window, by default where one of its times cannot be read. -/
def vwap2sdWindow : Nat × Nat :=
  match replaceTime params.vwap2sdWindowStart, replaceTime params.vwap2sdWindowEnd with
  | some first, some last => (first, last)
  | _, _ => (microsAt 10 0, microsAt 15 0)

/-- A close beyond the band with the index on the same side, and a candle that turns back. -/
def vwap2sdDirection (vwap rsi : ℚ) : Option PositionSide :=
  let variance := closeVariance df
  if StdLe params.vwap2sdMultiplier variance (vwap - ind.close) ∧ rsi < params.vwap2sdRsiLongThreshold then
    if df.last.opening < ind.close then some .long else none
  else if StdLe params.vwap2sdMultiplier variance (ind.close - vwap) ∧ params.vwap2sdRsiShortThreshold < rsi then
    if ind.close < df.last.opening then some .short else none
  else none

/-- The side, the VWAP and the index of an entry. -/
def vwap2sdSetup : Option (PositionSide × ℚ × ℚ) :=
  let window := vwap2sdWindow params
  if ¬ params.allowVwap2sdEntries ∨ now.micros < window.1 ∨ window.2 < now.micros ∨
      params.adxTrendingThreshold < ind.adxValue ∨ df.bars.length < 14 then none
  else
    ind.vwapVal.bind fun vwap => (rsi df).bind fun rsi =>
      (vwap2sdDirection df ind params vwap rsi).map fun side => (side, vwap, rsi)

def volumeSpike : Bool :=
  let volumes := df.bars.map Ohlcv.volume
  let average := if 20 ≤ df.bars.length then mean (lastN 20 volumes) else mean volumes
  average * params.vwap2sdVolumeSpikeMult < df.last.volume

def vwap2sdConfidence (side : PositionSide) (rsi : ℚ) : ℚ :=
  min (params.vwap2sdBaseConfidence + (if rsi < 30 ∨ 70 < rsi then params.vwap2sdRsiExtremeBoost else 0) +
    (if volumeSpike df params then params.vwap2sdVolumeBoost else 0) +
    (if ind.srSignal = some side then 5/100 else 0)) (99/100)

def vwap2sdSignal (side : PositionSide) (vwap rsi : ℚ) : Signal :=
  let stopLoss := side.behind ind.close (ind.atr * params.vwap2sdSlAtrMult)
  let risk := |ind.close - stopLoss|
  { direction := side, entryPrice := ind.close, stopLoss, takeProfit := vwap,
    confidence := vwap2sdConfidence df ind params side rsi,
    riskReward := if 0 < risk then |vwap - ind.close| / risk else 0, entryTrigger := .vwap2sdReversion }

def checkVwap2sdSignal : Option Signal :=
  (vwap2sdSetup df ind params now).map fun (side, vwap, rsi) => vwap2sdSignal df ind params side vwap rsi

end Vwap2sd

/-! ### The pipeline -/

def regimeMultiplier (r : Recommendation) : ℚ :=
  match r with
  | .fullSize => 1
  | .reducedSize => 7/10
  | .avoid => 5/10

def Signal.adjusted (multiplier : ℚ) (s : Signal) : Signal :=
  { s with confidence := min (s.confidence * multiplier) (99/100) }

def Signal.passesConf (config : Config) (s : Signal) : Bool := config.minConfidenceOf s.direction ≤ s.confidence

/-- The price sanity filter; every price of a candidate is finite. -/
def Signal.pricesValid (s : Signal) : Bool := 0 < s.entryPrice ∧ 0 < s.stopLoss ∧ 0 < s.takeProfit

def finalFilters (config : Config) (multiplier : ℚ) (candidates : List Signal) : List Signal :=
  ((candidates.map (Signal.adjusted multiplier)).filter (Signal.passesConf config)).filter Signal.pricesValid

/-- `ind.regime` after the override by the 5 minute bars -/
def overrideRegime (config : Config) (df5m : Option Frame) (ind : IndicatorResult) : IndicatorResult :=
  match df5m with
  | some frame =>
    if config.mtfOverrideEnabled ∧ 30 ≤ frame.bars.length then
      { ind with regime := detectMarketRegime frame (min 50 frame.bars.length) }
    else ind
  | none => ind

/-- `or_forming` within the first 15 bars -/
def OpeningRange.suppresses (orState : OpeningRange) : Bool :=
  !orState.orDefined && 0 < orState.barCount && orState.barCount ≤ 15

def skipsRegime (config : Config) (r : MarketRegime) : Bool :=
  (config.skipSignalsInRanging && r.regime = .ranging && 7/10 < r.confidence) ||
    (config.skipSignalsInVolatile && r.regime = .volatile && 25/10 < r.volatilityRatio)

/-- The indicators with which candidates are sought, `none` where a call returns no signals before that. -/
def readyIndicators (config : Config) (params : StrategyParams) (df : Frame) (df5m : Option Frame)
    (env : Environment) : Option IndicatorResult :=
  if df.bars.length < max (max params.emaSlow config.volumeMaLength) 20 ∨ env.orState.suppresses then none
  else
    (calculateIndicators df params env.extended config.volumeMaLength).bind fun ind =>
      let ind := overrideRegime config df5m ind
      if skipsRegime config ind.regime then none else some ind

/-- `generate_signals`: the state of the breakout tracker, and the signals, `none` where it raises. -/
def generateSignals (config : Config) (df : Frame) (df5m : Option Frame) (now : EtTime) (env : Environment)
    (orb : OrbState) : OrbState × Option (List Signal) :=
  match config.loadStrategyParams with
  | none => (orb, none)
  | some params =>
    match readyIndicators config params df df5m env with
    | none => (orb, some [])
    | some ind =>
      match directionalCandidate config params df df5m env ind .long,
        directionalCandidate config params df df5m env ind .short with
      | some long, some short =>
        let tracked := if params.allowOrbEntries then updateOrbRange orb df now params else (orb, some (none, none, false))
        if tracked.2.isNone then (tracked.1, none)
        else
          let checked := checkOrbSignal ind params tracked.1 df now
          let candidates := long ++ short ++ checked.2.toList ++ (checkVwap2sdSignal df ind params now).toList ++
            (checkSmcSignal df ind params now env.smc).toList
          (checked.1, some (finalFilters config (regimeMultiplier ind.regime.recommendation) candidates))
      | _, _ => (orb, some [])

end PearlAlgo.SignalGenerator
