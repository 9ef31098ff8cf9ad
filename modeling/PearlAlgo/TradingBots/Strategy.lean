import PearlAlgo.Py.Dict
import PearlAlgo.TradingBots.Indicators

/-!
# Strategy parameters and the indicator stage (`trading_bots/signal_generator.py`)

`StrategyParams` is the validated model; a configuration that fails the validation raises. The signals of the extended
indicators (S&R, TBT, supply and demand, key levels) only add to a confidence, and are arguments of the call.
-/

namespace PearlAlgo.SignalGenerator
open Py

/-- The fields of `StrategyParams` that the generators read or that restrict a key they read, before the validation. A
window is the hour and the minute that its string gives, or `none`. -/
structure StrategyFields where
  atrPeriod : Nat := 14
  stopLossAtrMult : ℚ := 1
  takeProfitAtrMult : ℚ := 2
  emaFast : Nat := 9
  emaSlow : Nat := 21
  vwapStdDev : ℚ := 1
  vwapBands : Nat := 2
  baseConfidence : ℚ := 50/100
  volumeBoost : ℚ := 12/100
  srBoost : ℚ := 8/100
  tbtBoost : ℚ := 8/100
  sdBoost : ℚ := 10/100
  vwapExtendedPenalty : ℚ := -8/100
  vwapBounceBoost : ℚ := 5/100
  breakoutBoost : ℚ := 3/100
  pdlPdhBoost : ℚ := 10/100
  pwlPwhBoost : ℚ := 12/100
  pdhPdlCautionPenalty : ℚ := -5/100
  pwhPwlCautionPenalty : ℚ := -7/100
  regimeLookback : Nat := 50
  minConfidence : ℚ := 60/100
  minConfidenceLong : ℚ := 60/100
  minConfidenceShort : ℚ := 60/100
  minRiskReward : ℚ := 13/10
  meanReversionBaseConfidence : ℚ := 55/100
  vwapReclaimBaseConfidence : ℚ := 55/100
  pdlPdhDistancePct : ℚ := 3/10
  pwlPwhDistancePct : ℚ := 5/10
  adxTrendingThreshold : ℚ := 25
  adxRangingThreshold : ℚ := 20
  allowOrbEntries : Bool := false
  orbRangeMinutes : Nat := 15
  orbWindowEnd : Option (Nat × Nat) := some (11, 0)
  orbMaxTradesPerDay : Nat := 1
  orbBaseConfidence : ℚ := 60/100
  orbVwapBoost : ℚ := 10/100
  orbVolumeBoost : ℚ := 8/100
  orbAdxBoost : ℚ := 5/100
  orbSlAtrMult : ℚ := 1
  orbTpAtrMult : ℚ := 2
  allowVwap2sdEntries : Bool := false
  vwap2sdMultiplier : ℚ := 2
  vwap2sdRsiLongThreshold : ℚ := 35
  vwap2sdRsiShortThreshold : ℚ := 65
  vwap2sdWindowStart : Option (Nat × Nat) := some (10, 0)
  vwap2sdWindowEnd : Option (Nat × Nat) := some (15, 0)
  vwap2sdBaseConfidence : ℚ := 55/100
  vwap2sdRsiExtremeBoost : ℚ := 12/100
  vwap2sdVolumeBoost : ℚ := 8/100
  vwap2sdSlAtrMult : ℚ := 75/100
  vwap2sdVolumeSpikeMult : ℚ := 15/10
  allowSmcEntries : Bool := false
  smcSwingLength : Nat := 10
  smcFvgLookback : Nat := 20
  smcObLookback : Nat := 20
  smcFvgBaseConfidence : ℚ := 55/100
  smcObBoost : ℚ := 10/100
  smcBosBoost : ℚ := 8/100
  smcVolumeBoost : ℚ := 8/100
  smcKeyLevelBoost : ℚ := 10/100
  smcVwapBoost : ℚ := 5/100
  smcSlAtrMult : ℚ := 8/10
  smcTpAtrMult : ℚ := 25/10
  smcSilverBulletWindows : List (Nat × Nat) := [(10, 11), (14, 15), (15, 16)]

/-- A constraint `ge` and an optional `le` of a field with the value `value`. -/
structure Bound where
  value : ℚ
  ge : ℚ
  le : Option ℚ := none

def Bound.Holds (b : Bound) : Prop := b.ge ≤ b.value ∧ ∀ u ∈ b.le, b.value ≤ u

instance Bound.Holds.decidable (b : Bound) : Decidable b.Holds := inferInstanceAs (Decidable (_ ∧ _))

def Bound.unit (value : ℚ) : Bound := { value, ge := 0, le := some 1 }

namespace StrategyFields
variable (p : StrategyFields)

def bounds : List Bound :=
  [{ value := p.atrPeriod, ge := 2 }, { value := p.stopLossAtrMult, ge := 3/10 },
    { value := p.takeProfitAtrMult, ge := 5/10 }, { value := p.emaFast, ge := 2 }, { value := p.emaSlow, ge := 2 },
    { value := p.vwapStdDev, ge := 1/10 }, { value := p.vwapBands, ge := 1 }, Bound.unit p.baseConfidence,
    { value := p.regimeLookback, ge := 10 }, Bound.unit p.minConfidence, Bound.unit p.minConfidenceLong,
    Bound.unit p.minConfidenceShort, { value := p.minRiskReward, ge := 5/10 },
    Bound.unit p.meanReversionBaseConfidence, Bound.unit p.vwapReclaimBaseConfidence,
    { value := p.orbRangeMinutes, ge := 5 }, { value := p.orbMaxTradesPerDay, ge := 1 },
    Bound.unit p.orbBaseConfidence, { value := p.vwap2sdMultiplier, ge := 1 }, Bound.unit p.vwap2sdBaseConfidence,
    { value := p.smcSwingLength, ge := 3 }, { value := p.smcFvgLookback, ge := 5 }, { value := p.smcObLookback, ge := 5 },
    Bound.unit p.smcFvgBaseConfidence]

def Valid : Prop := ∀ b ∈ p.bounds, b.Holds

instance Valid.decidable : Decidable p.Valid := inferInstanceAs (Decidable (∀ b ∈ p.bounds, b.Holds))

end StrategyFields

structure StrategyParams extends StrategyFields where
  valid : toStrategyFields.Valid

/-- The keys that `generate_signals` reads from the configuration itself. `strategy` is what the section of the active
strategy and the keys that only `StrategyParams` reads make of its defaults; `min_risk_reward` is read without a
default. -/
structure Config where
  strategy : StrategyFields := {}
  volumeMaLength : Nat := 20
  emaFast : Option Nat := none
  emaSlow : Option Nat := none
  stopLossAtrMult : Option ℚ := none
  takeProfitAtrMult : Option ℚ := none
  volatileSlMult : ℚ := 13/10
  volatileTpMult : ℚ := 13/10
  rangingSlMult : ℚ := 8/10
  rangingTpMult : ℚ := 7/10
  minConfidence : Option ℚ := none
  minConfidenceLong : Option ℚ := none
  minConfidenceShort : Option ℚ := none
  minRiskReward : ℚ
  maxStopPoints : ℚ := 45
  allowVwapCrossEntries : Bool := false
  allowVwapRetestEntries : Bool := false
  allowTrendMomentumEntries : Bool := false
  trendMomentumAtrMult : ℚ := 5/10
  allowTrendBreakoutEntries : Bool := false
  trendBreakoutLookbackBars : Int := 5
  allowMeanReversionEntries : Bool := true
  allowEmaPullbackEntries : Bool := true
  allowVwapReclaimEntries : Bool := true
  skipSignalsInRanging : Bool := false
  skipSignalsInVolatile : Bool := false
  mtfOverrideEnabled : Bool := true
  compositeRegimeEnabled : Bool := false
  chopZoneLow : ℚ := 4
  chopZoneHigh : ℚ := 6
  chopZoneMinConfidence : ℚ := 75/100
  volatileStopMultiplier : ℚ := 12/10

namespace Config
variable (config : Config)

def strategyFields : StrategyFields :=
  { config.strategy with
    emaFast := config.emaFast.getD config.strategy.emaFast
    emaSlow := config.emaSlow.getD config.strategy.emaSlow
    stopLossAtrMult := config.stopLossAtrMult.getD config.strategy.stopLossAtrMult
    takeProfitAtrMult := config.takeProfitAtrMult.getD config.strategy.takeProfitAtrMult
    minConfidence := config.minConfidence.getD config.strategy.minConfidence
    minConfidenceLong := config.minConfidenceLong.getD config.strategy.minConfidenceLong
    minConfidenceShort := config.minConfidenceShort.getD config.strategy.minConfidenceShort
    minRiskReward := config.minRiskReward }

def minConfidenceOf : PositionSide → ℚ
  | .long => config.minConfidenceLong.getD (config.minConfidence.getD (55/100))
  | .short => config.minConfidenceShort.getD (config.minConfidence.getD (55/100))

/-- `_load_strategy_params`, `none` where the validation raises -/
def loadStrategyParams : Option StrategyParams :=
  if h : config.strategyFields.Valid then some ⟨config.strategyFields, h⟩ else none

end Config

/-- A bounce off a level or a breakout through it to a side, or a level ahead of that side. -/
inductive KeyLevelSignal
  | bounce (side : PositionSide)
  | breakout (side : PositionSide)
  | caution (side : PositionSide)
deriving DecidableEq

/-- `long` is above the VWAP. -/
inductive VwapBandSignal
  | extended (side : PositionSide)
  | nearVwap (side : PositionSide)
deriving DecidableEq

/-- What the extended indicators give: the side that a signal names with its confidence, and the key levels, where a
value that is not a number reads as `none`. -/
structure Extended where
  srSignal : Option PositionSide := none
  srConfidence : ℚ := 0
  tbtSignal : Option PositionSide := none
  tbtConfidence : ℚ := 0
  sdSignal : Option PositionSide := none
  keyLevels : Dict String (Option ℚ) := Dict.empty
  keyLevelSignal : Option KeyLevelSignal := none
  keyLevelConfidence : ℚ := 0

structure IndicatorResult extends Extended where
  close : ℚ
  prevClose : ℚ
  atr : ℚ
  vwapVal : Option ℚ
  emaCrossUp : Bool
  emaCrossDown : Bool
  emaFast : ℚ
  emaSlow : ℚ
  volumeConfirmed : Bool
  vwapBandSignal : Option VwapBandSignal
  regime : MarketRegime
  adxValue : ℚ

/-- The band signal: beyond the outer band of a side, or between the VWAP and the inner one. -/
def vwapBandSignal (params : StrategyParams) (df : Frame) (close vwap : ℚ) : Option VwapBandSignal :=
  let variance := closeVariance df
  let outer := params.vwapStdDev * params.vwapBands
  if StdLt outer variance (close - vwap) then some (.extended .long)
  else if StdLt outer variance (vwap - close) then some (.extended .short)
  else if vwap < close ∧ ¬ StdLt params.vwapStdDev variance (close - vwap) then some (.nearVwap .long)
  else if close < vwap ∧ ¬ StdLt params.vwapStdDev variance (vwap - close) then some (.nearVwap .short)
  else none

/-- `_calculate_indicators`; the exponential averages are kept at the last bar only. -/
def calculateIndicators (df : Frame) (params : StrategyParams) (ext : Extended) (volumeMaLength : Nat) :
    Option IndicatorResult :=
  (calculateAtr df params.atrPeriod).bind fun atr =>
    if atr ≤ 0 then none
    else
      let fast := calculateEma df params.emaFast
      let slow := calculateEma df params.emaSlow
      let prevFast := calculateEma df.dropLast params.emaFast
      let prevSlow := calculateEma df.dropLast params.emaSlow
      let regime := detectMarketRegime df params.regimeLookback
      some { ext with
        close := df.last.close, prevClose := df.previous.close, atr, vwapVal := calculateVwap df,
        emaCrossUp := slow < fast ∧ prevFast ≤ prevSlow, emaCrossDown := fast < slow ∧ prevSlow ≤ prevFast,
        emaFast := fast, emaSlow := slow, volumeConfirmed := checkVolumeConfirmation df volumeMaLength,
        vwapBandSignal := (calculateVwap df).bind (vwapBandSignal params df df.last.close), regime,
        adxValue := regime.adxValue }

theorem calculateIndicators_atr_pos {df : Frame} {params : StrategyParams} {ext : Extended} {n : Nat}
    {ind : IndicatorResult} (h : calculateIndicators df params ext n = some ind) : 0 < ind.atr := by
  unfold calculateIndicators at h
  obtain ⟨atr, -, h⟩ := Option.bind_eq_some_iff.1 h
  split at h
  · simp at h
  next hatr =>
    rw [← Option.some.inj h]
    exact not_le.1 hatr

namespace Config
variable {config : Config} {params : StrategyParams}

theorem strategyFields_of_loadStrategyParams (h : config.loadStrategyParams = some params) :
    params.toStrategyFields = config.strategyFields := by
  unfold loadStrategyParams at h
  split at h
  · rw [← Option.some.inj h]
  · simp at h

theorem valid_of_loadStrategyParams (h : config.loadStrategyParams = some params) : config.strategyFields.Valid := by
  rw [← strategyFields_of_loadStrategyParams h]
  exact params.valid

theorem getD_nonneg {x : Option ℚ} {y z : ℚ} (h : 0 ≤ x.getD y) (hz : 0 ≤ z) : 0 ≤ x.getD z := by
  rcases x with _ | c
  · exact hz
  · exact h

/-- A threshold of the configuration itself is restricted by the field of its name. -/
theorem minConfidenceOf_nonneg (h : config.strategyFields.Valid) (side : PositionSide) :
    0 ≤ config.minConfidenceOf side := by
  have hb := h (Bound.unit config.strategyFields.minConfidence) (by simp [StrategyFields.bounds])
  have hgeneric : 0 ≤ config.minConfidence.getD (55/100) := getD_nonneg hb.1 (by norm_num)
  cases side with
  | long =>
    have hb := h (Bound.unit config.strategyFields.minConfidenceLong) (by simp [StrategyFields.bounds])
    exact getD_nonneg hb.1 hgeneric
  | short =>
    have hb := h (Bound.unit config.strategyFields.minConfidenceShort) (by simp [StrategyFields.bounds])
    exact getD_nonneg hb.1 hgeneric

theorem minRiskReward_pos (h : config.strategyFields.Valid) : 0 < config.minRiskReward := by
  have hb : 5/10 ≤ config.minRiskReward :=
    (h { value := config.strategyFields.minRiskReward, ge := 5/10 } (by simp [StrategyFields.bounds])).1
  linarith

end Config

/-- An Eastern wall clock time: the date and the microseconds since midnight. -/
structure EtTime where
  date : Int
  micros : Nat

def microsAt (hour minute : Nat) : Nat := (hour * 60 + minute) * 60000000

def EtTime.hour (t : EtTime) : Nat := t.micros / microsAt 1 0

/-- `datetime.replace(hour=.., minute=..)`, `none` where it raises -/
def replaceTime (w : Option (Nat × Nat)) : Option Nat :=
  w.bind fun (hour, minute) => if hour < 24 ∧ minute < 60 then some (microsAt hour minute) else none

inductive SmcType
  | smcFvg
  | smcOb
  | smcSilverBullet
deriving DecidableEq

inductive EntryTrigger
  | emaCross
  | vwapCross
  | vwapRetest
  | trendBreakout
  | meanReversion
  | emaPullback
  | vwapReclaim
  | trendMomentum
  | orbBreakout
  | vwap2sdReversion
  | smc (type : SmcType)
deriving DecidableEq

/-- A signal: its bracket and its confidence, and what triggered it. The side of the VWAP is the core's own label. -/
structure Signal where
  direction : PositionSide
  entryPrice : ℚ
  stopLoss : ℚ
  takeProfit : ℚ
  confidence : ℚ
  riskReward : ℚ
  entryTrigger : EntryTrigger
  vwapPosition : Option PositionSide := none
deriving DecidableEq

end PearlAlgo.SignalGenerator
