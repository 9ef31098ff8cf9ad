import PearlAlgo.TradingBots.SignalGenerator

/-!
# The geometry of the brackets (`trading_bots/signal_generator.py`, `trading_bots/smc_signals.py`)

A bracket is an entry with a stop and a target at signed distances from it, on the protective side and ahead. The core
checks the distances of its brackets against the configured limits. The breakout, the mean reversion and the smart
money generator do not, and the filters at the end look at the confidence and at the sign of the prices only: a call
keeps the limits exactly when the distances of the brackets of these three do.
-/

namespace PearlAlgo.SignalGenerator
open Py

/-! ### Brackets -/

/-- An entry, and the distances of its stop and of its target. -/
structure Bracket where
  side : PositionSide
  entry : ℚ
  confidence : ℚ
  stopDistance : ℚ
  targetDistance : ℚ

def Bracket.Fits (config : Config) (b : Bracket) : Prop :=
  0 < b.stopDistance ∧ b.stopDistance ≤ config.maxStopPoints ∧
    config.minRiskReward * b.stopDistance ≤ b.targetDistance

def Bracket.Passes (config : Config) (multiplier : ℚ) (b : Bracket) : Prop :=
  config.minConfidenceOf b.side ≤ min (b.confidence * multiplier) (99/100) ∧ 0 < b.entry ∧
    0 < b.side.behind b.entry b.stopDistance ∧ 0 < b.side.ahead b.entry b.targetDistance

namespace Signal

def bracket (s : Signal) : Bracket where
  side := s.direction
  entry := s.entryPrice
  confidence := s.confidence
  stopDistance := s.direction.move s.stopLoss s.entryPrice
  targetDistance := s.direction.move s.entryPrice s.takeProfit

/-- The stop is under the entry of a long signal and the target above it, both at distances within the limits, and the
confidence is that of a signal. -/
structure WellPlaced (config : Config) (s : Signal) : Prop where
  stop : s.direction.lt s.stopLoss s.entryPrice
  target : s.direction.lt s.entryPrice s.takeProfit
  distance : s.direction.move s.stopLoss s.entryPrice ≤ config.maxStopPoints
  reward : config.minRiskReward ≤
    s.direction.move s.entryPrice s.takeProfit / s.direction.move s.stopLoss s.entryPrice
  confidence_nonneg : 0 ≤ s.confidence
  confidence_le : s.confidence ≤ 99/100
  threshold : config.minConfidenceOf s.direction ≤ s.confidence

variable {config : Config} {multiplier : ℚ} {s : Signal}

theorem fits_iff (hrr : 0 < config.minRiskReward) :
    s.bracket.Fits config ↔ s.direction.lt s.stopLoss s.entryPrice ∧ s.direction.lt s.entryPrice s.takeProfit ∧
      s.direction.move s.stopLoss s.entryPrice ≤ config.maxStopPoints ∧
      config.minRiskReward ≤
        s.direction.move s.entryPrice s.takeProfit / s.direction.move s.stopLoss s.entryPrice := by
  rw [PositionSide.lt_iff_move_pos, PositionSide.lt_iff_move_pos]
  constructor
  · rintro ⟨hd, hmax, hr⟩
    exact ⟨hd, (mul_pos hrr hd).trans_le hr, hmax, (le_div_iff₀ hd).2 hr⟩
  · rintro ⟨hd, -, hmax, hr⟩
    exact ⟨hd, hmax, (le_div_iff₀ hd).1 hr⟩

theorem wellPlaced_adjusted_iff (hvalid : config.strategyFields.Valid)
    (hconf : (s.adjusted multiplier).passesConf config) :
    (s.adjusted multiplier).WellPlaced config ↔ s.bracket.Fits config := by
  have hthr : config.minConfidenceOf s.direction ≤ (s.adjusted multiplier).confidence := of_decide_eq_true hconf
  rw [fits_iff (Config.minRiskReward_pos hvalid)]
  constructor
  · intro h
    exact ⟨h.stop, h.target, h.distance, h.reward⟩
  · rintro ⟨hstop, htarget, hdistance, hreward⟩
    exact ⟨hstop, htarget, hdistance, hreward, (Config.minConfidenceOf_nonneg hvalid _).trans hthr, min_le_right _ _,
      hthr⟩

theorem passes_iff : s.bracket.Passes config multiplier ↔
    (s.adjusted multiplier).passesConf config ∧ (s.adjusted multiplier).pricesValid := by
  unfold Bracket.Passes bracket passesConf pricesValid
  simp only [PositionSide.behind_move, PositionSide.ahead_move, decide_eq_true_eq]
  rfl

end Signal

theorem forall_finalFilters_iff {config : Config} {multiplier : ℚ} {candidates : List Signal}
    (hvalid : config.strategyFields.Valid) :
    (∀ s ∈ finalFilters config multiplier candidates, s.WellPlaced config) ↔
      ∀ s ∈ candidates, s.bracket.Passes config multiplier → s.bracket.Fits config := by
  unfold finalFilters
  constructor
  · intro h s hs hpasses
    obtain ⟨hconf, hprices⟩ := Signal.passes_iff.1 hpasses
    refine (Signal.wellPlaced_adjusted_iff hvalid hconf).1 (h _ ?_)
    exact List.mem_filter.2 ⟨List.mem_filter.2 ⟨List.mem_map_of_mem hs, hconf⟩, hprices⟩
  · intro h s hs
    obtain ⟨hs, hprices⟩ := List.mem_filter.1 hs
    obtain ⟨hs, hconf⟩ := List.mem_filter.1 hs
    obtain ⟨c, hc, rfl⟩ := List.mem_map.1 hs
    exact (Signal.wellPlaced_adjusted_iff hvalid hconf).2 (h c hc (Signal.passes_iff.2 ⟨hconf, hprices⟩))

/-! ### The core -/

section Core
variable {config : Config} {params : StrategyParams} {df : Frame} {df5m : Option Frame} {env : Environment}
  {ind : IndicatorResult} {side : PositionSide}

theorem initializeDirectionalScore_isSome {t : DirectionalTriggers} (h : triggered ind side t) :
    (initializeDirectionalScore t params).isSome := by
  unfold initializeDirectionalScore
  split_ifs <;> first | rfl | simp_all [triggered]

theorem directionalCandidate_isSome (config : Config) (params : StrategyParams) (df : Frame) (df5m : Option Frame)
    (env : Environment) (ind : IndicatorResult) (side : PositionSide) :
    (directionalCandidate config params df df5m env ind side).isSome := by
  unfold directionalCandidate
  simp only
  split
  next h =>
    rw [Option.isSome_map]
    exact initializeDirectionalScore_isSome (Bool.and_eq_true_iff.1 h).1
  · rfl

theorem le_of_le_safeDiv {a d m : ℚ} (hm : 0 < m) (hd : 0 < d) (h : m ≤ safeDiv a d 0) : m * d ≤ a := by
  unfold safeDiv at h
  split at h
  · exact absurd h (not_le.2 hm)
  · exact (le_div_iff₀ hd).1 h

theorem scoredCandidate_fits (hrr : 0 < config.minRiskReward) {trigger : EntryTrigger} {confidence : ℚ} {s : Signal}
    (h : scoredCandidate config df5m env ind side trigger confidence = some s) : s.bracket.Fits config := by
  unfold scoredCandidate at h
  simp only at h
  split at h
  · simp at h
  split at h
  · simp at h
  next hrisk =>
  split at h
  · simp at h
  next hmax =>
  split at h
  · simp at h
  next hreward =>
  have hpos := not_le.1 (not_or.1 hrisk).2
  rw [← Option.some.inj h]
  exact ⟨hpos, not_lt.1 hmax, le_of_le_safeDiv hrr hpos (not_lt.1 hreward)⟩

theorem directionalCandidate_fits (hrr : 0 < config.minRiskReward) {l : List Signal} {s : Signal}
    (h : directionalCandidate config params df df5m env ind side = some l) (hs : s ∈ l) : s.bracket.Fits config := by
  unfold directionalCandidate at h
  simp only at h
  split at h
  · obtain ⟨score, -, rfl⟩ := Option.map_eq_some_iff.1 h
    exact scoredCandidate_fits hrr (Option.mem_toList.1 hs)
  · rw [← Option.some.inj h] at hs
    simp at hs

end Core

/-! ### The generators that do not check -/

section Siblings
variable (config : Config) (params : StrategyParams) (df : Frame) (ind : IndicatorResult) (now : EtTime)

/-- The stop of a breakout is as far as the range is high, or further. -/
def orbBracket (side : PositionSide) (high low : ℚ) : Bracket where
  side := side
  entry := ind.close
  confidence := orbConfidence ind params side
  stopDistance := max (high - low) (ind.atr * params.orbSlAtrMult)
  targetDistance := ind.atr * params.orbTpAtrMult

def orbEntry (orb : OrbState) : Option Bracket :=
  if orbWindowOpen params now then
    let tracked := updateOrbRange orb df now params
    (orbSetup ind params tracked.1 tracked.2).map fun (side, high, low) => orbBracket params ind side high low
  else none

/-- The target of a mean reversion is the VWAP, however near. -/
def vwap2sdBracket (side : PositionSide) (vwap rsi : ℚ) : Bracket where
  side := side
  entry := ind.close
  confidence := vwap2sdConfidence df ind params side rsi
  stopDistance := ind.atr * params.vwap2sdSlAtrMult
  targetDistance := side.move ind.close vwap

def vwap2sdEntry : Option Bracket :=
  (vwap2sdSetup df ind params now).map fun (side, vwap, rsi) => vwap2sdBracket params df ind side vwap rsi

/-- The stop of a gap entry is beyond the far edge of the gap, which need not be beyond the price. -/
def smcStopDistance (side : PositionSide) (top bottom price beyond : ℚ) : ℚ :=
  match side with
  | .long => price - bottom + beyond
  | .short => top - price + beyond

/-- The target is the liquidity level, however near. -/
def smcTargetDistance (side : PositionSide) (level : Option Number) (price ahead : ℚ) : ℚ :=
  match level with
  | some (.fin l) => side.move price l
  | _ => ahead

def smcBracket (fvg : Zone) (boosts : SmcBoosts) (smc : SmcTables) (top bottom : ℚ) : Bracket where
  side := fvg.direction
  entry := ind.close
  confidence := boosts.confidence params
  stopDistance := smcStopDistance fvg.direction top bottom ind.close (params.smcSlAtrMult * ind.atr)
  targetDistance := smcTargetDistance fvg.direction (findLiquidityTarget smc.liquidity fvg.direction ind.close)
    ind.close (params.smcTpAtrMult * ind.atr)

def smcEntry (smc : SmcTables) : Option Bracket :=
  (smcSetup df ind params now smc).bind fun (fvg, boosts) =>
    match fvg.top, fvg.bottom with
    | .fin top, .fin bottom =>
      let b := smcBracket params ind fvg boosts smc top bottom
      if b.stopDistance = 0 ∨ b.targetDistance = 0 then none else some b
    | _, _ => none

def siblingBrackets (orb : OrbState) (smc : SmcTables) : List Bracket :=
  (orbEntry params df ind now orb).toList ++ (vwap2sdEntry params df ind now).toList ++
    (smcEntry params df ind now smc).toList

variable {config params df ind now}

theorem checkOrbSignal_bracket {orb : OrbState} :
    (checkOrbSignal ind params orb df now).2.map Signal.bracket = orbEntry params df ind now orb := by
  have hb : ∀ side high low, (orbSignal ind params side high low).bracket = orbBracket params ind side high low := by
    intro side high low
    simp only [Signal.bracket, orbSignal, orbSlDistance, orbBracket, PositionSide.move_behind, PositionSide.move_ahead]
  unfold checkOrbSignal orbEntry
  split
  · simp only
    rcases orbSetup ind params _ _ with _ | ⟨side, high, low⟩
    · rfl
    · exact congrArg some (hb side high low)
  · rfl

theorem checkVwap2sdSignal_bracket :
    (checkVwap2sdSignal df ind params now).map Signal.bracket = vwap2sdEntry params df ind now := by
  unfold checkVwap2sdSignal vwap2sdEntry
  rw [Option.map_map]
  congr 1
  funext ⟨side, vwap, rsi⟩
  show (vwap2sdSignal df ind params side vwap rsi).bracket = vwap2sdBracket params df ind side vwap rsi
  simp only [Signal.bracket, vwap2sdSignal, vwap2sdBracket, PositionSide.move_behind]

theorem move_smcStopLoss {side : PositionSide} {top bottom price d : ℚ} :
    side.move (smcStopLoss side top bottom d) price = smcStopDistance side top bottom price d := by
  cases side with
  | long =>
    show price - (bottom - d) = price - bottom + d
    ring
  | short =>
    show top + d - price = top - price + d
    ring

theorem move_smcTakeProfit {side : PositionSide} {level : Option Number} {price d : ℚ} :
    side.move price (smcTakeProfit side level price d) = smcTargetDistance side level price d := by
  rcases level with _ | _ | _ | l | _
  · exact PositionSide.move_ahead
  · exact PositionSide.move_ahead
  · exact PositionSide.move_ahead
  · rfl
  · exact PositionSide.move_ahead

theorem abs_sub_nonpos_iff (side : PositionSide) (p q : ℚ) : |q - p| ≤ 0 ↔ side.move p q = 0 := by
  rw [abs_nonpos_iff]
  cases side with
  | long => rfl
  | short => exact sub_eq_zero.trans (eq_comm.trans sub_eq_zero.symm)

theorem checkSmcSignal_bracket {smc : SmcTables} :
    (checkSmcSignal df ind params now smc).map Signal.bracket = smcEntry params df ind now smc := by
  unfold checkSmcSignal smcEntry
  rcases smcSetup df ind params now smc with _ | ⟨⟨side, top, bottom⟩, boosts⟩
  · rfl
  rcases top with _ | _ | top | _ <;> try rfl
  rcases bottom with _ | _ | bottom | _ <;> try rfl
  simp only [Option.bind_some, abs_sub_nonpos_iff side, move_smcStopLoss, move_smcTakeProfit, smcBracket]
  split
  next h => exact (if_pos h).symm
  next h =>
    refine Eq.trans ?_ (if_neg h).symm
    simp only [Option.map_some, Signal.bracket, move_smcStopLoss, move_smcTakeProfit]

end Siblings

/-! ### What positive multipliers give -/

/-- The multipliers of the stops and of the targets are positive. -/
def Config.MultipliersPositive (config : Config) : Prop :=
  ∀ mult ∈ [config.stopLossAtrMult.getD 1, config.takeProfitAtrMult.getD 2, config.volatileSlMult, config.volatileTpMult,
    config.rangingSlMult, config.rangingTpMult, config.volatileStopMultiplier, config.strategy.orbSlAtrMult,
    config.strategy.orbTpAtrMult, config.strategy.vwap2sdSlAtrMult, config.strategy.smcSlAtrMult,
    config.strategy.smcTpAtrMult], 0 < mult

instance Config.MultipliersPositive.decidable (config : Config) : Decidable config.MultipliersPositive :=
  inferInstanceAs (Decidable (∀ _ ∈ _, _))

section Targets
variable {params : StrategyParams} {df : Frame} {ind : IndicatorResult} {now : EtTime} {b : Bracket}

theorem orbEntry_placed {orb : OrbState} (hatr : 0 < ind.atr) (hsl : 0 < params.orbSlAtrMult)
    (htp : 0 < params.orbTpAtrMult) (h : orbEntry params df ind now orb = some b) :
    0 < b.stopDistance ∧ 0 < b.targetDistance := by
  unfold orbEntry at h
  split at h
  · obtain ⟨⟨side, high, low⟩, -, rfl⟩ := Option.map_eq_some_iff.1 h
    exact ⟨lt_max_of_lt_right (mul_pos hatr hsl), mul_pos hatr htp⟩
  · simp at h

theorem move_nonneg_of_vwap2sdDirection {vwap index : ℚ} {side : PositionSide}
    (h : vwap2sdDirection df ind params vwap index = some side) : 0 ≤ side.move ind.close vwap := by
  unfold vwap2sdDirection at h
  simp only at h
  split at h
  next hlong =>
    split at h
    · rw [← Option.some.inj h]
      exact hlong.1.1
    · simp at h
  · split at h
    next hshort =>
      split at h
      · rw [← Option.some.inj h]
        exact hshort.1.1
      · simp at h
    · simp at h

/-- The VWAP is on the target's side of the close, or at the close. -/
theorem vwap2sdEntry_placed (hatr : 0 < ind.atr) (hsl : 0 < params.vwap2sdSlAtrMult)
    (h : vwap2sdEntry params df ind now = some b) : 0 < b.stopDistance ∧ 0 ≤ b.targetDistance := by
  obtain ⟨⟨side, vwap, index⟩, hsetup, rfl⟩ := Option.map_eq_some_iff.1 h
  refine ⟨mul_pos hatr hsl, ?_⟩
  unfold vwap2sdSetup at hsetup
  simp only at hsetup
  split at hsetup
  · simp at hsetup
  · obtain ⟨vwap', -, hsetup⟩ := Option.bind_eq_some_iff.1 hsetup
    obtain ⟨index', -, hsetup⟩ := Option.bind_eq_some_iff.1 hsetup
    obtain ⟨side', hside, heq⟩ := Option.map_eq_some_iff.1 hsetup
    cases heq
    exact move_nonneg_of_vwap2sdDirection hside

theorem smcEntry_placed {smc : SmcTables} (hatr : 0 < ind.atr) (htp : 0 < params.smcTpAtrMult)
    (h : smcEntry params df ind now smc = some b) : 0 < b.targetDistance := by
  obtain ⟨⟨fvg, boosts⟩, -, h⟩ := Option.bind_eq_some_iff.1 h
  have htarget : ∀ top bottom, 0 < (smcBracket params ind fvg boosts smc top bottom).targetDistance := by
    intro top bottom
    show 0 < smcTargetDistance fvg.direction (findLiquidityTarget smc.liquidity fvg.direction ind.close) ind.close
      (params.smcTpAtrMult * ind.atr)
    rcases hlevel : findLiquidityTarget smc.liquidity fvg.direction ind.close with _ | x
    · exact mul_pos htp hatr
    · obtain ⟨level, rfl, hahead⟩ := findLiquidityTarget_fin hlevel
      exact PositionSide.lt_iff_move_pos.1 hahead
  simp only at h
  split at h
  · split at h
    · simp at h
    · rw [← Option.some.inj h]
      exact htarget _ _
  · simp at h

end Targets

/-! ### Calls -/

section Calls
variable (config : Config) (df : Frame) (df5m : Option Frame) (now : EtTime) (env : Environment) (orb : OrbState)

/-- The step of the breakout tracker before its check. -/
def trackOrb (params : StrategyParams) : OrbState × Option (Option ℚ × Option ℚ × Bool) :=
  if params.allowOrbEntries then updateOrbRange orb df now params else (orb, some (none, none, false))

def SignalsWellPlaced : Prop :=
  ∀ signals, (generateSignals config df df5m now env orb).2 = some signals → ∀ s ∈ signals, s.WellPlaced config

/-- In a call that gets as far as the candidates, each of the unchecked brackets that passes the final filters has
distances within the limits. -/
def SiblingsFit : Prop :=
  ∀ params ind, config.loadStrategyParams = some params → readyIndicators config params df df5m env = some ind →
    (trackOrb df now orb params).2.isSome →
    ∀ b ∈ siblingBrackets params df ind now (trackOrb df now orb params).1 env.smc,
      b.Passes config (regimeMultiplier ind.regime.recommendation) → b.Fits config

variable {config df df5m now env orb}

/-- The candidates that are not of the core. -/
def siblingSignals (params : StrategyParams) (df : Frame) (ind : IndicatorResult) (now : EtTime) (orb : OrbState)
    (smc : SmcTables) : List Signal :=
  (checkOrbSignal ind params orb df now).2.toList ++ (checkVwap2sdSignal df ind params now).toList ++
    (checkSmcSignal df ind params now smc).toList

/-- The signals of a call, from the candidates of the two sides and from the others. -/
theorem generateSignals_candidates {params : StrategyParams} {ind : IndicatorResult}
    (hload : config.loadStrategyParams = some params)
    (hready : readyIndicators config params df df5m env = some ind)
    (htracked : (trackOrb df now orb params).2.isSome) :
    ∃ long short, directionalCandidate config params df df5m env ind .long = some long ∧
      directionalCandidate config params df df5m env ind .short = some short ∧
      (generateSignals config df df5m now env orb).2 =
        some (finalFilters config (regimeMultiplier ind.regime.recommendation)
          (long ++ short ++ siblingSignals params df ind now (trackOrb df now orb params).1 env.smc)) := by
  obtain ⟨long, hlong⟩ := Option.isSome_iff_exists.1
    (directionalCandidate_isSome config params df df5m env ind .long)
  obtain ⟨short, hshort⟩ := Option.isSome_iff_exists.1
    (directionalCandidate_isSome config params df df5m env ind .short)
  refine ⟨long, short, hlong, hshort, ?_⟩
  have hnone : ¬ (trackOrb df now orb params).2.isNone := by simpa [Option.isSome_iff_ne_none] using htracked
  unfold generateSignals siblingSignals
  simp only [hload, hready, hlong, hshort]
  rw [← trackOrb, if_neg hnone]
  simp only [List.append_assoc]

/-- The signals of a call, from the brackets of the core, which fit, and from the others. -/
theorem generateSignals_eq {params : StrategyParams} {ind : IndicatorResult}
    (hload : config.loadStrategyParams = some params)
    (hready : readyIndicators config params df df5m env = some ind)
    (htracked : (trackOrb df now orb params).2.isSome) :
    ∃ core siblings, (∀ s ∈ core, s.bracket.Fits config) ∧
      siblings.map Signal.bracket = siblingBrackets params df ind now (trackOrb df now orb params).1 env.smc ∧
      (generateSignals config df df5m now env orb).2 =
        some (finalFilters config (regimeMultiplier ind.regime.recommendation) (core ++ siblings)) := by
  have hrr := Config.minRiskReward_pos (Config.valid_of_loadStrategyParams hload)
  obtain ⟨long, short, hlong, hshort, heq⟩ := generateSignals_candidates hload hready htracked
  refine ⟨long ++ short, siblingSignals params df ind now (trackOrb df now orb params).1 env.smc, ?_, ?_, heq⟩
  · intro s hs
    rcases List.mem_append.1 hs with hs | hs
    · exact directionalCandidate_fits hrr hlong hs
    · exact directionalCandidate_fits hrr hshort hs
  · simp only [siblingSignals, List.map_append, ← Option.toList_map, checkOrbSignal_bracket, checkVwap2sdSignal_bracket,
      checkSmcSignal_bracket, siblingBrackets]

theorem readyIndicators_atr_pos {params : StrategyParams} {ind : IndicatorResult}
    (hready : readyIndicators config params df df5m env = some ind) : 0 < ind.atr := by
  unfold readyIndicators at hready
  split at hready
  · simp at hready
  obtain ⟨ind', hind, hready⟩ := Option.bind_eq_some_iff.1 hready
  simp only at hready
  split at hready
  · simp at hready
  rw [← Option.some.inj hready]
  have hatr := calculateIndicators_atr_pos hind
  unfold overrideRegime
  split
  · split
    · exact hatr
    · exact hatr
  · exact hatr

/-- With positive multipliers no unchecked target is on the wrong side of its entry. -/
theorem siblings_target_nonneg (hpos : config.MultipliersPositive) {params : StrategyParams} {ind : IndicatorResult}
    (hload : config.loadStrategyParams = some params) (hready : readyIndicators config params df df5m env = some ind)
    {b : Bracket} (hb : b ∈ siblingBrackets params df ind now orb env.smc) : 0 ≤ b.targetDistance := by
  have hatr := readyIndicators_atr_pos hready
  have hfields := Config.strategyFields_of_loadStrategyParams hload
  have hmult : ∀ f : StrategyFields → ℚ, 0 < f config.strategyFields → 0 < f params.toStrategyFields := by
    intro f hf
    rw [hfields]
    exact hf
  rcases List.mem_append.1 hb with hb | hb
  · rcases List.mem_append.1 hb with hb | hb
    · exact (orbEntry_placed hatr (hmult StrategyFields.orbSlAtrMult (hpos _ (by simp [Config.strategyFields])))
        (hmult StrategyFields.orbTpAtrMult (hpos _ (by simp [Config.strategyFields]))) (Option.mem_toList.1 hb)).2.le
    · exact (vwap2sdEntry_placed hatr (hmult StrategyFields.vwap2sdSlAtrMult (hpos _ (by simp [Config.strategyFields])))
        (Option.mem_toList.1 hb)).2
  · exact (smcEntry_placed hatr (hmult StrategyFields.smcTpAtrMult (hpos _ (by simp [Config.strategyFields])))
      (Option.mem_toList.1 hb)).le

theorem generateSignals_eq_some {signals : List Signal}
    (h : (generateSignals config df df5m now env orb).2 = some signals) :
    signals = [] ∨ ∃ params ind, config.loadStrategyParams = some params ∧
      readyIndicators config params df df5m env = some ind ∧ (trackOrb df now orb params).2.isSome := by
  rcases hload : config.loadStrategyParams with _ | params
  · simp [generateSignals, hload] at h
  rcases hready : readyIndicators config params df df5m env with _ | ind
  · left
    simpa [generateSignals, hload, hready] using h.symm
  rcases htracked : (trackOrb df now orb params).2 with _ | range
  · obtain ⟨long, hlong⟩ := Option.isSome_iff_exists.1
      (directionalCandidate_isSome config params df df5m env ind .long)
    obtain ⟨short, hshort⟩ := Option.isSome_iff_exists.1
      (directionalCandidate_isSome config params df df5m env ind .short)
    unfold generateSignals at h
    simp only [hload, hready, hlong, hshort] at h
    rw [← trackOrb, if_pos (by rw [htracked]; rfl)] at h
    simp at h
  · exact .inr ⟨params, ind, rfl, hready, by rw [htracked]; rfl⟩

theorem signalsWellPlaced_iff : SignalsWellPlaced config df df5m now env orb ↔ SiblingsFit config df df5m now env orb := by
  constructor
  · intro h params ind hload hready htracked b hb
    have hvalid := Config.valid_of_loadStrategyParams hload
    obtain ⟨core, siblings, -, hsiblings, heq⟩ := generateSignals_eq hload hready htracked
    rw [← hsiblings] at hb
    obtain ⟨s, hs, rfl⟩ := List.mem_map.1 hb
    exact (forall_finalFilters_iff hvalid).1 (h _ heq) s (List.mem_append_right _ hs)
  · intro h signals hsignals
    rcases generateSignals_eq_some hsignals with rfl | ⟨params, ind, hload, hready, htracked⟩
    · simp
    have hvalid := Config.valid_of_loadStrategyParams hload
    obtain ⟨core, siblings, hcore, hsiblings, heq⟩ := generateSignals_eq hload hready htracked
    rw [← Option.some.inj (heq.symm.trans hsignals), forall_finalFilters_iff hvalid]
    intro s hs hpasses
    rcases List.mem_append.1 hs with hs | hs
    · exact hcore s hs
    · exact h params ind hload hready htracked s.bracket (hsiblings ▸ List.mem_map_of_mem hs) hpasses

end Calls

/-! A flat session under a gap: the gap from 100 to 130 is within a quarter of its height of the price 95, so that the
stop of the long signal, 0.8 ranges below 100, is above its entry. -/

def flatBar : Ohlcv := { opening := 95, high := 96, low := 94, close := 95, volume := 100 }

def flatFrame : Frame := { bars := List.replicate 21 flatBar, timestamped := false }

def risingFrame : Frame where
  bars := (List.range 30).map fun i =>
    { opening := 65 + i, high := 67 + i, low := 64 + i, close := 66 + i, volume := 100 }
  timestamped := false

/-- The defaults of the module with the smart money generator switched on. -/
def smcConfig : Config where
  strategy := { allowSmcEntries := true }
  emaFast := some 9
  emaSlow := some 21
  stopLossAtrMult := some 1
  takeProfitAtrMult := some 2
  minConfidence := some (55/100)
  minRiskReward := 13/10

def gapEnvironment : Environment where
  orState := { orDefined := true, barCount := 15, sessionOpenPrice := some 95, orHigh := some 96, orLow := some 94 }
  extended :=
    { keyLevels := ((((Dict.empty.set "current_close" (some 95)).set "daily_open" (some 95)).set "prev_day_high"
        (some 96)).set "prev_day_low" (some 94)).set "prev_day_mid" (some 95) }
  smc := { fvg := some [{ fvg := .fin 1, top := .fin 130, bottom := .fin 100, mitigatedIndex := .nan }] }

def gapSignal : Signal where
  direction := .long
  entryPrice := 95
  stopLoss := 984/10
  takeProfit := 100
  confidence := 65/100
  riskReward := 5 / (34/10)
  entryTrigger := .smc .smcFvg

theorem not_signalsWellPlaced :
    (∀ bar ∈ flatFrame.bars, 0 < bar.opening ∧ 0 < bar.high ∧ 0 < bar.low ∧ 0 < bar.close) ∧
      smcConfig.MultipliersPositive ∧
      ¬ SignalsWellPlaced smcConfig flatFrame (some risingFrame) { date := 0, micros := microsAt 10 30 } gapEnvironment
        {} := by
  refine ⟨by decide +kernel, by decide +kernel, fun h => ?_⟩
  have hsignals : (generateSignals smcConfig flatFrame (some risingFrame) { date := 0, micros := microsAt 10 30 }
      gapEnvironment {}).2 = some [gapSignal] := by decide +kernel
  have hstop := (h _ hsignals gapSignal (List.mem_singleton.2 rfl)).stop
  exact absurd hstop (by decide +kernel)

end PearlAlgo.SignalGenerator
