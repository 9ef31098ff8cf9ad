import PearlAlgo.TradingBots.BracketGeometry

/-!
# The side of the VWAP (`trading_bots/signal_generator.py`)

A branch of the core lets a side pass when any trigger fires, without the filter by the VWAP when the mean reversion or
the reclaim is among them, and then names the first trigger of a list of its own. `vwapSided_iff` says in which calls the
named trigger is one that held, on the trend side of the VWAP.
-/

namespace PearlAlgo.SignalGenerator
open Py

/-- The close is above the VWAP for a long, and below it for a short. -/
def Frame.Beyond (df : Frame) (side : PositionSide) : Prop :=
  ∃ vwap, calculateVwap df = some vwap ∧ side.lt vwap df.last.close

/-- The triggers of the core but the mean reversion and the reclaim. -/
def EntryTrigger.followsVwap : EntryTrigger → Bool
  | .emaCross | .vwapCross | .vwapRetest | .trendBreakout | .emaPullback | .trendMomentum => true
  | .meanReversion | .vwapReclaim | .orbBreakout | .vwap2sdReversion | .smc _ => false

section Condition
variable (config : Config) (params : StrategyParams) (df : Frame) (df5m : Option Frame) (env : Environment)
  (ind : IndicatorResult) (side : PositionSide)

/-- The entry condition of a trigger, with its flag of the configuration and the trend that it asks for. -/
def entryCondition : EntryTrigger → Bool
  | .emaCross => (directionalTriggers config df ind side).emaCross
  | .vwapCross => config.allowVwapCrossEntries && detectVwapCross side df && emaTrend ind side
  | .vwapRetest => vwapRetest config df ind side
  | .trendBreakout => trendBreakout config df ind side
  | .meanReversion => meanReversion config df ind side
  | .emaPullback => emaPullback config df ind side
  | .vwapReclaim => vwapReclaim config df ind side
  | .trendMomentum => trendMomentum config ind side
  | .orbBreakout | .vwap2sdReversion | .smc _ => true

/-- The signal is on the trend side of the VWAP, its trigger held, and its label is that of the price. -/
structure Signal.OnVwapSide (s : Signal) : Prop where
  beyond : df.Beyond s.direction
  condition : entryCondition config df ind s.direction s.entryTrigger
  label : ∃ position, s.vwapPosition = some position ∧ df.Beyond position

/-- A side that is let in under the name of another trigger: an EMA cross on the wrong side of the VWAP, or a VWAP cross
against the averages. -/
structure Misfires : Prop where
  allowed : entryAllowed ind side (directionalTriggers config df ind side)
  misnamed : (directionalTriggers config df ind side).emaCross ∧ ¬ df.Beyond side ∨
    ¬ (directionalTriggers config df ind side).emaCross ∧ (directionalTriggers config df ind side).vwapCross ∧
      ¬ emaTrend ind side

/-- The confidence of a side with the base confidence of the crosses. -/
def crossConfidence : ℚ := applyDirectionalConfidenceAdjustments params ind side env.orState params.baseConfidence

/-- The bracket of a side with a score. -/
def coreBracket (confidence : ℚ) : Bracket where
  side := side
  entry := ind.close
  confidence := confidence
  stopDistance := ind.atr * dynamicSlMult config df5m env ind
  targetDistance := ind.atr * dynamicTpMult config ind

/-- The checks of the core, and the filters at the end. -/
structure Bracket.Kept (multiplier : ℚ) (b : Bracket) : Prop where
  confidence : config.minConfidenceOf b.side ≤ b.confidence
  chop : ¬ chopBlocked config df5m env b.confidence
  risk : 0 < b.stopDistance
  maxStop : b.stopDistance ≤ config.maxStopPoints
  reward : config.minRiskReward ≤ safeDiv b.targetDistance b.stopDistance 0
  passes : { b with confidence := min b.confidence (99/100) }.Passes config multiplier

end Condition

section Candidates
variable {config : Config} {params : StrategyParams} {df : Frame} {df5m : Option Frame} {env : Environment}
  {ind : IndicatorResult} {side : PositionSide}

/-- The indicators are those of the frame. -/
structure IndicatorResult.Reads (ind : IndicatorResult) (df : Frame) : Prop where
  close : ind.close = df.last.close
  vwap : ind.vwapVal = calculateVwap df

theorem readyIndicators_reads (h : readyIndicators config params df df5m env = some ind) : ind.Reads df := by
  unfold readyIndicators at h
  split at h
  · simp at h
  obtain ⟨ind', hind, h⟩ := Option.bind_eq_some_iff.1 h
  have hreads : ind'.Reads df := by
    unfold calculateIndicators at hind
    obtain ⟨atr, -, hind⟩ := Option.bind_eq_some_iff.1 hind
    split at hind
    · simp at hind
    · rw [← Option.some.inj hind]
      exact ⟨rfl, rfl⟩
  simp only at h
  split at h
  · simp at h
  rw [← Option.some.inj h]
  unfold overrideRegime
  split
  · split
    · exact ⟨hreads.close, hreads.vwap⟩
    · exact hreads
  · exact hreads

theorem priceBeyondVwap_iff (h : ind.Reads df) : priceBeyondVwap ind side ↔ df.Beyond side := by
  unfold priceBeyondVwap Frame.Beyond
  rw [h.vwap, h.close]
  simp [Option.any_eq_true]

/-! ### What the flags say of the price -/

theorem beyond_of_vwapCross (h : detectVwapCross side df) : df.Beyond side := by
  unfold detectVwapCross at h
  obtain ⟨before, -, h⟩ := (Option.any_eq_true _ _).1 h
  obtain ⟨now, hnow, h⟩ := (Option.any_eq_true _ _).1 h
  exact ⟨now, hnow, (of_decide_eq_true h).2⟩

theorem beyond_of_vwapRetest (hind : ind.Reads df) (h : vwapRetest config df ind side) : df.Beyond side := by
  unfold vwapRetest at h
  obtain ⟨vwap, hvwap, h⟩ := (Option.any_eq_true _ _).1 (Bool.and_eq_true_iff.1 h).2
  rw [hind.vwap] at hvwap
  rw [hind.close] at h
  exact ⟨vwap, hvwap, (of_decide_eq_true h).2⟩

theorem beyond_of_vwapReclaim (hind : ind.Reads df) (h : vwapReclaim config df ind side) : df.Beyond side := by
  unfold vwapReclaim at h
  obtain ⟨vwap, hvwap, h⟩ := (Option.any_eq_true _ _).1 (Bool.and_eq_true_iff.1 h).2
  rw [hind.vwap] at hvwap
  rw [hind.close] at h
  exact ⟨vwap, hvwap, (of_decide_eq_true h).2⟩

theorem beyond_of_trendBreakout (hind : ind.Reads df) (h : trendBreakout config df ind side) : df.Beyond side := by
  unfold trendBreakout at h
  simp only [Bool.and_eq_true] at h
  exact (priceBeyondVwap_iff hind).1 h.1.2

theorem beyond_of_trendMomentum (hind : ind.Reads df) (h : trendMomentum config ind side) : df.Beyond side := by
  unfold trendMomentum at h
  simp only [Bool.and_eq_true] at h
  exact (priceBeyondVwap_iff hind).1 h.1.2

/-! ### The named trigger -/

/-- What holds of the named trigger of a side that is let in, if it is to follow the VWAP. -/
theorem named_iff (hind : ind.Reads df) (hallowed : entryAllowed ind side (directionalTriggers config df ind side))
    {trigger : EntryTrigger} {base : ℚ}
    (hscore : initializeDirectionalScore (directionalTriggers config df ind side) params = some (trigger, base)) :
    (trigger.followsVwap →
        (df.Beyond side ∧ entryCondition config df ind side trigger ↔ ¬ Misfires config df ind side)) ∧
      (Misfires config df ind side → trigger.followsVwap ∧ base = params.baseConfidence) := by
  unfold initializeDirectionalScore at hscore
  by_cases hema : (directionalTriggers config df ind side).emaCross
  · rw [if_pos hema] at hscore
    cases hscore
    refine ⟨fun _ => ⟨fun h hmis => ?_, fun hnot => ⟨?_, hema⟩⟩, fun _ => ⟨rfl, rfl⟩⟩
    · rcases hmis.misnamed with ⟨-, hbeyond⟩ | ⟨hnema, -⟩
      · exact hbeyond h.1
      · exact hnema hema
    · by_contra hbeyond
      exact hnot ⟨hallowed, .inl ⟨hema, hbeyond⟩⟩
  rw [if_neg hema] at hscore
  by_cases hcross : (directionalTriggers config df ind side).vwapCross
  · rw [if_pos hcross] at hscore
    cases hscore
    have hflags : config.allowVwapCrossEntries ∧ detectVwapCross side df := Bool.and_eq_true_iff.1 hcross
    refine ⟨fun _ => ⟨fun h hmis => ?_, fun hnot => ⟨beyond_of_vwapCross hflags.2, ?_⟩⟩, fun _ => ⟨rfl, rfl⟩⟩
    · rcases hmis.misnamed with ⟨hema', -⟩ | ⟨-, -, htrend⟩
      · exact hema hema'
      · exact htrend (Bool.and_eq_true_iff.1 h.2).2
    · refine Bool.and_eq_true_iff.2 ⟨hcross, ?_⟩
      by_contra htrend
      exact hnot ⟨hallowed, .inr ⟨hema, hcross, htrend⟩⟩
  rw [if_neg hcross] at hscore
  have hnot : ¬ Misfires config df ind side := by
    intro hmis
    rcases hmis.misnamed with ⟨hema', -⟩ | ⟨-, hcross', -⟩
    · exact hema hema'
    · exact hcross hcross'
  refine ⟨fun hfollows => iff_of_true ?_ hnot, fun hmis => absurd hmis hnot⟩
  split_ifs at hscore with hretest hbreakout hreversion hpullback hreclaim hmomentum
  · cases hscore
    exact ⟨beyond_of_vwapRetest hind hretest, hretest⟩
  · cases hscore
    exact ⟨beyond_of_trendBreakout hind hbreakout, hbreakout⟩
  · cases hscore
    cases hfollows
  · cases hscore
    -- the pullback has no condition on the VWAP: the filter of the side applies, or the reclaim has fired as well
    have hfilter := (Bool.and_eq_true_iff.1 hallowed).2
    simp only [Bool.or_eq_true] at hfilter
    rcases hfilter with (hbeyond | hreversion') | hreclaim
    · exact ⟨(priceBeyondVwap_iff hind).1 hbeyond, hpullback⟩
    · exact absurd hreversion' hreversion
    · exact ⟨beyond_of_vwapReclaim hind hreclaim, hpullback⟩
  · cases hscore
    cases hfollows
  · cases hscore
    exact ⟨beyond_of_trendMomentum hind hmomentum, hmomentum⟩

/-! ### One side -/

variable {multiplier confidence base : ℚ} {trigger : EntryTrigger} {s : Signal}

theorem scoredCandidate_eq_some
    (h : scoredCandidate config df5m env ind side trigger confidence = some s) :
    s.bracket = coreBracket config df5m env ind side (min confidence (99/100)) ∧ s.entryTrigger = trigger ∧
      s.direction = side ∧ s.vwapPosition = some side := by
  unfold scoredCandidate at h
  dsimp only at h
  split_ifs at h
  rw [← Option.some.inj h]
  refine ⟨?_, rfl, rfl, rfl⟩
  simp only [Signal.bracket, PositionSide.move_behind, PositionSide.move_ahead, coreBracket]

theorem scoredCandidate_isSome_iff (trigger : EntryTrigger) :
    (scoredCandidate config df5m env ind side trigger confidence).isSome ↔
      config.minConfidenceOf side ≤ confidence ∧ ¬ chopBlocked config df5m env confidence ∧
        0 < ind.atr * dynamicSlMult config df5m env ind ∧
        ind.atr * dynamicSlMult config df5m env ind ≤ config.maxStopPoints ∧
        config.minRiskReward ≤ safeDiv (ind.atr * dynamicTpMult config ind) (ind.atr * dynamicSlMult config df5m env ind) 0 := by
  unfold scoredCandidate
  dsimp only
  rw [PositionSide.move_behind, PositionSide.move_ahead]
  have hle : side.le ind.close (side.behind ind.close (ind.atr * dynamicSlMult config df5m env ind)) ↔
      ind.atr * dynamicSlMult config df5m env ind ≤ 0 := by
    cases side with
    | long => exact le_sub_self_iff _
    | short => exact add_le_iff_nonpos_right _
  simp only [hle, or_self]
  split
  next h => exact iff_of_false (by simp) fun hk => h.elim (not_lt.2 hk.1) hk.2.1
  next h =>
    obtain ⟨hconf, hchop⟩ := not_or.1 h
    split
    next hrisk => exact iff_of_false (by simp) fun hk => not_lt.2 hrisk hk.2.2.1
    next hrisk =>
      split
      next hmax => exact iff_of_false (by simp) fun hk => not_lt.2 hk.2.2.2.1 hmax
      next hmax =>
        split
        next hreward => exact iff_of_false (by simp) fun hk => not_lt.2 hk.2.2.2.2 hreward
        next hreward => exact iff_of_true rfl ⟨not_lt.1 hconf, hchop, not_le.1 hrisk, not_lt.1 hmax, not_lt.1 hreward⟩

/-- What a side yields under the name of its trigger is its bracket, if that is kept. -/
theorem exists_scored_iff :
    (∃ s, scoredCandidate config df5m env ind side trigger confidence = some s ∧ s.bracket.Passes config multiplier) ↔
      (coreBracket config df5m env ind side confidence).Kept config df5m env multiplier := by
  constructor
  · rintro ⟨s, hs, hpasses⟩
    obtain ⟨hconf, hchop, hrisk, hmax, hreward⟩ := (scoredCandidate_isSome_iff trigger).1 (Option.isSome_of_eq_some hs)
    rw [(scoredCandidate_eq_some hs).1] at hpasses
    exact ⟨hconf, hchop, hrisk, hmax, hreward, hpasses⟩
  · intro h
    obtain ⟨s, hs⟩ := Option.isSome_iff_exists.1 ((scoredCandidate_isSome_iff trigger).2
      ⟨h.confidence, h.chop, h.risk, h.maxStop, h.reward⟩)
    refine ⟨s, hs, ?_⟩
    rw [(scoredCandidate_eq_some hs).1]
    exact h.passes

theorem forall_finalFilters {l : List Signal} {P : Signal → Prop} :
    (∀ s ∈ finalFilters config multiplier l, P s) ↔
      ∀ s ∈ l, s.bracket.Passes config multiplier → P (s.adjusted multiplier) := by
  unfold finalFilters
  simp only [List.mem_filter, List.mem_map, Signal.passes_iff]
  constructor
  · intro h s hs hpasses
    exact h _ ⟨⟨⟨s, hs, rfl⟩, hpasses.1⟩, hpasses.2⟩
  · rintro h _ ⟨⟨⟨s, hs, rfl⟩, hconf⟩, hprices⟩
    exact h s hs ⟨hconf, hprices⟩

/-- The signals of a side are on it exactly if it does not misfire with a bracket that is kept. -/
theorem side_onVwapSide_iff (hind : ind.Reads df) {l : List Signal}
    (hl : directionalCandidate config params df df5m env ind side = some l) :
    (∀ s ∈ finalFilters config multiplier l, s.entryTrigger.followsVwap → s.OnVwapSide config df ind) ↔
      ((coreBracket config df5m env ind side (crossConfidence params env ind side)).Kept config df5m env multiplier →
        ¬ Misfires config df ind side) := by
  rw [forall_finalFilters]
  unfold directionalCandidate at hl
  dsimp only at hl
  by_cases hallowed : entryAllowed ind side (directionalTriggers config df ind side)
  · rw [if_pos hallowed] at hl
    obtain ⟨⟨trigger, base⟩, hscore, rfl⟩ := Option.map_eq_some_iff.1 hl
    obtain ⟨hnamed, hbase⟩ := named_iff hind hallowed hscore
    have hon : ∀ s, scoredCandidate config df5m env ind side trigger
          (applyDirectionalConfidenceAdjustments params ind side env.orState base) = some s → trigger.followsVwap →
        ((s.adjusted multiplier).OnVwapSide config df ind ↔ ¬ Misfires config df ind side) := by
      intro s hs hfollows
      obtain ⟨-, htrigger, hdirection, hlabel⟩ := scoredCandidate_eq_some hs
      rw [← hnamed hfollows]
      have hdirection' : (s.adjusted multiplier).direction = side := hdirection
      have htrigger' : (s.adjusted multiplier).entryTrigger = trigger := htrigger
      constructor
      · rintro ⟨hbeyond, hcondition, -⟩
        rw [hdirection'] at hbeyond hcondition
        rw [htrigger'] at hcondition
        exact ⟨hbeyond, hcondition⟩
      · rintro ⟨hbeyond, hcondition⟩
        refine ⟨?_, ?_, side, hlabel, hbeyond⟩
        · rw [hdirection']
          exact hbeyond
        · rw [hdirection', htrigger']
          exact hcondition
    constructor
    · intro h hkept hmis
      obtain ⟨hfollows, rfl⟩ := hbase hmis
      obtain ⟨s, hs, hpasses⟩ := (@exists_scored_iff config df5m env ind side multiplier _ trigger).2 hkept
      have hside := h s (Option.mem_toList.2 hs) hpasses ((scoredCandidate_eq_some hs).2.1.symm ▸ hfollows)
      exact (hon s hs hfollows).1 hside hmis
    · intro h s hs hpasses hfollows
      have hs : scoredCandidate config df5m env ind side trigger _ = some s := Option.mem_toList.1 hs
      have hfollows : trigger.followsVwap := (scoredCandidate_eq_some hs).2.1 ▸ hfollows
      refine (hon s hs hfollows).2 fun hmis => ?_
      obtain ⟨-, rfl⟩ := hbase hmis
      exact h (exists_scored_iff.1 ⟨s, hs, hpasses⟩) hmis
  · rw [if_neg hallowed] at hl
    cases hl
    exact iff_of_true (fun s hs => by cases hs) fun _ hmis => hallowed hmis.allowed

/-! ### Calls -/

theorem siblingSignals_follow {now : EtTime} {orb : OrbState} {smc : SmcTables}
    (h : s ∈ siblingSignals params df ind now orb smc) : ¬ s.entryTrigger.followsVwap := by
  unfold siblingSignals at h
  simp only [List.mem_append, Option.mem_toList] at h
  rcases h with (horb | hvwap) | hsmc
  · unfold checkOrbSignal at horb
    split at horb
    · dsimp only at horb
      split at horb
      · cases horb
      · cases horb
        simp [orbSignal, EntryTrigger.followsVwap]
    · cases horb
  · obtain ⟨⟨_, _, _⟩, -, rfl⟩ := Option.map_eq_some_iff.1 hvwap
    simp [vwap2sdSignal, EntryTrigger.followsVwap]
  · obtain ⟨⟨fvg, boosts⟩, -, hsmc⟩ := Option.bind_eq_some_iff.1 hsmc
    dsimp only at hsmc
    split at hsmc
    · split at hsmc
      · cases hsmc
      · cases hsmc
        simp [EntryTrigger.followsVwap]
    · cases hsmc

end Candidates

section Calls
variable (config : Config) (df : Frame) (df5m : Option Frame) (now : EtTime) (env : Environment) (orb : OrbState)

/-- The signals of a call that name a trigger with the VWAP are on their side of it. -/
def VwapSided : Prop :=
  ∀ params ind signals, config.loadStrategyParams = some params → readyIndicators config params df df5m env = some ind →
    (generateSignals config df df5m now env orb).2 = some signals →
    ∀ s ∈ signals, s.entryTrigger.followsVwap → s.OnVwapSide config df ind

/-- No side of the call misfires with a bracket that is kept. -/
def NoMisfire : Prop :=
  ∀ params ind, config.loadStrategyParams = some params → readyIndicators config params df df5m env = some ind →
    (trackOrb df now orb params).2.isSome → ∀ side,
    (coreBracket config df5m env ind side (crossConfidence params env ind side)).Kept config df5m env
      (regimeMultiplier ind.regime.recommendation) → ¬ Misfires config df ind side

/-- A call keeps its signals on their side of the VWAP exactly if no side misfires in it. -/
theorem vwapSided_iff : VwapSided config df df5m now env orb ↔ NoMisfire config df df5m now env orb := by
  have hsides : ∀ params ind, config.loadStrategyParams = some params →
      readyIndicators config params df df5m env = some ind → (trackOrb df now orb params).2.isSome →
      ((∀ signals, (generateSignals config df df5m now env orb).2 = some signals →
          ∀ s ∈ signals, s.entryTrigger.followsVwap → s.OnVwapSide config df ind) ↔
        ∀ side, (coreBracket config df5m env ind side (crossConfidence params env ind side)).Kept config df5m env
          (regimeMultiplier ind.regime.recommendation) → ¬ Misfires config df ind side) := by
    intro params ind hload hready htracked
    obtain ⟨long, short, hlong, hshort, heq⟩ := generateSignals_candidates hload hready htracked
    have hind := readyIndicators_reads hready
    rw [heq]
    have hsplit : ∀ {l₁ l₂ : List Signal} {P : Signal → Prop} {m : ℚ}, (∀ s ∈ finalFilters config m (l₁ ++ l₂), P s) ↔
        (∀ s ∈ finalFilters config m l₁, P s) ∧ ∀ s ∈ finalFilters config m l₂, P s := by
      intro l₁ l₂ P m
      rw [forall_finalFilters, forall_finalFilters, forall_finalFilters, List.forall_mem_append]
    simp only [Option.some.injEq, forall_eq']
    rw [hsplit, hsplit, side_onVwapSide_iff hind hlong, side_onVwapSide_iff hind hshort]
    have hsiblings : ∀ s ∈ finalFilters config (regimeMultiplier ind.regime.recommendation)
        (siblingSignals params df ind now (trackOrb df now orb params).1 env.smc),
        s.entryTrigger.followsVwap → s.OnVwapSide config df ind := by
      rw [forall_finalFilters]
      exact fun s hs _ hfollows => absurd (show s.entryTrigger.followsVwap from hfollows) (siblingSignals_follow hs)
    constructor
    · rintro ⟨⟨hl, hs⟩, -⟩ side
      cases side with
      | long => exact hl
      | short => exact hs
    · exact fun h => ⟨⟨h .long, h .short⟩, hsiblings⟩
  constructor
  · intro h params ind hload hready htracked
    exact (hsides params ind hload hready htracked).1 fun signals hsignals => h params ind signals hload hready hsignals
  · intro h params ind signals hload hready hsignals
    rcases generateSignals_eq_some hsignals with rfl | ⟨params', ind', hload', hready', htracked⟩
    · simp
    · obtain rfl := Option.some.inj (hload.symm.trans hload')
      obtain rfl := Option.some.inj (hready.symm.trans hready')
      exact (hsides params ind hload hready htracked).2 (h params ind hload hready htracked) signals hsignals

end Calls

/-! A fall of 24 bars, and a last bar that closes back above the VWAP on volume: the reclaim lets the long in, and it is
named for the VWAP cross although the fast average is under the slow one. -/

def crossConfig : Config where
  emaFast := some 9
  emaSlow := some 21
  stopLossAtrMult := some 1
  takeProfitAtrMult := some 2
  minConfidence := some (2/10)
  minRiskReward := 13/10
  allowVwapCrossEntries := true

def reclaimFrame : Frame where
  bars := (List.range 24).map (fun i =>
    { opening := 120 - i, high := 121 - i, low := 119 - i, close := 120 - i, volume := 100 }) ++
    [{ opening := 97, high := 113, low := 97, close := 112, volume := 150 }]
  timestamped := false

theorem not_vwapSided : ¬ VwapSided crossConfig reclaimFrame none { date := 0, micros := microsAt 20 30 } {} {} := by
  intro h
  have hind : (crossConfig.loadStrategyParams.bind fun params =>
      readyIndicators crossConfig params reclaimFrame none {}).any (fun ind => !emaTrend ind .long) := by
    decide +kernel
  have hsignals : (generateSignals crossConfig reclaimFrame none { date := 0, micros := microsAt 20 30 } {} {}).2.any
      fun signals => signals.any fun s => s.entryTrigger = .vwapCross ∧ s.direction = .long := by
    decide +kernel
  obtain ⟨ind, hready, htrend⟩ := (Option.any_eq_true _ _).1 hind
  obtain ⟨params, hload, hready⟩ := Option.bind_eq_some_iff.1 hready
  obtain ⟨signals, hsignals, hany⟩ := (Option.any_eq_true _ _).1 hsignals
  obtain ⟨s, hs, hcross⟩ := List.any_eq_true.1 hany
  obtain ⟨htrigger, hlong⟩ := of_decide_eq_true hcross
  have hcondition := (h params ind signals hload hready hsignals s hs (by rw [htrigger]; rfl)).condition
  rw [htrigger, hlong] at hcondition
  have htrend' : emaTrend ind .long := (Bool.and_eq_true_iff.1 hcondition).2
  simp [htrend'] at htrend

end PearlAlgo.SignalGenerator
