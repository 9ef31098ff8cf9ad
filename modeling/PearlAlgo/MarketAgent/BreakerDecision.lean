import PearlAlgo.MarketAgent.CircuitBreakerFilters

/-!
# The decision on a signal

`should_allow_signal` allows a signal that every enabled hard check allows, at the smallest of the scales that the
enabled scaling checks give (`checkSignal_allowed`). It leaves alone all of the breaker but the cooldown and the counters
of blocks (`Frames`), and the counts of the reasons add up to the count of all blocks (`Counted`).
-/

namespace PearlAlgo
open Py

namespace TradingCircuitBreaker

section checks
variable (cfg : TradingCircuitBreakerConfig) (clock : Clock) (call : SignalCall)

def checkCooldown : Check := fun cb =>
  (if (cb.isInCooldown cfg clock).1 then .deny .inCooldown .warning else .pass 1, cb)

/-- The checks that may deny a signal; one that is not enabled passes. -/
def hardBlocks : List Check :=
  [checkCooldown cfg clock,
    checkIf (!cfg.enableTieredLossResponse) (checkConsecutiveLosses cfg clock),
    checkIf cfg.enableTieredLossResponse (checkTieredLosses cfg clock),
    checkSessionDrawdown cfg clock,
    checkDailyDrawdown cfg clock,
    checkDailyProfitCap cfg clock,
    checkRollingWinRate cfg clock,
    .const (call.activePositions.elim (.pass 1) (checkPositionLimits cfg call.sig)),
    checkIf cfg.enableDirectionGating (.const call.filters.directionGating.decision),
    checkIf cfg.enableRegimeAvoidance (.const call.filters.regimeAvoidance.decision),
    checkIf cfg.enableTriggerFilters (.const call.filters.triggerFilters.decision),
    checkIf cfg.enableVolatilityFilter (call.marketData.elim (.const (.pass 1)) (checkVolatilityFilter cfg)),
    checkIf cfg.enableEquityCurveFilter (checkEquityCurve cfg clock),
    checkIf cfg.enableVolatilityRiskScaling
      (.const (call.marketData.elim (.pass 1) (checkVolatilityRiskScaling cfg))),
    checkIf cfg.enableTvPaperEvalGate (.const call.filters.tvPaperEvalGate.decision)]

/-- The checks that may lower the risk scale; one that is not enabled gives 1. -/
def scalingChecks : List Check :=
  [checkIf cfg.enableTieredLossResponse (checkTieredLosses cfg clock),
    checkIf cfg.enableEquityCurveFilter (checkEquityCurve cfg clock),
    checkIf cfg.enableTodRiskScaling (.const (checkTodRiskScaling cfg clock)),
    checkIf cfg.enableVolatilityRiskScaling
      (.const (call.marketData.elim (.pass 1) (checkVolatilityRiskScaling cfg)))]

end checks

/-- The counts of the reasons add up to the count of all blocks. -/
def Counted (cb : TradingCircuitBreaker) : Prop := cb.totalBlocks = cb.blocksByReason.values.sum

variable {cfg : TradingCircuitBreakerConfig} {clock : Clock} {call : SignalCall}
  {cb cb' cb'' a b : TradingCircuitBreaker} {check next : Check}

/-! ### Checks in a row

The checks look at the evidence, which none of them changes, so each decides as it would on the breaker of the
call. -/

theorem Check.Local.decision_eq (h : Check.Local check) (hk : a.KeepsEvidence b) : (check a).1 = (check b).1 := by
  have hexpired {cb : TradingCircuitBreaker} {t : ℚ} (ht : cb.cooldownUntil.getD 0 ≤ t) : Expired t cb := by
    intro u hu
    rwa [hu] at ht
  have hsame : SameCore (max (a.cooldownUntil.getD 0) (b.cooldownUntil.getD 0)) a b := {
    consecutiveLosses := hk.consecutiveLosses.symm
    sessionPnl := hk.sessionPnl.symm
    dailyPnl := hk.dailyPnl.symm
    recentTrades := hk.recentTrades.symm
    profitLock := hk.profitLock.symm
    cooldown := .inr ⟨hexpired (le_max_left _ _), hexpired (le_max_right _ _)⟩ }
  exact (h.same _ a b hsame).1

theorem require_allowed (hl : Check.Local check) (hk : cb.KeepsEvidence cb')
    (h : (require check next cb').1.allowed = true) : (check cb).1.allowed = true ∧
      ∃ cb'', cb.KeepsEvidence cb'' ∧ (require check next cb').1 = (next cb'').1 := by
  have hd := hl.decision_eq hk
  unfold TradingCircuitBreaker.require at h ⊢
  dsimp only at h ⊢
  split at h
  next hallowed => exact ⟨by rw [hd, hallowed], (check cb').2, hk.trans (hl.keeps cb'), by rw [if_pos hallowed]⟩
  next hdenied => exact absurd h hdenied

theorem scaling_allowed {scale : ℚ} {next : ℚ → Check} (hl : Check.Local check) (hk : cb.KeepsEvidence cb')
    (h : (scaling check scale next cb').1.allowed = true) : (check cb).1.allowed = true ∧
      ∃ cb'', cb.KeepsEvidence cb'' ∧
        (scaling check scale next cb').1 = (next (min scale (check cb).1.riskScale) cb'').1 := by
  have hd := hl.decision_eq hk
  unfold TradingCircuitBreaker.scaling at h ⊢
  dsimp only at h ⊢
  split at h
  next hallowed =>
    exact ⟨by rw [hd, hallowed], (check cb').2, hk.trans (hl.keeps cb'), by rw [if_pos hallowed, hd]⟩
  next hdenied => exact absurd h hdenied

theorem allowAt_allowed {scale : ℚ} (h : (allowAt scale cb).1.allowed = true) :
    0 < scale ∧ (allowAt scale cb).1 = .pass scale := by
  unfold allowAt at h ⊢
  split at h
  · cases h
  next hscale =>
    rw [if_neg hscale]
    exact ⟨lt_of_not_ge hscale, rfl⟩

theorem countedFilter_fst {enabled : Bool} {d : CircuitBreakerDecision} {count : TradingCircuitBreaker → TradingCircuitBreaker} :
    (countedFilter enabled d count cb).1 = (checkIf enabled (.const d) cb).1 := by
  unfold countedFilter checkIf
  split <;> rfl

theorem checkConsecutiveLosses_riskScale : (checkConsecutiveLosses cfg clock cb).1.riskScale = 1 := by
  unfold checkConsecutiveLosses
  split <;> rfl

theorem local_volatility {m : Option AtrData} : Check.Local (m.elim (.const (.pass 1)) (checkVolatilityFilter cfg)) := by
  cases m with
  | none => exact Check.local_const _
  | some m => exact Check.local_volatilityFilter

theorem local_regimeAvoidance {enabled : Bool} {d : CircuitBreakerDecision} : Check.Local (countedFilter enabled d
    fun cb => { cb with wouldHaveBlockedRegime := cb.wouldHaveBlockedRegime + 1 }) :=
  Check.Local.countedFilter (fun _ _ _ h => ⟨h.1, h.2, h.3, h.4, h.5, h.6⟩) fun _ => ⟨rfl, rfl, rfl, rfl, rfl, rfl⟩

theorem local_triggerFilters {enabled : Bool} {d : CircuitBreakerDecision} : Check.Local (countedFilter enabled d
    fun cb => { cb with wouldHaveBlockedTrigger := cb.wouldHaveBlockedTrigger + 1 }) :=
  Check.Local.countedFilter (fun _ _ _ h => ⟨h.1, h.2, h.3, h.4, h.5, h.6⟩) fun _ => ⟨rfl, rfl, rfl, rfl, rfl, rfl⟩

/-- An allowed signal passes every enabled hard check, and its scale is the least that a scaling check gives. -/
theorem checkSignal_allowed (hk : cb.KeepsEvidence cb')
    (hcooldown : (checkCooldown cfg clock cb).1.allowed = true)
    (h : (checkSignal cfg clock call.sig call.filters call.activePositions call.marketData cb').1.allowed = true) :
    (∀ check ∈ hardBlocks cfg clock call, (check cb).1.allowed = true) ∧
      ∃ scale, 0 < scale ∧ scale = ((scalingChecks cfg clock call).map fun check => (check cb).1.riskScale).foldl min 1 ∧
        (checkSignal cfg clock call.sig call.filters call.activePositions call.marketData cb').1 = .pass scale := by
  unfold checkSignal at h ⊢
  have hlosses : Check.Local (if cfg.enableTieredLossResponse then checkTieredLosses cfg clock
      else checkConsecutiveLosses cfg clock) := by
    split
    · exact Check.local_tieredLosses
    · exact Check.local_consecutiveLosses
  have hposition : Check.Local (.const (call.activePositions.elim (.pass 1) (checkPositionLimits cfg call.sig))) :=
    Check.local_const _
  obtain ⟨h₁, cb₁, hk₁, e₁⟩ := scaling_allowed hlosses hk h
  rw [e₁] at h ⊢
  obtain ⟨h₂, cb₂, hk₂, e₂⟩ := require_allowed Check.local_sessionDrawdown hk₁ h
  rw [e₂] at h ⊢
  obtain ⟨h₃, cb₃, hk₃, e₃⟩ := require_allowed Check.local_dailyDrawdown hk₂ h
  rw [e₃] at h ⊢
  obtain ⟨h₄, cb₄, hk₄, e₄⟩ := require_allowed Check.local_dailyProfitCap hk₃ h
  rw [e₄] at h ⊢
  obtain ⟨h₅, cb₅, hk₅, e₅⟩ := require_allowed Check.local_rollingWinRate hk₄ h
  rw [e₅] at h ⊢
  obtain ⟨h₆, cb₆, hk₆, e₆⟩ := require_allowed hposition hk₅ h
  rw [e₆] at h ⊢
  obtain ⟨h₇, cb₇, hk₇, e₇⟩ := require_allowed (Check.local_const _).checkIf hk₆ h
  rw [e₇] at h ⊢
  obtain ⟨h₈, cb₈, hk₈, e₈⟩ := require_allowed local_regimeAvoidance hk₇ h
  rw [e₈] at h ⊢
  obtain ⟨h₉, cb₉, hk₉, e₉⟩ := require_allowed local_triggerFilters hk₈ h
  rw [e₉] at h ⊢
  obtain ⟨h₁₀, cb₁₀, hk₁₀, e₁₀⟩ := require_allowed local_volatility.checkIf hk₉ h
  rw [e₁₀] at h ⊢
  obtain ⟨h₁₁, cb₁₁, hk₁₁, e₁₁⟩ := scaling_allowed Check.local_equityCurve.checkIf hk₁₀ h
  rw [e₁₁] at h ⊢
  obtain ⟨-, cb₁₂, hk₁₂, e₁₂⟩ := scaling_allowed (Check.local_const _).checkIf hk₁₁ h
  rw [e₁₂] at h ⊢
  obtain ⟨h₁₃, cb₁₃, hk₁₃, e₁₃⟩ := scaling_allowed (Check.local_const _).checkIf hk₁₂ h
  rw [e₁₃] at h ⊢
  obtain ⟨h₁₄, cb₁₄, hk₁₄, e₁₄⟩ := require_allowed (Check.local_const _).checkIf hk₁₃ h
  rw [e₁₄] at h ⊢
  obtain ⟨hpos, hpass⟩ := allowAt_allowed h
  rw [countedFilter_fst] at h₈ h₉
  refine ⟨?_, _, hpos, ?_, hpass⟩
  · have hone : (checkIf (!cfg.enableTieredLossResponse) (checkConsecutiveLosses cfg clock) cb).1.allowed = true ∧
        (checkIf cfg.enableTieredLossResponse (checkTieredLosses cfg clock) cb).1.allowed = true := by
      cases henabled : cfg.enableTieredLossResponse with
      | true => exact ⟨rfl, by simpa [henabled, checkIf] using h₁⟩
      | false => exact ⟨by simpa [henabled, checkIf] using h₁, rfl⟩
    intro check hcheck
    simp only [hardBlocks, List.mem_cons, List.not_mem_nil, or_false] at hcheck
    rcases hcheck with rfl | rfl | rfl | rfl | rfl | rfl | rfl | rfl | rfl | rfl | rfl | rfl | rfl | rfl | rfl
    · exact hcooldown
    · exact hone.1
    · exact hone.2
    all_goals assumption
  · have htiered : ((if cfg.enableTieredLossResponse = true then checkTieredLosses cfg clock
        else checkConsecutiveLosses cfg clock) cb).1.riskScale =
        (checkIf cfg.enableTieredLossResponse (checkTieredLosses cfg clock) cb).1.riskScale := by
      cases cfg.enableTieredLossResponse with
      | true => rfl
      | false => exact checkConsecutiveLosses_riskScale
    rw [htiered]
    rfl

/-! ### What a call changes -/

/-- `cb'` has the fields of `cb` but for the cooldown and the counters of blocks, and its counters are right if those of
`cb` are. -/
structure Frames (cb cb' : TradingCircuitBreaker) : Prop where
  frame : cb' = { cb with
    cooldownUntil := cb'.cooldownUntil
    cooldownReason := cb'.cooldownReason
    totalBlocks := cb'.totalBlocks
    blocksByReason := cb'.blocksByReason
    wouldHaveBlockedRegime := cb'.wouldHaveBlockedRegime
    wouldHaveBlockedTrigger := cb'.wouldHaveBlockedTrigger }
  counted : cb.Counted → cb'.Counted

namespace Frames

theorem refl (cb : TradingCircuitBreaker) : Frames cb cb := ⟨rfl, id⟩

theorem trans (h : Frames cb cb') (h' : Frames cb' cb'') : Frames cb cb'' := by
  refine ⟨?_, fun hc => h'.counted (h.counted hc)⟩
  rw [h'.frame, h.frame]

theorem activate (cb : TradingCircuitBreaker) (r : BlockReason) (m : Int) : Frames cb (cb.activateCooldown clock r m) :=
  ⟨rfl, id⟩

theorem recordBlock (cb : TradingCircuitBreaker) (r : BlockReason) : Frames cb (cb.recordBlock r) := by
  refine ⟨rfl, fun hc => ?_⟩
  have hsum := cb.blocksByReason.values_sum_set r ((cb.blocksByReason.get? r).getD 0 + 1)
  unfold Counted at hc
  show cb.totalBlocks + 1 = (cb.blocksByReason.set r ((cb.blocksByReason.get? r).getD 0 + 1)).values.sum
  omega

end Frames

/-- A check changes no more than that. -/
def Check.Framed (check : Check) : Prop := ∀ cb : TradingCircuitBreaker, Frames cb (check cb).2

namespace Check

theorem framed_const (d : CircuitBreakerDecision) : Framed (.const d) := .refl

theorem framed_denyFor {r : BlockReason} {sev : Severity} {m : Int} : Framed (denyFor clock r sev m) :=
  fun cb => .activate cb r m

theorem Framed.ite {p : TradingCircuitBreaker → Prop} [DecidablePred p] {other : Check} (h : Framed check)
    (h' : Framed other) : Framed fun cb => if p cb then check cb else other cb := by
  intro cb
  dsimp only
  split
  · exact h cb
  · exact h' cb

theorem Framed.require (h : Framed check) (hn : Framed next) : Framed (require check next) := by
  intro cb
  unfold TradingCircuitBreaker.require
  dsimp only
  split
  · exact (h cb).trans (hn _)
  · exact (h cb).trans (.recordBlock _ _)

theorem Framed.scaling {scale : ℚ} {next : ℚ → Check} (h : Framed check) (hn : ∀ q, Framed (next q)) :
    Framed (scaling check scale next) := by
  intro cb
  unfold TradingCircuitBreaker.scaling
  dsimp only
  split
  · exact (h cb).trans (hn _ _)
  · exact (h cb).trans (.recordBlock _ _)

theorem Framed.checkIf {c : Bool} (h : Framed check) : Framed (checkIf c check) := by
  unfold TradingCircuitBreaker.checkIf
  split
  · exact h
  · exact framed_const _

theorem Framed.countedFilter {enabled : Bool} {d : CircuitBreakerDecision}
    {count : TradingCircuitBreaker → TradingCircuitBreaker} (h : ∀ cb, Frames cb (count cb)) :
    Framed (countedFilter enabled d count) := by
  intro cb
  unfold TradingCircuitBreaker.countedFilter
  split
  · exact .refl cb
  · dsimp only
    split
    · exact .refl cb
    · exact h cb

theorem framed_tieredLosses : Framed (checkTieredLosses cfg clock) := by
  intro cb
  unfold checkTieredLosses
  split
  · exact .refl cb
  · split
    · exact .refl cb
    · split
      · exact .refl cb
      · exact .activate cb _ _
      · exact .activate cb _ _

theorem framed_volatilityFilter {m : Option AtrData} :
    Framed (m.elim (.const (.pass 1)) (checkVolatilityFilter cfg)) := by
  rcases m with _ | m
  · exact framed_const _
  · exact (framed_const _).ite ((framed_const _).ite ((framed_const _).ite (framed_const _)))

theorem framed_equityCurve : Framed (checkEquityCurve cfg clock) := by
  intro cb
  unfold checkEquityCurve
  split
  · exact .refl cb
  · split
    · exact .refl cb
    · dsimp only
      split
      · exact .activate cb _ _
      · split <;> exact .refl cb

theorem framed_allowAt {scale : ℚ} : Framed (allowAt scale) := by
  intro cb
  unfold allowAt
  split
  · exact .recordBlock cb _
  · exact .refl cb

end Check

theorem checkSignal_framed :
    Check.Framed (checkSignal cfg clock call.sig call.filters call.activePositions call.marketData) := by
  have hconst := Check.framed_const
  have hdeny {r : BlockReason} {sev : Severity} {m : Int} {p : TradingCircuitBreaker → Prop} [DecidablePred p] :
      Check.Framed fun cb => if p cb then denyFor clock r sev m cb else (.pass 1, cb) :=
    Check.framed_denyFor.ite (hconst _)
  refine Check.Framed.scaling ?_ fun scale => ?_
  · split
    · exact Check.framed_tieredLosses
    · exact hdeny
  refine Check.Framed.require hdeny (Check.Framed.require hdeny ?_)
  refine Check.Framed.require ((hconst _).ite hdeny) (Check.Framed.require ((hconst _).ite hdeny) ?_)
  refine (hconst _).require ((hconst _).checkIf.require ?_)
  refine Check.Framed.require (Check.Framed.countedFilter fun _ => ⟨rfl, id⟩) ?_
  refine Check.Framed.require (Check.Framed.countedFilter fun _ => ⟨rfl, id⟩) ?_
  refine Check.framed_volatilityFilter.checkIf.require ?_
  refine Check.framed_equityCurve.checkIf.scaling fun _ => ?_
  refine (hconst _).checkIf.scaling fun _ => (hconst _).checkIf.scaling fun _ => ?_
  exact (hconst _).checkIf.require Check.framed_allowAt

theorem isInCooldown_frames : Frames cb (cb.isInCooldown cfg clock).2 := by
  rcases @isInCooldown_snd cfg clock cb with h | ⟨h, -⟩ <;> rw [h]
  · exact .refl cb
  · exact ⟨rfl, id⟩

theorem decide_frames : Frames cb (decide cfg clock call cb).2 := by
  have h := @isInCooldown_frames cfg clock cb
  unfold decide shouldAllowSignal
  split
  next hc =>
    rw [hc] at h
    exact h
  next hc =>
    rw [hc] at h
    exact h.trans (checkSignal_framed _)

/-! ### The decision -/

/-- What `should_allow_signal` promises: the call on `cb` decides `d` and leaves `cb'`. -/
structure SignalDecision (cfg : TradingCircuitBreakerConfig) (clock : Clock) (call : SignalCall)
    (cb : TradingCircuitBreaker) (d : CircuitBreakerDecision) (cb' : TradingCircuitBreaker) : Prop where
  hardBlocks : d.allowed = true → ∀ check ∈ hardBlocks cfg clock call, (check cb).1.allowed = true
  riskScale : d.allowed = true → 0 < d.riskScale ∧ d.riskScale ≤ 1 ∧
    d.riskScale = ((scalingChecks cfg clock call).map fun check => (check cb).1.riskScale).foldl min 1
  frame : cb' = { cb with
    cooldownUntil := cb'.cooldownUntil
    cooldownReason := cb'.cooldownReason
    totalBlocks := cb'.totalBlocks
    blocksByReason := cb'.blocksByReason
    wouldHaveBlockedRegime := cb'.wouldHaveBlockedRegime
    wouldHaveBlockedTrigger := cb'.wouldHaveBlockedTrigger }

theorem foldl_min_le (l : List ℚ) (q : ℚ) : l.foldl min q ≤ q := by
  induction l generalizing q with
  | nil => exact le_refl q
  | cons r l ih =>
    have h := ih (min q r)
    exact h.trans (min_le_left q r)

theorem signalDecision (cb : TradingCircuitBreaker) :
    SignalDecision cfg clock call cb (decide cfg clock call cb).1 (decide cfg clock call cb).2 := by
  have hallowed (h : (decide cfg clock call cb).1.allowed = true) :
      (∀ check ∈ hardBlocks cfg clock call, (check cb).1.allowed = true) ∧ ∃ scale, 0 < scale ∧
        scale = ((scalingChecks cfg clock call).map fun check => (check cb).1.riskScale).foldl min 1 ∧
        (decide cfg clock call cb).1 = .pass scale := by
    have hk := @isInCooldown_keepsEvidence cfg clock cb
    unfold decide shouldAllowSignal at h ⊢
    rcases hc : cb.isInCooldown cfg clock with ⟨b, cb₀⟩
    rw [hc] at hk h
    cases b with
    | true => cases h
    | false =>
      have hcooldown : (checkCooldown cfg clock cb).1.allowed = true := by
        unfold checkCooldown
        rw [hc]
        rfl
      exact checkSignal_allowed hk hcooldown h
  constructor
  · intro h
    exact (hallowed h).1
  · intro h
    obtain ⟨-, scale, hpos, hscale, hd⟩ := hallowed h
    rw [hd]
    refine ⟨hpos, ?_, hscale⟩
    rw [CircuitBreakerDecision.pass, hscale]
    exact foldl_min_le _ 1
  · exact decide_frames.frame

end TradingCircuitBreaker

open TradingCircuitBreaker

/-- Only a signal is counted as blocked. -/
theorem BreakerAct.apply_counted {cfg : TradingCircuitBreakerConfig} {cb : TradingCircuitBreaker} {a : BreakerAct}
    (h : cb.Counted) : (a.apply cfg cb).Counted := by
  obtain ⟨clock, op⟩ := a
  cases op with
  | shouldAllowSignal call => exact decide_frames.counted h
  | recordTradeResult t =>
    simp only [apply, recordTradeResult]
    split
    · split <;> exact h
    · exact h
  | syncBrokerPnl pnl =>
    simp only [apply, syncBrokerPnl]
    split
    · rw [updateSessionProfitLock_eq]
      dsimp only
      split <;> exact h
    · exact h
  | hydrateDailyPnl pnl =>
    simp only [apply, hydrateDailyPnl]
    split
    · exact h
    · split <;> exact h
  | restorePersistedState data =>
    simp only [apply, restorePersistedState]
    split <;> exact h
  | recordShadowOutcome t b =>
    simp only [apply, recordShadowOutcome]
    split <;> exact h
  | getStatus => exact isInCooldown_frames.counted h
  | _ => exact h

theorem runBreaker_counted {cfg : TradingCircuitBreakerConfig} {cb : TradingCircuitBreaker} (acts : List BreakerAct)
    (h : cb.Counted) : (runBreaker cfg cb acts).Counted := by
  induction acts generalizing cb with
  | nil => exact h
  | cons a acts ih => exact ih (BreakerAct.apply_counted h)

/-- A call of `should_allow_signal` in a reachable state. -/
theorem shouldAllow_decision (lower : String → String) (cfg : FilterConfig) (acts : List BreakerAct) (time : GateTime)
    (sig : GatedSignal) (activePositions : Option (List GatedPosition)) (marketData : Option AtrData) :
    SignalDecision cfg.toTradingCircuitBreakerConfig time.clock (sig.call lower cfg time activePositions marketData)
        (runBreaker cfg.toTradingCircuitBreakerConfig {} acts)
        (shouldAllow lower cfg time sig activePositions marketData
          (runBreaker cfg.toTradingCircuitBreakerConfig {} acts)).1
        (shouldAllow lower cfg time sig activePositions marketData
          (runBreaker cfg.toTradingCircuitBreakerConfig {} acts)).2 ∧
      (runBreaker cfg.toTradingCircuitBreakerConfig {} acts).Counted := by
  have hcounted : Counted {} := rfl
  exact ⟨signalDecision _, runBreaker_counted acts hcounted⟩

end PearlAlgo
