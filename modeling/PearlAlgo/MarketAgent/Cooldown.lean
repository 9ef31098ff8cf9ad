import PearlAlgo.MarketAgent.BreakerRuns

/-!
# Cooldowns: what starts them, and what their expiry leaves behind

Five checks of `should_allow_signal` come before anything of the signal itself, and each starts a cooldown when it
denies (`Trigger`). What they look at is not reset when the cooldown is over, so that the next signal is denied again
(`resumed_iff`). The end of a cooldown is one field that several operations write (`cooldown_kept`).
-/

namespace PearlAlgo
open TradingCircuitBreaker

variable {cfg : TradingCircuitBreakerConfig}

/-! ### Triggers -/

inductive Trigger
  | losses
  | sessionDrawdown
  | dailyDrawdown
  | dailyProfitCap
  | rollingWinRate
deriving DecidableEq

namespace Trigger
variable (cfg)

def reason : Trigger → BlockReason
  | losses => if cfg.enableTieredLossResponse then .tieredLossHalt else .consecutiveLosses
  | sessionDrawdown => .sessionDrawdown
  | dailyDrawdown => .dailyDrawdown
  | dailyProfitCap => .dailyProfitCap
  | rollingWinRate => .rollingWinRate

def tierHalts (losses : Nat) : Bool :=
  losses ≠ 0 && ((sortedTiers cfg).find? fun tier => tier.losses.getD 999 ≤ (losses : Int)).any (·.action ≠ .reduce)

def fires (cb : TradingCircuitBreaker) : Trigger → Bool
  | losses =>
    if cfg.enableTieredLossResponse then tierHalts cfg cb.consecutiveLosses
    else cfg.maxConsecutiveLosses ≤ cb.consecutiveLosses
  | sessionDrawdown => cb.sessionPnl ≤ -cfg.maxSessionDrawdown
  | dailyDrawdown => cb.dailyPnl ≤ -cfg.maxDailyDrawdown
  | dailyProfitCap => 0 < cfg.maxDailyProfit && cfg.maxDailyProfit ≤ cb.dailyPnl
  | rollingWinRate =>
    cfg.rollingWindowTrades / 2 ≤ cb.recentTrades.length && TradingCircuitBreaker.rollingWinRate cfg cb < cfg.minRollingWinRate

/-- What the trigger looks at is the same in both breakers. -/
def SameEvidence (cb cb' : TradingCircuitBreaker) : Trigger → Prop
  | losses => cb'.consecutiveLosses = cb.consecutiveLosses
  | sessionDrawdown => cb'.sessionPnl = cb.sessionPnl
  | dailyDrawdown | dailyProfitCap => cb'.dailyPnl = cb.dailyPnl
  | rollingWinRate => cb'.recentTrades = cb.recentTrades

/-- The order in which `should_allow_signal` comes to the triggers. -/
def order : List Trigger := [losses, sessionDrawdown, dailyDrawdown, dailyProfitCap, rollingWinRate]

def earlier (r : Trigger) : List Trigger := order.takeWhile (· ≠ r)

def first (cb : TradingCircuitBreaker) : Option Trigger := order.find? (fires cfg cb)

variable {cfg} {cb cb' : TradingCircuitBreaker} {r : Trigger}

theorem find?_eq_some_iff_takeWhile {p : Trigger → Bool} {rs : List Trigger} :
    rs.find? p = some r ↔ r ∈ rs ∧ p r = true ∧ ∀ r' ∈ rs.takeWhile (· ≠ r), p r' = false := by
  induction rs with
  | nil => simp
  | cons a rs ih =>
    by_cases ha : a = r
    · subst ha
      cases hp : p a with
      | true => simp [hp]
      | false =>
        -- what is found satisfies `p`
        have hnot : rs.find? p ≠ some a := by
          intro h
          rw [List.find?_some h] at hp
          cases hp
        simp [hp, hnot]
    · have hne : r ≠ a := fun h => ha h.symm
      cases hp : p a with
      | true => simp [hp, ha]
      | false => simpa [hp, ha, hne] using ih

theorem first_eq_some_iff : first cfg cb = some r ↔ r.fires cfg cb = true ∧ ∀ r' ∈ r.earlier, r'.fires cfg cb = false := by
  have hmem : r ∈ order := by cases r <;> decide
  unfold first earlier
  rw [find?_eq_some_iff_takeWhile]
  simp [hmem]

theorem fires_congr (h : r.SameEvidence cb cb') : r.fires cfg cb' = r.fires cfg cb := by
  cases r with
  | losses => simp only [fires, show cb'.consecutiveLosses = cb.consecutiveLosses from h]
  | sessionDrawdown => simp only [fires, show cb'.sessionPnl = cb.sessionPnl from h]
  | dailyDrawdown => simp only [fires, show cb'.dailyPnl = cb.dailyPnl from h]
  | dailyProfitCap => simp only [fires, show cb'.dailyPnl = cb.dailyPnl from h]
  | rollingWinRate =>
    have htrades : cb'.recentTrades = cb.recentTrades := h
    have hrate : TradingCircuitBreaker.rollingWinRate cfg cb' = TradingCircuitBreaker.rollingWinRate cfg cb := by
      unfold TradingCircuitBreaker.rollingWinRate
      rw [htrades]
    simp only [fires, htrades, hrate]

def reasons : List BlockReason :=
  [.consecutiveLosses, .tieredLossHalt, .sessionDrawdown, .dailyDrawdown, .dailyProfitCap, .rollingWinRate]

theorem reason_mem : r.reason cfg ∈ reasons := by
  cases r with
  | losses => cases h : cfg.enableTieredLossResponse <;> simp [reason, reasons, h]
  | _ => simp [reason, reasons]

theorem reason_injective {r' : Trigger} (h : r.reason cfg = r'.reason cfg) : r = r' := by
  cases hcfg : cfg.enableTieredLossResponse <;> cases r <;> cases r' <;> simp_all [reason]

end Trigger

/-- The outcome of a signal that the trigger has denied: a cooldown has started. -/
structure Denied (cfg : TradingCircuitBreakerConfig) (r : Trigger) (out : CircuitBreakerDecision × TradingCircuitBreaker) :
    Prop where
  allowed : out.1.allowed = false
  reason : out.1.reason = r.reason cfg
  cooldownUntil : out.2.cooldownUntil.isSome
  cooldownReason : out.2.cooldownReason = some (r.reason cfg)

/-- A check that denies when its trigger fires, and passes otherwise. -/
structure TriggeredBy (cfg : TradingCircuitBreakerConfig) (r : Trigger) (check : Check) : Prop where
  fires : ∀ cb, r.fires cfg cb = true → Denied cfg r (check cb)
  passes : ∀ cb, r.fires cfg cb = false → (check cb).1.allowed = true ∧ (check cb).2 = cb

section checks
variable {clock : Clock} {cb : TradingCircuitBreaker} {r : Trigger} {check next : Check}

theorem denied_denyFor {b : BlockReason} {sev : Severity} {minutes : Int} (h : b = r.reason cfg) :
    Denied cfg r (denyFor clock b sev minutes cb) := ⟨rfl, h, rfl, by rw [← h]; rfl⟩

theorem triggered_consecutiveLosses (htier : cfg.enableTieredLossResponse = false) :
    TriggeredBy cfg .losses (checkConsecutiveLosses cfg clock) := by
  have hfires (cb : TradingCircuitBreaker) :
      Trigger.losses.fires cfg cb = true ↔ cfg.maxConsecutiveLosses ≤ cb.consecutiveLosses := by
    simp [Trigger.fires, htier]
  constructor
  · intro cb h
    rw [hfires] at h
    rw [checkConsecutiveLosses, if_pos h]
    exact denied_denyFor (by simp [Trigger.reason, htier])
  · intro cb h
    rw [← Bool.not_eq_true, hfires] at h
    rw [checkConsecutiveLosses, if_neg h]
    exact ⟨rfl, rfl⟩

theorem triggered_tieredLosses (htier : cfg.enableTieredLossResponse = true) :
    TriggeredBy cfg .losses (checkTieredLosses cfg clock) := by
  constructor
  · intro cb h
    simp only [Trigger.fires, htier, ↓reduceIte, Trigger.tierHalts, Bool.and_eq_true, decide_eq_true_eq] at h
    obtain ⟨hlosses, hany⟩ := h
    unfold checkTieredLosses
    rw [if_neg hlosses]
    split
    next hnone => simp [hnone] at hany
    next tier htierAt =>
      rw [htierAt] at hany
      cases haction : tier.action with
      | reduce => simp [haction] at hany
      | halt => exact ⟨rfl, by simp [CircuitBreakerDecision.deny, Trigger.reason, htier], rfl,
          by simp [activateCooldown, Trigger.reason, htier]⟩
      | haltSession => exact ⟨rfl, by simp [CircuitBreakerDecision.deny, Trigger.reason, htier], rfl,
          by simp [activateCooldown, Trigger.reason, htier]⟩
  · intro cb h
    simp only [Trigger.fires, htier, ↓reduceIte, Trigger.tierHalts, Bool.and_eq_false_iff] at h
    unfold checkTieredLosses
    split
    · exact ⟨rfl, rfl⟩
    next hlosses =>
      split
      · exact ⟨rfl, rfl⟩
      next tier htierAt =>
        cases haction : tier.action with
        | reduce => exact ⟨rfl, rfl⟩
        | halt => simp [hlosses, htierAt, haction] at h
        | haltSession => simp [hlosses, htierAt, haction] at h

theorem triggered_sessionDrawdown : TriggeredBy cfg .sessionDrawdown (checkSessionDrawdown cfg clock) := by
  constructor
  · intro cb h
    rw [checkSessionDrawdown, if_pos (of_decide_eq_true h)]
    exact denied_denyFor rfl
  · intro cb h
    rw [checkSessionDrawdown, if_neg (of_decide_eq_false h)]
    exact ⟨rfl, rfl⟩

theorem triggered_dailyDrawdown : TriggeredBy cfg .dailyDrawdown (checkDailyDrawdown cfg clock) := by
  constructor
  · intro cb h
    rw [checkDailyDrawdown, if_pos (of_decide_eq_true h)]
    exact denied_denyFor rfl
  · intro cb h
    rw [checkDailyDrawdown, if_neg (of_decide_eq_false h)]
    exact ⟨rfl, rfl⟩

theorem triggered_dailyProfitCap : TriggeredBy cfg .dailyProfitCap (checkDailyProfitCap cfg clock) := by
  constructor
  · intro cb h
    simp only [Trigger.fires, Bool.and_eq_true, decide_eq_true_eq] at h
    rw [checkDailyProfitCap, if_neg (not_le.2 h.1), if_pos h.2]
    exact denied_denyFor rfl
  · intro cb h
    simp only [Trigger.fires, Bool.and_eq_false_iff, decide_eq_false_iff_not, not_lt] at h
    unfold checkDailyProfitCap
    rcases h with h | h
    · rw [if_pos h]
      exact ⟨rfl, rfl⟩
    · simp [h, CircuitBreakerDecision.pass]

theorem triggered_rollingWinRate : TriggeredBy cfg .rollingWinRate (checkRollingWinRate cfg clock) := by
  constructor
  · intro cb h
    simp only [Trigger.fires, Bool.and_eq_true, decide_eq_true_eq] at h
    rw [checkRollingWinRate, if_neg (not_lt.2 h.1), if_pos h.2]
    exact denied_denyFor rfl
  · intro cb h
    simp only [Trigger.fires, Bool.and_eq_false_iff, decide_eq_false_iff_not, not_le] at h
    unfold checkRollingWinRate
    rcases h with h | h
    · rw [if_pos h]
      exact ⟨rfl, rfl⟩
    · simp [h, CircuitBreakerDecision.pass]

theorem TriggeredBy.require_fires (h : TriggeredBy cfg r check) (hr : r.fires cfg cb = true) :
    Denied cfg r (require check next cb) := by
  have hdenied := h.fires cb hr
  unfold require
  dsimp only
  rw [hdenied.allowed]
  exact ⟨hdenied.allowed, hdenied.reason, hdenied.cooldownUntil, hdenied.cooldownReason⟩

theorem TriggeredBy.require_passes (h : TriggeredBy cfg r check) (hr : r.fires cfg cb = false) :
    require check next cb = next cb := by
  obtain ⟨hallowed, hcb⟩ := h.passes cb hr
  unfold require
  dsimp only
  rw [hallowed, hcb, if_pos rfl]

theorem TriggeredBy.scaling_fires {scale : ℚ} {next : ℚ → Check} (h : TriggeredBy cfg r check)
    (hr : r.fires cfg cb = true) : Denied cfg r (scaling check scale next cb) := by
  have hdenied := h.fires cb hr
  unfold scaling
  dsimp only
  rw [hdenied.allowed]
  exact ⟨hdenied.allowed, hdenied.reason, hdenied.cooldownUntil, hdenied.cooldownReason⟩

theorem TriggeredBy.scaling_passes {scale : ℚ} {next : ℚ → Check} (h : TriggeredBy cfg r check)
    (hr : r.fires cfg cb = false) : ∃ scale', scaling check scale next cb = next scale' cb := by
  obtain ⟨hallowed, hcb⟩ := h.passes cb hr
  refine ⟨min scale (check cb).1.riskScale, ?_⟩
  unfold scaling
  dsimp only
  rw [hallowed, hcb, if_pos rfl]

/-- A check that denies for a reason of its own. -/
def Others (check : Check) : Prop := ∀ cb, (check cb).1.reason ∉ Trigger.reasons

theorem Others.const {d : CircuitBreakerDecision} (h : d.reason ∉ Trigger.reasons) : Others (.const d) := fun _ => h

theorem Others.require (h : Others check) (hn : Others next) : Others (require check next) := by
  intro cb
  unfold TradingCircuitBreaker.require
  dsimp only
  split
  · exact hn _
  · exact h cb

theorem Others.scaling {scale : ℚ} {next : ℚ → Check} (h : Others check) (hn : ∀ q, Others (next q)) :
    Others (scaling check scale next) := by
  intro cb
  unfold TradingCircuitBreaker.scaling
  dsimp only
  split
  · exact hn _ _
  · exact h cb

theorem Others.checkIf {c : Bool} (h : Others check) : Others (checkIf c check) := by
  unfold TradingCircuitBreaker.checkIf
  split
  · exact h
  · exact .const (by decide)

theorem others_filter {d : FilterDecision} : d.decision.reason ∉ Trigger.reasons := by
  simp [FilterDecision.decision, Trigger.reasons]

theorem others_countedFilter {enabled : Bool} {d : FilterDecision} {count : TradingCircuitBreaker → TradingCircuitBreaker} :
    Others (countedFilter enabled d.decision count) := by
  intro cb
  unfold countedFilter
  split
  · exact others_filter
  · exact (by decide : BlockReason.passed ∉ Trigger.reasons)

theorem others_positionLimits {sig : SignalEntry} {activePositions : Option (List SignalEntry)} :
    (activePositions.elim (.pass 1) (checkPositionLimits cfg sig)).reason ∉ Trigger.reasons := by
  cases activePositions with
  | none => simp [Trigger.reasons]
  | some positions =>
    simp only [Option.elim_some, checkPositionLimits]
    split
    · simp [Trigger.reasons]
    · split <;> simp [Trigger.reasons]

theorem others_volatilityFilter {m : Option AtrData} :
    Others (m.elim (.const (.pass 1)) (checkVolatilityFilter cfg)) := by
  intro cb
  cases m with
  | none => simp [Check.const, Trigger.reasons]
  | some m =>
    simp only [Option.elim_some, checkVolatilityFilter]
    split
    · simp [Trigger.reasons]
    · split
      · simp [Trigger.reasons]
      · split <;> simp [Trigger.reasons]

theorem others_equityCurve : Others (checkEquityCurve cfg clock) := by
  intro cb
  unfold checkEquityCurve
  split
  · simp [Trigger.reasons]
  · split
    · simp [Trigger.reasons]
    · dsimp only
      split
      · simp [Trigger.reasons]
      · split <;> simp [Trigger.reasons]

theorem others_volatilityRiskScaling {m : Option AtrData} :
    (m.elim (.pass 1) (checkVolatilityRiskScaling cfg)).reason ∉ Trigger.reasons := by
  cases m with
  | none => simp [Trigger.reasons]
  | some m =>
    simp only [Option.elim_some, checkVolatilityRiskScaling]
    split
    · simp [Trigger.reasons]
    · split
      · split <;> simp [Trigger.reasons]
      · split <;> simp [Trigger.reasons]

theorem others_allowAt {scale : ℚ} : Others (allowAt scale) := by
  intro cb
  unfold allowAt
  split <;> simp [Trigger.reasons]

variable {sig : SignalEntry} {filters : Filters} {activePositions : Option (List SignalEntry)} {m : Option AtrData}

theorem triggered_losses : TriggeredBy cfg .losses
    (if cfg.enableTieredLossResponse then checkTieredLosses cfg clock else checkConsecutiveLosses cfg clock) := by
  cases htier : cfg.enableTieredLossResponse with
  | true => exact triggered_tieredLosses htier
  | false => exact triggered_consecutiveLosses htier

theorem checkSignal_of_first (h : Trigger.first cfg cb = some r) :
    Denied cfg r (checkSignal cfg clock sig filters activePositions m cb) := by
  obtain ⟨hfires, hearlier⟩ := Trigger.first_eq_some_iff.1 h
  unfold checkSignal
  cases r with
  | losses => exact triggered_losses.scaling_fires hfires
  | sessionDrawdown =>
    obtain ⟨scale, hnext⟩ := triggered_losses.scaling_passes (hearlier .losses (by decide))
    rw [hnext]
    exact triggered_sessionDrawdown.require_fires hfires
  | dailyDrawdown =>
    obtain ⟨scale, hnext⟩ := triggered_losses.scaling_passes (hearlier .losses (by decide))
    rw [hnext, triggered_sessionDrawdown.require_passes (hearlier .sessionDrawdown (by decide))]
    exact triggered_dailyDrawdown.require_fires hfires
  | dailyProfitCap =>
    obtain ⟨scale, hnext⟩ := triggered_losses.scaling_passes (hearlier .losses (by decide))
    rw [hnext, triggered_sessionDrawdown.require_passes (hearlier .sessionDrawdown (by decide)),
      triggered_dailyDrawdown.require_passes (hearlier .dailyDrawdown (by decide))]
    exact triggered_dailyProfitCap.require_fires hfires
  | rollingWinRate =>
    obtain ⟨scale, hnext⟩ := triggered_losses.scaling_passes (hearlier .losses (by decide))
    rw [hnext, triggered_sessionDrawdown.require_passes (hearlier .sessionDrawdown (by decide)),
      triggered_dailyDrawdown.require_passes (hearlier .dailyDrawdown (by decide)),
      triggered_dailyProfitCap.require_passes (hearlier .dailyProfitCap (by decide))]
    exact triggered_rollingWinRate.require_fires hfires

theorem checkSignal_of_none (h : Trigger.first cfg cb = none) :
    (checkSignal cfg clock sig filters activePositions m cb).1.reason ∉ Trigger.reasons := by
  have hpass (r : Trigger) : r.fires cfg cb = false := by
    have hmem : r ∈ Trigger.order := by cases r <;> decide
    simpa using List.find?_eq_none.1 h r hmem
  unfold checkSignal
  obtain ⟨scale, hnext⟩ := triggered_losses.scaling_passes (hpass .losses)
  rw [hnext, triggered_sessionDrawdown.require_passes (hpass _), triggered_dailyDrawdown.require_passes (hpass _),
    triggered_dailyProfitCap.require_passes (hpass _), triggered_rollingWinRate.require_passes (hpass _)]
  have hrest (scale : ℚ) : Others
      (scaling (checkIf cfg.enableVolatilityRiskScaling (.const (m.elim (.pass 1) (checkVolatilityRiskScaling cfg))))
        scale fun scale =>
          require (checkIf cfg.enableTvPaperEvalGate (.const filters.tvPaperEvalGate.decision)) (allowAt scale)) :=
    (Others.const others_volatilityRiskScaling).checkIf.scaling fun _ =>
      (Others.const others_filter).checkIf.require others_allowAt
  refine (Others.const others_positionLimits).require ((Others.const others_filter).checkIf.require ?_) cb
  refine others_countedFilter.require (others_countedFilter.require ?_)
  refine others_volatilityFilter.checkIf.require (others_equityCurve.checkIf.scaling fun _ => ?_)
  refine (Others.const ?_).checkIf.scaling hrest
  exact (by decide : BlockReason.passed ∉ Trigger.reasons)

end checks

/-! ### After the cooldown -/

section resume
variable {cb : TradingCircuitBreaker} {clock : Clock} {call : SignalCall} {r : Trigger}

def DeniedFor (cfg : TradingCircuitBreakerConfig) (clock : Clock) (call : SignalCall) (r : Trigger)
    (cb : TradingCircuitBreaker) : Prop :=
  (decide cfg clock call cb).1.allowed = false ∧ (decide cfg clock call cb).1.reason = r.reason cfg

theorem decide_of_expired (h : Expired clock.now cb) : decide cfg clock call cb =
    checkSignal cfg clock call.sig call.filters call.activePositions call.marketData (cb.isInCooldown cfg clock).2 := by
  have hidle := @isInCooldown_of_expired cfg clock cb h
  unfold TradingCircuitBreaker.decide shouldAllowSignal
  split
  next hc => simp [hc] at hidle
  next hc => rw [hc]

theorem Trigger.first_isInCooldown : first cfg (cb.isInCooldown cfg clock).2 = first cfg cb := by
  have hkeeps := @isInCooldown_keepsEvidence cfg clock cb
  have hfires : fires cfg (cb.isInCooldown cfg clock).2 = fires cfg cb := by
    funext r
    refine fires_congr ?_
    cases r with
    | losses => exact hkeeps.consecutiveLosses
    | sessionDrawdown => exact hkeeps.sessionPnl
    | dailyDrawdown => exact hkeeps.dailyPnl
    | dailyProfitCap => exact hkeeps.dailyPnl
    | rollingWinRate => exact hkeeps.recentTrades
  unfold first
  rw [hfires]

/-- Outside a cooldown the first trigger that fires denies the signal, and starts a cooldown. -/
theorem denied_of_first (h : Expired clock.now cb) (hfirst : Trigger.first cfg cb = some r) :
    Denied cfg r (decide cfg clock call cb) := by
  rw [decide_of_expired h]
  exact checkSignal_of_first (Trigger.first_isInCooldown.trans hfirst)

theorem deniedFor_iff : DeniedFor cfg clock call r cb ↔ Expired clock.now cb ∧ Trigger.first cfg cb = some r := by
  constructor
  · rintro ⟨-, hreason⟩
    by_cases hexpired : Expired clock.now cb
    · refine ⟨hexpired, ?_⟩
      cases hfirst : Trigger.first cfg cb with
      | none =>
        have hothers := @checkSignal_of_none cfg clock (cb.isInCooldown cfg clock).2 call.sig call.filters
          call.activePositions call.marketData (Trigger.first_isInCooldown.trans hfirst)
        rw [decide_of_expired hexpired] at hreason
        rw [hreason] at hothers
        exact absurd Trigger.reason_mem hothers
      | some r' =>
        have hreason' := (@denied_of_first cfg cb clock call r' hexpired hfirst).reason
        rw [Trigger.reason_injective (hreason'.symm.trans hreason)]
    · -- a signal during a cooldown has another reason
      unfold Expired at hexpired
      push Not at hexpired
      obtain ⟨t, ht, hlt⟩ := hexpired
      rw [decide_of_lt ht hlt] at hreason
      have hmem : BlockReason.inCooldown ∈ Trigger.reasons := by
        rw [show BlockReason.inCooldown = r.reason cfg from hreason]
        exact Trigger.reason_mem
      exact absurd hmem (by decide)
  · rintro ⟨hexpired, hfirst⟩
    have hdenied := @denied_of_first cfg cb clock call r hexpired hfirst
    exact ⟨hdenied.allowed, hdenied.reason⟩

end resume

/-- A signal has been denied and a cooldown started. When the cooldown is over, whatever has happened in between,
the next signal escapes a denial for the same reason on the same evidence if and only if the evidence has changed
or an earlier trigger fires. -/
theorem resumed_iff (cfg : TradingCircuitBreakerConfig) (cb : TradingCircuitBreaker) (clock : Clock) (call : SignalCall)
    (r : Trigger) (hstart : Denied cfg r (decide cfg clock call cb)) (acts : List BreakerAct) (clock' : Clock)
    (call' : SignalCall) (hexpired : Expired clock'.now (runBreaker cfg (decide cfg clock call cb).2 acts)) :
    ¬ (DeniedFor cfg clock' call' r (runBreaker cfg (decide cfg clock call cb).2 acts) ∧
        r.SameEvidence cb (runBreaker cfg (decide cfg clock call cb).2 acts)) ↔
      ¬ r.SameEvidence cb (runBreaker cfg (decide cfg clock call cb).2 acts) ∨
        ∃ r' ∈ r.earlier, r'.fires cfg (runBreaker cfg (decide cfg clock call cb).2 acts) = true := by
  have hfirst : Trigger.first cfg cb = some r := (deniedFor_iff.1 ⟨hstart.allowed, hstart.reason⟩).2
  generalize runBreaker cfg (decide cfg clock call cb).2 acts = cb' at *
  by_cases hsame : r.SameEvidence cb cb'
  · have hfires : r.fires cfg cb' = true := by
      rw [Trigger.fires_congr hsame]
      exact (Trigger.first_eq_some_iff.1 hfirst).1
    have hdenied : DeniedFor cfg clock' call' r cb' ↔ ∀ r' ∈ r.earlier, r'.fires cfg cb' = false := by
      rw [deniedFor_iff, Trigger.first_eq_some_iff]
      simp [hexpired, hfires]
    rw [hdenied]
    simp [hsame]
  · simp [hsame]

def losingStreak (n : Nat) : TradingCircuitBreaker :=
  runBreaker {} {} (List.replicate n ⟨⟨0, 10, 28800⟩, .recordTradeResult { isWin := false, pnl := -10 }⟩)

theorem resumed_iff_losingStreak :
    Denied {} .losses (decide {} ⟨60, 10, 28800⟩ {} (losingStreak 5)) ∧
      ¬ (DeniedFor {} ⟨1860, 10, 28800⟩ {} .losses (runBreaker {} (decide {} ⟨60, 10, 28800⟩ {} (losingStreak 5)).2
          [⟨⟨600, 10, 28800⟩, .resetSession⟩]) ∧
        Trigger.losses.SameEvidence (losingStreak 5) (runBreaker {} (decide {} ⟨60, 10, 28800⟩ {} (losingStreak 5)).2
          [⟨⟨600, 10, 28800⟩, .resetSession⟩])) := by
  have hstart : Denied {} .losses (decide {} ⟨60, 10, 28800⟩ {} (losingStreak 5)) :=
    ⟨by decide +kernel, by decide +kernel, by decide +kernel, by decide +kernel⟩
  have hend : (runBreaker {} (decide {} ⟨60, 10, 28800⟩ {} (losingStreak 5)).2
      [⟨⟨600, 10, 28800⟩, .resetSession⟩]).cooldownUntil = some 1860 := by decide +kernel
  refine ⟨hstart, (resumed_iff {} (losingStreak 5) ⟨60, 10, 28800⟩ {} .losses hstart _ ⟨1860, 10, 28800⟩ {} ?_).2
    (.inl ?_)⟩
  · intro t ht
    rw [hend] at ht
    exact (Option.some.inj ht).symm.le
  · show ¬ (runBreaker {} (decide {} ⟨60, 10, 28800⟩ {} (losingStreak 5)).2
      [⟨⟨600, 10, 28800⟩, .resetSession⟩]).consecutiveLosses = (losingStreak 5).consecutiveLosses
    decide +kernel

/-- Half an hour after five losses, and nothing has happened: the next signal is denied for the five losses again. -/
theorem not_resumed : ¬ ∀ cfg cb clock call r, cfg.autoResumeAfterCooldown = true → r ≠ Trigger.dailyProfitCap →
    Denied cfg r (decide cfg clock call cb) → ∀ acts : List BreakerAct,
      (∀ a ∈ acts, ∀ t, a.op = .recordTradeResult t → t.isWin = true) → ∀ clock' call',
        Expired clock'.now (runBreaker cfg (decide cfg clock call cb).2 acts) →
        ¬ (DeniedFor cfg clock' call' r (runBreaker cfg (decide cfg clock call cb).2 acts) ∧
          r.SameEvidence cb (runBreaker cfg (decide cfg clock call cb).2 acts)) := by
  intro h
  have hend : (decide {} ⟨60, 10, 28800⟩ {} (losingStreak 5)).2.cooldownUntil = some 1860 := by decide +kernel
  refine h {} (losingStreak 5) ⟨60, 10, 28800⟩ {} .losses rfl (by decide)
    ⟨by decide +kernel, by decide +kernel, by decide +kernel, by decide +kernel⟩ [] (by simp) ⟨1860, 10, 28800⟩ {} ?_ ⟨?_, ?_⟩
  · intro t ht
    rw [runBreaker_nil, hend] at ht
    exact (Option.some.inj ht).symm.le
  · exact ⟨by decide +kernel, by decide +kernel⟩
  · show (decide {} ⟨60, 10, 28800⟩ {} (losingStreak 5)).2.consecutiveLosses = (losingStreak 5).consecutiveLosses
    decide +kernel

/-! ### The end of a cooldown in a run -/

/-- An operation that ends no cooldown and gives it no end before `t`. -/
def KeepsUntil (cfg : TradingCircuitBreakerConfig) (t : ℚ) (cb : TradingCircuitBreaker) (a : BreakerAct) : Prop :=
  a.clock.now < t ∧ a.clears cfg cb = false ∧ ∀ e, a.ownEnd cfg cb = some e → t ≤ e

theorem keepsUntil_step {t : ℚ} (cb : TradingCircuitBreaker) (a : BreakerAct)
    (h : ∃ u, cb.cooldownUntil = some u ∧ t ≤ u) (ha : KeepsUntil cfg t cb a) :
    ∃ u, (a.apply cfg cb).cooldownUntil = some u ∧ t ≤ u := by
  obtain ⟨u, hu, hle⟩ := h
  obtain ⟨hnow, hclears, hown⟩ := ha
  rw [BreakerAct.apply_cooldownUntil hu (lt_of_lt_of_le hnow hle), hclears, if_neg Bool.false_ne_true]
  refine ⟨_, rfl, ?_⟩
  cases hend : a.ownEnd cfg cb with
  | none => exact hle
  | some e => exact hown e hend

/-- Whatever the order of the operations, an active cooldown ends as one of them says that sets an end of its own,
and the others leave its end alone. Where nothing clears it and no own end comes before `t`, signals are denied
until `t`. -/
theorem cooldown_kept (cfg : TradingCircuitBreakerConfig) (cb : TradingCircuitBreaker) (acts : List BreakerAct) :
    (∀ p ∈ breakerSteps cfg cb acts, ∀ u, p.1.cooldownUntil = some u → p.2.clock.now < u →
      (p.2.apply cfg p.1).cooldownUntil = if p.2.clears cfg p.1 then none else some ((p.2.ownEnd cfg p.1).getD u)) ∧
    ∀ t, cb.cooldownUntil = some t → (∀ p ∈ breakerSteps cfg cb acts, KeepsUntil cfg t p.1 p.2) →
      ∃ u, (runBreaker cfg cb acts).cooldownUntil = some u ∧ t ≤ u ∧
        ∀ clock call, clock.now < u → (decide cfg clock call (runBreaker cfg cb acts)).1.allowed = false := by
  refine ⟨fun p _ u hu hlt => BreakerAct.apply_cooldownUntil hu hlt, fun t ht hkeeps => ?_⟩
  obtain ⟨u, hu, hle⟩ := (breakerSteps_invariant (I := fun cb => ∃ u, cb.cooldownUntil = some u ∧ t ≤ u)
    keepsUntil_step hkeeps ⟨t, ht, le_refl t⟩).2
  refine ⟨u, hu, hle, fun clock call hlt => ?_⟩
  rw [decide_of_lt hu hlt]
  rfl

def forcedTwice : List BreakerAct :=
  [⟨⟨0, 10, 28800⟩, .forceCooldown .consecutiveLosses 60⟩, ⟨⟨0, 10, 28800⟩, .forceCooldown .consecutiveLosses 1⟩]

theorem cooldown_kept_forced : ∃ u, (runBreaker {} (runBreaker {} {} (forcedTwice.take 1))
    [⟨⟨600, 10, 28800⟩, .syncBrokerPnl (-600)⟩, ⟨⟨1200, 10, 28800⟩, .resetSession⟩]).cooldownUntil = some u ∧ 3600 ≤ u := by
  obtain ⟨u, hu, hle, -⟩ := (cooldown_kept {} (runBreaker {} {} (forcedTwice.take 1))
    [⟨⟨600, 10, 28800⟩, .syncBrokerPnl (-600)⟩, ⟨⟨1200, 10, 28800⟩, .resetSession⟩]).2 3600 (by decide +kernel) (by
      intro p hp
      simp only [breakerSteps, List.mem_cons, List.not_mem_nil, or_false] at hp
      rcases hp with rfl | rfl
      all_goals
        refine ⟨by decide +kernel, rfl, ?_⟩
        intro e he
        cases he)
  exact ⟨u, hu, hle⟩

/-- The second of two forced cooldowns replaces the first. -/
theorem cooldown_shortened : ¬ ∀ cfg cb (acts : List BreakerAct) t, cb.cooldownUntil = some t →
    (∀ p ∈ breakerSteps cfg cb acts, p.2.clock.now < t ∧ p.2.clears cfg p.1 = false ∧
      p.2.op ≠ .resetSession ∧ p.2.op ≠ .resetDaily) →
    ∃ u, (runBreaker cfg cb acts).cooldownUntil = some u ∧ t ≤ u := by
  intro h
  obtain ⟨u, hu, hle⟩ := h {} (runBreaker {} {} (forcedTwice.take 1)) (forcedTwice.drop 1) 3600 (by decide +kernel) (by
    intro p hp
    simp only [forcedTwice, List.drop_succ_cons, List.drop_zero, breakerSteps, List.mem_cons, List.not_mem_nil,
      or_false] at hp
    subst hp
    refine ⟨by decide +kernel, rfl, ?_, ?_⟩ <;> intro hop <;> cases hop)
  have hend : (runBreaker {} (runBreaker {} {} (forcedTwice.take 1)) (forcedTwice.drop 1)).cooldownUntil = some 60 := by
    decide +kernel
  rw [hend] at hu
  obtain rfl : 60 = u := Option.some.inj hu
  exact absurd hle (by decide +kernel)

end PearlAlgo
