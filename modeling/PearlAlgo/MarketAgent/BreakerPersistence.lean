import PearlAlgo.MarketAgent.BreakerRuns

/-!
# Restarting the breaker from its snapshot

`get_persisted_state` keeps the cooldown, the loss streak, the P&L and the profit lock, and not the recent trades.
From the restart on, a restored breaker decides as the original would without its recent trades
(`restored_decides`): the two keep the same core (`SameCore.run`).
-/

namespace PearlAlgo
open TradingCircuitBreaker

variable {cfg : TradingCircuitBreakerConfig} {t : ℚ} {a b : TradingCircuitBreaker}

/-! ### Breakers with the same core -/

namespace TradingCircuitBreaker.SameCore

theorem isInCooldown (h : SameCore t a b) {clock : Clock} (ht : t ≤ clock.now) :
    (a.isInCooldown cfg clock).1 = (b.isInCooldown cfg clock).1 ∧
      SameCore t (a.isInCooldown cfg clock).2 (b.isInCooldown cfg clock).2 := by
  rcases h.cooldown with ⟨huntil, hreason⟩ | ⟨ha, hb⟩
  · unfold TradingCircuitBreaker.isInCooldown
    rw [huntil]
    split
    · exact ⟨rfl, h⟩
    · split
      · refine ⟨rfl, ?_⟩
        split
        · exact { h with cooldown := .inl ⟨rfl, rfl⟩ }
        · exact h
      · exact ⟨rfl, h⟩
  · have hover {cb : TradingCircuitBreaker} (hcb : Expired t cb) : Expired clock.now cb :=
      fun u hu => (hcb u hu).trans ht
    have hrest {cb : TradingCircuitBreaker} (hcb : Expired t cb) : Expired t (cb.isInCooldown cfg clock).2 := by
      rcases @isInCooldown_snd cfg clock cb with hsnd | ⟨hsnd, -⟩ <;> rw [hsnd]
      · exact hcb
      · intro u hu
        cases hu
    have hka := @isInCooldown_keepsEvidence cfg clock a
    have hkb := @isInCooldown_keepsEvidence cfg clock b
    refine ⟨?_, ?_⟩
    · rw [isInCooldown_of_expired (hover ha), isInCooldown_of_expired (hover hb)]
    · exact {
        consecutiveLosses := by rw [hka.consecutiveLosses, hkb.consecutiveLosses, h.consecutiveLosses]
        sessionPnl := by rw [hka.sessionPnl, hkb.sessionPnl, h.sessionPnl]
        dailyPnl := by rw [hka.dailyPnl, hkb.dailyPnl, h.dailyPnl]
        recentTrades := by rw [hka.recentTrades, hkb.recentTrades, h.recentTrades]
        profitLock := by rw [hka.profitLock, hkb.profitLock, h.profitLock]
        cooldown := .inr ⟨hrest ha, hrest hb⟩ }

theorem decide (h : SameCore t a b) {clock : Clock} (ht : t ≤ clock.now) (call : SignalCall) :
    (decide cfg clock call a).1 = (decide cfg clock call b).1 ∧
      SameCore t (decide cfg clock call a).2 (decide cfg clock call b).2 := by
  obtain ⟨hin, hafter⟩ := @SameCore.isInCooldown cfg t a b h clock ht
  unfold TradingCircuitBreaker.decide shouldAllowSignal
  split
  next hca =>
    rw [hca] at hin hafter
    split
    next hcb =>
      rw [hcb] at hafter
      exact ⟨rfl, hafter⟩
    next hcb => simp [hcb] at hin
  next hca =>
    rw [hca] at hin hafter
    split
    next hcb => simp [hcb] at hin
    next hcb =>
      rw [hcb] at hafter
      exact checkSignal_local.same t _ _ hafter

theorem recordTradeResult (h : SameCore t a b) (r : TradeResult) :
    SameCore t (a.recordTradeResult cfg r) (b.recordTradeResult cfg r) := by
  have hua := @recordTradeResult_cooldown cfg a r
  have hub := @recordTradeResult_cooldown cfg b r
  have hcounts : (a.recordTradeResult cfg r).consecutiveLosses = (b.recordTradeResult cfg r).consecutiveLosses ∧
      (a.recordTradeResult cfg r).sessionPnl = (b.recordTradeResult cfg r).sessionPnl ∧
      (a.recordTradeResult cfg r).dailyPnl = (b.recordTradeResult cfg r).dailyPnl ∧
      (a.recordTradeResult cfg r).recentTrades = (b.recordTradeResult cfg r).recentTrades ∧
      (a.recordTradeResult cfg r).profitLock = (b.recordTradeResult cfg r).profitLock := by
    unfold TradingCircuitBreaker.recordTradeResult
    cases r.isWin with
    | false => simp [h.consecutiveLosses, h.sessionPnl, h.dailyPnl, h.recentTrades, h.profitLock]
    | true =>
      simp only [↓reduceIte]
      split <;> split <;> simp [clearCooldown, h.sessionPnl, h.dailyPnl, h.recentTrades, h.profitLock]
  obtain ⟨hlosses, hsession, hdaily, htrades, hlock⟩ := hcounts
  refine ⟨hlosses, hsession, hdaily, htrades, hlock, ?_⟩
  rcases h.cooldown with ⟨huntil, hreason⟩ | ⟨ha, hb⟩
  · have hclears : winClears cfg a r = winClears cfg b r := by
      unfold winClears
      rw [hreason]
    left
    rw [hua.1, hub.1, hua.2, hub.2, hclears, huntil, hreason]
    exact ⟨rfl, rfl⟩
  · right
    have hover {cb : TradingCircuitBreaker} (hcb : Expired t cb) : Expired t (cb.recordTradeResult cfg r) := by
      intro u hu
      rw [recordTradeResult_cooldown.1] at hu
      split at hu
      · cases hu
      · exact hcb u hu
    exact ⟨hover ha, hover hb⟩

theorem syncBrokerPnl (h : SameCore t a b) (clock : Clock) (pnl : ℚ) :
    SameCore t (a.syncBrokerPnl cfg clock pnl).2 (b.syncBrokerPnl cfg clock pnl).2 := by
  have h' : SameCore t { a with dailyPnl := pnl, sessionPnl := pnl } { b with dailyPnl := pnl, sessionPnl := pnl } :=
    { h with sessionPnl := rfl, dailyPnl := rfl }
  unfold TradingCircuitBreaker.syncBrokerPnl
  dsimp only
  split
  · rw [updateSessionProfitLock_eq, updateSessionProfitLock_eq, h.profitLock]
    dsimp only
    split
    · exact { h' with profitLock := rfl, cooldown := .inl ⟨rfl, rfl⟩ }
    · exact { h' with profitLock := rfl }
  · exact h'

theorem hydrateDailyPnl (h : SameCore t a b) (clock : Clock) (pnl : Option ℚ) :
    SameCore t (a.hydrateDailyPnl cfg clock pnl) (b.hydrateDailyPnl cfg clock pnl) := by
  cases pnl with
  | none => exact h
  | some pnl =>
    have h' : SameCore t { a with dailyPnl := pnl } { b with dailyPnl := pnl } := { h with dailyPnl := rfl }
    unfold TradingCircuitBreaker.hydrateDailyPnl
    dsimp only
    split
    · exact h'.activate _ _
    · exact h'

theorem restorePersistedState (h : SameCore t a b) (clock : Clock) (data : Option PersistedState) :
    SameCore t (a.restorePersistedState clock data) (b.restorePersistedState clock data) := by
  cases data with
  | none => exact h
  | some data =>
    constructor
    · simp only [TradingCircuitBreaker.restorePersistedState, h.consecutiveLosses]
    · simp only [TradingCircuitBreaker.restorePersistedState, h.sessionPnl]
    · simp only [TradingCircuitBreaker.restorePersistedState, h.dailyPnl]
    · exact h.recentTrades
    · simp only [TradingCircuitBreaker.restorePersistedState, h.profitLock]
    · cases hlive : data.cooldownUntil.any (clock.now < ·) with
      | true =>
        left
        simp [TradingCircuitBreaker.restorePersistedState, hlive]
      | false =>
        have hkeeps (cb : TradingCircuitBreaker) :
            (cb.restorePersistedState clock (some data)).cooldownUntil = cb.cooldownUntil ∧
              (cb.restorePersistedState clock (some data)).cooldownReason = cb.cooldownReason := by
          simp [TradingCircuitBreaker.restorePersistedState, hlive]
        unfold Expired
        rw [(hkeeps a).1, (hkeeps a).2, (hkeeps b).1, (hkeeps b).2]
        exact h.cooldown

theorem apply (h : SameCore t a b) (act : BreakerAct) (ht : t ≤ act.clock.now) :
    SameCore t (act.apply cfg a) (act.apply cfg b) := by
  obtain ⟨clock, op⟩ := act
  cases op with
  | shouldAllowSignal call => exact (h.decide ht call).2
  | recordTradeResult r => exact h.recordTradeResult r
  | syncBrokerPnl pnl => exact h.syncBrokerPnl clock pnl
  | resetSession => exact { h with consecutiveLosses := rfl, sessionPnl := rfl, profitLock := rfl }
  | resetDaily => exact { h with consecutiveLosses := rfl, sessionPnl := rfl, dailyPnl := rfl, profitLock := rfl }
  | clearCooldown => exact { h with cooldown := .inl ⟨rfl, rfl⟩ }
  | forceCooldown reason minutes => exact { h with cooldown := .inl ⟨rfl, rfl⟩ }
  | hydrateDailyPnl pnl => exact h.hydrateDailyPnl clock pnl
  | restorePersistedState data => exact h.restorePersistedState clock data
  | recordWouldBlock reason => exact ⟨h.1, h.2, h.3, h.4, h.5, h.6⟩
  | recordShadowOutcome r wasWouldBlock =>
    unfold BreakerAct.apply recordShadowOutcome
    dsimp only
    split <;> exact ⟨h.1, h.2, h.3, h.4, h.5, h.6⟩
  | getStatus => exact (h.isInCooldown ht).2

theorem run (h : SameCore t a b) {acts : List BreakerAct} (hacts : ∀ act ∈ acts, t ≤ act.clock.now) :
    SameCore t (runBreaker cfg a acts) (runBreaker cfg b acts) := by
  induction acts generalizing a b with
  | nil => exact h
  | cons act acts ih =>
    exact ih (h.apply act (hacts act List.mem_cons_self)) fun act' hact' => hacts act' (List.mem_cons_of_mem _ hact')

end TradingCircuitBreaker.SameCore

/-! ### The restart -/

/-- A breaker that is constructed anew at `clock`, and restored from the snapshot of `cb`. -/
def restarted (clock : Clock) (cb : TradingCircuitBreaker) : TradingCircuitBreaker :=
  restorePersistedState clock (some cb.getPersistedState) {}

def forgetTrades (cb : TradingCircuitBreaker) : TradingCircuitBreaker := { cb with recentTrades := [] }

theorem restarted_sameCore (clock : Clock) (cb : TradingCircuitBreaker) :
    SameCore clock.now (restarted clock cb) (forgetTrades cb) := by
  constructor
  · simp [restarted, restorePersistedState, getPersistedState, forgetTrades]
  · by_cases h : cb.sessionPnl = 0 <;> simp [restarted, restorePersistedState, getPersistedState, forgetTrades, h]
  · simp [restarted, restorePersistedState, getPersistedState, forgetTrades]
  · rfl
  · simp [restarted, restorePersistedState, getPersistedState, forgetTrades]
  · unfold restarted restorePersistedState getPersistedState forgetTrades
    cases hlive : cb.cooldownUntil.any (clock.now < ·) with
    | true => exact .inl ⟨by simp [hlive], by simp [hlive]⟩
    | false =>
      refine .inr ⟨?_, ?_⟩
      · intro u hu
        simp [hlive] at hu
      · intro u hu
        have hu : cb.cooldownUntil = some u := hu
        simpa [hu] using hlive

/-- The restored breaker decides every signal, after every sequence of operations since the restart, as the original
would without the trades that it had seen. -/
theorem restored_decides (cfg : TradingCircuitBreakerConfig) (cb : TradingCircuitBreaker) (clock : Clock)
    (acts : List BreakerAct) (hacts : ∀ act ∈ acts, clock.now ≤ act.clock.now) (clock' : Clock)
    (hclock : clock.now ≤ clock'.now) (call : SignalCall) :
    (decide cfg clock' call (runBreaker cfg (restarted clock cb) acts)).1 =
      (decide cfg clock' call (runBreaker cfg (forgetTrades cb) acts)).1 :=
  (((restarted_sameCore clock cb).run hacts).decide hclock call).1

/-- A breaker after ten trades of a dollar each, two of them won. -/
def poorWinRate : List BreakerAct :=
  [false, false, false, false, true, false, false, false, false, true].map fun isWin =>
    ⟨⟨0, 10, 28800⟩, .recordTradeResult { isWin, pnl := if isWin then 1 else -1 }⟩

theorem restored_decides_poorWinRate :
    (decide {} ⟨120, 10, 28800⟩ {} (runBreaker {} (restarted ⟨60, 10, 28800⟩ (runBreaker {} {} poorWinRate))
        [⟨⟨90, 10, 28800⟩, .recordTradeResult { isWin := false, pnl := -1 }⟩])).1 =
      (decide {} ⟨120, 10, 28800⟩ {} (runBreaker {} (forgetTrades (runBreaker {} {} poorWinRate))
        [⟨⟨90, 10, 28800⟩, .recordTradeResult { isWin := false, pnl := -1 }⟩])).1 := by
  refine restored_decides {} (runBreaker {} {} poorWinRate) ⟨60, 10, 28800⟩ _ ?_ ⟨120, 10, 28800⟩ (by decide +kernel) {}
  intro act hact
  obtain rfl := List.mem_singleton.1 hact
  decide +kernel

/-- The original denies a signal for its win rate, which the restored breaker does not know. -/
theorem not_restored_decides : ¬ ∀ cfg acts₀ clock acts, (∀ act ∈ acts, clock.now ≤ act.clock.now) →
    ∀ clock' call, clock.now ≤ clock'.now →
      (decide cfg clock' call (runBreaker cfg (restarted clock (runBreaker cfg {} acts₀)) acts)).1.allowed =
          (decide cfg clock' call (runBreaker cfg (runBreaker cfg {} acts₀) acts)).1.allowed ∧
        (decide cfg clock' call (runBreaker cfg (restarted clock (runBreaker cfg {} acts₀)) acts)).1.riskScale =
          (decide cfg clock' call (runBreaker cfg (runBreaker cfg {} acts₀) acts)).1.riskScale := by
  intro h
  have hsame := (h {} poorWinRate ⟨60, 10, 28800⟩ [] (by simp) ⟨120, 10, 28800⟩ {} (by decide +kernel)).1
  exact absurd hsame (by decide +kernel)

end PearlAlgo
