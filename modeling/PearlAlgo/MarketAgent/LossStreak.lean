import PearlAlgo.MarketAgent.DailyLoss

/-!
# The loss streak of the circuit breaker

`record_trade_result` keeps the streak and the window of trades that its checks read
(`SeesTrades.record`). But no part of a service cycle calls it: the virtual trade manager records shadow
outcomes only, the account poll sets the P&L, and nothing follows a closed broker position. So the breaker
knows the round trips exactly as long as there are none (`seesTrades_iff`).
-/

namespace PearlAlgo
open Py

/-- The losses at the end of `trades`; `base` is the streak before the first of them. -/
def lossStreak (base : Nat) (trades : List TradeResult) : Nat :=
  trades.foldl (fun n t => if t.isWin then 0 else n + 1) base

/-- The breaker was told of each trade once, in order, its streak is theirs, and its checks read the latest
ones. -/
structure SeesTrades (cfg : TradingCircuitBreakerConfig) (base : Nat) (trades : List TradeResult)
    (cb : TradingCircuitBreaker) : Prop where
  calls : cb.calls = trades
  streak : cb.consecutiveLosses = lossStreak base trades
  window : cb.recentTrades = trimTo (TradingCircuitBreaker.maxHistory cfg) trades

theorem SeesTrades.record {cfg : TradingCircuitBreakerConfig} {base : Nat} {trades : List TradeResult}
    {cb : TradingCircuitBreaker} (h : SeesTrades cfg base trades cb) (t : TradeResult) :
    SeesTrades cfg base (trades ++ [t]) (cb.recordTradeResult cfg t) := by
  obtain ⟨hcalls, hstreak, hwindow⟩ := h
  have hnext : lossStreak base (trades ++ [t]) = if t.isWin then 0 else cb.consecutiveLosses + 1 := by
    rw [lossStreak, List.foldl_concat, hstreak]
    rfl
  unfold TradingCircuitBreaker.recordTradeResult
  cases hwin : t.isWin with
  | true =>
    rw [hwin] at hnext
    -- a win may clear the cooldown, which the law does not mention
    simp only [↓reduceIte]
    refine ⟨?_, ?_, ?_⟩ <;> dsimp only
    · split <;> exact congrArg (· ++ [t]) hcalls
    · split <;> exact hnext.symm
    · split <;> exact (congrArg (fun l => trimTo _ (l ++ [t])) hwindow).trans (trimTo_append _ _ _)
  | false =>
    rw [hwin] at hnext
    exact ⟨congrArg (· ++ [t]) hcalls, hnext.symm,
      (congrArg (fun l => trimTo _ (l ++ [t])) hwindow).trans (trimTo_append _ _ _)⟩

namespace MarketAgentService
open TradingCircuitBreaker

variable {c : ServiceSettings} {acts : List ServiceAct} {s s' : MarketAgentService} {cb cb' : TradingCircuitBreaker}

def trades (s : MarketAgentService) : List TradeResult := s.roundTrips.map RoundTrip.result

/-- The streak that a new service restores. -/
def restoredStreak (c : ServiceSettings) : Nat := (buildCircuitBreaker c).elim 0 consecutiveLosses

/-! ### No step records a trade -/

/-- The breaker of `s'` is that of `s`, up to what is not its loss history. -/
def KeepsBreaker (s s' : MarketAgentService) : Prop :=
  s'.breakerConfig = s.breakerConfig ∧ ∀ cb', s'.breaker = some cb' → ∃ cb, s.breaker = some cb ∧ cb.Keeps cb'

theorem KeepsBreaker.of_eq (hconfig : s'.breakerConfig = s.breakerConfig) (h : s'.breaker = s.breaker) :
    KeepsBreaker s s' := ⟨hconfig, fun cb' hcb' => ⟨cb', h.symm.trans hcb', .refl cb'⟩⟩

theorem closeTrades_keepsBreaker (p : SignalRecord → Bool) (bar : Option LatestBar)
    (recent : Option (List SignalRecord)) (reason : String) (now : ℚ) :
    KeepsBreaker s (s.closeTrades p bar recent reason now) := by
  refine .of_eq ?_ (closeTrades_frame p bar recent reason now s).2
  unfold closeTrades
  split
  · rfl
  · dsimp only
    split <;> rfl

theorem checkCircuitBreaker_keepsBreaker {clock : Clock} {sig : SignalEntry} {filters : Filters}
    {recent : Option (List SignalRecord)} {m : AtrData} :
    KeepsBreaker s (s.checkCircuitBreaker clock sig filters recent m).2 := by
  unfold checkCircuitBreaker
  split
  · exact .of_eq rfl rfl
  next cb hcb =>
    have hkeeps : cb.Keeps
        (shouldAllowSignal s.breakerConfig clock sig filters (some (s.activePositions recent)) (some m) cb).2 :=
      shouldAllowSignal_keeps cb
    dsimp only
    split
    · exact ⟨rfl, fun cb' hcb' => ⟨cb, hcb, Option.some.inj hcb' ▸ hkeeps⟩⟩
    · split
      · exact ⟨rfl, fun cb' hcb' => ⟨cb, hcb, Option.some.inj hcb' ▸ hkeeps.trans recordWouldBlock_keeps⟩⟩
      · exact ⟨rfl, fun cb' hcb' => ⟨cb, hcb, Option.some.inj hcb' ▸ hkeeps⟩⟩

theorem updateVirtualTradeExits_keepsBreaker {bars : Option (List Bar)} {recent : Option (List SignalRecord)} :
    KeepsBreaker s (s.updateVirtualTradeExits bars recent) := by
  refine ⟨rfl, VirtualTradeManager.processExits_invariant
    (fun _ x => ∀ cb', x.breaker = some cb' → ∃ cb, s.breaker = some cb ∧ cb.Keeps cb') s.config
    (fun _ _ _ h => h) (fun _ _ _ _ _ _ h => h) (fun vtm x sig perf h cb' hcb' => ?_)
    bars recent s.virtualTradeManager s.toTrackers fun cb' hcb' => ⟨cb', hcb', .refl cb'⟩⟩
  obtain ⟨cb₁, hcb₁, rfl⟩ := Option.map_eq_some_iff.1 hcb'
  obtain ⟨cb, hcb, hkeeps⟩ := h cb₁ hcb₁
  exact ⟨cb, hcb, hkeeps.trans recordShadowOutcome_keeps⟩

theorem step_keepsBreaker {a : ServiceAct} (hs : s.step a = some s') : KeepsBreaker s s' := by
  cases a with
  | checkDailyReset today =>
    cases hs
    unfold checkDailyReset
    split
    · exact .of_eq rfl rfl
    · exact .of_eq rfl rfl
    · split <;> exact .of_eq rfl rfl
  | pollAccount clock realizedPnl =>
    cases hs
    unfold pollAccount
    split
    · exact .of_eq rfl rfl
    · refine ⟨rfl, fun cb' hcb' => ?_⟩
      obtain ⟨cb, hcb, rfl⟩ := Option.map_eq_some_iff.1 hcb'
      exact ⟨cb, hcb, syncBrokerPnl_keeps⟩
  | closeAll bar recent reason now =>
    cases hs
    exact closeTrades_keepsBreaker _ _ _ _ _
  | closeSignals signalIds bar recent now =>
    cases hs
    exact closeTrades_keepsBreaker _ _ _ _ _
  | entryDecision clock sig filters recent m =>
    cases hs
    exact checkCircuitBreaker_keepsBreaker
  | processExits bars recent =>
    cases hs
    exact updateVirtualTradeExits_keepsBreaker
  | adapter a =>
    simp only [step] at hs
    split at hs
    · cases hs
    · simp only [Option.bind_eq_bind, Option.bind_eq_some_iff] at hs
      obtain ⟨sys, -, sys', -, hs⟩ := hs
      cases hs
      exact .of_eq rfl rfl
  | write store =>
    cases hs
    exact .of_eq rfl rfl
  | roundTrip t held settled =>
    simp only [step, Option.bind_eq_bind, Option.bind_eq_some_iff] at hs
    obtain ⟨sys, -, hs⟩ := hs
    cases hs
    exact .of_eq rfl rfl

/-- The breaker that every run ends with has the loss history of the one it began with. -/
theorem breaker_keeps (h : Runs c acts s) (hcb : s.breaker = some cb) :
    ∃ cb₀, buildCircuitBreaker c = some cb₀ ∧ cb₀.Keeps cb := by
  refine run_invariant (I := fun s => ∀ cb, s.breaker = some cb → ∃ cb₀, buildCircuitBreaker c = some cb₀ ∧ cb₀.Keeps cb)
    (fun s a s' hI hs cb' hcb' => ?_) (fun cb hcb => ⟨cb, hcb, .refl cb⟩) h cb hcb
  obtain ⟨cb, hcb, hkeeps⟩ := (step_keepsBreaker hs).2 cb' hcb'
  obtain ⟨cb₀, hcb₀, hkeeps₀⟩ := hI cb hcb
  exact ⟨cb₀, hcb₀, hkeeps₀.trans hkeeps⟩

theorem buildCircuitBreaker_empty (h : buildCircuitBreaker c = some cb) : cb.calls = [] ∧ cb.recentTrades = [] := by
  obtain ⟨cfg, -, rfl⟩ := Option.map_eq_some_iff.1 h
  have hhydrate : Keeps {} (hydrateDailyPnl cfg c.clock c.hydratedPnl {}) := by
    unfold hydrateDailyPnl
    split
    · exact .refl _
    · dsimp only
      split <;> exact ⟨rfl, rfl, rfl⟩
  unfold restorePersistedState
  split <;> exact ⟨hhydrate.calls, hhydrate.recentTrades⟩

/-- In every state that a run reaches, and so at every entry decision, the breaker knows the round trips if
and only if there are none. -/
theorem seesTrades_iff (h : Runs c acts s) (hcb : s.breaker = some cb) :
    SeesTrades s.breakerConfig (restoredStreak c) s.trades cb ↔ s.roundTrips = [] := by
  obtain ⟨cb₀, hcb₀, hkeeps⟩ := breaker_keeps h hcb
  obtain ⟨hcalls, hrecent⟩ := buildCircuitBreaker_empty hcb₀
  constructor
  · intro hsees
    have htrades : s.trades = [] := hsees.calls.symm.trans (hkeeps.calls.trans hcalls)
    exact List.map_eq_nil_iff.1 htrades
  · intro htrips
    rw [trades, htrips]
    refine ⟨hkeeps.calls.trans hcalls, ?_, ?_⟩
    · rw [restoredStreak, hcb₀]
      exact hkeeps.consecutiveLosses
    · rw [hkeeps.recentTrades, hrecent]
      unfold trimTo
      split
      · exact (lastN_nil _).symm
      · rfl

/-! ### Five losses in a row -/

/-- A position is stopped out at the broker, and the account is polled. -/
def losingTrade (closed : Int) : List ServiceAct :=
  [.roundTrip ⟨.stop, -20⟩ .empty [], .pollAccount sampleClock (-20 * closed)]

/-- A cycle that only polls the account; the witness of `seesTrades_iff`. -/
theorem seesTrades_iff_poll : ∃ s cb, Runs sampleSettings [.pollAccount sampleClock 0] s ∧ s.breaker = some cb ∧
    (SeesTrades s.breakerConfig (restoredStreak sampleSettings) s.trades cb ↔ s.roundTrips = []) := by
  obtain ⟨s, hrun, hs⟩ := exists_runs sampleSettings [.pollAccount sampleClock 0] (fun s => s.breaker.isSome)
    (by decide +kernel)
  obtain ⟨cb, hcb⟩ := Option.isSome_iff_exists.1 hs
  exact ⟨s, cb, hrun, hcb, seesTrades_iff hrun hcb⟩

/-- Five losing round trips, as many as the breaker allows in a row, leave its streak at zero, and the next
entry decision lets a signal through. -/
theorem losses_unseen : ∃ s cb, Runs sampleSettings ([1, 2, 3, 4, 5].flatMap losingTrade) s ∧ s.breaker = some cb ∧
    s.breakerConfig.maxConsecutiveLosses ≤ lossStreak (restoredStreak sampleSettings) s.trades ∧
    cb.consecutiveLosses = 0 ∧ ¬ SeesTrades s.breakerConfig (restoredStreak sampleSettings) s.trades cb ∧
    (s.checkCircuitBreaker sampleClock {} {} none {}).1 = true := by
  obtain ⟨s, hrun, hs⟩ := exists_runs sampleSettings ([1, 2, 3, 4, 5].flatMap losingTrade) (fun s =>
    s.breakerConfig.maxConsecutiveLosses ≤ lossStreak (restoredStreak sampleSettings) s.trades ∧
      s.breaker.any (fun cb => cb.consecutiveLosses = 0 ∧ cb.calls = []) ∧ s.trades ≠ [] ∧
      (s.checkCircuitBreaker sampleClock {} {} none {}).1 = true) (by decide +kernel)
  obtain ⟨hstreak, hany, htrades, hallowed⟩ := of_decide_eq_true hs
  obtain ⟨cb, hcb, hzero⟩ := (Option.any_eq_true _ _).1 hany
  obtain ⟨hzero, hcalls⟩ := of_decide_eq_true hzero
  exact ⟨s, cb, hrun, hcb, hstreak, hzero, fun hsees => htrades (hsees.calls.symm.trans hcalls), hallowed⟩

end MarketAgentService

end PearlAlgo
