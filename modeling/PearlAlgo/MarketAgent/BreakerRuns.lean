import PearlAlgo.MarketAgent.CircuitBreaker

/-!
# Runs of the circuit breaker

The operations of a `TradingCircuitBreaker`, each at a time of its own, and what one of them does to the cooldown
(`BreakerAct.apply_cooldownUntil`) and to the profit lock (`BreakerAct.apply_profitLock`).
-/

namespace PearlAlgo
open TradingCircuitBreaker

structure SignalCall where
  sig : SignalEntry := {}
  filters : Filters := {}
  activePositions : Option (List SignalEntry) := none
  marketData : Option AtrData := none

inductive BreakerOp
  | shouldAllowSignal (call : SignalCall)
  | recordTradeResult (t : TradeResult)
  | syncBrokerPnl (realizedPnl : ℚ)
  | resetSession
  | resetDaily
  | clearCooldown
  | forceCooldown (reason : BlockReason) (minutes : Int)
  | hydrateDailyPnl (realizedPnl : Option ℚ)
  | restorePersistedState (data : Option PersistedState)
  | recordWouldBlock (reason : BlockReason)
  | recordShadowOutcome (t : TradeResult) (wasWouldBlock : Bool)
  | getStatus

structure BreakerAct where
  clock : Clock
  op : BreakerOp

variable (cfg : TradingCircuitBreakerConfig)

namespace TradingCircuitBreaker

/-- `should_allow_signal` -/
def decide (clock : Clock) (call : SignalCall) : Check :=
  shouldAllowSignal cfg clock call.sig call.filters call.activePositions call.marketData

end TradingCircuitBreaker

/-- `get_status` changes the breaker only through `_is_in_cooldown`. -/
def BreakerAct.apply (cb : TradingCircuitBreaker) (a : BreakerAct) : TradingCircuitBreaker :=
  match a.op with
  | .shouldAllowSignal call => (decide cfg a.clock call cb).2
  | .recordTradeResult t => cb.recordTradeResult cfg t
  | .syncBrokerPnl pnl => (cb.syncBrokerPnl cfg a.clock pnl).2
  | .resetSession => cb.resetSession
  | .resetDaily => cb.resetDaily
  | .clearCooldown => cb.clearCooldown
  | .forceCooldown reason minutes => cb.forceCooldown a.clock reason minutes
  | .hydrateDailyPnl pnl => cb.hydrateDailyPnl cfg a.clock pnl
  | .restorePersistedState data => cb.restorePersistedState a.clock data
  | .recordWouldBlock reason => cb.recordWouldBlock reason
  | .recordShadowOutcome t b => cb.recordShadowOutcome t b
  | .getStatus => (cb.isInCooldown cfg a.clock).2

def runBreaker (cb : TradingCircuitBreaker) (acts : List BreakerAct) : TradingCircuitBreaker :=
  acts.foldl (BreakerAct.apply cfg) cb

/-- The operations with the breakers that they were called on. -/
def breakerSteps (cb : TradingCircuitBreaker) : List BreakerAct → List (TradingCircuitBreaker × BreakerAct)
  | [] => []
  | a :: acts => (cb, a) :: breakerSteps (a.apply cfg cb) acts

variable {cfg}

@[simp] theorem runBreaker_nil (cb : TradingCircuitBreaker) : runBreaker cfg cb [] = cb := rfl

@[simp] theorem runBreaker_cons (cb : TradingCircuitBreaker) (a : BreakerAct) (acts : List BreakerAct) :
    runBreaker cfg cb (a :: acts) = runBreaker cfg (a.apply cfg cb) acts := rfl

theorem runBreaker_append (cb : TradingCircuitBreaker) (acts acts' : List BreakerAct) :
    runBreaker cfg cb (acts ++ acts') = runBreaker cfg (runBreaker cfg cb acts) acts' := List.foldl_append

/-- An invariant that every step of a run keeps holds of all its states. -/
theorem breakerSteps_invariant {I : TradingCircuitBreaker → Prop} {P : TradingCircuitBreaker → BreakerAct → Prop}
    (hstep : ∀ cb a, I cb → P cb a → I (a.apply cfg cb)) {cb : TradingCircuitBreaker} {acts : List BreakerAct}
    (hP : ∀ p ∈ breakerSteps cfg cb acts, P p.1 p.2) (h : I cb) :
    (∀ p ∈ breakerSteps cfg cb acts, I p.1) ∧ I (runBreaker cfg cb acts) := by
  induction acts generalizing cb with
  | nil => exact ⟨fun p hp => absurd hp List.not_mem_nil, h⟩
  | cons a acts ih =>
    have hfirst := hP _ List.mem_cons_self
    obtain ⟨hrest, hend⟩ := ih (fun p hp => hP p (List.mem_cons_of_mem _ hp)) (hstep cb a h hfirst)
    refine ⟨fun p hp => ?_, hend⟩
    rcases List.mem_cons.1 hp with rfl | hp
    · exact h
    · exact hrest p hp

/-! ### The cooldown -/

namespace TradingCircuitBreaker
variable {clock : Clock} {cb : TradingCircuitBreaker} {t : ℚ}

theorem isInCooldown_of_lt (h : cb.cooldownUntil = some t) (ht : clock.now < t) :
    cb.isInCooldown cfg clock = (true, cb) := by
  unfold isInCooldown
  rw [h]
  exact if_neg (not_le.2 ht)

theorem decide_of_lt {call : SignalCall} (h : cb.cooldownUntil = some t) (ht : clock.now < t) :
    decide cfg clock call cb = ({ CircuitBreakerDecision.deny .inCooldown .warning with riskScale := 0 }, cb) := by
  unfold decide shouldAllowSignal
  rw [isInCooldown_of_lt h ht]

theorem isInCooldown_of_expired (h : Expired clock.now cb) : (cb.isInCooldown cfg clock).1 = false := by
  unfold isInCooldown
  split
  · rfl
  next t ht => simp [h t ht]

theorem isInCooldown_snd : (cb.isInCooldown cfg clock).2 = cb ∨
    (cb.isInCooldown cfg clock).2 = cb.clearCooldown ∧ ∃ t, cb.cooldownUntil = some t ∧ t ≤ clock.now := by
  unfold isInCooldown
  split
  · exact .inl rfl
  next t ht =>
    split
    next hle =>
      split
      · exact .inr ⟨rfl, t, ht, hle⟩
      · exact .inl rfl
    · exact .inl rfl

def winClears (cfg : TradingCircuitBreakerConfig) (cb : TradingCircuitBreaker) (t : TradeResult) : Bool :=
  t.isWin && cfg.requireWinningTradeToResume &&
    (cb.cooldownReason = some .consecutiveLosses ∨ cb.cooldownReason = some .rollingWinRate)

theorem recordTradeResult_cooldown {t : TradeResult} :
    (cb.recordTradeResult cfg t).cooldownUntil = (if winClears cfg cb t then none else cb.cooldownUntil) ∧
    (cb.recordTradeResult cfg t).cooldownReason = (if winClears cfg cb t then none else cb.cooldownReason) := by
  unfold recordTradeResult winClears
  cases t.isWin with
  | false => simp
  | true =>
    simp only [↓reduceIte, Bool.true_and, Bool.and_eq_true, decide_eq_true_eq]
    split <;> simp [clearCooldown, *]

end TradingCircuitBreaker

/-! ### The profit lock -/

namespace ProfitLock
variable (cfg) (clock : Clock) (pnl : ℚ)

/-- The first two parts of `_update_session_profit_lock`: the high-water mark and the floor. -/
def raise (l : ProfitLock) : ProfitLock :=
  let hwm := max l.hwm pnl
  let proposed := max (hwm * (1 - cfg.sessionProfitLockRetracementPct)) cfg.sessionProfitLockMinFloorUsd
  { l with
    hwm
    floor := if cfg.sessionProfitLockActivationUsd ≤ hwm then some (l.floor.elim proposed (max proposed)) else l.floor }

/-- The third part: whether the lock trips. -/
def trips (l : ProfitLock) : Bool := !l.locked && (l.raise cfg pnl).floor.any (pnl ≤ ·)

def update (l : ProfitLock) : ProfitLock :=
  if l.locked then l
  else if l.trips cfg pnl then
    { l.raise cfg pnl with locked := true, tripTime := some clock.now, tripHwm := (l.raise cfg pnl).hwm, tripPnl := pnl }
  else l.raise cfg pnl

end ProfitLock

namespace TradingCircuitBreaker
variable {clock : Clock} {cb : TradingCircuitBreaker} {pnl : ℚ}

theorem updateSessionProfitLock_of_unlocked (h : cb.profitLock.locked = false) :
    cb.updateSessionProfitLock cfg clock pnl =
      let cb' := { cb with profitLock := cb.profitLock.raise cfg pnl }
      match (cb.profitLock.raise cfg pnl).floor with
      | some f => if pnl ≤ f then (true, tripSessionProfitLock cfg clock pnl cb') else (false, cb')
      | none => (false, cb') := by
  unfold updateSessionProfitLock
  rw [h]
  rfl

theorem updateSessionProfitLock_eq : (cb.updateSessionProfitLock cfg clock pnl).2 =
    let cb' := { cb with profitLock := cb.profitLock.update cfg clock pnl }
    if cb.profitLock.trips cfg pnl then
      cb'.activateCooldown clock .sessionProfitLock cfg.sessionProfitLockCooldownMinutes
    else cb' := by
  cases hlocked : cb.profitLock.locked with
  | true => simp [updateSessionProfitLock, ProfitLock.update, ProfitLock.trips, hlocked]
  | false =>
    rw [updateSessionProfitLock_of_unlocked hlocked]
    unfold ProfitLock.update ProfitLock.trips
    rw [hlocked]
    cases hfloor : (cb.profitLock.raise cfg pnl).floor with
    | none => simp
    | some f =>
      by_cases hf : pnl ≤ f
      · simp [hf, tripSessionProfitLock, activateCooldown]
      · simp [hf]

theorem syncBrokerPnl_profitLock : (cb.syncBrokerPnl cfg clock pnl).2.profitLock =
    if cfg.enableSessionProfitLock then cb.profitLock.update cfg clock pnl else cb.profitLock := by
  unfold syncBrokerPnl
  dsimp only
  split
  · rw [updateSessionProfitLock_eq]
    dsimp only
    split <;> rfl
  · rfl

end TradingCircuitBreaker

/-- Only the P&L updates, the resets and a restored snapshot change the profit lock. -/
theorem BreakerAct.apply_profitLock (cb : TradingCircuitBreaker) (a : BreakerAct) :
    (a.apply cfg cb).profitLock =
      match a.op with
      | .syncBrokerPnl pnl =>
        if cfg.enableSessionProfitLock then cb.profitLock.update cfg a.clock pnl else cb.profitLock
      | .resetSession | .resetDaily => {}
      | .restorePersistedState data => (cb.restorePersistedState a.clock data).profitLock
      | _ => cb.profitLock := by
  obtain ⟨clock, op⟩ := a
  cases op with
  | shouldAllowSignal call => exact (shouldAllowSignal_keepsEvidence cb).profitLock
  | recordTradeResult t =>
    simp only [apply, recordTradeResult]
    split
    · split <;> rfl
    · rfl
  | syncBrokerPnl pnl => exact syncBrokerPnl_profitLock
  | hydrateDailyPnl pnl =>
    simp only [apply, hydrateDailyPnl]
    split
    · rfl
    · split <;> rfl
  | recordShadowOutcome t b =>
    simp only [apply, recordShadowOutcome]
    split <;> rfl
  | getStatus => exact isInCooldown_keepsEvidence.profitLock
  | _ => rfl

/-! ### The end of a cooldown -/

namespace BreakerAct
variable (cfg)

def clears (cb : TradingCircuitBreaker) (a : BreakerAct) : Bool :=
  match a.op with
  | .clearCooldown => true
  | .recordTradeResult t => winClears cfg cb t
  | _ => false

/-- The end that the operation gives to the cooldown, whatever it was. -/
def ownEnd (cb : TradingCircuitBreaker) (a : BreakerAct) : Option ℚ :=
  match a.op with
  | .forceCooldown _ minutes => some (a.clock.now + minutes * 60)
  | .syncBrokerPnl pnl =>
    if cfg.enableSessionProfitLock && cb.profitLock.trips cfg pnl then
      some (a.clock.now + cfg.sessionProfitLockCooldownMinutes * 60)
    else none
  | .hydrateDailyPnl (some pnl) =>
    if pnl ≤ -cfg.maxDailyDrawdown then some (a.clock.now + minutesUntil a.clock.now a.clock.nextReset * 60) else none
  | .restorePersistedState (some data) => data.cooldownUntil.filter (a.clock.now < ·)
  | _ => none

end BreakerAct

/-- What an operation does to the end of an active cooldown. -/
theorem BreakerAct.apply_cooldownUntil {cb : TradingCircuitBreaker} {a : BreakerAct} {t : ℚ}
    (h : cb.cooldownUntil = some t) (ht : a.clock.now < t) :
    (a.apply cfg cb).cooldownUntil = if a.clears cfg cb then none else some ((a.ownEnd cfg cb).getD t) := by
  obtain ⟨clock, op⟩ := a
  cases op with
  | shouldAllowSignal call =>
    simp only [apply, decide_of_lt h ht]
    exact h
  | recordTradeResult t' =>
    simp only [apply, clears, ownEnd, Option.getD_none, recordTradeResult_cooldown.1, h]
    rfl
  | syncBrokerPnl pnl =>
    simp only [apply, syncBrokerPnl, clears, ownEnd]
    cases henabled : cfg.enableSessionProfitLock with
    | false => simpa using h
    | true =>
      rw [if_pos rfl, updateSessionProfitLock_eq]
      cases htrips : cb.profitLock.trips cfg pnl with
      | false => simpa using h
      | true => simp [activateCooldown]
  | clearCooldown => rfl
  | forceCooldown reason minutes => rfl
  | hydrateDailyPnl pnl =>
    cases pnl with
    | none => exact h
    | some pnl =>
      simp only [apply, hydrateDailyPnl, clears, ownEnd]
      split
      · rfl
      · exact h
  | restorePersistedState data =>
    cases data with
    | none => exact h
    | some data =>
      simp only [apply, restorePersistedState, clears, ownEnd]
      cases data.cooldownUntil with
      | none => simpa using h
      | some u => by_cases hu : clock.now < u <;> simp [Option.filter, hu, h]
  | recordShadowOutcome t' b =>
    simp only [apply, recordShadowOutcome]
    split <;> exact h
  | getStatus =>
    simp only [apply, isInCooldown_of_lt h ht]
    exact h
  | _ => exact h

end PearlAlgo
