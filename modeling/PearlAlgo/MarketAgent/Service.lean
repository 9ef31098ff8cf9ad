import PearlAlgo.MarketAgent.VirtualTradeManager

/-!
# Market agent service (`market_agent/service.py`, `service_loop.py`, `execution_orchestrator.py`)

The constructor's wiring of the virtual trade manager and the execution adapter, and the steps of a service
cycle that touch the exits, the adapter or the circuit breaker. A run is any list of `ServiceAct`s; a cycle
of `_run_loop` does the daily reset, the account poll, the close-all handling, the entry decisions, the
virtual exits and another account poll, in this order, and the adapter's coroutines run in between.
`_sync_virtual_trades_with_broker` ends in an `AttributeError` that it catches, since the state manager has
no `append_signal`, and `_check_daily_reset` is not called.
-/

namespace PearlAlgo
open Py Coop

/-- What `MarketAgentService.__init__` finds: the configuration, the environment, the clock and the saved
state. -/
structure ServiceSettings where
  executionAvailable : Bool := true  -- `EXECUTION_AVAILABLE`
  tradovateAvailable : Bool := true  -- `TRADOVATE_AVAILABLE`
  adapterName : String := "tradovate"
  execution : ExecutionSettings := {}
  fromEnv : Bool := true  -- `TradovateConfig.from_env()` does not raise
  virtualPnlEnabled : Bool := true
  tiebreak : Tiebreak := .stopLoss
  zone : Zone
  setOrder : List String → List String := id
  breaker : Option TradingCircuitBreakerConfig := some {}
  clock : Clock
  hydratedPnl : Option ℚ := none
  persisted : Option PersistedState := none
  store : SignalStore := {}

inductive Closing
  | stop
  | target
  | trailingStop
  | flatten
deriving DecidableEq

structure RoundTrip where
  closing : Closing
  pnl : ℚ
deriving DecidableEq

def RoundTrip.result (t : RoundTrip) : TradeResult := ⟨0 < t.pnl, t.pnl⟩

/-- No code reads `roundTrips`, the round trips that were closed at the broker. -/
structure MarketAgentService extends Trackers where
  config : ExecutionConfig
  breakerConfig : TradingCircuitBreakerConfig
  virtualPnlEnabled : Bool
  virtualTradeManager : VirtualTradeManager
  lastTradingDay : Option Int := none
  roundTrips : List RoundTrip := []

/-- `latest_bar`: the conversions that do not raise. -/
structure LatestBar where
  close : Option Number := none
  bid : Option Number := none
  ask : Option Number := none

inductive ServiceAct
  | checkDailyReset (today : Int)
  | pollAccount (clock : Clock) (realizedPnl : ℚ)
  | closeAll (bar : Option LatestBar) (recent : Option (List SignalRecord)) (reason : String) (now : ℚ)
  | closeSignals (signalIds : List String) (bar : Option LatestBar) (recent : Option (List SignalRecord)) (now : ℚ)
  | entryDecision (clock : Clock) (sig : SignalEntry) (filters : Filters) (recent : Option (List SignalRecord))
    (m : AtrData)
  | processExits (bars : Option (List Bar)) (recent : Option (List SignalRecord))
  /-- The adapter's event loop takes a step. -/
  | adapter (a : AdapterAct)
  /-- Signals are tracked, entered or pruned. -/
  | write (store : SignalStore)
  /-- A round trip ends; the broker holds `held` from then on. -/
  | roundTrip (t : RoundTrip) (held : Dict Ident Int) (settled : List Nat)

/-- The daily counters of the adapter change by this action. Only the service and its virtual trade manager
call these methods. -/
def countsDaily : AdapterAct → Bool
  | .env (.updateDailyPnl _) | .env .resetDailyCounters => true
  | _ => false

/-! ### Construction -/

/-- The execution adapter as `__init__` builds it; what raises on the way is caught. -/
def buildExecutionAdapter (c : ServiceSettings) : Option AdapterSys :=
  let name := (strip c.adapterName).toLower
  if c.executionAvailable ∧ c.execution.enabled.getD false then
    if name = "ibkr" ∨ name = "interactivebrokers" then none
    else if (name = "tradovate" ∨ name = "") ∧ c.tradovateAvailable ∧ c.fromEnv then
      some (start (.fromDict c.execution) c.clock.now)
    else none
  else none

def buildCircuitBreaker (c : ServiceSettings) : Option TradingCircuitBreaker :=
  c.breaker.map fun cfg =>
    (TradingCircuitBreaker.hydrateDailyPnl cfg c.clock c.hydratedPnl {}).restorePersistedState c.clock c.persisted

/-- The attribute `execution_adapter` of the service while `__init__` runs; `unset` where it has not been
assigned. -/
inductive AdapterAttribute
  | unset
  | assigned (executionAdapter : Option AdapterSys)

/-- `getattr(self, "execution_adapter", None)` -/
def AdapterAttribute.getattr : AdapterAttribute → Option AdapterRef
  | .assigned (some _) => some .executionAdapter
  | .assigned none | .unset => none

def AdapterAttribute.value : AdapterAttribute → Option AdapterSys
  | .assigned executionAdapter => executionAdapter
  | .unset => none

namespace MarketAgentService

/-- `MarketAgentService.__init__`: the manager is built before the adapter is. -/
def init (c : ServiceSettings) : MarketAgentService :=
  let executionAdapter := AdapterAttribute.unset
  let virtualTradeManager : VirtualTradeManager :=
    { executionAdapter := executionAdapter.getattr, virtualPnlEnabled := c.virtualPnlEnabled
      tiebreak := c.tiebreak, zone := c.zone, setOrder := c.setOrder }
  let executionAdapter := AdapterAttribute.assigned (buildExecutionAdapter c)
  { store := c.store
    breaker := buildCircuitBreaker c
    executionAdapter := executionAdapter.value
    config := .fromDict c.execution
    breakerConfig := c.breaker.getD {}
    virtualPnlEnabled := c.virtualPnlEnabled
    virtualTradeManager }

/-! ### The parts of a cycle -/

def checkDailyReset (today : Int) (s : MarketAgentService) : MarketAgentService :=
  match s.executionAdapter, s.lastTradingDay with
  | none, _ => s
  | some _, none => { s with lastTradingDay := some today }
  | some sys, some day =>
    if day = today then s
    else
      { s with
        executionAdapter := some ((machine s.config).fire .resetDailyCounters sys)
        exits := []
        lastTradingDay := some today }

/-- The account poll, when it succeeds. A kill request that `sync_broker_pnl` writes is left to the
execution control flags. -/
def pollAccount (clock : Clock) (realizedPnl : ℚ) (s : MarketAgentService) : MarketAgentService :=
  match s.executionAdapter with
  | none => s
  | some _ => { s with breaker := s.breaker.map fun cb => (cb.syncBrokerPnl s.breakerConfig clock realizedPnl).2 }

/-- The price at which `_close_all_virtual_trades` exits: the bid for a long, the ask for a short. -/
def closePrice (bar : LatestBar) (close : Number) (sig : SignalData) : Number :=
  if sig.side = "long" then (bar.bid.filter (.fin 0 < ·)).getD close
  else if sig.side = "short" then (bar.ask.filter (.fin 0 < ·)).getD close
  else close

/-- The loop of `_close_all_virtual_trades` and of `_close_specific_virtual_trades`. -/
def closeEach (bar : LatestBar) (close : Number) (reason : String) (now : ℚ) (records : List SignalRecord)
    (x : Trackers) : Trackers :=
  records.foldl (fun x r =>
    let signalId := strip r.signalId
    if signalId = "" then x
    else (x.trackExit signalId (closePrice bar close (r.signal.getD {})) reason now).2) x

/-- Close the active virtual trades that satisfy `p`, when there is a price. -/
def closeTrades (p : SignalRecord → Bool) (bar : Option LatestBar) (recent : Option (List SignalRecord))
    (reason : String) (now : ℚ) (s : MarketAgentService) : MarketAgentService :=
  if ¬ s.virtualPnlEnabled then s
  else
    let active := (recent.getD []).filter fun r => r.status = .entered
    let bar := bar.getD {}
    match bar.close.filter (.fin 0 < ·) with
    | none => s
    | some close => { s with toTrackers := closeEach bar close reason now (active.filter p) s.toTrackers }

/-- `_close_all_virtual_trades`, on a manual request (`close_all_requested`) or an auto-flat rule. -/
def closeAllVirtualTrades : Option LatestBar → Option (List SignalRecord) → String → ℚ → MarketAgentService →
    MarketAgentService :=
  closeTrades fun _ => true

def closeSpecificVirtualTrades (signalIds : List String) (bar : Option LatestBar)
    (recent : Option (List SignalRecord)) (now : ℚ) : MarketAgentService → MarketAgentService :=
  closeTrades (fun r => r.signalId ∈ signalIds) bar recent "manual_close_requested" now

/-- A price as the position limits compare it: what is not finite clusters with nothing. -/
def finiteOrZero : Number → ℚ
  | .fin q => q
  | _ => 0

/-- The active positions of `_check_circuit_breaker`: the broker's, or the entered signals when it has none
listed. -/
def activePositions (recent : Option (List SignalRecord)) (s : MarketAgentService) : List SignalEntry :=
  match (s.executionAdapter.map fun sys => sys.shared.livePositions.values).getD [] with
  | [] => (latestById (recent.getD [])).values.filterMap fun r =>
      if r.status = .entered then
        some ⟨(r.own.entryPrice.map finiteOrZero).getD 0, r.own.direction.getD "unknown"⟩
      else none
  | live => live.filterMap fun p =>
      if p.netPos = 0 then none else some ⟨p.netPrice, if 0 < p.netPos then "long" else "short"⟩

/-- `_check_circuit_breaker`: whether the signal goes on, and the service. -/
def checkCircuitBreaker (clock : Clock) (sig : SignalEntry) (filters : Filters) (recent : Option (List SignalRecord))
    (m : AtrData) (s : MarketAgentService) : Bool × MarketAgentService :=
  match s.breaker with
  | none => (true, s)
  | some cb =>
    let (d, cb) := cb.shouldAllowSignal s.breakerConfig clock sig filters (some (s.activePositions recent)) (some m)
    if d.allowed then (true, { s with breaker := some cb })
    else
      match s.breakerConfig.mode with
      | .warnOnly => (true, { s with breaker := some (cb.recordWouldBlock d.reason) })
      | .enforce => (false, { s with breaker := some cb })

def updateVirtualTradeExits (bars : Option (List Bar)) (recent : Option (List SignalRecord)) (s : MarketAgentService) :
    MarketAgentService :=
  let (virtualTradeManager, toTrackers) := s.virtualTradeManager.processExits s.config bars recent s.toTrackers
  { s with virtualTradeManager, toTrackers }

/-- One step; `none` when the adapter cannot take it. -/
def step (s : MarketAgentService) : ServiceAct → Option MarketAgentService
  | .checkDailyReset today => some (s.checkDailyReset today)
  | .pollAccount clock realizedPnl => some (s.pollAccount clock realizedPnl)
  | .closeAll bar recent reason now => some (s.closeAllVirtualTrades bar recent reason now)
  | .closeSignals signalIds bar recent now => some (s.closeSpecificVirtualTrades signalIds bar recent now)
  | .entryDecision clock sig filters recent m => some (s.checkCircuitBreaker clock sig filters recent m).2
  | .processExits bars recent => some (s.updateVirtualTradeExits bars recent)
  | .adapter a =>
    if countsDaily a then none
    else do
      let sys ← s.executionAdapter
      let sys ← (machine s.config).step sys a
      return { s with executionAdapter := some sys }
  | .write store => some { s with store }
  | .roundTrip t held settled => do
    let sys ← s.executionAdapter
    return { s with
      executionAdapter := some ((machine s.config).fire (.broker held settled) sys)
      roundTrips := s.roundTrips ++ [t] }

def run (s : MarketAgentService) (acts : List ServiceAct) : Option MarketAgentService := acts.foldlM step s

/-- A run of a new service: the actions and the state they lead to. -/
def Runs (c : ServiceSettings) (acts : List ServiceAct) (s : MarketAgentService) : Prop :=
  (init c).run acts = some s

theorem run_invariant {I : MarketAgentService → Prop} (hstep : ∀ s a s', I s → step s a = some s' → I s')
    {s s' : MarketAgentService} {acts : List ServiceAct} (hI : I s) (h : s.run acts = some s') : I s' := by
  induction acts generalizing s with
  | nil =>
    cases h
    exact hI
  | cons a acts ih =>
    simp only [run, List.foldlM_cons, Option.bind_eq_bind, Option.bind_eq_some_iff] at h
    obtain ⟨s₁, h₁, h⟩ := h
    exact ih (hstep _ _ _ hI h₁) h

theorem exists_runs (c : ServiceSettings) (acts : List ServiceAct) (p : MarketAgentService → Bool)
    (h : ((init c).run acts).map p = some true) : ∃ s, Runs c acts s ∧ p s = true :=
  Option.map_eq_some_iff.1 h

/-! ### What a step does to the adapter -/

/-- What a step of the service does to its adapter when no exit is forwarded. -/
inductive AdapterMove (s s' : MarketAgentService) : Prop
  | quiet (h : s'.executionAdapter = s.executionAdapter)
  | reset {sys : AdapterSys} (h : s.executionAdapter = some sys)
    (h' : s'.executionAdapter = some ((machine s.config).fire .resetDailyCounters sys))
  | act {a : AdapterAct} {sys sys' : AdapterSys} (ha : countsDaily a = false) (h : s.executionAdapter = some sys)
    (hstep : (machine s.config).step sys a = some sys') (h' : s'.executionAdapter = some sys')

/-- The virtual trade manager has no reference to the adapter, and the step moves the adapter. -/
structure Unwired (s s' : MarketAgentService) : Prop where
  config : s'.config = s.config
  manager : s'.virtualTradeManager.executionAdapter = none
  move : AdapterMove s s'

variable {s s' : MarketAgentService}

theorem closeTrades_frame (p : SignalRecord → Bool) (bar : Option LatestBar) (recent : Option (List SignalRecord))
    (reason : String) (now : ℚ) (s : MarketAgentService) :
    (s.closeTrades p bar recent reason now).executionAdapter = s.executionAdapter ∧
      (s.closeTrades p bar recent reason now).breaker = s.breaker := by
  have hloop (bar : LatestBar) (close : Number) (records : List SignalRecord) (x : Trackers) :
      (closeEach bar close reason now records x).executionAdapter = x.executionAdapter ∧
        (closeEach bar close reason now records x).breaker = x.breaker := by
    induction records generalizing x with
    | nil => exact ⟨rfl, rfl⟩
    | cons r records ih =>
      rw [closeEach, List.foldl_cons]
      obtain ⟨hadapter, hbreaker⟩ := ih (if strip r.signalId = "" then x
        else (x.trackExit (strip r.signalId) (closePrice bar close (r.signal.getD {})) reason now).2)
      refine ⟨hadapter.trans ?_, hbreaker.trans ?_⟩ <;> split <;> rfl
  unfold closeTrades
  split
  · exact ⟨rfl, rfl⟩
  · dsimp only
    split
    · exact ⟨rfl, rfl⟩
    · exact hloop _ _ _ _

theorem closeTrades_unwired (h : s.virtualTradeManager.executionAdapter = none) (p : SignalRecord → Bool)
    (bar : Option LatestBar) (recent : Option (List SignalRecord)) (reason : String) (now : ℚ) :
    Unwired s (s.closeTrades p bar recent reason now) := by
  have hframe := closeTrades_frame p bar recent reason now s
  have hrest : (s.closeTrades p bar recent reason now).config = s.config ∧
      (s.closeTrades p bar recent reason now).virtualTradeManager = s.virtualTradeManager := by
    unfold closeTrades
    split
    · exact ⟨rfl, rfl⟩
    · dsimp only
      split <;> exact ⟨rfl, rfl⟩
  exact ⟨hrest.1, hrest.2 ▸ h, .quiet hframe.1⟩

theorem updateVirtualTradeExits_unwired (h : s.virtualTradeManager.executionAdapter = none)
    (bars : Option (List Bar)) (recent : Option (List SignalRecord)) :
    Unwired s (s.updateVirtualTradeExits bars recent) := by
  have hI := VirtualTradeManager.processExits_invariant
    (fun vtm x => vtm.executionAdapter = none ∧ x.executionAdapter = s.executionAdapter) s.config
    (fun _ _ _ h => h) (fun _ _ _ _ _ _ h => h)
    (fun vtm x sig perf h => ⟨h.1, by rw [VirtualTradeManager.notifyExit, h.1]; exact h.2⟩)
    bars recent s.virtualTradeManager s.toTrackers ⟨h, rfl⟩
  exact ⟨rfl, hI.1, .quiet hI.2⟩

theorem step_unwired (h : s.virtualTradeManager.executionAdapter = none) {a : ServiceAct}
    (hs : s.step a = some s') : Unwired s s' := by
  cases a with
  | checkDailyReset today =>
    cases hs
    unfold checkDailyReset
    split
    · exact ⟨rfl, h, .quiet rfl⟩
    · exact ⟨rfl, h, .quiet rfl⟩
    next sys day hsys hday =>
      split
      · exact ⟨rfl, h, .quiet rfl⟩
      · exact ⟨rfl, h, .reset hsys rfl⟩
  | pollAccount clock realizedPnl =>
    cases hs
    unfold pollAccount
    split <;> exact ⟨rfl, h, .quiet rfl⟩
  | closeAll bar recent reason now =>
    cases hs
    exact closeTrades_unwired h _ _ _ _ _
  | closeSignals signalIds bar recent now =>
    cases hs
    exact closeTrades_unwired h _ _ _ _ _
  | entryDecision clock sig filters recent m =>
    cases hs
    unfold checkCircuitBreaker
    split
    · exact ⟨rfl, h, .quiet rfl⟩
    · dsimp only
      split
      · exact ⟨rfl, h, .quiet rfl⟩
      · split <;> exact ⟨rfl, h, .quiet rfl⟩
  | processExits bars recent =>
    cases hs
    exact updateVirtualTradeExits_unwired h _ _
  | adapter a =>
    simp only [step] at hs
    split at hs
    · cases hs
    next ha =>
      simp only [Option.bind_eq_bind, Option.bind_eq_some_iff] at hs
      obtain ⟨sys, hsys, sys', hact, hs⟩ := hs
      cases hs
      exact ⟨rfl, h, .act (Bool.eq_false_of_not_eq_true ha) hsys hact rfl⟩
  | write store =>
    cases hs
    exact ⟨rfl, h, .quiet rfl⟩
  | roundTrip t held settled =>
    simp only [step, Option.bind_eq_bind, Option.bind_eq_some_iff] at hs
    obtain ⟨sys, hsys, hs⟩ := hs
    cases hs
    exact ⟨rfl, h, .act (a := .env (.broker held settled)) rfl hsys (Machine.step_env _ _ _) rfl⟩

/-- Every run of the service is a run of its adapter, in which no P&L is forwarded. -/
theorem adapter_runs {c : ServiceSettings} {acts : List ServiceAct} (h : Runs c acts s) {sys : AdapterSys}
    (hsys : s.executionAdapter = some sys) :
    ∃ acts', PearlAlgo.Runs s.config c.clock.now acts' sys ∧
      ∀ pnl, (Act.env (.updateDailyPnl pnl) : AdapterAct) ∉ acts' := by
  suffices hI : s.config = .fromDict c.execution ∧ s.virtualTradeManager.executionAdapter = none ∧
      ∀ sys, s.executionAdapter = some sys → ∃ acts', PearlAlgo.Runs s.config c.clock.now acts' sys ∧
        ∀ pnl, (Act.env (.updateDailyPnl pnl) : AdapterAct) ∉ acts' from hI.2.2 sys hsys
  refine run_invariant (I := fun s => s.config = .fromDict c.execution ∧
      s.virtualTradeManager.executionAdapter = none ∧ ∀ sys, s.executionAdapter = some sys →
        ∃ acts', PearlAlgo.Runs s.config c.clock.now acts' sys ∧
          ∀ pnl, (Act.env (.updateDailyPnl pnl) : AdapterAct) ∉ acts') ?_ ⟨rfl, rfl, ?_⟩ h
  · rintro s a s' ⟨hconfig, hmanager, hrun⟩ hs
    obtain ⟨hconfig', hmanager', hmove⟩ := step_unwired hmanager hs
    refine ⟨hconfig'.trans hconfig, hmanager', fun sys' hsys' => ?_⟩
    rw [hconfig']
    cases hmove with
    | quiet heq => exact hrun sys' (heq ▸ hsys')
    | reset hsys heq =>
      cases heq.symm.trans hsys'
      obtain ⟨acts', hacts', hpnl⟩ := hrun _ hsys
      refine ⟨acts' ++ [.env .resetDailyCounters], Machine.run_append _ hacts' ?_, fun pnl hmem => ?_⟩
      · exact (Machine.run_cons _).2 ⟨_, Machine.step_env _ _ _, rfl⟩
      · rcases List.mem_append.1 hmem with hmem | hmem
        · exact hpnl pnl hmem
        · cases List.mem_singleton.1 hmem
    | @act a sys _ ha hsys hact heq =>
      cases heq.symm.trans hsys'
      obtain ⟨acts', hacts', hpnl⟩ := hrun _ hsys
      refine ⟨acts' ++ [a], Machine.run_append _ hacts' ?_, fun pnl hmem => ?_⟩
      · exact (Machine.run_cons _).2 ⟨_, hact, rfl⟩
      · rcases List.mem_append.1 hmem with hmem | hmem
        · exact hpnl pnl hmem
        · cases List.mem_singleton.1 hmem
          cases ha
  · intro sys hsys
    have hstart : sys = start (.fromDict c.execution) c.clock.now := by
      simp only [init, AdapterAttribute.value, buildExecutionAdapter] at hsys
      split at hsys
      · split at hsys
        · cases hsys
        · split at hsys
          · exact (Option.some.inj hsys).symm
          · cases hsys
      · cases hsys
    exact ⟨[], hstart ▸ rfl, fun _ => List.not_mem_nil⟩

end MarketAgentService

end PearlAlgo
