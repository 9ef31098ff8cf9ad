import PearlAlgo.Tradovate.PlaceBracket

/-!
# The adapter on its event loop

The coroutines of one `TradovateExecutionAdapter`, and what else changes its state between two awaits: the
synchronous methods, the WebSocket handler, the connection, the clocks and the broker. A run of `machine` is any order of these.
-/

namespace PearlAlgo
open Py Coop

inductive Call
  | placeBracket (sig : Signal) (uuid : String)
  | cancelAll
  | flattenAllPositions
  | getPositions (forceRest : Bool)

inductive Returned
  | exit (r : Exit)
  | results (r : Except Err (List ExecutionResult))
  | positions (r : Except Err (List Position))
deriving DecidableEq

inductive EnvEvent
  | arm
  | disarm
  | resetDailyCounters
  | updateDailyPnl (pnlChange : ℚ)
  | wsEvent (e : WsEvent)
  | connection (connected isAuthenticated : Bool)
  | elapse (d : ℚ) (hd : 0 ≤ d)
  | setClock (now : ℚ)
  /-- The broker's positions change, and the entries `settled` are filled or refused. -/
  | broker (held : Dict Ident Int) (settled : List Nat)

def envStep (cfg : ExecutionConfig) (e : EnvEvent) (w : World) : World :=
  match e with
  | .arm => { w with base := (w.base.arm cfg).2 }
  | .disarm => w.disarm
  | .resetDailyCounters => { w with base := w.base.resetDailyCounters }
  | .updateDailyPnl pnlChange => { w with base := w.base.updateDailyPnl pnlChange }
  | .wsEvent e => w.handleWsEvent e
  | .connection connected isAuthenticated => { w with connected, isAuthenticated }
  | .elapse d _ => { w with monotonic := w.monotonic + d, now := w.now + d }
  | .setClock now => { w with now }
  | .broker held settled =>
    { w with book := { settled.foldl (fun b n => b.settle n) w.book with held } }

def procOf (cfg : ExecutionConfig) : Call → Flow Returned
  | .placeBracket sig uuid => do return .exit (← placeBracket cfg sig uuid)
  | .cancelAll => do return .results (← cancelAll cfg)
  | .flattenAllPositions => do return .results (← flattenAllPositions cfg)
  | .getPositions forceRest => do return .positions (← getPositions cfg forceRest)

abbrev AdapterMachine : Type := Machine World Answer Returned Call EnvEvent
abbrev AdapterView : Type := View World Answer Returned Call EnvEvent
abbrev AdapterTurn : Type := Turn World Answer Returned Call EnvEvent
abbrev AdapterAct : Type := Act Call EnvEvent Answer

def machine (cfg : ExecutionConfig) : AdapterMachine := ⟨procOf cfg, envStep cfg⟩

/-- The event loop of a new adapter. -/
def start (cfg : ExecutionConfig) (t : ℚ) : Sys World Answer Returned Call EnvEvent :=
  Machine.init (World.init cfg t)

/-- A run of a new adapter: the actions and the state they lead to. -/
def Runs (cfg : ExecutionConfig) (t : ℚ) (acts : List AdapterAct) (s : Sys World Answer Returned Call EnvEvent) :
    Prop :=
  (machine cfg).run (start cfg t) acts = some s

theorem exists_runs (cfg : ExecutionConfig) (t : ℚ) (acts : List AdapterAct)
    (p : Sys World Answer Returned Call EnvEvent → Bool)
    (h : ((machine cfg).run (start cfg t) acts).map p = some true) : ∃ s, Runs cfg t acts s ∧ p s = true :=
  Option.map_eq_some_iff.1 h

theorem handleWsEvent_frame (e : WsEvent) (w : World) :
    (w.handleWsEvent e).base = w.base ∧ (w.handleWsEvent e).monotonic = w.monotonic ∧
      (w.handleWsEvent e).executedSignalIds = w.executedSignalIds ∧
      (w.handleWsEvent e).pendingOrdersCount = w.pendingOrdersCount ∧ (w.handleWsEvent e).book = w.book := by
  cases e with
  | order id ordStatus =>
    simp only [World.handleWsEvent, World.onOrder]
    split <;> exact ⟨rfl, rfl, rfl, rfl, rfl⟩
  | fill orderId qty =>
    simp only [World.handleWsEvent, World.onFill]
    split
    · exact ⟨rfl, rfl, rfl, rfl, rfl⟩
    · split <;> exact ⟨rfl, rfl, rfl, rfl, rfl⟩
  | position row => exact ⟨rfl, rfl, rfl, rfl, rfl⟩

/-! ### A concrete adapter

A configuration, a signal and a broker's answers for the runs on fixed inputs. -/

def sampleConfig : ExecutionConfig :=
  .fromDict { enabled := some true, armed := some true, mode := some "paper" }

def sampleSignal (signalId : String) : Signal where
  signalId := some signalId
  type := some "breakout"
  symbol := some "MNQ"
  direction := some "long"
  entryPrice := some (.ok (.fin 100))
  stopLoss := some (.ok (.fin 90))
  takeProfit := some (.ok (.fin 120))
  positionSize := some (.ok 1)

/-- A broker without positions that accepts every order. -/
def acceptAll : (q : Request) → Answer q
  | .getPositions _ => .ok (some [])
  | .getOrders => .ok (some [])
  | .placeOrder _ => .ok ()
  | .placeOso _ => .ok (.dict { orderId := some 7 } none (some 8) (some 9) none none)
  | .cancelOrder _ => .ok ()
  | .suggestContracts _ => .ok (some "MNQH6")
  | .rollContract _ => .ok none
  | .findContract _ => .ok none

def holding (netPos : Int) : (q : Request) → Answer q
  | .getPositions _ => .ok (some [some { contractId := some 1, netPos := some netPos }])
  | q => acceptAll q

/-- The adapter is connected, with no position known for ten seconds. -/
def connect : List AdapterAct := [.env (.connection true true), .env (.elapse 10 (by decide))]

def tenSeconds : EnvEvent := .elapse 10 (by decide)

/-- A call that looks up the positions and the contract, sends its bracket and has it accepted. -/
def placeOne : List AdapterAct :=
  connect ++ [.spawn (.placeBracket (sampleSignal "s1") ""), .resume 0 acceptAll, .resume 0 acceptAll,
    .resume 0 acceptAll]

end PearlAlgo
