import PearlAlgo.Coop.Server
import PearlAlgo.MarketAgent.ProtectionGuard
import PearlAlgo.Py.Round

/-!
# The orphaned stop check (`execution/tradovate/adapter.py`)

After a connect, `_reattach_orphaned_stop_on_connect` reads the account summary and places a stop for each position
when it finds none, and `_reattach_orphaned_stop_on_connect_with_retry` repeats it while it raises a maintenance error.
The calls go to a broker that holds still and of whose calls any may fail. Cancelling the task, the pauses and the
logging are left out, and so are the account's figures in the summary. The errors of the calls are those that the
`except` clauses tell apart.
-/

namespace PearlAlgo
open Py Coop

/-- What a call to the broker raises. -/
inductive CallError
  | api (e : ApiError)
  | listed  -- `TimeoutError`, `OSError`, `ValueError`, `TypeError`, `KeyError`
  | other
deriving DecidableEq

/-- The `except` clause of the check. -/
def CallError.isCaught : CallError → Bool
  | .other => false
  | _ => true

/-- A row of `/order/list`, where the stop price may be there as `null`. -/
structure ListedOrder extends RawOrder where
  nullStopPrice : Bool := false

/-- An emergency stop, for the side of its position. -/
structure EmergencyStop where
  symbol : Option String
  side : PositionSide
  orderQty : Nat
  stopPrice : ℚ

inductive BrokerCall
  | cashBalance
  | positions
  | fills
  | orders
  | cancelOrder (id : Int)
  | placeOrder (stop : EmergencyStop)

@[reducible] def BrokerReply : BrokerCall → Type
  | .positions => List PositionRow
  | .orders => List ListedOrder
  | _ => Unit

abbrev BrokerProc (α : Type) : Type := Proc World (fun q => Except CallError (BrokerReply q)) α

/-- What the fetch of a listing makes of its failure. -/
def fetched {α : Type} : Except CallError (List α) → Option (List α)
  | .ok rows => some rows
  | .error (.api .maintenance) => some []
  | .error _ => none

def summaryFrom (w : World) (rows : Except CallError (List PositionRow)) (orders : Except CallError (List ListedOrder)) :
    AccountSummary :=
  getAccountSummary w (fetched rows) ((fetched orders).map fun rows => rows.map ListedOrder.toRawOrder)

def fetchAccountSummary : BrokerProc AccountSummary := do
  let w ← Proc.read
  if w.isConnected then
    let _ ← Proc.ask BrokerCall.cashBalance
    let rows ← Proc.ask BrokerCall.positions
    let _ ← Proc.ask BrokerCall.fills
    let orders ← Proc.ask BrokerCall.orders
    return summaryFrom w rows orders
  else return getAccountSummary w none none

/-- The rows that the check takes for protection. -/
def WorkingOrder.looksProtective (side : PositionSide) (o : WorkingOrder) : Bool :=
  o.stopPrice.isSome ∨ o.orderType.toLower = "stop" ∨ o.ocoId.isSome ∧ o.action = some side.stopAction ∨
    o.parentId.isSome ∧ o.action = some side.stopAction

/-- `_has_existing_stop_for_position` -/
def checkExistingStop (side : PositionSide) : BrokerProc Bool := do
  match ← Proc.ask BrokerCall.orders with
  | .ok orders => return hasExistingStopForPosition side (orders.map ListedOrder.toRawOrder)
  | .error _ => return false

/-- The stops of `_cancel_duplicate_stops` after the best one. -/
def duplicateStops (orders : List ListedOrder) : List PositionRow → List ListedOrder
  | [] => []
  | pos :: _ =>
    let side : PositionSide := if 0 < pos.net then .long else .short
    let stops := orders.filter fun o =>
      (o.orderType.getD "").toLower = "stop" ∧ o.action = some side.stopAction ∧
        ((orText o.ordStatus o.status).getD "").toLower ∈ ["working", "open", "accepted", "pending", "held", "submitted"]
    if stops.length ≤ 1 then []
    -- `None` does not compare with a price
    else if stops.any ListedOrder.nullStopPrice then []
    else (stops.mergeSort fun a b => side.le (b.stopPrice.getD 0) (a.stopPrice.getD 0)).tail

/-- The loop that cancels them: a row without an id raises, in the handler too. -/
def cancelStops : List ListedOrder → BrokerProc Unit
  | [] => return ()
  | o :: rest =>
    match o.id with
    | none => return ()
    | some id => do
      let _ ← Proc.ask (BrokerCall.cancelOrder id)
      cancelStops rest

/-- What `_cancel_duplicate_stops` does with its listing of the positions. -/
def cancelDuplicatesAmong (orders : List ListedOrder) : Except CallError (List PositionRow) → BrokerProc Unit
  | .error _ => return ()
  | .ok positions => cancelStops (duplicateStops orders positions)

/-- `_cancel_duplicate_stops`; the number that it returns is only logged. -/
def cancelDuplicateStops : BrokerProc Unit := do
  match ← Proc.ask BrokerCall.orders with
  | .error _ => return ()
  | .ok orders =>
    if orders.isEmpty then return ()
    else do
      let positions ← Proc.ask BrokerCall.positions
      cancelDuplicatesAmong orders positions

/-- The stop, 40 points away from the entry. -/
def emergencyStop (symbol : Option String) (p : AccountPosition) : EmergencyStop where
  symbol
  side := p.side
  orderQty := p.netPos.natAbs
  stopPrice := roundCents (p.side.behind p.netPrice 40)

/-- What the loop does with the reply to a placement: it goes on, except when the error is not one that is listed. -/
def afterPlacement (r : Except CallError Unit) (next : BrokerProc (Except CallError Unit)) :
    BrokerProc (Except CallError Unit) :=
  match r with
  | .error e => if e.isCaught then next else return .error e
  | .ok () => next

def placeEmergencyStops (symbol : Option String) : List AccountPosition → BrokerProc (Except CallError Unit)
  | [] => return .ok ()
  | p :: rest =>
    if p.netPrice ≤ 0 then placeEmergencyStops symbol rest
    else do
      let r ← Proc.ask (BrokerCall.placeOrder (emergencyStop symbol p))
      afterPlacement r (placeEmergencyStops symbol rest)

/-- What the check does with the summary. -/
def protectPositions (summary : AccountSummary) : BrokerProc (Except CallError Unit) :=
  match summary.positions.filter fun p => p.netPos ≠ 0 with
  | [] => return .ok ()
  | first :: rest =>
    if summary.workingOrders.any (WorkingOrder.looksProtective first.side) then return .ok ()
    else do
      let hasLiveStop ← checkExistingStop first.side
      if hasLiveStop then
        cancelDuplicateStops
        return .ok ()
      else
        let w ← Proc.read
        placeEmergencyStops w.contractSymbol (first :: rest)

/-- The `except` clause around the check. -/
def afterCheck : Except CallError Unit → BrokerProc (Except CallError Unit)
  | .error e => if e.isCaught then return .ok () else return .error e
  | .ok () => return .ok ()

def reattachOrphanedStopOnConnect : BrokerProc (Except CallError Unit) := do
  let summary ← fetchAccountSummary
  let r ← protectPositions summary
  afterCheck r

/-! ### The broker -/

/-- What the broker holds, with the contracts of its symbols. -/
structure Broker where
  contracts : String → Ident
  positions : List PositionRow
  orders : List ListedOrder

def EmergencyStop.row (contracts : String → Ident) (stop : EmergencyStop) : ListedOrder where
  ordStatus := some "Working"
  contractId := stop.symbol.bind contracts
  action := some stop.side.stopAction
  orderType := some "Stop"
  orderQty := some stop.orderQty
  stopPrice := some stop.stopPrice

/-- What a call does to the working orders. -/
def BrokerCall.effect (contracts : String → Ident) (orders : List ListedOrder) : BrokerCall → List ListedOrder
  | .cancelOrder id => orders.filter fun o => o.id ≠ some id
  | .placeOrder stop => orders ++ [stop.row contracts]
  | _ => orders

def Broker.reply (b : Broker) : (q : BrokerCall) → BrokerReply q
  | .positions => b.positions
  | .orders => b.orders
  | .cashBalance | .fills | .cancelOrder _ | .placeOrder _ => ()

def Broker.answer : Server BrokerReply Broker
  | q, b => (b.reply q, { b with orders := q.effect b.contracts b.orders })

/-- The broker, where the pattern tells which calls fail. -/
abbrev Broker.serving (fails : Nat → Option CallError) : Server (fun q => Except CallError (BrokerReply q)) (Nat × Broker) :=
  faulty fails Broker.answer

abbrev Attempt : Type := Served World (fun q => Except CallError (BrokerReply q)) (Nat × Broker) (Except CallError Unit)

/-- A run of the retry wrapper, with its attempts. -/
structure RetryRun where
  value : Except CallError Bool
  attempts : List Attempt
  world : World
  killRequested : Bool := false

/-- `_reattach_orphaned_stop_on_connect_with_retry`; giving up disarms the adapter and asks for the kill switch. -/
def reattachWithRetry (fails : Nat → Option CallError) : Nat → World → Nat × Broker → RetryRun
  | 0, w, _ => { value := .ok false, attempts := [], world := w.disarm, killRequested := true }
  | n + 1, w, b =>
    let o := reattachOrphanedStopOnConnect.serve (Broker.serving fails) w b
    match o.value with
    | .ok () => { value := .ok true, attempts := [o], world := o.state }
    | .error (.api .maintenance) =>
      let r := reattachWithRetry fails n o.state o.server
      { r with attempts := o :: r.attempts }
    | .error .other => { value := .error .other, attempts := [o], world := o.state }
    | .error _ => { value := .ok false, attempts := [o], world := o.state }

end PearlAlgo
