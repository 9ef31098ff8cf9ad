import PearlAlgo.Tradovate.Adapter

/-!
# Bracket placement (`TradovateExecutionAdapter.place_bracket`)

The body of `place_bracket`, cut where it changes its subject: duplicate and precondition checks
(`checkSignal`), the broker-position guard with its reversal path (`guardPositions`), what comes before the
order is marked (`prepare`), and the request with its reply (`submit`). A piece that ends the call
returns the call's end (`Exit`) as its error.

The `Book` of the world is written here and nowhere read: an entry is entered when the cap check accepts
it and leaves when the call ends without having sent it, or when the broker has refused it.
-/

namespace PearlAlgo
open Py Coop

/-- How `place_bracket` ends: a result, or the exception it raises. -/
abbrev Exit : Type := Except Err ExecutionResult

/-- `signal.get("signal_id", str(uuid.uuid4()))` -/
def Signal.idOr (sig : Signal) (uuid : String) : String := sig.signalId.getD uuid

/-! ### Duplicate signals and preconditions -/

namespace World

def evictSignalIds (w : World) : World :=
  { w with executedSignalIds := w.executedSignalIds.filter fun _ ts => w.monotonic - ts < SIGNAL_DEDUP_TTL }

def markExecuted (sid : String) (w : World) : World :=
  { w with executedSignalIds := w.executedSignalIds.set sid w.monotonic }

end World

/-- The duplicate check and `check_preconditions`. -/
def checkSignal (cfg : ExecutionConfig) (sig : Signal) (sid : String) : Flow (Except Exit Unit) := do
  Proc.modify World.evictSignalIds
  let w ← Proc.read
  if w.executedSignalIds.contains sid then return .error (.ok (.reject sid .duplicateSignalId))
  else
    match w.base.checkPreconditions cfg sig w.now with
    | .error e => return .error (.error e)
    | .ok (decision, base) => do
      Proc.modify fun w => { w with base }
      if decision.execute then return .ok ()
      else return .error (.ok (.reject sid (.precondition decision.reason)))

/-! ### Broker-position guard -/

namespace World

/-- The WebSocket cache was updated within the last two seconds. -/
def wsDataFresh (w : World) : Bool := w.monotonic - w.livePositionsUpdatedAt ≤ 2

/-- Drop a stale position cache. -/
def clearStalePositions (w : World) : World :=
  if ¬ w.wsDataFresh ∧ POSITION_CACHE_TTL < w.monotonic - w.livePositionsUpdatedAt then
    { w with livePositions := .empty }
  else w

def clearPositions (w : World) : World := { w with livePositions := .empty, livePositionsUpdatedAt := 0 }

/-- `net_pos` of the cached positions. -/
def cachedNet (w : World) : List Int := w.livePositions.values.map LivePosition.netPos

end World

/-- `net_pos` of a listing: what is not a dictionary is skipped. -/
def listedNet (reply : Reply (.getPositions .guard)) : List Int :=
  ((reply : Option (List (Option PositionRow))).getD []).filterMap fun row => row.map PositionRow.net

def existingDir (netPos : Int) : String := if 0 < netPos then "long" else "short"

/-- The loop over the active positions: an opposite one is flattened when reversal is enabled, and
otherwise blocks the order. -/
def reverseOpposite (cfg : ExecutionConfig) (sid direction : String) : List Int → Flow (Except Exit Unit)
  | [] => return .ok ()
  | netPos :: rest =>
    if existingDir netPos = direction then reverseOpposite cfg sid direction rest
    else if ¬ cfg.allowReversalOnOppositeSignal then
      return .error (.ok (.reject sid (.oppositeDirectionBlocked (existingDir netPos) direction)))
    else do
      match ← flattenAllPositions cfg with
      | .error e => return .error (.error e)
      | .ok results =>
        if firstSucceeded results then do
          Proc.modify World.clearPositions
          reverseOpposite cfg sid direction rest
        else return .error (.ok (.fail sid .reversalFlattenFailed))

def totalAbsPos (netPositions : List Int) : Nat := ((netPositions.filter (· ≠ 0)).map Int.natAbs).sum

/-- The pending-orders guard and the max-position guard. -/
def capCheck (cfg : ExecutionConfig) (sid : String) (total : Nat) : Flow (Except Exit Unit) := do
  let w ← Proc.read
  if cfg.maxPositions ≤ w.pendingOrdersCount then
    return .error (.ok (.reject sid (.pendingOrdersLimit w.pendingOrdersCount cfg.maxPositions)))
  else if cfg.maxPositions ≤ total then
    return .error (.ok (.reject sid (.maxPositionSize total cfg.maxPositions)))
  else return .ok ()

/-- The guards on a snapshot of the net positions; `total_abs_pos` is computed before the loop. -/
def guardSnapshot (cfg : ExecutionConfig) (sig : Signal) (sid : String) (netPositions : List Int) :
    Flow (Except Exit Unit) := do
  match ← reverseOpposite cfg sid sig.rawDirection (netPositions.filter (· ≠ 0)) with
  | .error r => return .error r
  | .ok () => capCheck cfg sid (totalAbsPos netPositions)

/-- The broker-position guard: the snapshot is the position cache, or a listing when it is empty and not
fresh. -/
def guardPositions (cfg : ExecutionConfig) (sig : Signal) (sid : String) : Flow (Except Exit Unit) := do
  Proc.modify World.clearStalePositions
  let w ← Proc.read
  if w.cachedNet = [] ∧ ¬ w.wsDataFresh ∧ w.isConnected then do
    match ← Proc.ask (Request.getPositions .guard) with
    | .ok reply => guardSnapshot cfg sig sid (listedNet reply)
    | .error .cancelled => return .error (.error .cancelled)
    | .error _ => return .error (.ok (.reject sid .positionCheckFailed))
  else guardSnapshot cfg sig sid w.cachedNet

/-! ### The order -/

/-- The signal's parameters as the order uses them. -/
structure EntryOrder where
  direction : String
  entryPrice : Number
  stopLoss : Number
  takeProfit : Number
  positionSize : Int
deriving DecidableEq

/-- The direction mapped to a Tradovate action. -/
def entryAction (direction : String) : Action := if direction = "long" then .buy else .sell

def MIN_BRACKET_DISTANCE : Number := .fin 5

/-- `position_size` after the hard cap. -/
def Signal.orderQty (sig : Signal) (cfg : ExecutionConfig) : Except Err Int :=
  match sig.positionSize.getD 1 with
  | .error e => .error e
  | .ok size => .ok (min size cfg.maxPositionSizePerOrder)

/-- `stop_loss > 0 and entry_price > 0` -/
def EntryOrder.hasStop (o : EntryOrder) : Bool := .fin 0 < o.stopLoss ∧ .fin 0 < o.entryPrice

/-- `take_profit > 0 and entry_price > 0` -/
def EntryOrder.hasTarget (o : EntryOrder) : Bool := .fin 0 < o.takeProfit ∧ .fin 0 < o.entryPrice

def EntryOrder.tpDistance (o : EntryOrder) : Number := (o.takeProfit.sub o.entryPrice).abs

/-- The size and price guards: what makes the order invalid, if anything. -/
def priceGuard (o : EntryOrder) : Option ErrorMessage :=
  if o.positionSize ≤ 0 then some (.invalidPositionSize o.positionSize)
  else if o.hasStop ∧ o.direction = "long" ∧ o.entryPrice ≤ o.stopLoss then
    some (.stopLossInvalid "LONG" o.stopLoss o.entryPrice)
  else if o.hasStop ∧ o.direction = "short" ∧ o.stopLoss ≤ o.entryPrice then
    some (.stopLossInvalid "SHORT" o.stopLoss o.entryPrice)
  else if o.hasTarget ∧ o.direction = "long" ∧ o.takeProfit ≤ o.entryPrice then
    some (.takeProfitInvalid "LONG" o.takeProfit o.entryPrice)
  else if o.hasTarget ∧ o.direction = "short" ∧ o.entryPrice ≤ o.takeProfit then
    some (.takeProfitInvalid "SHORT" o.takeProfit o.entryPrice)
  else if o.hasTarget ∧ o.tpDistance < MIN_BRACKET_DISTANCE then some (.tpDistance o.tpDistance)
  else none

/-- Extract the signal's parameters, clamp the size and check the order. -/
def Signal.entryOrder (sig : Signal) (cfg : ExecutionConfig) (sid : String) : Except Exit EntryOrder :=
  match sig.prices, sig.orderQty cfg with
  | .error e, _ => .error (.error e)
  | .ok _, .error e => .error (.error e)
  | .ok (entryPrice, stopLoss, takeProfit), .ok positionSize =>
    let o : EntryOrder := { direction := sig.rawDirection, entryPrice, stopLoss, takeProfit, positionSize }
    match priceGuard o with
    | some m => .error (.ok (.reject sid m))
    | none => .ok o

/-- The exceptions of the `except` clause around the contract resolution. -/
def Err.isListed : Err → Bool
  | .api _ | .timeout | .os | .value | .type | .key => true
  | _ => false

/-- Resolve the contract symbol if that is not yet done. -/
def ensureContract (sig : Signal) (sid : String) : Flow (Except Exit Unit) := do
  let w ← Proc.read
  if w.contractSymbol.any (· ≠ "") then return .ok ()
  else do
    let symbol := sig.symbol.getD "MNQ"
    match ← resolveFrontMonth symbol with
    | .ok name => do
      Proc.modify fun w => { w with contractSymbol := some name }
      if name = "" then return .error (.ok (.fail sid (.contractResolutionEmpty symbol)))
      else return .ok ()
    | .error e =>
      if e.isListed then return .error (.ok (.fail sid (.contractResolutionFailed e)))
      else return .error (.error e)

/-- Dry run, connection check, contract resolution and the guards on the order. -/
def prepare (cfg : ExecutionConfig) (sig : Signal) (sid : String) : Flow (Except Exit EntryOrder) := do
  let w ← Proc.read
  if cfg.mode = .dryRun then do
    Proc.modify fun w => { w with base := w.base.incrementOrderCount sig.typeKey w.now }
    return .error (.ok
      { success := true, status := .placed, signalId := sid, orderId := some ("tv_dry_" ++ sid) })
  else if ¬ w.isConnected then return .error (.ok (.fail sid .notConnected))
  else do
    match ← ensureContract sig sid with
    | .error r => return .error r
    | .ok () => return sig.entryOrder cfg sid

/-! ### The request -/

/-- The arguments of `place_oso`, encoded. -/
def EntryOrder.body (o : EntryOrder) (symbol : String) : OsoBody :=
  placeOsoBody symbol (entryAction o.direction) o.positionSize .market none
    (if .fin 0 < o.takeProfit then some o.takeProfit else none)
    (if .fin 0 < o.stopLoss then some o.stopLoss else none) "Day"

/-- The order id in a reply, when it is truthy; an ill-shaped reply raises. -/
def OsoReply.entryId : OsoReply → Except Err (Option Int)
  | .list [] => .ok none
  | .list (none :: _) => .error .attribute
  | .list (some row :: _) => .ok row.ident
  | .dict row d _ _ _ _ =>
    match row.ident, d with
    | some n, _ => .ok (some n)
    | none, none => .ok none
    | none, some none => .error .attribute
    | none, some (some r) => .ok r.ident
  | .other _ => .ok none

/-- The order id of the element `i` of a list reply. -/
def listLegId (rows : List (Option OsoRow)) (i : Nat) : Option Int := rows[i]?.join.bind OsoRow.ident

/-- The order ids of the stop and the target in a reply. -/
def OsoReply.legIds : OsoReply → Option Int × Option Int
  | .list rows => (listLegId rows 2, listLegId rows 1)
  | .dict _ _ oso1Id oso2Id bracket1 bracket2 =>
    ((orId oso2Id (bracket2.bind OsoRow.ident)).filter (· ≠ 0),
      (orId oso1Id (bracket1.bind OsoRow.ident)).filter (· ≠ 0))
  | .other _ => (none, none)

/-- What is tracked of an order that the broker accepted. -/
def World.trackOrder (sig : Signal) (sid : String) (o : EntryOrder) (symbol : String) (orderId : Int)
    (w : World) : World :=
  { w with
    base := w.base.incrementOrderCount sig.typeKey w.now
    openOrders := w.openOrders.set (some orderId)
      { signalId := sid, direction := o.direction, symbol, qty := o.positionSize, placedAt := w.now } }

/-- The entry `n` is known not to be at the broker. -/
def World.drop (n : Nat) (w : World) : World := { w with book := w.book.settle n }

/-- What follows the answer to `place_oso`, up to the `finally` block. -/
def settle (sig : Signal) (sid : String) (n : Nat) (o : EntryOrder) (symbol : String)
    (r : Except Err OsoReply) : Flow Exit :=
  match r with
  | .error .timeout => return .ok (.fail sid .executionTimeoutNoRetry)
  | .error (.api e) => do
    Proc.modify (World.drop n)
    return .ok (.fail sid (.raised (.api e)))
  | .error .cancelled => return .error .cancelled
  | .error e => return .ok (.fail sid (.raised e))
  | .ok (.other typeName) => return .ok (.fail sid (.unexpectedResponseType typeName))
  | .ok reply =>
    match reply.entryId with
    | .error e => return .ok (.fail sid (.raised e))
    | .ok (some orderId) => do
      Proc.modify (World.trackOrder sig sid o symbol orderId)
      return .ok
        { success := true, status := .placed, signalId := sid,
          orderId := some (toString orderId), parentOrderId := some (toString orderId),
          stopOrderId := reply.legIds.1.map toString, takeProfitOrderId := reply.legIds.2.map toString }
    | .ok none => do
      Proc.modify (World.drop n)
      match reply with
      | .list _ => return .ok (.fail sid (.raised .attribute))
      | _ => return .ok (.reject sid .noOrderId)

/-- Mark the signal, count it as pending, send the bracket and settle; the pending counter is taken down
on every way out. -/
def submit (sig : Signal) (sid : String) (n : Nat) (o : EntryOrder) : Flow Exit := do
  Proc.modify (World.markExecuted sid)
  Proc.modify fun w => { w with pendingOrdersCount := w.pendingOrdersCount + 1 }
  let w ← Proc.read
  let symbol := w.contractSymbol.getD ""
  let r ← Proc.ask (Request.placeOso (o.body symbol))
  let result ← settle sig sid n o symbol r
  Proc.modify fun w => { w with pendingOrdersCount := w.pendingOrdersCount - 1 }
  return result

/-! ### `place_bracket` -/

/-- Enter an accepted entry in the book; its number. -/
def World.acceptEntry (qty : Int) (w : World) : World × Nat :=
  ({ w with book := w.book.accept qty }, w.book.acceptances.length)

/-- What follows the guards, with the entry in the book. -/
def placeEntry (cfg : ExecutionConfig) (sig : Signal) (sid : String) : Flow Exit := do
  let n ← step (World.acceptEntry ((sig.orderQty cfg).toOption.getD 0))
  match ← prepare cfg sig sid with
  | .error r => do
    Proc.modify (World.drop n)
    return r
  | .ok o => submit sig sid n o

def placeBracket (cfg : ExecutionConfig) (sig : Signal) (uuid : String) : Flow Exit := do
  let sid := sig.idOr uuid
  match ← checkSignal cfg sig sid with
  | .error r => return r
  | .ok () => do
    match ← guardPositions cfg sig sid with
    | .error r => return r
    | .ok () => placeEntry cfg sig sid

end PearlAlgo
