import PearlAlgo.Py.Seq
import PearlAlgo.Tradovate.Client

/-!
# Tradovate adapter (`execution/tradovate/adapter.py`)

Connection state, the kill switch (`cancel_all`, `flatten_all_positions`), the REST position sync and
the WebSocket event handler. `place_bracket` has its own module. An asyncio lock around a block without
an `await` never makes its caller wait, so the locks leave no trace here.
-/

namespace PearlAlgo
open Py Coop

def POSITION_CACHE_TTL : ℚ := 5

def SIGNAL_DEDUP_TTL : ℚ := 300

def MAINTENANCE_503_THRESHOLD : Nat := 3

namespace World

/-- `TradovateExecutionAdapter.__init__`, with the clocks at `t` and an empty account. -/
def init (cfg : ExecutionConfig) (t : ℚ) : World where
  base := .init cfg
  contractSymbol := none
  pendingFills := .empty
  connected := false
  openOrders := .empty
  livePositions := .empty
  livePositionsUpdatedAt := 0
  pendingOrdersCount := 0
  executedSignalIds := .empty
  rateLimitBackoff := 0
  rateLimitUntil := 0
  consecutive503Count := 0
  maintenanceMode := false
  isAuthenticated := false
  contractCache := .empty
  monotonic := t
  now := t
  book := .empty

def isConnected (w : World) : Bool := w.connected && w.isAuthenticated

def disarm (w : World) : World := { w with base := w.base.disarm }

end World

/-! ### Kill switch -/

def normalizeOrderStatus (o : OrderRow) : String :=
  (strip ((orText o.ordStatus (orText o.orderStatus o.status)).getD "")).toLower

/-- The states in which `cancel_all` takes a listed order to be working. -/
def workingStates : List String :=
  ["working", "open", "accepted", "pending", "held", "submitted", "partiallyfilled", "partially_filled",
    "partial"]

/-- `cancel_order`. An identifier that is not a number makes `int` raise. -/
def cancelOrder (cfg : ExecutionConfig) (orderId : Ident) : Flow (Except Err ExecutionResult) :=
  let text := orderId.elim "" toString
  let result : ExecutionResult :=
    { success := true, status := .cancelled, signalId := "cancel", orderId := some text }
  if cfg.mode = .dryRun then return .ok result
  else
    match orderId with
    | none => return .ok { ExecutionResult.fail "cancel" (.raised .value) with orderId := some text }
    | some n => do
      match ← Proc.ask (Request.cancelOrder n) with
      | .ok () => do
        Proc.modify fun w => { w with openOrders := w.openOrders.pop orderId }
        return .ok result
      | .error .cancelled => return .error .cancelled
      | .error e => return .ok { ExecutionResult.fail "cancel" (.raised e) with orderId := some text }

/-- The working orders of a listing, up to the first row that is not a dictionary, which raises. -/
def workingOrderIds : List (Option OrderRow) → List Ident
  | [] | none :: _ => []
  | some o :: rest =>
    if normalizeOrderStatus o ∉ workingStates then workingOrderIds rest
    else
      match orId o.id o.orderId with
      | none => workingOrderIds rest
      | some n => some n :: workingOrderIds rest

/-- What the listing adds to the orders to cancel; one that fails adds nothing. -/
def listedOrderIds (r : Answer .getOrders) : List Ident :=
  match r with
  | .ok (some rows) => workingOrderIds rows
  | _ => []

/-- The loop of `cancel_all`. -/
def cancelEach (cfg : ExecutionConfig) : List Ident → Flow (Except Err (List ExecutionResult))
  | [] => return .ok []
  | orderId :: rest => do
    match ← cancelOrder cfg orderId with
    | .error e => return .error e
    | .ok result => return (← cancelEach cfg rest).map (result :: ·)

/-- `list(dict.fromkeys(l))` -/
def dedupKeepFirst (l : List Ident) : List Ident := (l.reverse.dedup).reverse

def cancelAll (cfg : ExecutionConfig) : Flow (Except Err (List ExecutionResult)) := do
  Proc.modify World.disarm
  if cfg.mode = .dryRun then
    return .ok [{ success := true, status := .cancelled, signalId := "kill_cancel" }]
  else do
    let w ← Proc.read
    let tracked := w.openOrders.keys
    match ← Proc.ask Request.getOrders with
    | .error .cancelled => return .error .cancelled
    | r => do
      match ← cancelEach cfg (dedupKeepFirst (tracked ++ listedOrderIds r)) with
      | .error e => return .error e
      | .ok [] => return .ok [{ success := true, status := .cancelled, signalId := "kill_cancel_noop" }]
      | .ok results => return .ok results

def flattenAllPositions (cfg : ExecutionConfig) : Flow (Except Err (List ExecutionResult)) := do
  Proc.modify World.disarm
  let w ← Proc.read
  if cfg.mode = .dryRun then
    return .ok [{ success := true, status := .placed, signalId := "kill_flatten" }]
  else if ¬ w.isConnected then return .ok [.fail "kill_flatten" .notConnected]
  else do
    match ← liquidateAllPositions with
    | .ok _ => return .ok [{ success := true, status := .placed, signalId := "kill_flatten" }]
    | .error .cancelled => return .error .cancelled
    | .error e => return .ok [.fail "kill_flatten" (.raised e)]

/-- `results and results[0].success`, as the callers of `flatten_all_positions` read its results. -/
def firstSucceeded (results : List ExecutionResult) : Bool := results.head?.any ExecutionResult.success

/-- The advanced exit of `monitor_open_position`: whether it takes the position to be closed. -/
def advancedExit (cfg : ExecutionConfig) : Flow (Except Err Bool) := do
  match ← flattenAllPositions cfg with
  | .ok results => return .ok (firstSucceeded results)
  | .error .cancelled => return .error .cancelled
  | .error _ => return .ok false

/-! ### Position queries -/

structure Position where
  symbol : Ident
  quantity : Int
  avgPrice : ℚ
deriving DecidableEq

/-- The open positions of a listing, up to the first row that is not a dictionary, which raises. -/
def openPositions : List (Option PositionRow) → List Position
  | [] | none :: _ => []
  | some p :: rest =>
    if p.net = 0 then openPositions rest
    else ⟨p.contractId, p.net, p.netPrice.getD 0⟩ :: openPositions rest

/-- The position cache as a listing has it. -/
def liveOf (rows : List PositionRow) : Dict Ident LivePosition :=
  rows.foldl (fun d p =>
    if p.net = 0 then d else d.set p.contractId ⟨p.net, p.netPrice.getD 0, p.openPnL.getD 0⟩) .empty

namespace World

/-- Backoff on a rate limit: 60 s, 120 s, 240 s, at most 300 s. -/
def backOff (w : World) : World :=
  let backoff := min ((if w.rateLimitBackoff = 0 then 30 else w.rateLimitBackoff) * 2) 300
  { w with rateLimitBackoff := backoff, rateLimitUntil := w.monotonic + backoff }

/-- What `get_positions` does with the broker's answer; the open positions it has read by then. -/
def onPositions (r : Answer (.getPositions .sync)) (w : World) : World × List Position :=
  match r with
  | .ok (some rows) =>
    if rows.all Option.isSome then
      ({ w with
          livePositions := liveOf (rows.filterMap id)
          livePositionsUpdatedAt := w.monotonic
          maintenanceMode := false
          consecutive503Count := 0 },
        openPositions rows)
    else (w, openPositions rows)
  | .error (.api .rateLimit) => (w.backOff, [])
  | .error (.api .maintenance) =>
    let n := w.consecutive503Count + 1
    ({ w with consecutive503Count := n
              maintenanceMode := w.maintenanceMode || MAINTENANCE_503_THRESHOLD ≤ n }, [])
  | _ => (w, [])

/-- The end of `get_positions`: an empty result falls back to the position cache, another one resets the
backoff. -/
def positionsOrCached (positions : List Position) (w : World) : World × List Position :=
  match positions with
  | [] => (w, (w.livePositions.entries.filter (·.2.netPos ≠ 0)).map fun e => ⟨e.1, e.2.netPos, e.2.netPrice⟩)
  | _ => ({ w with rateLimitBackoff := 0 }, positions)

end World

/-- Apply a state change that also yields a value. -/
def step {α : Type} (f : World → World × α) : Flow α := do
  let w ← Proc.read
  Proc.modify fun _ => (f w).1
  return (f w).2

def getPositions (cfg : ExecutionConfig) (forceRest : Bool) : Flow (Except Err (List Position)) := do
  let w ← Proc.read
  if cfg.mode = .dryRun ∨ ¬ w.isConnected then return .ok []
  else if ¬ forceRest ∧ w.monotonic < w.rateLimitUntil then do
    Proc.modify World.backOff
    return .ok (← step (World.positionsOrCached []))
  else do
    match ← Proc.ask (Request.getPositions .sync) with
    | .error .cancelled => return .error .cancelled
    | r => do
      let positions ← step (World.onPositions r)
      return .ok (← step (World.positionsOrCached positions))

/-! ### WebSocket events -/

inductive WsEvent
  | order (id : Ident) (ordStatus : String)
  | fill (orderId : Ident) (qty : ℚ)
  | position (row : PositionRow)

/-- `order_info.get("quantity", 0)`: the tracked dictionary has a `qty` but no `quantity`. -/
def OpenOrder.quantity (_ : OpenOrder) : ℚ := 0

namespace World

/-- Order event: a terminal status ends the tracking. -/
def onOrder (orderId : Ident) (ordStatus : String) (w : World) : World :=
  if ordStatus ∈ ["Filled", "Cancelled", "Rejected", "Expired"] then
    { w with openOrders := w.openOrders.pop orderId, pendingFills := w.pendingFills.pop orderId }
  else w

/-- Fill event: the filled quantity is added up until it reaches the order's. -/
def onFill (orderId : Ident) (qty : ℚ) (w : World) : World :=
  if orderId = none then w
  else
    let filled := (w.pendingFills.get? orderId).getD 0 + |qty|
    let fills := w.pendingFills.set orderId filled
    match w.openOrders.get? orderId with
    | none => { w with pendingFills := fills }
    | some o => { w with pendingFills := if |o.quantity| ≤ filled then fills.pop orderId else fills }

/-- Position event: the cache follows it. -/
def onPosition (p : PositionRow) (w : World) : World :=
  { w with
    livePositions :=
      if p.net = 0 then w.livePositions.pop p.contractId
      else w.livePositions.set p.contractId ⟨p.net, p.netPrice.getD 0, p.openPnL.getD 0⟩
    livePositionsUpdatedAt := w.monotonic }

def handleWsEvent (e : WsEvent) (w : World) : World :=
  match e with
  | .order id ordStatus => w.onOrder id ordStatus
  | .fill orderId qty => w.onFill orderId qty
  | .position row => w.onPosition row

end World

end PearlAlgo
