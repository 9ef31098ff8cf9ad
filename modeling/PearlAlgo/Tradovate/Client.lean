import Mathlib.Algebra.GroupWithZero.Nat
import PearlAlgo.Coop.Pool
import PearlAlgo.ExecutionBase

/-!
# Tradovate client (`execution/tradovate/client.py`)

The REST requests that the adapter awaits, their replies, and the client functions on top of them. A
request is one `await` of the transport (session, token renewal and HTTP status handling are behind
it), so its answer is a reply or the exception that reached the caller. `Caller` tells which function
awaits a position listing; the broker does not see it.

`World` is everything that the coroutines of one adapter share: the adapter's and the client's fields,
the clocks, and the `Book`, which no code reads: what the broker holds, and the entries that the
adapter's cap check has accepted.
-/

namespace PearlAlgo
open Py Coop

inductive Action
  | buy
  | sell
deriving DecidableEq

def Action.opposite : Action → Action
  | .buy => .sell
  | .sell => .buy

inductive OrderType
  | market
  | limit
  | stop
  | stopLimit
deriving DecidableEq

/-- The body of `/order/placeorder`; the symbol is a contract symbol or id. -/
structure OrderBody where
  action : Action
  symbol : String
  orderQty : Int
  orderType : OrderType
  price : Option Number := none
  stopPrice : Option Number := none
  timeInForce : String := "Day"
  isAutomated : Bool := true
deriving DecidableEq

structure BracketLeg where
  action : Action
  orderType : OrderType
  price : Option Number := none
  stopPrice : Option Number := none
  timeInForce : String
  isAutomated : Bool := true
deriving DecidableEq

/-- The body of `/order/placeOSO`. -/
structure OsoBody where
  action : Action
  symbol : String
  orderQty : Int
  orderType : OrderType
  price : Option Number
  timeInForce : String
  isAutomated : Bool := true
  bracket1 : Option BracketLeg
  bracket2 : Option BracketLeg
deriving DecidableEq

/-- `str(x.get("id", ""))` of an identifier: `none` is the empty text. -/
abbrev Ident : Type := Option Int

/-- A row of `/position/deps`. -/
structure PositionRow where
  contractId : Ident := none
  netPos : Option Int := none
  netPrice : Option ℚ := none
  openPnL : Option ℚ := none

namespace PositionRow

/-- `pos.get("netPos", 0)` -/
def net (p : PositionRow) : Int := p.netPos.getD 0

end PositionRow

/-- A row of `/order/list`. -/
structure OrderRow where
  id : Option Int := none
  orderId : Option Int := none
  ordStatus : Option String := none
  orderStatus : Option String := none
  status : Option String := none

/-- `x or y` of two optional identifiers: zero is falsy. -/
def orId (x y : Option Int) : Option Int :=
  match x with
  | some n => if n = 0 then y else some n
  | none => y

/-- `x or y` of two optional texts: the empty text is falsy. -/
def orText (x y : Option String) : Option String :=
  match x with
  | some s => if s = "" then y else some s
  | none => y

/-- A dictionary with order identifiers in a `place_oso` reply. -/
structure OsoRow where
  orderId : Option Int := none
  id : Option Int := none

/-- `row.get("orderId") or row.get("id")`, when it is truthy. -/
def OsoRow.ident (r : OsoRow) : Option Int := (orId r.orderId r.id).filter (· ≠ 0)

/-- The reply to `place_oso`. In a list, `none` is an element that is not a dictionary. -/
inductive OsoReply
  | list (rows : List (Option OsoRow))
  | dict (row : OsoRow) (d : Option (Option OsoRow)) (oso1Id oso2Id : Option Int)
      (bracket1 bracket2 : Option OsoRow)
  | other (typeName : String)

inductive Caller
  | guard
  | liquidate
  | sync
deriving DecidableEq

inductive Request
  | getPositions (caller : Caller)
  | getOrders
  | placeOrder (body : OrderBody)
  | placeOso (body : OsoBody)
  | cancelOrder (orderId : Int)
  | suggestContracts (text : String)
  | rollContract (name : String)
  | findContract (name : String)
deriving DecidableEq

/-- A position or order listing is `none` for `null`; an element is `none` when it is not a dictionary.
The replies that are only counted are `Unit`. A contract reply is the `name` that the code looks up in
it. -/
@[reducible] def Reply : Request → Type
  | .getPositions _ => Option (List (Option PositionRow))
  | .getOrders => Option (List (Option OrderRow))
  | .placeOrder _ => Unit
  | .placeOso _ => OsoReply
  | .cancelOrder _ => Unit
  | .suggestContracts _ | .rollContract _ | .findContract _ => Option String

abbrev Answer (q : Request) : Type := Except Err (Reply q)

/-- What the adapter tracks of an order it placed (`_open_orders`). -/
structure OpenOrder where
  signalId : String
  direction : String
  symbol : String
  qty : Int
  placedAt : ℚ
deriving DecidableEq

/-- An entry of the position cache (`_live_positions`). -/
structure LivePosition where
  netPos : Int
  netPrice : ℚ
  openPnl : ℚ
deriving DecidableEq

/-- An entry accepted by the cap check: what was held and in flight then, and its size. -/
structure Acceptance where
  held : Nat
  inFlight : Int
  qty : Int
deriving DecidableEq

/-- What the broker holds by contract, the accepted entries that are neither filled nor known to have
failed, by number and size, and all acceptances, the latest first. -/
structure Book where
  held : Dict Ident Int
  entries : List (Nat × Int)
  acceptances : List Acceptance
deriving DecidableEq

namespace Book

def empty : Book := ⟨.empty, [], []⟩

def exposure (b : Book) : Nat := (b.held.values.map Int.natAbs).sum

def inFlight (b : Book) : Int := (b.entries.map Prod.snd).sum

def accept (qty : Int) (b : Book) : Book :=
  { b with
    entries := (b.acceptances.length, qty) :: b.entries
    acceptances := ⟨b.exposure, b.inFlight, qty⟩ :: b.acceptances }

/-- The entry `n` is filled, or known to have failed. -/
def settle (n : Nat) (b : Book) : Book := { b with entries := b.entries.filter (·.1 ≠ n) }

end Book

/-- The state that the coroutines of one adapter share. -/
structure World where
  base : AdapterBase
  contractSymbol : Option String
  pendingFills : Dict Ident ℚ
  connected : Bool
  openOrders : Dict Ident OpenOrder
  livePositions : Dict Ident LivePosition
  livePositionsUpdatedAt : ℚ
  pendingOrdersCount : Nat
  executedSignalIds : Dict String ℚ
  rateLimitBackoff : ℚ
  rateLimitUntil : ℚ
  consecutive503Count : Nat
  maintenanceMode : Bool
  -- the client's fields; `contractCache` holds `_contract_cache` and `_contract_cache_ts` in one
  isAuthenticated : Bool
  contractCache : Dict String (String × ℚ)
  -- `time.monotonic()` and `datetime.now(timezone.utc)`
  monotonic : ℚ
  now : ℚ
  book : Book
deriving DecidableEq

abbrev Flow (α : Type) : Type := Proc World Answer α

/-- `_contract_cache_ttl`, 24 hours. -/
def CONTRACT_CACHE_TTL : ℚ := 86400

namespace World

/-- The cache entry of a product, when it has not expired. -/
def cachedContract (product : String) (w : World) : Option String :=
  match w.contractCache.get? product with
  | some (name, ts) => if w.monotonic - ts < CONTRACT_CACHE_TTL then some name else none
  | none => none

def cacheContract (product name : String) (w : World) : World :=
  { w with contractCache := w.contractCache.set product (name, w.monotonic) }

def dropContract (product : String) (w : World) : World :=
  { w with contractCache := w.contractCache.pop product }

end World

/-- What `resolve_front_month` does with the reply to one strategy: a name is cached and returned;
without one, and on any `Exception`, it goes on to the next strategy. -/
def useContract (product : String) (r : Except Err (Option String)) (next : Flow (Except Err String)) :
    Flow (Except Err String) :=
  match r with
  | .error .cancelled => return .error .cancelled
  | .ok (some name) =>
    if name = "" then next
    else do
      Proc.modify (World.cacheContract product name)
      return .ok name
  | _ => next

def resolveFrontMonth (product : String) : Flow (Except Err String) := do
  let w ← Proc.read
  match w.cachedContract product with
  | some name => return .ok name
  | none => do
    Proc.modify (World.dropContract product)
    let r ← Proc.ask (Request.suggestContracts product)
    useContract product r do
      let r ← Proc.ask (Request.rollContract product)
      useContract product r do
        let r ← Proc.ask (Request.findContract product)
        useContract product r (return .error (.api (.other "Could not resolve front-month contract")))

/-- The body that `place_oso` sends. -/
def placeOsoBody (symbol : String) (action : Action) (orderQty : Int) (orderType : OrderType)
    (price tpPrice slPrice : Option Number) (timeInForce : String) : OsoBody where
  action
  symbol
  orderQty
  orderType
  price
  timeInForce
  bracket1 := tpPrice.map fun p =>
    { action := action.opposite, orderType := .limit, price := some p, timeInForce }
  bracket2 := slPrice.map fun p =>
    { action := action.opposite, orderType := .stop, stopPrice := some p, timeInForce }

/-- The market order that `liquidate_all_positions` sends for a position. -/
def liquidationOrder (pos : PositionRow) : OrderBody where
  symbol := match pos.contractId with
    | none => "None"
    | some n => toString n
  action := if 0 < pos.net then .sell else .buy
  orderQty := pos.net.natAbs
  orderType := .market

/-- The loop of `liquidate_all_positions`: one result for each position that is not flat. An order that
failed is a result like the others. -/
def liquidateEach : List (Option PositionRow) → Flow (Except Err (List (Except Err Unit)))
  | [] => return .ok []
  | none :: _ => return .error .attribute
  | some pos :: rest =>
    if pos.net = 0 then liquidateEach rest
    else do
      let r ← Proc.ask (Request.placeOrder (liquidationOrder pos))
      match r with
      | .error .cancelled => return .error .cancelled
      | r => return (← liquidateEach rest).map (r :: ·)

def liquidateAllPositions : Flow (Except Err (List (Except Err Unit))) := do
  match ← Proc.ask (Request.getPositions .liquidate) with
  | .error e => return .error e
  | .ok none => return .error .type
  | .ok (some rows) => liquidateEach rows

end PearlAlgo
