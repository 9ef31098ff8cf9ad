import PearlAlgo.PositionSide
import PearlAlgo.Tradovate.Adapter

/-!
# The account summary (`execution/tradovate/adapter.py`)

The positions and the working orders of `get_account_summary`: a raw order row is normalised, gets the quantity of
its position where it has none, and is listed when it looks like the protection of an open position. The account's
balances, the fills, the order statistics and the debug rows are left out.
-/

namespace PearlAlgo
open Py

/-- A row of `/order/list`. -/
structure RawOrder extends OrderRow where
  contractId : Option Int := none
  contract_id : Option Int := none
  action : Option String := none
  orderType : Option String := none
  ordType : Option String := none
  type : Option String := none
  price : Option ℚ := none
  limitPrice : Option ℚ := none
  stopPrice : Option ℚ := none
  triggerPrice : Option ℚ := none
  remainingQty : Option ℚ := none
  remainingQuantity : Option ℚ := none
  orderQty : Option ℚ := none
  qty : Option ℚ := none
  quantity : Option ℚ := none
  ocoId : Option Int := none
  oco_id : Option Int := none
  parentId : Option Int := none
  parent_id : Option Int := none

structure AccountPosition where
  contractId : Ident
  netPos : Int
  netPrice : ℚ := 0
  openPnl : ℚ := 0

/-- A normalised row. -/
structure WorkingOrder where
  id : Option Int
  contractId : Option Int
  action : Option String
  orderType : String
  qty : Int
  price : Option ℚ
  stopPrice : Option ℚ
  status : String
  ocoId : Option Int
  parentId : Option Int

namespace PositionSide

def requiredAction : PositionSide → String
  | long => "sell"
  | short => "buy"

def stopAction : PositionSide → String
  | long => "Sell"
  | short => "Buy"

end PositionSide

def AccountPosition.side (p : AccountPosition) : PositionSide := if 0 < p.netPos then .long else .short

def extractOrderQty (o : RawOrder) : Int :=
  (o.remainingQty <|> o.remainingQuantity <|> o.orderQty <|> o.qty <|> o.quantity).elim 0 truncInt

def terminalStates : List String := ["filled", "cancelled", "canceled", "rejected", "expired"]

namespace RawOrder

/-- `order.get("contractId") or order.get("contract_id")` -/
def contract (o : RawOrder) : Option Int := orId o.contractId o.contract_id

def typeText (o : RawOrder) : String := strip ((orText o.orderType (orText o.ordType o.type)).getD "")

end RawOrder

def normalizeWorkingOrder (o : RawOrder) : Option WorkingOrder :=
  let status := normalizeOrderStatus o.toOrderRow
  if status ∈ terminalStates then none
  else if status ≠ "" ∧ status ∉ workingStates then none
  else
    let qty := extractOrderQty o
    let orderType := o.typeText
    let price := o.price <|> o.limitPrice
    let stopPrice := o.stopPrice <|> o.triggerPrice
    let ocoId := orId o.ocoId o.oco_id
    let parentId := orId o.parentId o.parent_id
    let hasOcoLink := ocoId.isSome || parentId.isSome
    let hasPrice := price.isSome || stopPrice.isSome
    if qty ≤ 0 ∧ orderType = "" ∧ ¬ hasPrice ∧ ¬ hasOcoLink then none
    else
      some
        { id := orId o.id o.orderId, contractId := o.contract, action := o.action, orderType, qty, price, stopPrice
          status := if status = "" then "working" else status, ocoId, parentId }

def addPosition (d : Dict Ident AccountPosition) (p : AccountPosition) : Dict Ident AccountPosition :=
  if p.netPos ≠ 0 then d.set p.contractId p else d

/-- The open position that counts for a contract: the last one that is listed for it. -/
def positionByContract (positions : List AccountPosition) : Dict Ident AccountPosition :=
  positions.foldl addPosition .empty

def isProtectiveOrder (w : WorkingOrder) (positions : Dict Ident AccountPosition) : Bool :=
  match w.contractId with
  | none => false
  | some contractId =>
    match positions.get? contractId with
    | none => false
    | some p =>
      let action := (strip (w.action.getD "")).toLower
      let orderType := (strip w.orderType).toLower
      let typeIsProtective := isIn "stop" orderType || isIn "limit" orderType || isIn "trailing" orderType
      action = p.side.requiredAction ∧ 0 < w.qty ∧ (w.price.isSome ∨ w.stopPrice.isSome) ∧ typeIsProtective

/-- The quantity of the position, where the row has none. -/
def fillQty (positions : Dict Ident AccountPosition) (w : WorkingOrder) : WorkingOrder :=
  if w.qty ≤ 0 then
    match positions.get? w.contractId with
    | some p => { w with qty := p.netPos.natAbs }
    | none => w
  else w

/-- A row of the loop of `build_working_orders`. -/
def protectiveOrder (positions : Dict Ident AccountPosition) (o : RawOrder) : Option WorkingOrder :=
  if normalizeOrderStatus o.toOrderRow ∉ workingStates then none
  else ((normalizeWorkingOrder o).map (fillQty positions)).filter fun w => isProtectiveOrder w positions

def buildWorkingOrders (rawOrders : List RawOrder) (positions : List AccountPosition) : List WorkingOrder :=
  rawOrders.filterMap (protectiveOrder (positionByContract positions))

section lookups
variable {positions : List AccountPosition}

theorem foldl_addPosition_get? {contractId : Ident} {p : AccountPosition} {d : Dict Ident AccountPosition}
    (h : (positions.foldl addPosition d).get? contractId = some p) :
    d.get? contractId = some p ∨ p ∈ positions ∧ p.netPos ≠ 0 ∧ p.contractId = contractId := by
  induction positions generalizing d with
  | nil => exact .inl h
  | cons q positions ih =>
    rcases ih h with h | ⟨hmem, hopen⟩
    · unfold addPosition at h
      split at h
      next hq =>
        rw [Dict.get?_set] at h
        split at h
        next hid =>
          cases h
          exact .inr ⟨List.mem_cons_self, hq, hid.symm⟩
        · exact .inl h
      · exact .inl h
    · exact .inr ⟨List.mem_cons_of_mem _ hmem, hopen⟩

theorem positionByContract_get? {contractId : Ident} {p : AccountPosition}
    (h : (positionByContract positions).get? contractId = some p) :
    p ∈ positions ∧ p.netPos ≠ 0 ∧ p.contractId = contractId := by
  refine (foldl_addPosition_get? h).resolve_left ?_
  nofun

theorem normalizeWorkingOrder_eq_some {o : RawOrder} {w : WorkingOrder} (h : normalizeWorkingOrder o = some w) :
    w.contractId = o.contract ∧ w.action = o.action ∧ w.orderType = o.typeText ∧
      w.price = (o.price <|> o.limitPrice) ∧ w.stopPrice = (o.stopPrice <|> o.triggerPrice) := by
  unfold normalizeWorkingOrder at h
  dsimp only at h
  split at h
  · cases h
  · split at h
    · cases h
    · split at h
      · cases h
      · cases h
        exact ⟨rfl, rfl, rfl, rfl, rfl⟩

theorem fillQty_eq (d : Dict Ident AccountPosition) (w : WorkingOrder) :
    ∃ qty, fillQty d w = { w with qty } := by
  unfold fillQty
  split
  · split
    · exact ⟨_, rfl⟩
    · exact ⟨w.qty, rfl⟩
  · exact ⟨w.qty, rfl⟩

end lookups

structure AccountSummary where
  positions : List AccountPosition := []
  workingOrders : List WorkingOrder := []

/-- The positions of the summary: the listed ones that are open, or the cached ones where there is none. -/
def accountPositions (rows : Option (List PositionRow)) (live : Dict Ident LivePosition) : List AccountPosition :=
  let listed := ((rows.getD []).filter fun p => p.net ≠ 0).map fun p =>
    { contractId := p.contractId, netPos := p.net, netPrice := p.netPrice.getD 0, openPnl := p.openPnL.getD 0 }
  match listed with
  | [] => (live.entries.filter fun e => e.2.netPos ≠ 0).map fun e => ⟨e.1, e.2.netPos, e.2.netPrice, e.2.openPnl⟩
  | _ => listed

/-- `get_account_summary`, with the replies to its two requests; one that fails is `none`. -/
def getAccountSummary (w : World) (rows : Option (List PositionRow)) (rawOrders : Option (List RawOrder)) :
    AccountSummary :=
  if w.isConnected then
    let positions := accountPositions rows w.livePositions
    { positions, workingOrders := buildWorkingOrders (rawOrders.getD []) positions }
  else { positions := accountPositions none w.livePositions }

def hasExistingStopForPosition (side : PositionSide) (orders : List RawOrder) : Bool :=
  orders.any fun o =>
    let orderType := (o.orderType.getD "").toLower
    let status := ((orText o.ordStatus o.status).getD "").toLower
    status ∈ ["working", "open", "accepted", "pending", "held", "submitted"] ∧
      (orderType = "stop" ∧ o.action.getD "" = side.stopAction ∨ o.stopPrice.isSome ∧ o.action.getD "" = side.stopAction)

end PearlAlgo
