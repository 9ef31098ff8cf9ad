import PearlAlgo.Tradovate.AccountSummary

/-!
# The protection guard (`market_agent/signal_handler.py`)

`_enforce_tradovate_protection_guard`: with open positions, a signal goes on when the summary lists a working order
that protects one of them, or else when the broker lists a stop on the side opposite to the first one. The
disarming after a signal that is blocked is left out, and its emergency stops are not placed here.
-/

namespace PearlAlgo
open Py

/-- `_enforce_tradovate_protection_guard`; `enforceGuard` is the strict mode, and `orders` are what the live stop
check finds. -/
def enforceTradovateProtectionGuard (enforceGuard : Bool) (summary : AccountSummary) (orders : List RawOrder) : Bool :=
  match summary.positions.filter fun p => p.netPos ≠ 0 with
  | [] => true
  | first :: _ =>
    let validWorking := summary.workingOrders.filter fun o =>
      0 < o.qty ∧ ((o.price.isSome ∨ o.stopPrice.isSome) ∨ strip o.orderType ≠ "")
    if validWorking ≠ [] then true
    else if hasExistingStopForPosition first.side orders then true
    else !enforceGuard

def guardedPositions (w : World) (rows : List PositionRow) (orders : List RawOrder) : List AccountPosition :=
  (getAccountSummary w (some rows) (some orders)).positions

/-- The guard in strict mode, when the broker answers its requests with these positions and orders. -/
def guardPasses (w : World) (rows : List PositionRow) (orders : List RawOrder) : Bool :=
  enforceTradovateProtectionGuard true (getAccountSummary w (some rows) (some orders)) orders

/-- A working order on the side opposite to the position, for its contract. -/
def Closes (o : RawOrder) (p : AccountPosition) : Prop :=
  normalizeOrderStatus o.toOrderRow ∈ workingStates ∧ (o.contract.isSome ∧ o.contract = p.contractId) ∧
    (strip (o.action.getD "")).toLower = p.side.requiredAction

instance (o : RawOrder) (p : AccountPosition) : Decidable (Closes o p) := inferInstanceAs (Decidable (_ ∧ _ ∧ _))

def RawOrder.hasType (o : RawOrder) (text : String) : Bool := isIn text (strip o.typeText).toLower

def RawOrder.hasStopPrice (o : RawOrder) : Bool := (o.stopPrice <|> o.triggerPrice).isSome

/-- A stop order; where the type is missing, a stop price tells it. -/
def RawOrder.isStop (o : RawOrder) : Bool := o.hasType "stop" || o.hasStopPrice

/-- An order of the stop, limit or trailing family with a price. -/
def RawOrder.isProtective (o : RawOrder) : Bool :=
  (o.hasType "stop" || o.hasType "limit" || o.hasType "trailing") &&
    ((o.price <|> o.limitPrice).isSome || o.hasStopPrice)

/-- Each open position has a working stop of its own. -/
def StopsInPlace (positions : List AccountPosition) (orders : List RawOrder) : Prop :=
  ∀ p ∈ positions, p.netPos ≠ 0 → ∃ o ∈ orders, Closes o p ∧ o.isStop = true

instance (positions : List AccountPosition) (orders : List RawOrder) : Decidable (StopsInPlace positions orders) :=
  inferInstanceAs (Decidable (∀ p ∈ positions, _ → ∃ o ∈ orders, _))

def connectedWorld : World := { World.init (.fromDict {}) 0 with connected := true, isAuthenticated := true }

def longOne (contractId : Int) : PositionRow := { contractId := some contractId, netPos := some 1, netPrice := some 20000 }

def sellLimit (contractId : Int) : RawOrder :=
  { ordStatus := some "Working", contractId := some contractId, action := some "Sell", orderType := some "Limit"
    orderQty := some 1, price := some 20100 }

def sellStop (contractId : Int) : RawOrder :=
  { ordStatus := some "Working", contractId := some contractId, action := some "Sell", orderType := some "Stop"
    orderQty := some 1, stopPrice := some 19900 }

/-- The guard lets a signal through although an open position has no stop. -/
def PassesWithoutStop (rows : List PositionRow) (orders : List RawOrder) : Prop :=
  guardPasses connectedWorld rows orders = true ∧ ¬ StopsInPlace (guardedPositions connectedWorld rows orders) orders

instance (rows : List PositionRow) (orders : List RawOrder) : Decidable (PassesWithoutStop rows orders) :=
  inferInstanceAs (Decidable (_ ∧ ¬ _))

variable {positions : List AccountPosition} {orders : List RawOrder}

/-- What `build_working_orders` lists is a protective order on the other side of an open position. -/
theorem protectiveOrder_eq_some {o : RawOrder} {w : WorkingOrder}
    (h : protectiveOrder (positionByContract positions) o = some w) :
    ∃ p ∈ positions, p.netPos ≠ 0 ∧ Closes o p ∧ o.isProtective = true := by
  unfold protectiveOrder at h
  split at h
  · cases h
  next hworking =>
    obtain ⟨hfill, hprotective⟩ := Option.filter_eq_some_iff.1 h
    obtain ⟨n, hn, rfl⟩ := Option.map_eq_some_iff.1 hfill
    obtain ⟨hcontract, haction, htype, hprice, hstop⟩ := normalizeWorkingOrder_eq_some hn
    obtain ⟨qty, hqty⟩ := fillQty_eq (positionByContract positions) n
    rw [hqty] at hprotective
    simp only [isProtectiveOrder, hcontract, haction, htype, hprice, hstop] at hprotective
    rcases hc : o.contract with _ | contractId <;> rw [hc] at hprotective
    · cases hprotective
    dsimp only at hprotective
    split at hprotective
    · cases hprotective
    next p hp =>
      obtain ⟨hmem, hopen, hid⟩ := positionByContract_get? hp
      obtain ⟨hside, -, hpriced, hfamily⟩ := of_decide_eq_true hprotective
      refine ⟨p, hmem, hopen, ⟨not_not.1 hworking, ⟨by rw [hc]; rfl, hc.trans hid.symm⟩, hside⟩, ?_⟩
      simp only [RawOrder.isProtective, RawOrder.hasType, RawOrder.hasStopPrice, Bool.and_eq_true, Bool.or_eq_true]
      simp only [Bool.or_eq_true] at hfamily
      exact ⟨hfamily, hpriced⟩

theorem getAccountSummary_workingOrders {w : World} {rows : List PositionRow} {o : WorkingOrder}
    (h : o ∈ (getAccountSummary w (some rows) (some orders)).workingOrders) :
    o ∈ buildWorkingOrders orders (guardedPositions w rows orders) := by
  unfold guardedPositions
  unfold getAccountSummary at h ⊢
  split at h
  next hconnected =>
    rw [if_pos hconnected]
    exact h
  · cases h

end PearlAlgo
