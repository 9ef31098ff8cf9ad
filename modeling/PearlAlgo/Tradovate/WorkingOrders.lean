import PearlAlgo.Tradovate.AccountSummary

/-!
# The debug trace of the working orders (`execution/tradovate/adapter.py`)

`build_working_orders` with its statistics and the row it keeps of every raw order. Whether an order is protective and
why it is not are two decision lists (`isProtectiveOrder`, `protectiveRejectionReason`); `ordersConsistent_iff` says where they
disagree: the second one still calls a linked order of another type accepted.
-/

namespace PearlAlgo
open Py

namespace WorkingOrder

def actionText (w : WorkingOrder) : String := (strip (w.action.getD "")).toLower

def typeText (w : WorkingOrder) : String := (strip w.orderType).toLower

def typeIsProtective (w : WorkingOrder) : Bool :=
  isIn "stop" w.typeText || isIn "limit" w.typeText || isIn "trailing" w.typeText

def hasPrice (w : WorkingOrder) : Bool := w.price.isSome || w.stopPrice.isSome

def hasOcoLink (w : WorkingOrder) : Bool := w.ocoId.isSome || w.parentId.isSome

end WorkingOrder

/-- `_protective_rejection_reason` -/
def protectiveRejectionReason (w : WorkingOrder) (positions : Dict Ident AccountPosition) : String :=
  match w.contractId with
  | none => "missing_contract_id"
  | some contractId =>
    match positions.get? contractId with
    | none => "no_open_position_for_contract"
    | some p =>
      if w.actionText ≠ p.side.requiredAction then
        "action_mismatch:" ++
          ((if w.actionText = "" then "unknown" else w.actionText) ++ ("!=protective_" ++ p.side.requiredAction))
      else if w.qty ≤ 0 then if w.hasOcoLink then "sparse_oco_requires_live_stop_check" else "non_positive_qty"
      else if ¬ w.hasPrice then "missing_price_fields"
      else if ¬ w.typeIsProtective then
        if w.hasOcoLink then "accepted_sparse_oco_order"
        else "non_protective_order_type:" ++ (if w.typeText = "" then "unknown" else w.typeText)
      else "unknown_non_protective"

/-- The fields of a raw order that its debug row repeats. -/
structure RawFields where
  ordStatus : Option String
  action : Option String
  orderType : Option String
  qty : Option ℚ
  orderQty : Option ℚ
  remainingQty : Option ℚ
  price : Option ℚ
  stopPrice : Option ℚ
  ocoId : Option Int
  parentId : Option Int

def RawOrder.fields (o : RawOrder) : RawFields :=
  ⟨o.ordStatus, o.action, o.orderType, o.qty, o.orderQty, o.remainingQty, o.price, o.stopPrice, o.ocoId, o.parentId⟩

structure DebugRow where
  orderId : Option Int
  contractId : Option Int
  status : String
  accepted : Bool
  reason : String
  raw : RawFields
  normalized : Option WorkingOrder

structure OrderStats where
  working : Nat := 0
  filled : Nat := 0
  cancelled : Nat := 0
  rejected : Nat := 0
deriving DecidableEq

def OrderStats.total (s : OrderStats) : Nat := s.working + s.filled + s.cancelled + s.rejected

def OrderStats.count (status : String) (s : OrderStats) : OrderStats :=
  if status ∈ workingStates then { s with working := s.working + 1 }
  else if status ∈ ["filled"] then { s with filled := s.filled + 1 }
  else if status ∈ ["cancelled", "canceled", "expired"] then { s with cancelled := s.cancelled + 1 }
  else if status ∈ ["rejected"] then { s with rejected := s.rejected + 1 }
  else s

/-- The decision about one raw order: whether it is accepted, why, and its normalised row. -/
def classifyOrder (positions : Dict Ident AccountPosition) (o : RawOrder) : Bool × String × Option WorkingOrder :=
  let status := normalizeOrderStatus o.toOrderRow
  let normalized := normalizeWorkingOrder o
  if status ∉ workingStates then
    (false, "status_not_working:" ++ (if status = "" then "unknown" else status), normalized)
  else
    match normalized with
    | none => (false, "invalid_or_incomplete_working_order_payload", none)
    | some n =>
      let w := fillQty positions n
      if isProtectiveOrder w positions then (true, "accepted_protective", some w)
      else (false, protectiveRejectionReason w positions, some w)

def debugRow (positions : Dict Ident AccountPosition) (o : RawOrder) : DebugRow :=
  let status := normalizeOrderStatus o.toOrderRow
  let (accepted, reason, normalized) := classifyOrder positions o
  { orderId := orId o.id o.orderId, contractId := o.contract, status := if status = "" then "unknown" else status
    accepted, reason, raw := o.fields, normalized }

/-- What `build_working_orders` returns. -/
structure BuiltOrders where
  working : List WorkingOrder := []
  orderStats : OrderStats := {}
  debugRows : List DebugRow := []

/-- An iteration of its loop. -/
def BuiltOrders.add (positions : Dict Ident AccountPosition) (b : BuiltOrders) (o : RawOrder) : BuiltOrders :=
  let row := debugRow positions o
  { working := if row.accepted then b.working ++ row.normalized.toList else b.working
    orderStats := b.orderStats.count (normalizeOrderStatus o.toOrderRow)
    debugRows := b.debugRows ++ [row] }

def buildOrders (rawOrders : Option (List RawOrder)) (positions : Option (List AccountPosition)) : BuiltOrders :=
  (rawOrders.getD []).foldl (BuiltOrders.add (positionByContract (positions.getD []))) {}

/-! ### The consistency of the three results -/

/-- The reason is an "accepted" one. -/
def acceptedReason (reason : String) : Bool := reason.toList.take 8 = "accepted".toList

/-- The status is one that is counted. -/
def OrderRow.recognised (o : OrderRow) : Bool :=
  normalizeOrderStatus o ∈ workingStates ∨ normalizeOrderStatus o ∈ terminalStates

/-- The order works on the closing side of an open position in its contract, with a quantity and a price. -/
def WorkingOrder.Closing (positions : List AccountPosition) (w : WorkingOrder) : Prop :=
  w.status ∈ workingStates ∧
    (∃ p ∈ positions, p.netPos ≠ 0 ∧ (∃ contractId, w.contractId = some contractId ∧ p.contractId = some contractId) ∧
      w.actionText = p.side.requiredAction) ∧
    0 < w.qty ∧ w.hasPrice = true

/-- Returned, explained, counted and checked orders agree. -/
structure BuiltOrders.Consistent (rawOrders : List RawOrder) (positions : List AccountPosition) (b : BuiltOrders) : Prop where
  reasons : b.working.map some = (b.debugRows.filter fun row => acceptedReason row.reason).map DebugRow.normalized
  rows : b.working.map some = (b.debugRows.filter DebugRow.accepted).map DebugRow.normalized
  counted : b.orderStats.total = rawOrders.countP fun o => o.recognised
  closing : ∀ w ∈ b.working, w.Closing positions

/-- The order is on the closing side of an open position, with a quantity and a price, of another type than the
protective ones but linked to another order. -/
def WorkingOrder.LinkedOther (positions : Dict Ident AccountPosition) (w : WorkingOrder) : Prop :=
  ∃ contractId p, w.contractId = some contractId ∧ positions.get? (some contractId) = some p ∧
    w.actionText = p.side.requiredAction ∧ 0 < w.qty ∧ w.hasPrice = true ∧ w.typeIsProtective = false ∧
    w.hasOcoLink = true

/-- The raw order works and is such an order once it has the quantity of its position. -/
def SparseOco (positions : Dict Ident AccountPosition) (o : RawOrder) : Prop :=
  normalizeOrderStatus o.toOrderRow ∈ workingStates ∧
    ∃ n, normalizeWorkingOrder o = some n ∧ (fillQty positions n).LinkedOther positions

/-! ### One order -/

section order
variable {positions : Dict Ident AccountPosition} {o : RawOrder} {w : WorkingOrder}

theorem linkedOther_iff {contractId : Int} {p : AccountPosition} (hc : w.contractId = some contractId)
    (hp : positions.get? (some contractId) = some p) :
    w.LinkedOther positions ↔ w.actionText = p.side.requiredAction ∧ 0 < w.qty ∧ w.hasPrice = true ∧
      w.typeIsProtective = false ∧ w.hasOcoLink = true := by
  constructor
  · rintro ⟨c, q, hc', hq, hrest⟩
    obtain rfl := Option.some.inj (hc.symm.trans hc')
    obtain rfl := Option.some.inj (hp.symm.trans hq)
    exact hrest
  · intro hrest
    exact ⟨contractId, p, hc, hp, hrest⟩

/-- The reason of a rejection is an "accepted" one for the linked orders of another type alone. -/
theorem acceptedReason_rejection :
    acceptedReason (protectiveRejectionReason w positions) = true ↔ w.LinkedOther positions := by
  unfold protectiveRejectionReason
  split
  next hc =>
    have hmissing : ¬ acceptedReason "missing_contract_id" = true := by decide
    exact iff_of_false hmissing fun ⟨_, _, hsome, _⟩ => nomatch hc.symm.trans hsome
  next contractId hc =>
    split
    next hp =>
      have hflat : ¬ acceptedReason "no_open_position_for_contract" = true := by decide
      refine iff_of_false hflat fun ⟨c, p, hc', hget, _⟩ => ?_
      obtain rfl := Option.some.inj (hc.symm.trans hc')
      cases hp.symm.trans hget
    next p hp =>
      rw [linkedOther_iff hc hp]
      by_cases haction : w.actionText = p.side.requiredAction
      · by_cases hqty : w.qty ≤ 0
        · have hreason : ¬ acceptedReason (if w.hasOcoLink = true then "sparse_oco_requires_live_stop_check"
              else "non_positive_qty") = true := by
            split
            · decide
            · decide
          rw [if_neg (not_not.2 haction), if_pos hqty]
          exact iff_of_false hreason fun hrest => not_lt.2 hqty hrest.2.1
        · rw [if_neg (not_not.2 haction), if_neg hqty]
          cases hprice : w.hasPrice with
          | false =>
            have hreason : ¬ acceptedReason "missing_price_fields" = true := by decide
            exact iff_of_false hreason fun hrest => Bool.false_ne_true hrest.2.2.1
          | true =>
            cases htype : w.typeIsProtective with
            | true =>
              have hreason : ¬ acceptedReason "unknown_non_protective" = true := by decide
              exact iff_of_false hreason fun hrest => Bool.noConfusion hrest.2.2.2.1
            | false =>
              cases hlink : w.hasOcoLink with
              | true =>
                have hreason : acceptedReason "accepted_sparse_oco_order" = true := by decide
                exact iff_of_true hreason ⟨haction, not_le.1 hqty, rfl, rfl, rfl⟩
              | false =>
                have hreason : ¬ acceptedReason ("non_protective_order_type:" ++
                    (if w.typeText = "" then "unknown" else w.typeText)) = true := by
                  simp [acceptedReason]
                exact iff_of_false hreason fun hrest => Bool.false_ne_true hrest.2.2.2.2
      · have hreason : ¬ acceptedReason ("action_mismatch:" ++
            ((if w.actionText = "" then "unknown" else w.actionText) ++ ("!=protective_" ++ p.side.requiredAction))) = true := by
          simp [acceptedReason]
        rw [if_pos haction]
        exact iff_of_false hreason fun hrest => haction hrest.1

theorem isProtectiveOrder_iff : isProtectiveOrder w positions = true ↔
    ∃ contractId p, w.contractId = some contractId ∧ positions.get? (some contractId) = some p ∧
      w.actionText = p.side.requiredAction ∧ 0 < w.qty ∧ w.hasPrice = true ∧ w.typeIsProtective = true := by
  unfold isProtectiveOrder
  split
  next hc =>
    refine iff_of_false Bool.false_ne_true ?_
    rintro ⟨c, p, hsome, -⟩
    cases hc.symm.trans hsome
  next contractId hc =>
    split
    next hp =>
      refine iff_of_false Bool.false_ne_true ?_
      rintro ⟨c, p, hc', hget, -⟩
      obtain rfl := Option.some.inj (hc.symm.trans hc')
      cases hp.symm.trans hget
    next p hp =>
      dsimp only
      rw [decide_eq_true_iff]
      constructor
      · rintro ⟨haction, hqty, hprice, htype⟩
        exact ⟨contractId, p, hc, hp, haction, hqty, Bool.or_eq_true_iff.2 hprice, htype⟩
      · rintro ⟨c, q, hc', hq, haction, hqty, hprice, htype⟩
        obtain rfl := Option.some.inj (hc.symm.trans hc')
        obtain rfl := Option.some.inj (hp.symm.trans hq)
        exact ⟨haction, hqty, Bool.or_eq_true_iff.1 hprice, htype⟩

theorem WorkingOrder.LinkedOther.not_protective (h : w.LinkedOther positions) : isProtectiveOrder w positions = false := by
  obtain ⟨contractId, p, hc, hp, -, -, -, htype, -⟩ := h
  refine Bool.eq_false_iff.2 fun hprotective => ?_
  obtain ⟨c, q, hc', hq, -, -, -, hfamily⟩ := isProtectiveOrder_iff.1 hprotective
  exact Bool.false_ne_true (htype.symm.trans hfamily)

/-- Each order is returned and accepted, or neither; only the sparse ones are then called accepted. -/
theorem debugRow_cases (positions : Dict Ident AccountPosition) (o : RawOrder) :
    (∃ w, protectiveOrder positions o = some w ∧ (debugRow positions o).accepted = true ∧
        acceptedReason (debugRow positions o).reason = true ∧ (debugRow positions o).normalized = some w ∧
        ¬ SparseOco positions o) ∨
      protectiveOrder positions o = none ∧ (debugRow positions o).accepted = false ∧
        (acceptedReason (debugRow positions o).reason = true ↔ SparseOco positions o) := by
  unfold debugRow classifyOrder protectiveOrder
  dsimp only
  by_cases hstatus : normalizeOrderStatus o.toOrderRow ∈ workingStates
  · rw [if_neg (not_not.2 hstatus), if_neg (not_not.2 hstatus)]
    cases hn : normalizeWorkingOrder o with
    | none =>
      have hreason : ¬ acceptedReason "invalid_or_incomplete_working_order_payload" = true := by decide
      refine .inr ⟨rfl, rfl, iff_of_false hreason fun ⟨_, _, hsome, _⟩ => ?_⟩
      cases hn.symm.trans hsome
    | some n =>
      have hsparse : SparseOco positions o ↔ (fillQty positions n).LinkedOther positions := by
        refine ⟨fun ⟨_, m, hm, hlinked⟩ => ?_, fun hlinked => ⟨hstatus, n, hn, hlinked⟩⟩
        obtain rfl := Option.some.inj (hn.symm.trans hm)
        exact hlinked
      rw [Option.map_some]
      cases hprotective : isProtectiveOrder (fillQty positions n) positions with
      | true =>
        have haccepted : acceptedReason "accepted_protective" = true := by decide
        have hnot : ¬ SparseOco positions o := fun hs =>
          Bool.false_ne_true ((hsparse.1 hs).not_protective.symm.trans hprotective)
        refine .inl ⟨fillQty positions n, ?_, ?_, ?_, ?_, hnot⟩
        · rw [Option.filter_some, hprotective, if_pos rfl]
        · dsimp only
          rw [hprotective, if_pos rfl]
        · dsimp only
          rw [hprotective, if_pos rfl]
          exact haccepted
        · dsimp only
          rw [hprotective, if_pos rfl]
      | false =>
        refine .inr ⟨?_, ?_, ?_⟩
        · rw [Option.filter_some, hprotective, if_neg Bool.false_ne_true]
        · dsimp only
          rw [hprotective, if_neg Bool.false_ne_true]
        · dsimp only
          rw [hprotective, if_neg Bool.false_ne_true, hsparse]
          exact acceptedReason_rejection
  · have hreason : ¬ acceptedReason ("status_not_working:" ++
        (if normalizeOrderStatus o.toOrderRow = "" then "unknown" else normalizeOrderStatus o.toOrderRow)) = true := by
      simp [acceptedReason]
    rw [if_pos hstatus, if_pos hstatus]
    exact .inr ⟨rfl, rfl, iff_of_false hreason fun hs => hstatus hs.1⟩

end order

/-! ### The loop -/

section loop
variable {positions : Dict Ident AccountPosition} {rawOrders : List RawOrder}

theorem total_count (status : String) (s : OrderStats) :
    (s.count status).total = s.total + (decide (status ∈ workingStates ∨ status ∈ terminalStates)).toNat := by
  unfold OrderStats.count OrderStats.total
  by_cases hworking : status ∈ workingStates
  · simp [hworking]
    omega
  · by_cases hterminal : status ∈ terminalStates
    · rw [if_neg hworking]
      simp only [hworking, hterminal, false_or, decide_true, Bool.toNat_true]
      simp only [terminalStates, List.mem_cons, List.not_mem_nil, or_false] at hterminal
      rcases hterminal with rfl | rfl | rfl | rfl | rfl
      all_goals
        simp
        omega
    · rw [if_neg hworking]
      simp only [terminalStates, List.mem_cons, List.not_mem_nil, or_false, not_or] at hterminal
      simp [hworking, hterminal, terminalStates]

theorem foldl_add (b : BuiltOrders) :
    let built := rawOrders.foldl (BuiltOrders.add positions) b
    built.working = b.working ++ rawOrders.filterMap (protectiveOrder positions) ∧
      built.debugRows = b.debugRows ++ rawOrders.map (debugRow positions) ∧
      built.orderStats.total = b.orderStats.total + rawOrders.countP fun o => o.recognised := by
  induction rawOrders generalizing b with
  | nil => simp
  | cons o rawOrders ih =>
    obtain ⟨hworking, hrows, htotal⟩ := ih (b.add positions o)
    rw [List.foldl_cons]
    dsimp only
    refine ⟨?_, ?_, ?_⟩
    · rw [hworking, List.filterMap_cons]
      rcases debugRow_cases positions o with ⟨w, hw, haccepted, -, hnormalized, -⟩ | ⟨hw, haccepted, -⟩
      · rw [hw]
        simp only [BuiltOrders.add, haccepted, hnormalized, if_true]
        simp
      · rw [hw]
        simp only [BuiltOrders.add, haccepted]
        simp
    · rw [hrows, List.map_cons]
      simp [BuiltOrders.add]
    · rw [htotal, List.countP_cons]
      show (b.orderStats.count _).total + _ = _
      rw [total_count]
      cases hrecognised : decide (normalizeOrderStatus o.toOrderRow ∈ workingStates ∨
          normalizeOrderStatus o.toOrderRow ∈ terminalStates) with
      | false =>
        have hfalse : ¬ (o.recognised = true) := fun h => Bool.false_ne_true (hrecognised.symm.trans h)
        rw [if_neg hfalse]
        rfl
      | true =>
        have htrue : o.recognised = true := hrecognised
        rw [if_pos htrue]
        simp only [Bool.toNat_true]
        omega

theorem buildOrders_eq (rawOrders : List RawOrder) (positions : List AccountPosition) :
    (buildOrders (some rawOrders) (some positions)).working = buildWorkingOrders rawOrders positions ∧
      (buildOrders (some rawOrders) (some positions)).debugRows = rawOrders.map (debugRow (positionByContract positions)) ∧
      (buildOrders (some rawOrders) (some positions)).orderStats.total = rawOrders.countP fun o => o.recognised := by
  obtain ⟨hworking, hrows, htotal⟩ := @foldl_add (positionByContract positions) rawOrders {}
  exact ⟨hworking, hrows, htotal.trans (Nat.zero_add _)⟩

theorem map_working (rawOrders : List RawOrder) : (rawOrders.filterMap (protectiveOrder positions)).map some =
    ((rawOrders.map (debugRow positions)).filter DebugRow.accepted).map DebugRow.normalized := by
  induction rawOrders with
  | nil => rfl
  | cons o rawOrders ih =>
    rw [List.filterMap_cons, List.map_cons]
    rcases debugRow_cases positions o with ⟨w, hw, haccepted, -, hnormalized, -⟩ | ⟨hw, haccepted, -⟩
    · rw [hw, List.filter_cons_of_pos haccepted]
      show some w :: _ = (debugRow positions o).normalized :: _
      rw [hnormalized, ← ih]
    · rw [hw, List.filter_cons_of_neg (by rw [haccepted]; exact Bool.false_ne_true), ← ih]

theorem status_fillQty {o : RawOrder} {n : WorkingOrder} (hstatus : normalizeOrderStatus o.toOrderRow ∈ workingStates)
    (hn : normalizeWorkingOrder o = some n) : (fillQty positions n).status ∈ workingStates := by
  obtain ⟨qty, hqty⟩ := fillQty_eq positions n
  have hnormalized : n.status =
      if normalizeOrderStatus o.toOrderRow = "" then "working" else normalizeOrderStatus o.toOrderRow := by
    unfold normalizeWorkingOrder at hn
    dsimp only at hn
    split at hn
    · cases hn
    · split at hn
      · cases hn
      · split at hn
        · cases hn
        · cases hn
          rfl
  rw [hqty]
  show n.status ∈ workingStates
  rw [hnormalized]
  split
  · decide
  · exact hstatus

theorem closing_of_protective {positions : List AccountPosition} {o : RawOrder} {w : WorkingOrder}
    (h : protectiveOrder (positionByContract positions) o = some w) : w.Closing positions := by
  unfold protectiveOrder at h
  split at h
  · cases h
  next hstatus =>
    obtain ⟨hfill, hprotective⟩ := Option.filter_eq_some_iff.1 h
    obtain ⟨n, hn, rfl⟩ := Option.map_eq_some_iff.1 hfill
    obtain ⟨contractId, p, hc, hp, haction, hqty, hprice, -⟩ := isProtectiveOrder_iff.1 hprotective
    obtain ⟨hmem, hopen, hid⟩ := positionByContract_get? hp
    exact ⟨status_fillQty (not_not.1 hstatus) hn, ⟨p, hmem, hopen, ⟨contractId, hc, hid⟩, haction⟩, hqty, hprice⟩

/-- A row that is accepted has an "accepted" reason, and one with such a reason that is not belongs to a sparse order. -/
theorem acceptedReason_row (o : RawOrder) :
    acceptedReason (debugRow positions o).reason = true ↔
      (debugRow positions o).accepted = true ∨ SparseOco positions o := by
  rcases debugRow_cases positions o with ⟨w, -, haccepted, hreason, -⟩ | ⟨-, haccepted, hreason⟩
  · exact iff_of_true hreason (.inl haccepted)
  · rw [hreason, haccepted]
    simp

theorem accepted_not_sparse {o : RawOrder} (hs : SparseOco positions o) : (debugRow positions o).accepted = false := by
  rcases debugRow_cases positions o with ⟨w, -, -, -, -, hnot⟩ | ⟨-, haccepted, -⟩
  · exact absurd hs hnot
  · exact haccepted

end loop

/-- The three results agree exactly when no raw order is a linked one of another type. -/
theorem ordersConsistent_iff (rawOrders : List RawOrder) (positions : List AccountPosition) :
    (buildOrders (some rawOrders) (some positions)).Consistent rawOrders positions ↔
      ∀ o ∈ rawOrders, ¬ SparseOco (positionByContract positions) o := by
  obtain ⟨hworking, hrows, htotal⟩ := buildOrders_eq rawOrders positions
  have hmap := @map_working (positionByContract positions) rawOrders
  constructor
  · intro h o ho hs
    have hreasons := h.reasons
    rw [hworking, hrows] at hreasons
    -- the accepted rows are as many as those with an accepted reason, so all of these are accepted
    have hsame : (rawOrders.map (debugRow (positionByContract positions))).filter DebugRow.accepted =
        ((rawOrders.map (debugRow (positionByContract positions))).filter fun row => acceptedReason row.reason).filter
          DebugRow.accepted := by
      rw [List.filter_filter]
      refine List.filter_congr fun row hrow => ?_
      obtain ⟨o, -, rfl⟩ := List.mem_map.1 hrow
      cases haccepted : (debugRow (positionByContract positions) o).accepted with
      | false => rfl
      | true =>
        rw [(acceptedReason_row o).2 (.inl haccepted)]
        rfl
    have hlength := congrArg List.length (hmap.symm.trans hreasons)
    rw [List.length_map, List.length_map, hsame] at hlength
    have hall := List.length_filter_eq_length_iff.1 hlength
    have hrow : debugRow (positionByContract positions) o ∈
        (rawOrders.map (debugRow (positionByContract positions))).filter fun row => acceptedReason row.reason :=
      List.mem_filter.2 ⟨List.mem_map_of_mem ho, (acceptedReason_row o).2 (.inr hs)⟩
    exact Bool.false_ne_true ((accepted_not_sparse hs).symm.trans (hall _ hrow))
  · intro h
    refine ⟨?_, ?_, htotal, fun w hw => ?_⟩
    · rw [hworking, hrows]
      refine hmap.trans (congrArg _ (List.filter_congr fun row hrow => ?_))
      obtain ⟨o, ho, rfl⟩ := List.mem_map.1 hrow
      exact Bool.eq_iff_iff.2 (((acceptedReason_row o).trans (or_iff_left (h o ho))).symm)
    · rw [hworking, hrows]
      exact hmap
    · rw [hworking] at hw
      obtain ⟨o, -, ho⟩ := List.mem_filterMap.1 hw
      exact closing_of_protective ho

/-- A row without type and quantity on the closing side of a position, linked to another order. -/
def sparseRow : RawOrder :=
  { id := some 10, ordStatus := some "Working", contractId := some 999, action := some "Sell", price := some 18010
    ocoId := some 555 }

theorem not_ordersConsistent :
    ¬ (buildOrders (some [sparseRow]) (some [{ contractId := some 999, netPos := 1 }])).Consistent [sparseRow]
      [{ contractId := some 999, netPos := 1 }] := by
  intro h
  have hlength := congrArg List.length h.reasons
  revert hlength
  decide +kernel

end PearlAlgo
