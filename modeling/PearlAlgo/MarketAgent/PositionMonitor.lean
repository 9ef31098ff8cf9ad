import PearlAlgo.PartialRunner
import PearlAlgo.Tradovate.AccountSummary
import PearlAlgo.Tradovate.TrailingStop

/-!
# The position monitor (`market_agent/position_monitor.py`)

`monitor_open_position` looks at each open position once in a cycle: it registers a position that looks new, and moves
its stop by the runner or by the trailing stop manager. `_pos_monitor` is one record for all positions; of it only the
entry price decides anything here. What the broker, the files and the clock answer during a visit are the fields of
`Visit`. The metrics, the log lines and the cancelling of take-profits are left out.
-/

namespace PearlAlgo
open Py

/-- The key of a position: its contract, or `virtual` for the one that is made up from an active signal. -/
inductive PositionId
  | contract (id : Ident)
  | virtual
deriving DecidableEq

structure OverrideFile where
  trailAtrMultiplier : ℚ := 1
  activationAtrMultiplier : ℚ := 1
  forcePhase : Option String := none
  minMoveOverride : Option ℚ := none
  ttlMinutes : Int := 30
  source : String := "external"

/-- A position as the loop reaches it, with all that is answered until the loop goes on. A request that fails has no
answer. -/
structure Visit where
  position : LivePosition
  now : ℚ := 0
  /-- `get_orders` when the position is registered. -/
  initialOrders : Option (List RawOrder) := none
  /-- `stop_loss` of the first active signal on this side, zero where there is none. -/
  virtualStop : ℚ := 0
  clearFlag : Bool := false
  overrideFile : Option OverrideFile := none
  /-- The working orders of the account summary when the stop order is looked for. -/
  workingOrders : Option (List WorkingOrder) := none
  /-- `get_orders` after that. -/
  orders : Option (List RawOrder) := none
  connected : Bool := true
  modifyOk : Bool := true
  /-- The contract that `place_stop_order` finds. -/
  placeContract : Option Ident := none
  placeOk : Bool := true
  /-- The loop ends here: an advanced exit, or a change of the cache under it. -/
  ends : Bool := false

/-- What one cycle reads. -/
structure Cycle where
  /-- `_live_positions`, in the order of the loop. -/
  live : Dict PositionId Visit
  virtual : Option Visit := none
  price : ℚ
  atr : ℚ
  /-- `detect_market_regime`, when there are bars enough. -/
  regime : Option String := none

/-- The positions of the cycle; the active signal counts when the broker's are none. -/
def Cycle.positions (c : Cycle) : Dict PositionId Visit :=
  if c.live.isEmpty then
    match c.virtual with
    | some v => Dict.empty.set .virtual v
    | none => .empty
  else c.live

structure MonitorEnv where
  trailing : TrailingStopConfig
  runner : PartialRunnerConfig
  contractOf : Int → Ident

/-- The fields of the service that the monitor keeps. -/
structure PositionMonitor where
  trailing : TrailingStopManager PositionId := {}
  runner : PartialRunnerManager PositionId := {}
  /-- The entry price in `_pos_monitor`. -/
  posMonitor : Option ℚ := none
  lastBrokerStop : Option ℚ := none
  stopOrderMissCount : Nat := 0

/-- A stop price that goes to the broker, for the contract of the order. -/
structure StopSend where
  contract : PositionId
  price : ℚ
deriving DecidableEq

/-- `direction`; none for an entry without a quantity -/
def LivePosition.side? (p : LivePosition) : Option PositionSide :=
  if p.netPos = 0 then none else some (if 0 < p.netPos then .long else .short)

/-- The scan of `_find_initial_stop_from_broker`. -/
def brokerStop (side : PositionSide) (orders : List RawOrder) : Option ℚ :=
  orders.findSome? fun o =>
    if (o.orderType = some "Stop" ∧ o.action = some side.stopAction ∧
        (o.ordStatus = some "Working" ∨ o.ordStatus = some "Accepted")) ∧ 0 < o.stopPrice.getD 0 then o.stopPrice
    else none

def findInitialStopFromBroker (side : PositionSide) (entryPrice currentAtr : ℚ) (orders : Option (List RawOrder)) : ℚ :=
  (brokerStop side (orders.getD [])).getD
    (if 0 < currentAtr then side.behind entryPrice (2 * currentAtr) else side.behind entryPrice (entryPrice * (2 / 100)))

/-- The scan of the account summary in `_find_stop_order_id`; an order without an id ends it. -/
def summaryStopOrder (side : PositionSide) (bestCandidate : Option Int) : List WorkingOrder → Option Int
  | [] => bestCandidate
  | o :: rest =>
    if (strip (o.action.getD "")).toLower ≠ side.requiredAction then summaryStopOrder side bestCandidate rest
    else
      let orderType := (strip o.orderType).toLower
      if isIn "stop" orderType || isIn "trailing" orderType then o.id
      else if o.stopPrice.isSome && bestCandidate.isNone then
        match o.id with
        | some id => summaryStopOrder side (some id) rest
        | none => none
      else summaryStopOrder side bestCandidate rest

/-- `x or y` of two prices: zero is falsy. -/
def orPrice (x y : Option ℚ) : Option ℚ := if x = some 0 then y else x <|> y

/-- The scan of the raw orders in `_find_stop_order_id`. -/
def rawStopOrder (side : PositionSide) (bestCandidate : Option Int) : List RawOrder → Option Int
  | [] => bestCandidate
  | o :: rest =>
    if o.action.getD "" ≠ side.stopAction then rawStopOrder side bestCandidate rest
    else if (orText o.ordStatus o.status).getD "" ∉ ["Working", "Accepted", "working", "accepted"] then
      rawStopOrder side bestCandidate rest
    else if o.typeText.toLower ∈ ["stop", "stoplimit", "stopmarket"] then o.id
    else if (orPrice o.stopPrice o.triggerPrice).isSome then
      match o.id with
      | some id => rawStopOrder side (some id) rest
      | none => none
    else rawStopOrder side bestCandidate rest

/-- `_find_stop_order_id`; the monitor takes a zero for no order. -/
def Visit.stopOrder (v : Visit) (side : PositionSide) : Option Int :=
  (v.workingOrders.bind (summaryStopOrder side none) <|> v.orders.bind (rawStopOrder side none)).filter (· ≠ 0)

def ingestTrailingStopOverride (cfg : TrailingStopConfig) (v : Visit) (t : TrailingStopManager PositionId) :
    TrailingStopManager PositionId :=
  if ¬ cfg.allowExternalOverride then t
  else
    let t := if v.clearFlag then t.clearOverride else t
    match v.overrideFile with
    | none => t
    | some raw =>
      t.applyOverride cfg
        { trailAtrMultiplier := raw.trailAtrMultiplier, activationAtrMultiplier := raw.activationAtrMultiplier
          forcePhase := raw.forcePhase, minMoveOverride := raw.minMoveOverride, source := raw.source
          expiresAt := some (v.now + min raw.ttlMinutes cfg.maxOverrideTtlMinutes * 60) }

def applyRegimeTrailingPreset (cfg : TrailingStopConfig) (regime : Option String)
    (t : TrailingStopManager PositionId) : TrailingStopManager PositionId :=
  match regime with
  | none => t
  | some regime =>
    t.applyRegimePreset cfg (if "trending".toList.isPrefixOf regime.toList then "trending" else regime)

namespace PositionMonitor

variable (env : MonitorEnv) (c : Cycle) (id : PositionId) (v : Visit) (side : PositionSide)

/-- The stop with which a position is registered. -/
def initialStop : ℚ :=
  let stopPx := findInitialStopFromBroker side v.position.netPrice c.atr v.initialOrders
  if stopPx = 0 then v.virtualStop else stopPx

/-- A position whose entry price is not the one on record is taken for a new one. -/
def register (m : PositionMonitor) : PositionMonitor :=
  if m.posMonitor = some v.position.netPrice then m
  else
    { m with
      posMonitor := some v.position.netPrice
      trailing :=
        if env.trailing.enabled ∧ 0 < initialStop c v side then
          m.trailing.registerPosition id v.position.netPrice side (initialStop c v side)
        else m.trailing
      runner :=
        if 0 < c.atr then m.runner.registerPosition env.runner id v.position.netPrice side c.atr else m.runner }

def runnerStop (m : PositionMonitor) : Option StopSend × PositionMonitor :=
  let (u, runner) := m.runner.updatePosition env.runner id c.price
  let m := { m with runner }
  match u.newStop, v.stopOrder side with
  | some newStop, some orderId =>
    if v.connected then
      (some ⟨.contract (env.contractOf orderId), newStop⟩,
        if v.modifyOk then { m with lastBrokerStop := some newStop } else m)
    else (none, m)
  | _, _ => (none, m)

/-- The internal stop again, where it is not the one that the broker was last sent. -/
def retryStop (m : PositionMonitor) : Option ℚ :=
  match m.trailing.states.get? id with
  | none => none
  | some st =>
    if (st.currentPhase.any fun name => name ≠ "") ∧
        (m.lastBrokerStop.all fun lastBroker => 1 / 4 < |st.currentStop - lastBroker|) then some st.currentStop
    else none

/-- The new stop goes to the stop order of the position. After three misses it is placed anew, and after six the
position is no longer followed. -/
def sendStop (newStop : ℚ) (m : PositionMonitor) : Option StopSend × PositionMonitor :=
  match v.stopOrder side with
  | some orderId =>
    if v.connected then
      (some ⟨.contract (env.contractOf orderId), newStop⟩,
        if v.modifyOk then { m with lastBrokerStop := some newStop, stopOrderMissCount := 0 } else m)
    else (none, m)
  | none =>
    let missCount := m.stopOrderMissCount + 1
    let m := { m with stopOrderMissCount := missCount }
    if missCount = 3 then
      match v.placeContract with
      | some contract =>
        if v.connected then
          (some ⟨.contract contract, newStop⟩,
            if v.placeOk then { m with lastBrokerStop := some newStop, stopOrderMissCount := 0 } else m)
        else (none, m)
      | none => (none, m)
    else if 6 ≤ missCount then
      (none, { m with trailing := m.trailing.removePosition id, stopOrderMissCount := 0 })
    else (none, m)

def trailingStop (m : PositionMonitor) : Option StopSend × PositionMonitor :=
  if c.atr ≤ 0 then (none, m)
  else
    let trailing := applyRegimeTrailingPreset env.trailing c.regime (ingestTrailingStopOverride env.trailing v m.trailing)
    let (newStop, trailing) := trailing.checkAndUpdate env.trailing v.now id c.price c.atr
    let m := { m with trailing }
    match newStop <|> m.retryStop id with
    | some newStop => m.sendStop env id v side newStop
    | none => (none, m)

/-- The runner manages the stop when it is enabled, and the trailing stop manager otherwise. -/
def manageStop (m : PositionMonitor) : Option StopSend × PositionMonitor :=
  if env.runner.enabled then m.runnerStop env c id v side
  else if env.trailing.enabled then m.trailingStop env c id v side
  else (none, m)

def visit (m : PositionMonitor) : Option StopSend × PositionMonitor :=
  match v.position.side? with
  | none => (none, m)
  | some side =>
    if v.position.netPrice ≤ 0 then (none, m) else (m.register env c id v side).manageStop env c id v side

/-- Without a position the states are dropped. -/
def reset (m : PositionMonitor) : PositionMonitor :=
  if m.posMonitor.isSome then { trailing := { m.trailing with states := .empty } } else m

end PositionMonitor

end PearlAlgo
