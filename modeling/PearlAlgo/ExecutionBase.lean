import PearlAlgo.Py.Dict
import PearlAlgo.Py.Number

/-!
# Execution adapter base (`execution/base.py`)

The configuration, the signal dictionary, the result types, and the part of `ExecutionAdapter` that all
adapters share: arm, disarm, the daily counters and `check_preconditions`.

A signal is a dictionary; a numeric field is modelled by what `float(...)` or `int(...)` of its value
does (`Field`). Message texts are constructors of `Reason` and `ErrorMessage`, with the data the
f-string prints. Money and time are exact rationals.
-/

namespace PearlAlgo
open Py

/-- What the substring tests of the adapter find in the text of a `TradovateAPIError`. -/
inductive ApiError
  | rateLimit  -- `429`
  | maintenance  -- `503`, `Service error` or `Service Unavailable`, and not `429`
  | other (message : String)
deriving DecidableEq

/-- Exceptions, as the `except` clauses tell them apart. `cancelled` is a `BaseException`, so
`except Exception` lets it through. -/
inductive Err
  | api (e : ApiError)
  | timeout
  | os
  | value
  | type
  | key
  | attribute
  | overflow
  | cancelled
deriving DecidableEq

/-- The value of a key under a conversion such as `float`: absent, converted, or raising. -/
abbrev Field (α : Type) := Option (Except Err α)

def Field.getD {α : Type} (f : Field α) (default : α) : Except Err α := Option.getD f (.ok default)

inductive ExecutionMode
  | dryRun
  | paper
  | live
deriving DecidableEq

inductive OrderStatus
  | pending
  | placed
  | filled
  | partiallyFilled
  | cancelled
  | rejected
  | expired
  | error
deriving DecidableEq

structure ExecutionConfig where
  enabled : Bool
  armed : Bool
  mode : ExecutionMode
  maxPositions : Int
  maxOrdersPerDay : Int
  maxDailyLoss : ℚ
  cooldownSeconds : Int
  maxPositionSizePerOrder : Int
  allowReversalOnOppositeSignal : Bool
  symbolWhitelist : List String
deriving DecidableEq

/-- The `execution` section as read from the configuration file, after `int`, `float`, `bool`. -/
structure ExecutionSettings where
  enabled : Option Bool := none
  armed : Option Bool := none
  mode : Option String := none
  maxPositions : Option Int := none
  maxOrdersPerDay : Option Int := none
  maxDailyLoss : Option ℚ := none
  cooldownSeconds : Option Int := none
  maxPositionSizePerOrder : Option Int := none
  allowReversalOnOppositeSignal : Option Bool := none
  symbolWhitelist : Option (List String) := none

namespace ExecutionConfig

def MAX_POSITIONS : Int := 1
def MAX_ORDERS_PER_DAY : Int := 20
def MAX_DAILY_LOSS : ℚ := 500
def COOLDOWN_SECONDS : Int := 60
def DEFAULT_SYMBOL_WHITELIST : List String := ["MNQ"]

def modeOf (s : String) : ExecutionMode :=
  if s = "paper" then .paper else if s = "live" then .live else .dryRun

/-- `ExecutionConfig.from_dict`: a limit that would switch a risk control off falls back to its
default. -/
def fromDict (c : ExecutionSettings) : ExecutionConfig where
  enabled := c.enabled.getD false
  armed := c.armed.getD false
  mode := modeOf ((c.mode.getD "dry_run").toLower)
  maxPositions :=
    let n := c.maxPositions.getD MAX_POSITIONS
    if n ≤ 0 then MAX_POSITIONS else n
  maxOrdersPerDay :=
    let n := c.maxOrdersPerDay.getD MAX_ORDERS_PER_DAY
    if n ≤ 0 then MAX_ORDERS_PER_DAY else n
  maxDailyLoss :=
    let x := c.maxDailyLoss.getD MAX_DAILY_LOSS
    if x ≤ 0 then MAX_DAILY_LOSS else x
  cooldownSeconds :=
    let n := c.cooldownSeconds.getD COOLDOWN_SECONDS
    if n < 0 then COOLDOWN_SECONDS else n
  maxPositionSizePerOrder := c.maxPositionSizePerOrder.getD 1
  allowReversalOnOppositeSignal := c.allowReversalOnOppositeSignal.getD false
  symbolWhitelist := c.symbolWhitelist.getD DEFAULT_SYMBOL_WHITELIST

/-- The limits `from_dict` vouches for. -/
structure Valid (cfg : ExecutionConfig) : Prop where
  maxPositions : 0 < cfg.maxPositions
  maxOrdersPerDay : 0 < cfg.maxOrdersPerDay
  maxDailyLoss : 0 < cfg.maxDailyLoss
  cooldownSeconds : 0 ≤ cfg.cooldownSeconds

theorem valid_fromDict (c : ExecutionSettings) : (fromDict c).Valid := by
  refine ⟨?_, ?_, ?_, ?_⟩
  · simp only [fromDict]; split <;> [decide; omega]
  · simp only [fromDict]; split <;> [decide; omega]
  · simp only [fromDict]
    split
    · decide
    · exact lt_of_not_ge ‹_›
  · simp only [fromDict]; split <;> [decide; omega]

end ExecutionConfig

structure Signal where
  signalId : Option String := none
  type : Option String := none
  symbol : Option String := none
  direction : Option String := none
  entryPrice : Field Number := none
  stopLoss : Field Number := none
  takeProfit : Field Number := none
  positionSize : Field Int := none

namespace Signal

/-- `signal.get("type", "unknown")`, the key of the cooldown table. -/
def typeKey (sig : Signal) : String := sig.type.getD "unknown"

/-- `float(signal.get(..., 0))` of the three prices, in the order in which they are converted. -/
def prices (sig : Signal) : Except Err (Number × Number × Number) := do
  let entryPrice ← sig.entryPrice.getD (.fin 0)
  let stopLoss ← sig.stopLoss.getD (.fin 0)
  let takeProfit ← sig.takeProfit.getD (.fin 0)
  return (entryPrice, stopLoss, takeProfit)

/-- `str(signal.get("direction", "")).lower()`, the direction as the preconditions read it. -/
def checkedDirection (sig : Signal) : String := (sig.direction.getD "").toLower

/-- `signal.get("direction", "long")`, the direction as `place_bracket` reads it. -/
def rawDirection (sig : Signal) : String := sig.direction.getD "long"

end Signal

/-- `ExecutionDecision.reason`; the comments give the source's texts. -/
inductive Reason
  | preconditionsPassed  -- `preconditions_passed`
  | executionDisabled  -- `execution_disabled`
  | notArmed  -- `not_armed`
  | symbolNotWhitelisted (symbol : String)  -- `symbol_not_whitelisted:{symbol}`
  | maxPositionsReached (current : Nat) (max : Int)  -- `max_positions_reached:{current}/{max}`
  | maxDailyOrdersReached (orders : Nat) (max : Int)  -- `max_daily_orders_reached:{orders}/{max}`
  | dailyLossLimitHit (pnl : ℚ)  -- `daily_loss_limit_hit:{pnl:.2f}`
  | cooldownActive (type : String) (remaining : Int)  -- `cooldown_active:{type}:{remaining}s_remaining`
  | invalidDirection (direction : String)  -- `invalid_direction:{direction}`
  | invalidPricesNonNumeric  -- `invalid_prices:non_numeric`
  | invalidPricesNonPositive (entry sl tp : Number)  -- `invalid_prices:non_positive:entry=..,sl=..,tp=..`
  | invalidBracketGeometry (direction : String) (entry sl tp : Number)  -- `invalid_bracket_geometry:{direction}:..`
  | invalidPositionSizeNonInteger  -- `invalid_position_size:non_integer`
  | invalidPositionSizeNonPositive (size : Int)  -- `invalid_position_size:non_positive:{size}`
deriving DecidableEq

structure ExecutionDecision where
  execute : Bool
  reason : Reason
  signalId : String
deriving DecidableEq

inductive ErrorMessage
  | duplicateSignalId  -- `duplicate_signal_id_rejected`
  | precondition (reason : Reason)  -- the reason of the precondition check
  | positionCheckFailed  -- `position_check_failed_cannot_verify_broker_state`
  | reversalFlattenFailed  -- `reversal_flatten_failed`
  | oppositeDirectionBlocked (existing requested : String)  -- `opposite_direction_blocked: existing ..`
  | pendingOrdersLimit (pending : Nat) (max : Int)  -- `pending_orders_limit ({pending}/{max}) reached`
  | maxPositionSize (total : Nat) (max : Int)  -- `max_position_size ({total}/{max}) reached`
  | positionGuardError (e : Err)  -- `position_guard_error: {e}`
  | notConnected  -- `Not connected to Tradovate`, `Not connected`
  | contractResolutionEmpty (symbol : String)  -- `Contract resolution returned empty for {symbol}`
  | contractResolutionFailed (e : Err)  -- `Contract resolution failed: {e}`
  | invalidPositionSize (size : Int)  -- `Invalid position_size: {size}`
  | stopLossInvalid (direction : String) (sl entry : Number)  -- `Stop loss {sl} invalid for LONG entry ..`
  | takeProfitInvalid (direction : String) (tp entry : Number)  -- `Take profit {tp} invalid for LONG entry ..`
  | tpDistance (distance : Number)  -- `TP distance {distance} pts < minimum {min}`
  | executionTimeoutNoRetry  -- `execution_timeout_no_retry`
  | unexpectedResponseType (type : String)  -- `Unexpected place_oso response type: {type}`
  | noOrderId  -- `errorText` of the response, `No order ID returned` when it has none
  | raised (e : Err)  -- `str(e)`
deriving DecidableEq

structure ExecutionResult where
  success : Bool
  status : OrderStatus
  signalId : String
  orderId : Option String := none
  parentOrderId : Option String := none
  stopOrderId : Option String := none
  takeProfitOrderId : Option String := none
  errorMessage : Option ErrorMessage := none
deriving DecidableEq

def ExecutionResult.reject (signalId : String) (m : ErrorMessage) : ExecutionResult :=
  { success := false, status := .rejected, signalId, errorMessage := some m }

def ExecutionResult.fail (signalId : String) (m : ErrorMessage) : ExecutionResult :=
  { success := false, status := .error, signalId, errorMessage := some m }

/-! ### `ExecutionAdapter` -/

/-- The fields of `ExecutionAdapter.__init__`. `positions` maps a symbol to a signed quantity. -/
structure AdapterBase where
  armed : Bool
  ordersToday : Nat
  dailyPnl : ℚ
  lastOrderTime : Dict String ℚ
  positions : Dict String Int
deriving DecidableEq

namespace AdapterBase

def init (cfg : ExecutionConfig) : AdapterBase where
  armed := cfg.armed
  ordersToday := 0
  dailyPnl := 0
  lastOrderTime := .empty
  positions := .empty

/-- `arm`; the returned flag says whether the adapter was armed. -/
def arm (cfg : ExecutionConfig) (a : AdapterBase) : Bool × AdapterBase :=
  if cfg.enabled then (true, { a with armed := true }) else (false, a)

def disarm (a : AdapterBase) : AdapterBase := { a with armed := false }

def resetDailyCounters (a : AdapterBase) : AdapterBase :=
  { a with ordersToday := 0, dailyPnl := 0, lastOrderTime := .empty }

def updateDailyPnl (pnlChange : ℚ) (a : AdapterBase) : AdapterBase :=
  { a with dailyPnl := a.dailyPnl + pnlChange }

def incrementOrderCount (signalType : String) (now : ℚ) (a : AdapterBase) : AdapterBase :=
  { a with ordersToday := a.ordersToday + 1, lastOrderTime := a.lastOrderTime.set signalType now }

/-- The symbols with an open position. -/
def currentPositions (a : AdapterBase) : Nat := (a.positions.values.filter (· ≠ 0)).length

/-- Check 7: the rest of the cooldown of a signal type, when it is active. -/
def cooldownRemaining (cfg : ExecutionConfig) (signalType : String) (now : ℚ) (a : AdapterBase) : Option ℚ :=
  match a.lastOrderTime.get? signalType with
  | none => none
  | some t => if now - t < cfg.cooldownSeconds then some (cfg.cooldownSeconds - (now - t)) else none

/-- Checks 8 to 11 of `check_preconditions`, which only read the signal. -/
def checkBracket (sig : Signal) : Except Err Reason :=
  let direction := sig.checkedDirection
  if direction ≠ "long" ∧ direction ≠ "short" then .ok (.invalidDirection direction)
  else
    match sig.prices with
    | .error .type | .error .value => .ok .invalidPricesNonNumeric
    | .error e => .error e
    | .ok (entryPrice, stopLoss, takeProfit) =>
      if entryPrice ≤ .fin 0 ∨ stopLoss ≤ .fin 0 ∨ takeProfit ≤ .fin 0 then
        .ok (.invalidPricesNonPositive entryPrice stopLoss takeProfit)
      else if direction = "long" ∧ ¬ (stopLoss < entryPrice ∧ entryPrice < takeProfit) then
        .ok (.invalidBracketGeometry direction entryPrice stopLoss takeProfit)
      else if direction ≠ "long" ∧ ¬ (takeProfit < entryPrice ∧ entryPrice < stopLoss) then
        .ok (.invalidBracketGeometry direction entryPrice stopLoss takeProfit)
      else
        match sig.positionSize.getD 0 with
        | .error .type | .error .value => .ok .invalidPositionSizeNonInteger
        | .error e => .error e
        | .ok size => if size ≤ 0 then .ok (.invalidPositionSizeNonPositive size) else .ok .preconditionsPassed

/-- Checks 1 to 7 of `check_preconditions`: the reason for a rejection, if there is one. -/
def checkLimits (cfg : ExecutionConfig) (sig : Signal) (now : ℚ) (a : AdapterBase) : Option Reason :=
  let symbol := sig.symbol.getD "MNQ"
  if ¬ cfg.enabled then some .executionDisabled
  else if ¬ a.armed then some .notArmed
  else if cfg.symbolWhitelist ≠ [] ∧ symbol ∉ cfg.symbolWhitelist then some (.symbolNotWhitelisted symbol)
  else if cfg.maxPositions ≤ a.currentPositions then
    some (.maxPositionsReached a.currentPositions cfg.maxPositions)
  else if cfg.maxOrdersPerDay ≤ a.ordersToday then
    some (.maxDailyOrdersReached a.ordersToday cfg.maxOrdersPerDay)
  else if a.dailyPnl ≤ -cfg.maxDailyLoss then some (.dailyLossLimitHit a.dailyPnl)
  else
    match a.cooldownRemaining cfg sig.typeKey now with
    | some r => some (.cooldownActive sig.typeKey r.floor)
    | none => none

/-- `check_preconditions`: the decision, and the adapter, which check 6 (the daily loss limit)
disarms. -/
def checkPreconditions (cfg : ExecutionConfig) (sig : Signal) (now : ℚ) (a : AdapterBase) :
    Except Err (ExecutionDecision × AdapterBase) :=
  let signalId := sig.signalId.getD "unknown"
  match a.checkLimits cfg sig now with
  | some (.dailyLossLimitHit pnl) => .ok (⟨false, .dailyLossLimitHit pnl, signalId⟩, a.disarm)
  | some r => .ok (⟨false, r, signalId⟩, a)
  | none =>
    match checkBracket sig with
    | .error e => .error e
    | .ok .preconditionsPassed => .ok (⟨true, .preconditionsPassed, signalId⟩, a)
    | .ok r => .ok (⟨false, r, signalId⟩, a)

variable {cfg : ExecutionConfig} {sig : Signal} {now : ℚ} {a a' : AdapterBase} {d : ExecutionDecision}

theorem checkLimits_eq_none (h : a.checkLimits cfg sig now = none) :
    cfg.enabled = true ∧ a.armed = true ∧ (a.ordersToday : Int) < cfg.maxOrdersPerDay ∧
      -cfg.maxDailyLoss < a.dailyPnl := by
  simp only [checkLimits] at h
  split at h
  · cases h
  next henabled =>
    split at h
    · cases h
    next harmed =>
      simp only [Bool.not_eq_true, Bool.not_eq_false] at henabled harmed
      refine ⟨henabled, harmed, ?_⟩
      iterate 3 (split at h; · cases h)
      split at h
      · cases h
      next horders hpnl => exact ⟨not_le.1 horders, not_le.1 hpnl⟩

theorem checkPreconditions_execute (h : a.checkPreconditions cfg sig now = .ok (d, a'))
    (hd : d.execute = true) :
    a' = a ∧ a.checkLimits cfg sig now = none ∧ checkBracket sig = .ok .preconditionsPassed := by
  simp only [checkPreconditions] at h
  split at h
  · cases h; cases hd
  · cases h; cases hd
  next hl =>
    split at h
    · cases h
    next hb => cases h; exact ⟨rfl, hl, hb⟩
    · cases h; cases hd

theorem checkLimits_dailyLossLimitHit {pnl : ℚ} (h : a.checkLimits cfg sig now = some (.dailyLossLimitHit pnl)) :
    pnl = a.dailyPnl := by
  simp only [checkLimits] at h
  iterate 5 (split at h; · cases h)
  split at h
  · cases h; rfl
  · split at h <;> cases h

/-- Only the daily loss limit disarms, and nothing else changes. -/
theorem checkPreconditions_base (h : a.checkPreconditions cfg sig now = .ok (d, a')) :
    a' = a ∨ a' = a.disarm ∧ a.checkLimits cfg sig now = some (.dailyLossLimitHit a.dailyPnl) := by
  simp only [checkPreconditions] at h
  split at h
  next pnl hl =>
    have := checkLimits_dailyLossLimitHit hl
    subst this
    cases h; exact .inr ⟨rfl, hl⟩
  · cases h; exact .inl rfl
  next =>
    split at h
    · cases h
    all_goals cases h; exact .inl rfl

theorem checkBracket_passed {sig : Signal} (h : checkBracket sig = .ok .preconditionsPassed) :
    ∃ entry sl tp, sig.prices = .ok (entry, sl, tp) ∧ .fin 0 < entry ∧ .fin 0 < sl ∧ .fin 0 < tp ∧
      (sig.checkedDirection = "long" ∧ sl < entry ∧ entry < tp ∨
        sig.checkedDirection = "short" ∧ tp < entry ∧ entry < sl) ∧
      ∃ size, sig.positionSize = some (.ok size) ∧ 0 < size := by
  simp only [checkBracket] at h
  split at h
  · cases h
  next hdir =>
    split at h
    · cases h
    · cases h
    · cases h
    next entry sl tp hprices =>
      split at h
      · cases h
      next hpos =>
        simp only [not_or] at hpos
        obtain ⟨hentry, hsl, htp⟩ := hpos
        split at h
        · cases h
        next hlong =>
        split at h
        · cases h
        next hshort =>
        have hge : sig.checkedDirection = "long" ∧ sl < entry ∧ entry < tp ∨
            sig.checkedDirection = "short" ∧ tp < entry ∧ entry < sl := by
          by_cases hd : sig.checkedDirection = "long"
          · exact .inl ⟨hd, not_not.1 fun hg => hlong ⟨hd, hg⟩⟩
          · exact .inr ⟨not_not.1 fun hs => hdir ⟨hd, hs⟩, not_not.1 fun hg => hshort ⟨hd, hg⟩⟩
        -- the geometry compares every price, so none of them is `nan`
        have hnan : entry ≠ .nan ∧ sl ≠ .nan ∧ tp ≠ .nan := by
          rcases hge with ⟨-, h₁, h₂⟩ | ⟨-, h₁, h₂⟩
          · exact ⟨fun h => Number.not_lt_nan _ (h ▸ h₁), fun h => Number.not_nan_lt _ (h ▸ h₁),
              fun h => Number.not_lt_nan _ (h ▸ h₂)⟩
          · exact ⟨fun h => Number.not_lt_nan _ (h ▸ h₁), fun h => Number.not_lt_nan _ (h ▸ h₂),
              fun h => Number.not_nan_lt _ (h ▸ h₁)⟩
        refine ⟨entry, sl, tp, hprices, Number.pos_of_not_nonpos hentry hnan.1,
          Number.pos_of_not_nonpos hsl hnan.2.1, Number.pos_of_not_nonpos htp hnan.2.2, hge, ?_⟩
        split at h
        · cases h
        · cases h
        · cases h
        next size hsize =>
          split at h
          · cases h
          next hpos =>
            cases hp : sig.positionSize with
            | none =>
              -- an absent size converts to zero
              rw [hp] at hsize
              cases hsize
              exact absurd le_rfl hpos
            | some f =>
              rw [hp] at hsize
              exact ⟨size, congrArg some hsize, not_le.1 hpos⟩

end AdapterBase

end PearlAlgo
