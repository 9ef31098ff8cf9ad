import PearlAlgo.ExecutionBase
import PearlAlgo.MarketAgent.CircuitBreaker
import PearlAlgo.Py.Datetime

/-!
# The two signal paths (`market_agent/signal_handler.py`)

`process_signal` and `follower_execute`, from the circuit breaker to the virtual entry. What the breaker decides, the
size that the order manager computes, and the answers of the protection guard, the broker and the tracker are an
argument (`HandlerEnv`). `leader_enters_iff` and `follower_enters_iff` say when a path records the entry. The audit
records, the notifications and the counters are left out.
-/

namespace PearlAlgo
open Py

/-- The keys that the pipeline reads besides those of the adapter. -/
structure PipelineSignal extends Signal where
  /-- The value of `position_size` is an `int`. -/
  sizeIsInt : Bool := true
  /-- What `fromisoformat` makes of `timestamp`, or else of `_timestamp`. -/
  timestamp : Option (Except PyErr PyDatetime) := none
  isTest : Bool := false
  cbDecisionRiskScale : Field Number := none

/-- `_execution_status`; the comments give the source's texts. -/
inductive ExecutionStatus
  | notAttempted  -- `not_attempted`
  | unprotectedOpenPosition  -- `skipped:unprotected_open_position_auto_disarm`
  | skipped (reason : Reason)  -- `skipped:{reason}`
  | placed  -- `placed`
  | placedNoId  -- `placed_no_id`
  | placeFailed (message : Option ErrorMessage)  -- `place_failed:{error_message}`
  | error (e : Err)  -- `error:{e}`
deriving DecidableEq

/-- The adapter, with the answers of the guard and of the broker. -/
structure HandlerAdapter where
  config : ExecutionConfig
  base : AdapterBase
  /-- `_enforce_tradovate_protection_guard` -/
  guardOk : Bool := true
  placeBracket : Except Err ExecutionResult

structure HandlerEnv where
  /-- `signals.enabled_signal_types`; `none` when the configuration cannot be loaded. -/
  enabledSignalTypes : Option (List String) := none
  breaker : Option (CircuitBreakerMode × CircuitBreakerDecision) := none
  /-- `compute_base_position_size`, raised to `_get_scaled_contracts` -/
  computeSize : Signal → Except Err Int
  adapter : Option HandlerAdapter := none
  now : ℚ := 0
  newId : String := ""
  /-- `update_signal_execution_metadata` returns. -/
  metadataOk : Bool := true
  /-- `track_entry` returns. -/
  trackEntryOk : Bool := true
  /-- The execution semaphore is acquired within its timeout. -/
  semaphoreAcquired : Bool := true

structure VirtualEntry where
  signalId : String
  entryPrice : Number
  /-- The signal goes with it. -/
  preserved : Bool
deriving DecidableEq

/-- What a path does to its signal: the size of the order, the execution status, and the virtual entry. -/
structure PathResult where
  size : Option Int := none
  status : Option ExecutionStatus := none
  entry : Option VirtualEntry := none
deriving DecidableEq

namespace HandlerEnv

def isSignalTypeAllowed (env : HandlerEnv) (sig : PipelineSignal) : Bool :=
  match env.enabledSignalTypes with
  | none => true
  | some [] => true
  | some whitelist =>
    let signalType := strip (sig.type.getD "")
    signalType ≠ "" ∧ signalType ∈ whitelist

/-- `signal.pop("_cb_decision_risk_scale", 1.0)` -/
def poppedScale (sig : PipelineSignal) : Except Err Number :=
  match sig.cbDecisionRiskScale.getD (.fin 1) with
  | .error .type | .error .value => .ok (.fin 1)
  | scale => scale

def checkCircuitBreakerWithScale (env : HandlerEnv) (sig : PipelineSignal) : Except Err Number :=
  match env.breaker with
  | none => poppedScale sig
  | some (mode, d) =>
    if d.allowed then .ok (.fin d.riskScale)
    else
      match mode with
      | .warnOnly => poppedScale sig
      | .enforce => .ok (.fin 0)

/-- A positive `int` under `position_size`. -/
def existingSize (sig : PipelineSignal) : Option Int :=
  match sig.positionSize with
  | some (.ok n) => if sig.sizeIsInt ∧ 0 < n then some n else none
  | _ => none

def ensurePositionSize (env : HandlerEnv) (sig : PipelineSignal) : Int :=
  match existingSize sig with
  | some n => n
  | none =>
    match env.computeSize sig.toSignal with
    | .ok n => n
    | .error _ => 0

/-- The size that `process_signal` makes of a size under a risk scale. -/
def scaledSize (originalSize : Int) : Number → Int
  | .fin scale =>
    if scale < 1 then
      let scaled := max 1 (truncInt (originalSize * scale))
      if scaled < originalSize then scaled else originalSize
    else originalSize
  | _ => originalSize

def withSize (sig : PipelineSignal) (size : Int) : PipelineSignal :=
  { sig with positionSize := some (.ok size), sizeIsInt := true }

/-- `track_signal_generated`: the id, which a test signal does not get, and the signal that carries it. -/
def trackSignalGenerated (env : HandlerEnv) (sig : PipelineSignal) : String × PipelineSignal :=
  if sig.isTest then ("", sig) else (env.newId, { sig with signalId := some env.newId })

def validateEntryPrice (sig : PipelineSignal) : Except Err (Option ℚ) :=
  match sig.entryPrice with
  | none => .ok none
  | some (.error .type) | some (.error .value) => .ok none
  | some (.error e) => .error e
  | some (.ok (.fin x)) => .ok (if x ≤ 0 then none else some x)
  | some (.ok _) => .ok none

/-- The timestamp is more than five minutes ahead; one that cannot be compared is not. -/
def isFutureDated (env : HandlerEnv) (sig : PipelineSignal) : Bool :=
  match sig.timestamp with
  | none => false
  | some timestamp =>
    match (do (← timestamp).sub (.aware env.now) : Except PyErr ℚ) with
    | .ok futureDelta => 300 < futureDelta
    | .error _ => false

/-- `_execute_signal` after the guard. -/
def placeSignal (env : HandlerEnv) (a : HandlerAdapter) (sig : PipelineSignal) : Except Err ExecutionStatus :=
  match a.base.checkPreconditions a.config sig.toSignal env.now with
  | .error e => .error e
  | .ok (decision, _) =>
    if decision.execute then
      match a.placeBracket with
      | .error e => .error e
      | .ok r =>
        if r.success then .ok (if (r.parentOrderId.filter (· ≠ "")).isSome then .placed else .placedNoId)
        else .ok (.placeFailed r.errorMessage)
    else .ok (.skipped decision.reason)

/-- `_execute_signal`; only a cancellation gets out. -/
def executeSignal (env : HandlerEnv) (sig : PipelineSignal) : Except Err ExecutionStatus :=
  match env.adapter with
  | none => .ok .notAttempted
  | some a =>
    if a.guardOk then
      match env.placeSignal a sig with
      | .error .cancelled => .error .cancelled
      | .error e => .ok (.error e)
      | .ok status => .ok status
    else .ok .unprotectedOpenPosition

def trackVirtualEntry (env : HandlerEnv) (sig : PipelineSignal) (signalId : String) (preserved : Bool) :
    Option VirtualEntry :=
  match sig.entryPrice.getD (.fin 0) with
  | .error _ => none
  | .ok entryPrice =>
    if .fin 0 < entryPrice ∧ entryPrice < .fin 1000 then none
    else if .fin 0 < entryPrice ∧ env.trackEntryOk then some { signalId, entryPrice, preserved }
    else none

def processSignal (env : HandlerEnv) (sig : PipelineSignal) : PathResult :=
  if ¬ env.isSignalTypeAllowed sig then {}
  else
    match env.checkCircuitBreakerWithScale sig with
    | .error _ => {}
    | .ok cbRiskScale =>
      if cbRiskScale ≤ .fin 0 then {}
      else
        let size := scaledSize (env.ensurePositionSize sig) cbRiskScale
        let (signalId, sig) := env.trackSignalGenerated (withSize sig size)
        match validateEntryPrice sig with
        | .error _ | .ok none => { size }
        | .ok (some _) =>
          if env.isFutureDated sig then { size }
          else if env.adapter.isNone then { size, entry := env.trackVirtualEntry sig signalId true }
          else
            match env.executeSignal sig with
            | .error _ => { size }
            | .ok status =>
              if env.metadataOk ∧ (status = .placed ∨ status = .placedNoId) then
                { size, status, entry := env.trackVirtualEntry sig signalId true }
              else { size, status }

def followerExecute (env : HandlerEnv) (sig : PipelineSignal) : PathResult :=
  if ¬ env.semaphoreAcquired then {}
  else
    match env.checkCircuitBreakerWithScale sig with
    | .error _ => {}
    | .ok cbRiskScale =>
      if cbRiskScale ≤ .fin 0 then {}
      else
        let size := env.ensurePositionSize sig
        let (signalId, sig) := env.trackSignalGenerated (withSize sig size)
        match validateEntryPrice sig with
        | .error _ | .ok none => { size }
        | .ok (some _) =>
          match env.executeSignal sig with
          | .error _ => { size }
          | .ok status =>
            if env.metadataOk ∧ status = .placed then
              { size, status, entry := env.trackVirtualEntry sig signalId false }
            else { size, status }

end HandlerEnv

end PearlAlgo
