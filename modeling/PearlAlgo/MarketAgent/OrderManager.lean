import PearlAlgo.MarketAgent.SignalHandler
import PearlAlgo.Py.Round

/-!
# Sizes of orders (`market_agent/order_manager.py`, `market_agent/signal_handler.py`)

`compute_base_position_size` from the strategy and risk settings, and `_get_scaled_contracts` from the confidence
tiers. A setting that is absent or cannot be read takes its default.
-/

namespace PearlAlgo
open Py

structure StrategySizing where
  enableDynamicSizing : Bool := false
  baseContracts : Int := 1
  highConfContracts : Option Int := none
  maxConfContracts : Option Int := none
  highConfThreshold : Number := .fin (4/5)
  maxConfThreshold : Number := .fin (9/10)
  /-- `signal_type_size_multipliers`: absent, not a number, or a number. -/
  signalTypeSizeMultipliers : String → Option (Option ℚ) := fun _ => none

structure RiskSizing where
  minPositionSize : Option Int := none
  maxPositionSize : Option Int := none

/-- A tier; `none` is a key whose absence or type makes the loop go on. -/
structure ConfidenceTier where
  minConfidence : Option Number
  maxConfidence : Option Number
  contracts : Field Int

structure ConfidenceScaling where
  enabled : Bool := false
  longOnlyScaling : Bool := true
  tiers : List ConfidenceTier := []
  maxContracts : Field Int := none

/-- The keys that the sizing reads besides those of the pipeline. -/
structure SizingSignal extends PipelineSignal where
  side : Option String := none
  confidence : Field Number := none
  /-- `int(float(position_size))` -/
  floatSize : Field Int := none

/-- `x or y` -/
def orInt (x y : Int) : Int := if x = 0 then y else x

/-- `float(x)` of a price, where a value that is not a number fails the validation. -/
def readPrice (f : Field Number) : Except Err (Option (Option Number)) :=
  match f with
  | none => .ok (some none)
  | some (.ok x) => .ok (some (some x))
  | some (.error .type) | some (.error .value) => .ok none
  | some (.error e) => .error e

namespace SizingSignal
variable (strategy : StrategySizing) (risk : RiskSizing) (scaling : Option ConfidenceScaling) (sig : SizingSignal)

def validateSignalFinancials : Except Err Bool := do
  if sig.entryPrice = none ∧ sig.stopLoss = none then return true
  let some entryPrice ← readPrice sig.entryPrice | return false
  let some stopLoss ← readPrice sig.stopLoss | return false
  if entryPrice.any (· ≤ .fin 0) then return false
  if stopLoss.any (· ≤ .fin 0) then return false
  match entryPrice, stopLoss with
  | some entryPrice, some stopLoss =>
    let direction := (((sig.direction.filter (· ≠ "")) <|> sig.side).getD "").toLower
    if direction ∈ ["long", "buy"] then return ¬ entryPrice ≤ stopLoss
    else if direction ∈ ["short", "sell"] then return ¬ stopLoss ≤ entryPrice
    else return true
  | _, _ => return true

/-- The size by confidence and type of signal. -/
def strategySize : Int :=
  let highContracts := strategy.highConfContracts.getD strategy.baseContracts
  let maxContracts := strategy.maxConfContracts.getD highContracts
  let conf := match sig.confidence with
    | some (.ok conf) => conf
    | _ => .fin 0
  let size :=
    if strategy.enableDynamicSizing then
      if strategy.maxConfThreshold ≤ conf then maxContracts
      else if strategy.highConfThreshold ≤ conf then highContracts
      else strategy.baseContracts
    else strategy.baseContracts
  match strategy.signalTypeSizeMultipliers (sig.type.getD "") with
  | some (some m) => roundHalfEven (size * if m = 0 then 1 else m)
  | _ => size

def computeBasePositionSize : Except Err Int := do
  let minSize := orInt (risk.minPositionSize.getD 1) 1
  if ¬ (← sig.validateSignalFinancials) then return max 1 minSize
  let parsed ← match sig.floatSize with
    | some (.ok n) => pure n
    | none | some (.error .type) | some (.error .value) => pure 0
    | some (.error e) => throw e
  if 0 < parsed then return max 1 parsed
  let size := sig.strategySize strategy
  let maxSize := orInt (risk.maxPositionSize.getD size) size
  return max 1 (max minSize (min maxSize size))

/-- The contracts of the first tier that the confidence is in. -/
def tierContracts (confidence : Number) : List ConfidenceTier → Except Err Int
  | [] => .ok 1
  | tier :: tiers =>
    match tier.minConfidence, tier.maxConfidence with
    | some lo, some hi =>
      if lo ≤ confidence ∧ confidence ≤ hi then
        match tier.contracts with
        | some (.ok n) => .ok n
        | none | some (.error .type) => tierContracts confidence tiers
        | some (.error e) => .error e
      else tierContracts confidence tiers
    | _, _ => tierContracts confidence tiers

/-- `_get_scaled_contracts`, where the configuration is `none` when it cannot be loaded. -/
def getScaledContracts : Except Err Int := do
  let some cs := scaling | return 1
  if ¬ cs.enabled then return 1
  let confidence ← sig.confidence.getD (.fin 0)
  let direction := if sig.direction.getD "" = "" then "long" else sig.direction.getD ""
  if cs.longOnlyScaling ∧ direction ≠ "long" then return 1
  let contracts ← tierContracts confidence cs.tiers
  let maxC ← cs.maxContracts.getD 3
  return min contracts (min (orInt maxC 3) 5)

/-- The size that `_ensure_position_size` computes. -/
def computeSize : Except Err Int := do
  let size ← sig.computeBasePositionSize strategy risk
  let scaled ← sig.getScaledContracts scaling
  return if size < scaled then scaled else size

end SizingSignal

end PearlAlgo
