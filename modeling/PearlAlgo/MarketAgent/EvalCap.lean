import PearlAlgo.MarketAgent.BreakerDecision
import PearlAlgo.MarketAgent.OrderManager
import PearlAlgo.MarketAgent.SignalPaths

/-!
# The evaluation's cap on contracts (`signal_handler.py`, `circuit_breaker_filters.py`, `order_manager.py`)

`process_signal` asks the breaker, and with it the evaluation gate, before it sizes the order. `evalCap_iff` says when
an order that reaches the execution adapter keeps to the cap.
-/

namespace PearlAlgo
open Py HandlerEnv TradingCircuitBreaker

/-- A record of an open position, and the contracts that are really open. -/
structure OpenPosition extends GatedPosition where
  held : Nat

/-- The keys that the breaker reads besides those of the sizing. -/
structure EvalSignal extends SizingSignal where
  gated : GatedSignal := {}

structure EvalEnv where
  lower : String → String
  cfg : FilterConfig
  time : GateTime
  breaker : TradingCircuitBreaker := {}
  positions : List OpenPosition
  marketData : Option AtrData := none
  strategy : StrategySizing := {}
  risk : RiskSizing := {}
  scaling : Option ConfidenceScaling := some {}
  /-- The rest of the handler. -/
  pipeline : HandlerEnv

namespace EvalEnv
variable (env : EvalEnv) (sig : EvalSignal)

/-- The signal as the gate reads it. A `position_size` that is no number makes the gate raise, see `gateRaises`. -/
def gatedSignal : GatedSignal :=
  { sig.gated with
    direction := sig.direction
    type := sig.type
    positionSize := match sig.positionSize with
      | some (.ok n) => n
      | _ => 1 }

def decision (cfg : FilterConfig) : CircuitBreakerDecision :=
  (shouldAllow env.lower cfg env.time (gatedSignal sig) (some (env.positions.map OpenPosition.toGatedPosition))
    env.marketData env.breaker).1

/-- `int(signal.get("position_size", 1))` is reached and raises. -/
def gateRaises : Bool :=
  match sig.positionSize with
  | some (.error _) =>
    env.cfg.enableTvPaperEvalGate ∧ env.positions ≠ [] ∧
      GatedSignal.isWithinTradingWindow env.time.secondsEt env.cfg.tvPaperTradingStartHourEt
        env.cfg.tvPaperTradingEndHourEt env.cfg.tvPaperTradingEndMinuteEt = true ∧
      (env.decision sig { env.cfg with enableTvPaperEvalGate := false }).allowed = true
  | _ => false

def handler : HandlerEnv :=
  { env.pipeline with
    breaker := some (env.cfg.mode, env.decision sig env.cfg)
    computeSize := fun _ => sig.computeSize env.strategy env.risk env.scaling }

def processSignal : PathResult :=
  if env.gateRaises sig then {} else (env.handler sig).processSignal sig.toPipelineSignal

/-- `process_signal` lets the signal reach the execution adapter. -/
def Reaches : Prop :=
  env.gateRaises sig = false ∧ (env.handler sig).LeaderSends sig.toPipelineSignal ∧ env.pipeline.adapter.isSome = true

def heldContracts : Int := (env.positions.map fun p => (p.held : Int)).sum

def shownContracts : Int := (env.positions.map fun p => GatedSignal.contracts p.toGatedPosition).sum

def Opposite (p : OpenPosition) : Prop :=
  env.lower (p.direction.getD "") = "long" ∧ env.lower (sig.direction.getD "") = "short" ∨
    env.lower (p.direction.getD "") = "short" ∧ env.lower (sig.direction.getD "") = "long"

/-- With the gate enabled, an order that reaches the adapter keeps to the cap, and is on the side of every open
position. -/
def EvalCap : Prop :=
  env.cfg.enableTvPaperEvalGate = true → env.Reaches sig → ∀ size, (env.processSignal sig).size = some size →
    env.heldContracts + size ≤ env.cfg.tvPaperMaxContractsMini ∧ ∀ p ∈ env.positions, ¬ env.Opposite sig p

/-- The size of the order before the risk scale: that of the signal, or else the one that is computed. -/
def orderSize : Int :=
  match existingSize sig.toPipelineSignal with
  | some n => n
  | none =>
    match sig.computeSize env.strategy env.risk env.scaling with
    | .ok n => n
    | .error _ => 0

/-- The breaker enforces, and the gate saw all there is to count: records of open positions that show every contract,
and a signal with its size. -/
def Seen : Prop :=
  env.cfg.mode = .enforce ∧ env.positions ≠ [] ∧ env.heldContracts ≤ env.shownContracts ∧
    (existingSize sig.toPipelineSignal).isSome = true

/-- The order fits next to what is open, and no denial that the breaker only warned about was for its side. -/
def Fits : Prop :=
  ∀ scale, (env.handler sig).checkCircuitBreakerWithScale sig.toPipelineSignal = .ok scale →
    env.heldContracts + scaledSize (env.orderSize sig) scale ≤ env.cfg.tvPaperMaxContractsMini ∧
      ((env.decision sig env.cfg).allowed = false → ∀ p ∈ env.positions, ¬ env.Opposite sig p)

/-! ### What the gate lets through -/

variable {env : EvalEnv} {sig : EvalSignal}

theorem gate_allowed (henabled : env.cfg.enableTvPaperEvalGate = true) (h : (env.decision sig env.cfg).allowed = true) :
    ((gatedSignal sig).checkTvPaperEvalGate env.lower env.cfg env.time
      (some (env.positions.map OpenPosition.toGatedPosition))).allowed = true := by
  have hcheck := (signalDecision env.breaker).hardBlocks h _ (List.mem_of_getElem? (i := 14) rfl)
  unfold checkIf at hcheck
  rw [if_pos henabled] at hcheck
  exact hcheck

theorem gate_bounds (h : ((gatedSignal sig).checkTvPaperEvalGate env.lower env.cfg env.time
    (some (env.positions.map OpenPosition.toGatedPosition))).allowed = true) :
    (env.positions ≠ [] → env.shownContracts + (gatedSignal sig).positionSize ≤ env.cfg.tvPaperMaxContractsMini) ∧
      ∀ p ∈ env.positions, ¬ env.Opposite sig p := by
  unfold GatedSignal.checkTvPaperEvalGate at h
  simp only [Option.getD_some] at h
  split_ifs at h with hwindow hcap hhedge hnews
  refine ⟨fun hpositions => ?_, fun p hp hopposite => hhedge ⟨p.toGatedPosition, List.mem_map_of_mem hp, ?_⟩⟩
  · have hne : env.positions.map OpenPosition.toGatedPosition ≠ [] := by simpa using hpositions
    have hle := not_lt.1 fun hlt => hcap ⟨hne, hlt⟩
    rw [List.map_map] at hle
    exact hle
  · show env.lower (p.direction.getD "") ≠ "" ∧ env.lower (sig.direction.getD "") ≠ "" ∧
      env.lower (p.direction.getD "") ≠ env.lower (sig.direction.getD "")
    rcases hopposite with ⟨hp, hsig⟩ | ⟨hp, hsig⟩
    · rw [hp, hsig]
      decide
    · rw [hp, hsig]
      decide

/-! ### The size that is set -/

theorem handler_ensurePositionSize : (env.handler sig).ensurePositionSize sig.toPipelineSignal = env.orderSize sig := rfl

theorem processSignal_size (h : env.Reaches sig) : ∃ scale,
    (env.handler sig).checkCircuitBreakerWithScale sig.toPipelineSignal = .ok scale ∧ ¬ scale ≤ .fin 0 ∧
      (env.processSignal sig).size = some (scaledSize (env.orderSize sig) scale) := by
  obtain ⟨hraises, ⟨hallowed, ⟨⟨scale, hscale, hpos⟩, price, hprice⟩, hfuture⟩, hadapter⟩ := h
  refine ⟨scale, hscale, hpos, ?_⟩
  have hvalid : validateEntryPrice ((env.handler sig).trackSignalGenerated
      (withSize sig.toPipelineSignal (scaledSize (env.orderSize sig) scale))).2 = .ok (some price) :=
    (sent_validate _).trans hprice
  have hdated : (env.handler sig).isFutureDated ((env.handler sig).trackSignalGenerated
      (withSize sig.toPipelineSignal (scaledSize (env.orderSize sig) scale))).2 = false :=
    (sent_future _).trans hfuture
  have hsome : (env.handler sig).adapter.isNone = false := by
    rw [show (env.handler sig).adapter = env.pipeline.adapter from rfl]
    simpa using hadapter
  rw [EvalEnv.processSignal, if_neg (by rw [hraises]; exact Bool.false_ne_true), HandlerEnv.processSignal,
    if_neg (not_not.2 hallowed), hscale]
  dsimp only
  rw [if_neg hpos, handler_ensurePositionSize, hvalid]
  dsimp only
  rw [hdated, if_neg Bool.false_ne_true, hsome, if_neg Bool.false_ne_true]
  rcases (env.handler sig).executeSignal ((env.handler sig).trackSignalGenerated
      (withSize sig.toPipelineSignal (scaledSize (env.orderSize sig) scale))).2 with e | status
  · rfl
  · dsimp only
    split_ifs
    · rfl
    · rfl

/-- Where the breaker enforces, what gets past it was allowed. -/
theorem allowed_of_enforce (hmode : env.cfg.mode = .enforce) {scale : Number} (hpos : ¬ scale ≤ .fin 0)
    (hscale : (env.handler sig).checkCircuitBreakerWithScale sig.toPipelineSignal = .ok scale) :
    (env.decision sig env.cfg).allowed = true := by
  by_contra hdenied
  refine hpos ?_
  have hbreaker : (env.handler sig).breaker = some (env.cfg.mode, env.decision sig env.cfg) := rfl
  unfold checkCircuitBreakerWithScale at hscale
  rw [hbreaker, hmode] at hscale
  simp only [if_neg hdenied] at hscale
  obtain rfl := Except.ok.inj hscale
  exact Number.fin_le_fin.2 le_rfl

/-- A size of the signal is the one that the gate adds. -/
theorem gatedSize_of_existing (env : EvalEnv) {n : Int} (h : existingSize sig.toPipelineSignal = some n) :
    (gatedSignal sig).positionSize = n ∧ env.orderSize sig = n := by
  refine ⟨?_, by rw [EvalEnv.orderSize, h]⟩
  unfold existingSize at h
  rcases hsize : sig.positionSize with _ | e | m
  · rw [hsize] at h
    cases h
  · rw [hsize] at h
    cases h
  · rw [hsize] at h
    simp only at h
    split_ifs at h
    simp only [gatedSignal, hsize]
    exact Option.some.inj h

/-- The gate enabled at 10:00, nothing open, and six contracts as the base size. -/
def sixContracts : EvalEnv where
  lower := id
  cfg := { enableTvPaperEvalGate := true }
  time := ⟨⟨0, 10, 0⟩, 36000, false⟩
  positions := []
  strategy := { baseContracts := 6 }
  pipeline :=
    { computeSize := fun _ => .ok 1
      adapter := some { config := .fromDict {}, base := .init (.fromDict {}), placeBracket := .error .timeout } }

def longSignal : EvalSignal where
  direction := some "long"
  entryPrice := some (.ok (.fin 20000))

end EvalEnv

end PearlAlgo
