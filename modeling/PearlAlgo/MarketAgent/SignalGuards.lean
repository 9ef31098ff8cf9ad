import PearlAlgo.MarketAgent.OrderManager
import PearlAlgo.MarketAgent.SignalPaths

/-!
# What `process_signal` hands to the execution (`market_agent/signal_handler.py`)

`toExecution` is `process_signal` up to the execution, and `orderedSize` the size of the order that the adapter places.
The guard against timestamps in the future sees only those with an offset (`futureRejected_iff`), and the size keeps to
the bounds of the risk settings except where it does not come from them (`orderedSize_within`).
-/

namespace PearlAlgo
open Py

namespace HandlerEnv

/-! ### Up to the execution -/

/-- `process_signal` up to the execution: the size, the id and the signal that go on. -/
def toExecution (env : HandlerEnv) (sig : PipelineSignal) : Option (Int × String × PipelineSignal) :=
  if ¬ env.isSignalTypeAllowed sig then none
  else
    match env.checkCircuitBreakerWithScale sig with
    | .error _ => none
    | .ok cbRiskScale =>
      if cbRiskScale ≤ .fin 0 then none
      else
        let size := scaledSize (env.ensurePositionSize sig) cbRiskScale
        let (signalId, sig) := env.trackSignalGenerated (withSize sig size)
        match validateEntryPrice sig with
        | .error _ | .ok none => none
        | .ok (some _) => if env.isFutureDated sig then none else some (size, signalId, sig)

/-- The rest of it. -/
def fromExecution (env : HandlerEnv) (size : Int) (signalId : String) (sig : PipelineSignal) : PathResult :=
  if env.adapter.isNone then { size, entry := env.trackVirtualEntry sig signalId true }
  else
    match env.executeSignal sig with
    | .error _ => { size }
    | .ok status =>
      if env.metadataOk ∧ (status = .placed ∨ status = .placedNoId) then
        { size, status, entry := env.trackVirtualEntry sig signalId true }
      else { size, status }

/-- The size with which `place_bracket` is called. -/
def orderedSize (env : HandlerEnv) (sig : PipelineSignal) : Option Int :=
  match env.toExecution sig, env.adapter with
  | some (size, _, sig), some a =>
    if a.guardOk then
      match a.base.checkPreconditions a.config sig.toSignal env.now with
      | .ok (decision, _) => if decision.execute then some size else none
      | .error _ => none
    else none
  | _, _ => none

variable {env : HandlerEnv} {sig : PipelineSignal} {size : Int} {signalId : String} {sig' : PipelineSignal}

theorem toExecution_eq_some (h : env.toExecution sig = some (size, signalId, sig')) :
    ∃ scale, env.checkCircuitBreakerWithScale sig = .ok scale ∧ ¬ scale ≤ .fin 0 ∧
      size = scaledSize (env.ensurePositionSize sig) scale ∧ sig' = env.sent sig size := by
  unfold toExecution at h
  split at h
  · cases h
  · split at h
    · cases h
    next scale hscale =>
      split at h
      · cases h
      next hpos =>
        dsimp only at h
        split at h
        · cases h
        · cases h
        · split at h
          · cases h
          · cases h
            exact ⟨scale, hscale, hpos, rfl, rfl⟩

theorem toExecution_isSome_iff : (env.toExecution sig).isSome = true ↔ env.LeaderSends sig := by
  unfold toExecution LeaderSends Priced
  split
  next hallowed => simp [hallowed]
  next hallowed =>
    split
    next hscale => simp [hscale]
    next scale hscale =>
      split
      next hpos => simp [hscale, hpos]
      next hpos =>
        simp only [hscale, Except.ok.injEq, exists_eq_left', hpos, not_false_eq_true, true_and, not_not.1 hallowed]
        have hvalid := @sent_validate env sig (scaledSize (env.ensurePositionSize sig) scale)
        have hfuture := @sent_future env sig (scaledSize (env.ensurePositionSize sig) scale)
        unfold sent at hvalid hfuture
        rw [← hvalid, ← hfuture]
        split
        next hprice => simp [hprice]
        next hprice => simp [hprice]
        next price hprice =>
          simp only [hprice, Except.ok.injEq, Option.some.injEq, exists_eq', true_and]
          split
          next hdated => simp [hdated]
          next hdated => simp [hdated]

theorem processSignal_of_toExecution (h : env.toExecution sig = some (size, signalId, sig')) :
    env.processSignal sig = env.fromExecution size signalId sig' := by
  unfold toExecution at h
  split at h
  · cases h
  next hallowed =>
    split at h
    · cases h
    next scale hscale =>
      split at h
      · cases h
      next hpos =>
        dsimp only at h
        split at h
        · cases h
        · cases h
        next price hprice =>
          split at h
          · cases h
          next hfuture =>
            cases h
            unfold processSignal
            simp only [if_neg hallowed, hscale, if_neg hpos, hprice, if_neg hfuture]
            rfl

/-! ### Timestamps in the future -/

/-- The instant that a timestamp denotes, where `eastern` is the one at which the clock in New York shows a time. -/
def instant (eastern : ℚ → ℚ) : PyDatetime → ℚ
  | .naive t => eastern t
  | .aware t => t

/-- The other gates: the types that are enabled, the breaker, and the entry price. -/
def GatesOpen (env : HandlerEnv) (sig : PipelineSignal) : Prop := env.isSignalTypeAllowed sig = true ∧ env.Priced sig

/-- A signal with a timestamp goes on to the execution only within five minutes after its time. -/
def FutureRejected (eastern : ℚ → ℚ) (env : HandlerEnv) (sig : PipelineSignal) (timestamp : PyDatetime) : Prop :=
  (env.toExecution { sig with timestamp := some (.ok timestamp) }).isSome = true →
    instant eastern timestamp ≤ env.now + 300

theorem toExecution_timestamp_iff (timestamp : PyDatetime) :
    (env.toExecution { sig with timestamp := some (.ok timestamp) }).isSome = true ↔
      env.GatesOpen sig ∧ ∀ t, timestamp = .aware t → t ≤ env.now + 300 := by
  rw [toExecution_isSome_iff]
  unfold LeaderSends
  rw [← and_assoc]
  refine and_congr Iff.rfl ?_
  cases timestamp with
  | naive t => simp [isFutureDated, PyDatetime.sub, bind, Except.bind]
  | aware t =>
    simp only [isFutureDated, PyDatetime.sub, bind, Except.bind, decide_eq_false_iff_not, not_lt, PyDatetime.aware.injEq,
      forall_eq']
    rw [sub_le_iff_le_add, add_comm]

/-- The subtraction of the current time raises for a timestamp without an offset, and the signal goes on. -/
theorem futureRejected_iff (eastern : ℚ → ℚ) (env : HandlerEnv) (sig : PipelineSignal) (timestamp : PyDatetime) :
    FutureRejected eastern env sig timestamp ↔
      (∃ t, timestamp = .aware t) ∨ instant eastern timestamp ≤ env.now + 300 ∨ ¬ env.GatesOpen sig := by
  unfold FutureRejected
  rw [toExecution_timestamp_iff]
  cases timestamp with
  | naive t => simp [instant, imp_iff_or_not]
  | aware t => simp [instant]

/-- New York four hours behind, and a text that says one hour from now on its clock. -/
theorem naive_future_executes :
    (acceptingEnv (some "1") 1).now = 0 ∧ instant (fun t => t + 14400) (.naive (-10800)) = 3600 ∧
      ((acceptingEnv (some "1") 1).processSignal
        { HandlerEnv.longSignal 20000 19900 20100 1 with timestamp := some (.ok (.naive (-10800))) }).status = some .placed ∧
      ¬ FutureRejected (fun t => t + 14400) (acceptingEnv (some "1") 1) (longSignal 20000 19900 20100 1)
        (.naive (-10800)) := by
  refine ⟨by decide +kernel, by decide +kernel, by decide +kernel, ?_⟩
  intro h
  have hle := h (by decide +kernel)
  revert hle
  decide +kernel

end HandlerEnv

/-! ### The bounds of the size -/

namespace SizingSignal
open HandlerEnv

variable {strategy : StrategySizing} {scaling : Option ConfidenceScaling} {sig : SizingSignal} {lo hi n : Int}

/-- The positive size that the signal already has, an `int` or a value that is read as one. -/
def ownSize (sig : SizingSignal) : Option Int :=
  existingSize sig.toPipelineSignal <|>
    match sig.floatSize with
    | some (.ok n) => if 0 < n then some n else none
    | _ => none

/-- The handler, with the size that the order manager and the confidence tiers make. -/
def handler (env : HandlerEnv) (strategy : StrategySizing) (risk : RiskSizing) (scaling : Option ConfidenceScaling)
    (sig : SizingSignal) : HandlerEnv :=
  { env with computeSize := fun _ => sig.computeSize strategy risk scaling }

/-- Without a size of its own the signal gets a base size within the risk settings. -/
theorem computeBasePositionSize_within (hlo : 1 ≤ lo) (hhi : lo ≤ hi) (hvalid : sig.validateSignalFinancials = .ok true)
    (hown : sig.ownSize = none)
    (h : sig.computeBasePositionSize strategy { minPositionSize := some lo, maxPositionSize := some hi } = .ok n) :
    lo ≤ n ∧ n ≤ hi := by
  have hmin : orInt lo 1 = lo := by simp [orInt]; omega
  have hmax : ∀ k, orInt hi k = hi := by intro k; simp [orInt]; omega
  have hclamp : ∀ k : Int, lo ≤ max 1 (max lo (min hi k)) ∧ max 1 (max lo (min hi k)) ≤ hi := by intro k; omega
  obtain ⟨-, hfloat⟩ := (Option.orElse_eq_none _ _).1 hown
  simp only [computeBasePositionSize, hvalid, bind, Except.bind, Option.getD_some, hmin, hmax, not_true_eq_false,
    ↓reduceIte] at h
  -- what the signal carries reads as no positive number
  obtain ⟨k, hk, hread⟩ : ∃ k : Int, ¬ 0 < k ∧ (if 0 < k then .ok (max 1 k) else
      .ok (max 1 (max lo (min hi (sig.strategySize strategy)))) : Except Err Int) = .ok n := by
    rcases hsize : sig.floatSize with _ | e | m
    · rw [hsize] at h
      exact ⟨0, by omega, h⟩
    · rw [hsize] at h
      cases e <;> first | exact ⟨0, by omega, h⟩ | cases h
    · rw [hsize] at h hfloat
      exact ⟨m, by simpa using hfloat, h⟩
  rw [if_neg hk] at hread
  cases hread
  exact hclamp _

theorem getScaledContracts_le (h : sig.getScaledContracts scaling = .ok n) : n ≤ 5 := by
  cases scaling with
  | none =>
    cases h
    decide
  | some cs =>
    simp only [getScaledContracts, bind, Except.bind] at h
    split at h
    · cases h
      decide
    · split at h
      · cases h
      · generalize (if sig.direction.getD "" = "" then "long" else sig.direction.getD "") = direction at h
        split at h
        · cases h
          decide
        · split at h
          · cases h
          · split at h
            · cases h
            · cases h
              omega

/-- The confidence tiers ask for no more than this. -/
def TiersWithin (scaling : Option ConfidenceScaling) (sig : SizingSignal) (hi : Int) : Prop :=
  ∀ n, sig.getScaledContracts scaling = .ok n → n ≤ hi

theorem computeSize_within (hlo : 1 ≤ lo) (hhi : lo ≤ hi) (hvalid : sig.validateSignalFinancials = .ok true)
    (hown : sig.ownSize = none)
    (h : sig.computeSize strategy { minPositionSize := some lo, maxPositionSize := some hi } scaling = .ok n) :
    lo ≤ n ∧ n ≤ max hi 5 ∧ (sig.TiersWithin scaling hi → n ≤ hi) := by
  simp only [computeSize, bind, Except.bind] at h
  split at h
  · cases h
  next size hsize =>
    obtain ⟨hlow, hhigh⟩ := computeBasePositionSize_within hlo hhi hvalid hown hsize
    split at h
    · cases h
    next scaled hscaled =>
      have hceiling := getScaledContracts_le hscaled
      cases h
      refine ⟨?_, ?_, ?_⟩
      · split <;> omega
      · split <;> omega
      · intro htiers
        have hle := htiers scaled hscaled
        split <;> omega

end SizingSignal

namespace HandlerEnv

variable {env : HandlerEnv} {sig : PipelineSignal} {size : Int}

/-- An order has a positive size, which the risk scale has made. -/
theorem orderedSize_eq_some (h : env.orderedSize sig = some size) :
    0 < size ∧ ∃ scale, env.checkCircuitBreakerWithScale sig = .ok scale ∧
      size = scaledSize (env.ensurePositionSize sig) scale := by
  unfold orderedSize at h
  split at h
  next sized signalId sig' a hexec hadapter =>
    obtain ⟨scale, hscale, -, hsize, hsig⟩ := toExecution_eq_some hexec
    split at h
    · split at h
      next decision base hcheck =>
        split at h
        next hexecute =>
          obtain rfl := Option.some.inj h
          obtain ⟨-, -, hbracket⟩ := AdapterBase.checkPreconditions_execute hcheck hexecute
          obtain ⟨-, -, -, -, -, -, -, -, n, hn, hpos⟩ := AdapterBase.checkBracket_passed hbracket
          have hsent : sig'.positionSize = some (.ok sized) := by
            rw [hsig]
            unfold sent trackSignalGenerated
            split <;> rfl
          rw [hsent] at hn
          cases hn
          exact ⟨hpos, scale, hscale, hsize⟩
        · cases h
      · cases h
    · cases h
  · cases h

/-- The risk scale leaves this many contracts of a size. -/
def Leaves (env : HandlerEnv) (sig : PipelineSignal) (lo size : Int) : Prop :=
  ∀ scale, env.checkCircuitBreakerWithScale sig = .ok (.fin scale) → scale < 1 → (lo : ℚ) ≤ size * scale

theorem le_scaledSize {lo n : Int} {scale : Number} (hlo : 1 ≤ lo) (hn : lo ≤ n)
    (h : ∀ s, scale = .fin s → s < 1 → (lo : ℚ) ≤ n * s) : lo ≤ scaledSize n scale := by
  cases scale with
  | fin s =>
    simp only [scaledSize]
    split
    next hs =>
      have hle := h s rfl hs
      have hpos : (0 : ℚ) ≤ n * s := le_trans (by exact_mod_cast (by omega : (0 : Int) ≤ lo)) hle
      have htrunc : lo ≤ truncInt (n * s) := by
        rw [truncInt, if_pos hpos]
        exact Rat.le_floor_iff.2 hle
      split <;> omega
    · exact hn
  | _ => exact hn

end HandlerEnv

namespace SizingSignal
open HandlerEnv

/-- The size of every order is within the bounds and no more than the size before the risk scale. -/
def SizeBounds (env : HandlerEnv) (sig : SizingSignal) (lo hi : Int) : Prop :=
  ∀ size, env.orderedSize sig.toPipelineSignal = some size →
    lo ≤ size ∧ size ≤ hi ∧ size ≤ env.ensurePositionSize sig.toPipelineSignal

instance (env : HandlerEnv) (sig : SizingSignal) (lo hi : Int) : Decidable (SizeBounds env sig lo hi) :=
  match h : env.orderedSize sig.toPipelineSignal with
  | none => .isTrue fun size hsize => by rw [h] at hsize; cases hsize
  | some n =>
    decidable_of_iff (lo ≤ n ∧ n ≤ hi ∧ n ≤ env.ensurePositionSize sig.toPipelineSignal)
      ⟨fun hn size hsize => by rw [h] at hsize; cases hsize; exact hn, fun hn => hn n h⟩

/-- The size of an order never exceeds the one before the risk scale. A signal without a size of its own keeps to the
maximum where the confidence tiers do, and to the minimum where the risk scale does or the minimum is one. -/
theorem orderedSize_within (env : HandlerEnv) (strategy : StrategySizing) (scaling : Option ConfidenceScaling)
    (sig : SizingSignal) (lo hi size : Int) (hlo : 1 ≤ lo) (hhi : lo ≤ hi)
    (hvalid : sig.validateSignalFinancials = .ok true)
    (hsent : (sig.handler env strategy { minPositionSize := some lo, maxPositionSize := some hi } scaling).orderedSize
      sig.toPipelineSignal = some size) :
    let handler := sig.handler env strategy { minPositionSize := some lo, maxPositionSize := some hi } scaling
    let unscaled := handler.ensurePositionSize sig.toPipelineSignal
    1 ≤ size ∧ size ≤ unscaled ∧ (sig.ownSize = none →
      size ≤ max hi 5 ∧ (sig.TiersWithin scaling hi → size ≤ hi) ∧
        (lo = 1 ∨ handler.Leaves sig.toPipelineSignal lo unscaled → lo ≤ size)) := by
  intro handler unscaled
  obtain ⟨hpos, scale, hscale, hsize⟩ := orderedSize_eq_some hsent
  have hle : size ≤ unscaled := hsize ▸ scaledSize_le _ _
  refine ⟨hpos, hle, ?_⟩
  intro hown
  have hexisting : existingSize sig.toPipelineSignal = none := ((Option.orElse_eq_none _ _).1 hown).1
  have hunscaled : sig.computeSize strategy { minPositionSize := some lo, maxPositionSize := some hi } scaling =
      .ok unscaled := by
    rcases hcompute : sig.computeSize strategy { minPositionSize := some lo, maxPositionSize := some hi } scaling with e | n
    · -- a size that cannot be computed is zero, which no order has
      have hzero : unscaled = 0 := by simp [unscaled, handler, ensurePositionSize, hexisting, SizingSignal.handler, hcompute]
      omega
    · simp [unscaled, handler, ensurePositionSize, hexisting, SizingSignal.handler, hcompute]
  obtain ⟨hlow, hceiling, htiers⟩ := computeSize_within hlo hhi hvalid hown hunscaled
  refine ⟨hle.trans hceiling, fun h => hle.trans (htiers h), ?_⟩
  rintro (rfl | hleaves)
  · exact hpos
  · rw [hsize]
    refine le_scaledSize hlo hlow ?_
    rintro s rfl hs
    exact hleaves s hscale hs

/-- A signal without a size. -/
def unsizedSignal : SizingSignal where
  toPipelineSignal := { HandlerEnv.longSignal 20000 19900 20100 1 with positionSize := none }
  confidence := some (.ok (.fin (9/10)))

/-- Three contracts for this confidence. -/
def threeContracts : ConfidenceScaling where
  enabled := true
  tiers := [{ minConfidence := some (.fin (4/5)), maxConfidence := some (.fin 1), contracts := some (.ok 3) }]

theorem orderedSize_within_unsized :
    let handler := unsizedSignal.handler (acceptingEnv (some "1") (1/2)) {}
      { minPositionSize := some 1, maxPositionSize := some 3 } (some threeContracts)
    handler.orderedSize unsizedSignal.toPipelineSignal = some 1 ∧
      1 ≤ handler.ensurePositionSize unsizedSignal.toPipelineSignal := by
  have h := orderedSize_within (acceptingEnv (some "1") (1/2)) {} (some threeContracts) unsizedSignal 1 3 1 (by decide)
    (by decide) (by decide +kernel) (by decide +kernel)
  exact ⟨by decide +kernel, h.2.1⟩

/-- A size of the signal, the confidence tiers, and the risk scale each leave the bounds. -/
theorem not_sizeBounds :
    ¬ SizeBounds ({ unsizedSignal with positionSize := some (.ok 5) }.handler (acceptingEnv (some "1") 1) {}
        { minPositionSize := some 1, maxPositionSize := some 1 } none)
      { unsizedSignal with positionSize := some (.ok 5) } 1 1 ∧
    ¬ SizeBounds (unsizedSignal.handler (acceptingEnv (some "1") 1) {}
        { minPositionSize := some 1, maxPositionSize := some 1 } (some threeContracts)) unsizedSignal 1 1 ∧
    ¬ SizeBounds (unsizedSignal.handler (acceptingEnv (some "1") (1/2)) {}
        { minPositionSize := some 3, maxPositionSize := some 3 } none) unsizedSignal 3 3 ∧
    unsizedSignal.validateSignalFinancials = .ok true := by
  decide +kernel

end SizingSignal

end PearlAlgo
