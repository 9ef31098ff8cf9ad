import PearlAlgo.MarketAgent.SignalHandler

/-!
# What the two signal paths do alike

`paths_agree_iff` says when `process_signal` and `follower_execute` size a signal alike and record its entry alike, and
`entry_iff_placed_iff` when each of them records an entry for an order that is placed.
-/

namespace PearlAlgo
open Py

namespace HandlerEnv

variable {env : HandlerEnv} {sig : PipelineSignal}

/-- The breaker lets the signal through, and its entry price is valid. -/
def Priced (env : HandlerEnv) (sig : PipelineSignal) : Prop :=
  (∃ scale, env.checkCircuitBreakerWithScale sig = .ok scale ∧ ¬ scale ≤ .fin 0) ∧
    ∃ price, validateEntryPrice sig = .ok (some price)

/-- `process_signal` sends the signal on to the execution. -/
def LeaderSends (env : HandlerEnv) (sig : PipelineSignal) : Prop :=
  env.isSignalTypeAllowed sig = true ∧ env.Priced sig ∧ env.isFutureDated sig = false

/-- `follower_execute` sends the signal on to the execution. -/
def FollowerSends (env : HandlerEnv) (sig : PipelineSignal) : Prop :=
  env.semaphoreAcquired = true ∧ env.Priced sig

def sent (env : HandlerEnv) (sig : PipelineSignal) (size : Int) : PipelineSignal :=
  (env.trackSignalGenerated (withSize sig size)).2

/-- The status that the execution of the signal comes to. -/
def outcome (env : HandlerEnv) (sig : PipelineSignal) : Except Err ExecutionStatus :=
  env.executeSignal (env.sent sig (env.ensurePositionSize sig))

/-- The tracker takes the entry, at a price that is no stub. -/
def Recordable (env : HandlerEnv) (sig : PipelineSignal) : Prop :=
  (∃ price, validateEntryPrice sig = .ok (some price) ∧ 1000 ≤ price) ∧ env.trackEntryOk = true

/-- The risk scale takes contracts off the order. -/
def ScalesDown (env : HandlerEnv) (sig : PipelineSignal) : Prop :=
  ∃ scale, env.checkCircuitBreakerWithScale sig = .ok scale ∧ ¬ scale ≤ .fin 0 ∧
    scaledSize (env.ensurePositionSize sig) scale ≠ env.ensurePositionSize sig

/-! ### The size does not matter to the execution -/

theorem checkBracket_size {n m : Int} (sig : Signal) (hn : 0 < n) (hm : 0 < m) :
    AdapterBase.checkBracket { sig with positionSize := some (.ok n) } =
      AdapterBase.checkBracket { sig with positionSize := some (.ok m) } := by
  unfold AdapterBase.checkBracket
  simp only [Field.getD, Option.getD_some, if_neg (not_le.2 hn), if_neg (not_le.2 hm)]
  rfl

theorem sent_validate (size : Int) : validateEntryPrice (env.sent sig size) = validateEntryPrice sig := by
  unfold sent trackSignalGenerated
  split <;> rfl

theorem sent_future (size : Int) : env.isFutureDated (env.sent sig size) = env.isFutureDated sig := by
  unfold sent trackSignalGenerated
  split <;> rfl

theorem executeSignal_sent {n m : Int} (hn : 0 < n) (hm : 0 < m) :
    env.executeSignal (env.sent sig n) = env.executeSignal (env.sent sig m) := by
  have hcheck : ∀ a : HandlerAdapter, a.base.checkPreconditions a.config (env.sent sig n).toSignal env.now =
      a.base.checkPreconditions a.config (env.sent sig m).toSignal env.now := by
    intro a
    unfold AdapterBase.checkPreconditions sent trackSignalGenerated withSize
    split
    · rw [checkBracket_size sig.toSignal hn hm]
      rfl
    · rw [checkBracket_size { sig.toSignal with signalId := some env.newId } hn hm]
      rfl
  simp only [executeSignal, placeSignal, hcheck]

theorem scaledSize_pos {n : Int} (scale : Number) (hn : 0 < n) : 0 < scaledSize n scale := by
  unfold scaledSize
  split
  · split
    · dsimp only
      split <;> omega
    · exact hn
  · exact hn

theorem scaledSize_le (n : Int) (scale : Number) : scaledSize n scale ≤ n := by
  unfold scaledSize
  split
  · dsimp only
    split
    · split
      · omega
      · exact le_rfl
    · exact le_rfl
  · exact le_rfl

theorem scaledSize_of_nonpos {n : Int} (scale : Number) (hn : n ≤ 0) : scaledSize n scale = n := by
  unfold scaledSize
  split
  · split
    · dsimp only
      rw [if_neg]
      omega
    · rfl
  · rfl

theorem executeSignal_scaled (scale : Number) :
    env.executeSignal (env.sent sig (scaledSize (env.ensurePositionSize sig) scale)) = env.outcome sig := by
  unfold outcome
  rcases lt_or_ge 0 (env.ensurePositionSize sig) with hpos | hneg
  · exact executeSignal_sent (scaledSize_pos scale hpos) hpos
  · rw [scaledSize_of_nonpos scale hneg]

/-! ### What the paths come to -/

theorem trackVirtualEntry_isSome (h : env.Priced sig) (size : Int) (signalId : String) (preserved : Bool) :
    (env.trackVirtualEntry (env.sent sig size) signalId preserved).isSome = true ↔ env.Recordable sig := by
  obtain ⟨-, price, hprice⟩ := h
  have hfield : ∃ x, sig.entryPrice = some (.ok (.fin x)) ∧ x = price ∧ 0 < x := by
    unfold validateEntryPrice at hprice
    split at hprice <;> try cases hprice
    next x hx =>
      split at hprice
      · cases hprice
      next hpos =>
        cases hprice
        exact ⟨price, hx, rfl, not_le.1 hpos⟩
  obtain ⟨x, hx, rfl, hpos⟩ := hfield
  have hsent : (env.sent sig size).entryPrice = some (.ok (.fin x)) := by
    unfold sent trackSignalGenerated
    split <;> exact hx
  have hrecordable : env.Recordable sig ↔ 1000 ≤ x ∧ env.trackEntryOk = true := by
    unfold Recordable
    simp only [hprice, Except.ok.injEq, Option.some.injEq, exists_eq_left']
  rw [hrecordable]
  unfold trackVirtualEntry
  rw [hsent]
  simp only [Field.getD, Option.getD_some, Number.fin_lt_fin, hpos, true_and]
  split
  next hstub =>
    refine ⟨fun hnone => absurd hnone Bool.false_ne_true, ?_⟩
    rintro ⟨hprice', -⟩
    exact absurd hprice' (not_le.2 hstub)
  next hstub =>
    split
    next hok => exact ⟨fun _ => ⟨not_lt.1 hstub, hok⟩, fun _ => rfl⟩
    next hok =>
      refine ⟨fun hnone => absurd hnone Bool.false_ne_true, ?_⟩
      rintro ⟨-, hok'⟩
      exact absurd hok' hok

theorem processSignal_of_sends (h : env.LeaderSends sig) : ∃ (size : Int) (signalId : String), env.processSignal sig =
    let entry := env.trackVirtualEntry (env.sent sig size) signalId true
    if env.adapter.isNone then { size, entry }
    else
      match env.outcome sig with
      | .error _ => { size }
      | .ok status =>
        if env.metadataOk ∧ (status = .placed ∨ status = .placedNoId) then { size, status, entry }
        else { size, status } := by
  obtain ⟨hallowed, ⟨⟨scale, hscale, hpos⟩, price, hprice⟩, hfuture⟩ := h
  let size := scaledSize (env.ensurePositionSize sig) scale
  refine ⟨size, (env.trackSignalGenerated (withSize sig size)).1, ?_⟩
  have hvalid : validateEntryPrice (env.trackSignalGenerated (withSize sig size)).2 = .ok (some price) :=
    (sent_validate size).trans hprice
  have hdated : env.isFutureDated (env.trackSignalGenerated (withSize sig size)).2 = false :=
    (sent_future size).trans hfuture
  unfold processSignal
  rw [if_neg (not_not.2 hallowed), hscale]
  dsimp only
  rw [if_neg hpos, hvalid]
  dsimp only
  rw [hdated, if_neg Bool.false_ne_true, ← executeSignal_scaled scale]
  rfl

theorem processSignal_of_not_sends (h : ¬ env.LeaderSends sig) :
    (env.processSignal sig).status = none ∧ (env.processSignal sig).entry = none := by
  unfold processSignal
  split
  · exact ⟨rfl, rfl⟩
  next hallowed =>
    split
    · exact ⟨rfl, rfl⟩
    next scale hscale =>
      split
      · exact ⟨rfl, rfl⟩
      next hpos =>
        dsimp only
        split
        · exact ⟨rfl, rfl⟩
        · exact ⟨rfl, rfl⟩
        next price hprice =>
          split
          · exact ⟨rfl, rfl⟩
          next hfuture =>
            refine absurd ⟨not_not.1 hallowed, ⟨⟨scale, hscale, hpos⟩, price, ?_⟩, ?_⟩ h
            · exact (sent_validate _).symm.trans hprice
            · exact (sent_future _).symm.trans (Bool.not_eq_true _ ▸ hfuture)

theorem followerExecute_of_sends (h : env.FollowerSends sig) : ∃ (size : Int) (signalId : String), env.followerExecute sig =
    match env.outcome sig with
    | .error _ => { size }
    | .ok status =>
      if env.metadataOk ∧ status = .placed then
        { size, status, entry := env.trackVirtualEntry (env.sent sig size) signalId false }
      else { size, status } := by
  obtain ⟨hacquired, ⟨scale, hscale, hpos⟩, price, hprice⟩ := h
  let size := env.ensurePositionSize sig
  refine ⟨size, (env.trackSignalGenerated (withSize sig size)).1, ?_⟩
  have hvalid : validateEntryPrice (env.trackSignalGenerated (withSize sig size)).2 = .ok (some price) :=
    (sent_validate size).trans hprice
  unfold followerExecute
  rw [if_neg (not_not.2 hacquired), hscale]
  dsimp only
  rw [if_neg hpos, hvalid]
  rfl

theorem followerExecute_of_not_sends (h : ¬ env.FollowerSends sig) :
    (env.followerExecute sig).status = none ∧ (env.followerExecute sig).entry = none := by
  unfold followerExecute
  split
  · exact ⟨rfl, rfl⟩
  next hacquired =>
    split
    · exact ⟨rfl, rfl⟩
    next scale hscale =>
      split
      · exact ⟨rfl, rfl⟩
      next hpos =>
        dsimp only
        split
        · exact ⟨rfl, rfl⟩
        · exact ⟨rfl, rfl⟩
        next price hprice =>
          refine absurd ⟨not_not.1 hacquired, ⟨scale, hscale, hpos⟩, price, ?_⟩ h
          exact (sent_validate _).symm.trans hprice

theorem outcome_of_adapter_isNone (h : env.adapter.isNone = true) : env.outcome sig = .ok .notAttempted := by
  unfold outcome executeSignal
  rw [Option.isNone_iff_eq_none.1 h]

theorem adapter_isSome_of_outcome {status : ExecutionStatus} (h : env.outcome sig = .ok status)
    (hstatus : status ≠ .notAttempted) : env.adapter.isSome = true := by
  refine Option.isSome_iff_ne_none.2 fun hnone => hstatus ?_
  rw [outcome_of_adapter_isNone (Option.isNone_iff_eq_none.2 hnone)] at h
  exact (Except.ok.inj h).symm

theorem leader_status_iff {status : ExecutionStatus} : (env.processSignal sig).status = some status ↔
    env.LeaderSends sig ∧ env.adapter.isSome = true ∧ env.outcome sig = .ok status := by
  by_cases hsends : env.LeaderSends sig
  · obtain ⟨size, signalId, heq⟩ := processSignal_of_sends hsends
    rw [heq]
    dsimp only
    split
    next hnone =>
      refine ⟨nofun, ?_⟩
      rintro ⟨-, hsome, -⟩
      rw [Option.isNone_iff_eq_none.1 hnone] at hsome
      cases hsome
    next hnone =>
      have hsome : env.adapter.isSome = true :=
        Option.isSome_iff_ne_none.2 fun h => hnone (Option.isNone_iff_eq_none.2 h)
      split
      next hout =>
        refine ⟨nofun, ?_⟩
        rintro ⟨-, -, hout'⟩
        rw [hout] at hout'
        cases hout'
      next st hout =>
        rw [hout, apply_ite PathResult.status, ite_self]
        simp only [hsends, hsome, true_and, Option.some.injEq, Except.ok.injEq]
  · rw [(processSignal_of_not_sends hsends).1]
    refine ⟨nofun, ?_⟩
    rintro ⟨h, -⟩
    exact absurd h hsends

/-- `process_signal` records an entry without an adapter, and otherwise when the order is placed, with or without an
id. -/
theorem leader_enters_iff : (env.processSignal sig).entry.isSome = true ↔
    env.LeaderSends sig ∧ env.Recordable sig ∧ (env.adapter.isNone = true ∨
      env.metadataOk = true ∧ (env.outcome sig = .ok .placed ∨ env.outcome sig = .ok .placedNoId)) := by
  by_cases hsends : env.LeaderSends sig
  · obtain ⟨size, signalId, heq⟩ := processSignal_of_sends hsends
    have hentry := trackVirtualEntry_isSome hsends.2.1 size signalId true
    rw [heq]
    dsimp only
    split
    next hnone =>
      simp only [hentry, hsends, hnone, true_and, true_or, and_true]
    next hsome =>
      split
      next hout =>
        simp only [hout, hsome, Option.isSome_none, Bool.false_eq_true, reduceCtorEq, or_self, and_false]
      next st hout =>
        split
        next hplaced =>
          simp only [hentry, hsends, hsome, hout, hplaced, Except.ok.injEq, true_and, Bool.false_eq_true, false_or,
            and_true]
        next hplaced =>
          simp only [hsome, hout, hplaced, Except.ok.injEq, Option.isSome_none, Bool.false_eq_true, or_self, and_false]
  · rw [(processSignal_of_not_sends hsends).2]
    refine ⟨nofun, ?_⟩
    rintro ⟨h, -⟩
    exact absurd h hsends

theorem follower_status_iff {status : ExecutionStatus} : (env.followerExecute sig).status = some status ↔
    env.FollowerSends sig ∧ env.outcome sig = .ok status := by
  by_cases hsends : env.FollowerSends sig
  · obtain ⟨size, signalId, heq⟩ := followerExecute_of_sends hsends
    rw [heq]
    split
    next hout =>
      refine ⟨nofun, ?_⟩
      rintro ⟨-, hout'⟩
      rw [hout] at hout'
      cases hout'
    next st hout =>
      rw [hout, apply_ite PathResult.status, ite_self]
      simp only [hsends, true_and, Option.some.injEq, Except.ok.injEq]
  · rw [(followerExecute_of_not_sends hsends).1]
    refine ⟨nofun, ?_⟩
    rintro ⟨h, -⟩
    exact absurd h hsends

/-- `follower_execute` records an entry when the order is placed and has an id. -/
theorem follower_enters_iff : (env.followerExecute sig).entry.isSome = true ↔
    env.FollowerSends sig ∧ env.Recordable sig ∧ env.metadataOk = true ∧ env.outcome sig = .ok .placed := by
  by_cases hsends : env.FollowerSends sig
  · obtain ⟨size, signalId, heq⟩ := followerExecute_of_sends hsends
    have hentry := trackVirtualEntry_isSome hsends.2 size signalId false
    rw [heq]
    split
    next hout =>
      simp only [hout, Option.isSome_none, Bool.false_eq_true, reduceCtorEq, and_false]
    next st hout =>
      split
      next hplaced =>
        simp only [hentry, hsends, hout, hplaced, true_and, and_true]
      next hplaced =>
        simp only [hout, hplaced, Except.ok.injEq, Option.isSome_none, Bool.false_eq_true, and_false]
  · rw [(followerExecute_of_not_sends hsends).2]
    refine ⟨nofun, ?_⟩
    rintro ⟨h, -⟩
    exact absurd h hsends

theorem leader_size_iff {size : Int} : (env.processSignal sig).size = some size ↔
    env.isSignalTypeAllowed sig = true ∧ ∃ scale, env.checkCircuitBreakerWithScale sig = .ok scale ∧
      ¬ scale ≤ .fin 0 ∧ scaledSize (env.ensurePositionSize sig) scale = size := by
  unfold processSignal
  split
  next hallowed =>
    refine ⟨nofun, ?_⟩
    rintro ⟨h, -⟩
    exact absurd h hallowed
  next hallowed =>
    rw [and_iff_right (not_not.1 hallowed)]
    split
    next hscale =>
      refine ⟨nofun, ?_⟩
      rintro ⟨scale, h, -⟩
      rw [hscale] at h
      cases h
    next scale hscale =>
      rw [hscale]
      simp only [Except.ok.injEq, exists_eq_left']
      split
      next hpos =>
        refine ⟨nofun, ?_⟩
        rintro ⟨h, -⟩
        exact absurd hpos h
      next hpos =>
        rw [and_iff_right hpos]
        repeat' split
        all_goals exact Option.some_inj

theorem follower_size_iff {size : Int} : (env.followerExecute sig).size = some size ↔
    env.semaphoreAcquired = true ∧ (∃ scale, env.checkCircuitBreakerWithScale sig = .ok scale ∧ ¬ scale ≤ .fin 0) ∧
      env.ensurePositionSize sig = size := by
  unfold followerExecute
  split
  next hacquired =>
    refine ⟨nofun, ?_⟩
    rintro ⟨h, -⟩
    exact absurd h hacquired
  next hacquired =>
    rw [and_iff_right (not_not.1 hacquired)]
    split
    next hscale =>
      refine ⟨nofun, ?_⟩
      rintro ⟨⟨scale, h, -⟩, -⟩
      rw [hscale] at h
      cases h
    next scale hscale =>
      rw [hscale]
      simp only [Except.ok.injEq, exists_eq_left']
      split
      next hpos =>
        refine ⟨nofun, ?_⟩
        rintro ⟨h, -⟩
        exact absurd hpos h
      next hpos =>
        rw [and_iff_right hpos]
        repeat' split
        all_goals exact Option.some_inj

/-! ### The laws -/

/-- Where both paths size the order, they size it alike, and they record an entry alike. -/
def PathsAgree (env : HandlerEnv) (sig : PipelineSignal) : Prop :=
  (∀ n ∈ (env.processSignal sig).size, ∀ m ∈ (env.followerExecute sig).size, n = m) ∧
    ((env.processSignal sig).entry.isSome = true ↔ (env.followerExecute sig).entry.isSome = true)

instance (env : HandlerEnv) (sig : PipelineSignal) : Decidable (env.PathsAgree sig) :=
  inferInstanceAs (Decidable (_ ∧ _))

/-- An entry is recorded for an order that is placed, and none for one that is not. -/
def EntryIffPlaced (r : PathResult) : Prop :=
  (r.status = some .placed ∨ r.status = some .placedNoId → r.entry.isSome = true) ∧
    (r.status.isSome = true → r.status ≠ some .placed ∧ r.status ≠ some .placedNoId → r.entry = none)

instance (r : PathResult) : Decidable (EntryIffPlaced r) := inferInstanceAs (Decidable (_ ∧ _))

def openConfig : ExecutionConfig := .fromDict { enabled := some true, armed := some true }

/-- A broker that answers with success and these ids. -/
def acceptingEnv (parentOrderId : Option String) (riskScale : ℚ) : HandlerEnv where
  breaker := some (.enforce, .pass riskScale)
  computeSize := fun _ => .ok 1
  adapter := some
    { config := openConfig, base := .init openConfig
      placeBracket := .ok { success := true, status := .placed, signalId := "s1", parentOrderId } }
  newId := "s1"

def longSignal (entryPrice stopLoss takeProfit : ℚ) (size : Int) : PipelineSignal :=
  { type := some "ema_cross", direction := some "long", entryPrice := some (.ok (.fin entryPrice))
    stopLoss := some (.ok (.fin stopLoss)), takeProfit := some (.ok (.fin takeProfit))
    positionSize := some (.ok size) }

/-- Only `process_signal` applies the risk scale, and only it records an order that has no id. -/
theorem paths_differ :
    ¬ (acceptingEnv (some "1") (1/2)).PathsAgree (longSignal 20000 19900 20100 2) ∧
      ¬ (acceptingEnv none 1).PathsAgree (longSignal 20000 19900 20100 1) := by
  constructor <;> decide +kernel

/-- The paths agree unless the breaker scales the order down, and for a signal that can be recorded the gates of the
two have to come to the same. -/
theorem paths_agree_iff : env.PathsAgree sig ↔
    ¬ (env.isSignalTypeAllowed sig = true ∧ env.semaphoreAcquired = true ∧ env.ScalesDown sig) ∧
    (env.Priced sig → env.Recordable sig →
      (env.isSignalTypeAllowed sig = true ∧ env.isFutureDated sig = false ∧ (env.adapter.isNone = true ∨
          env.metadataOk = true ∧ (env.outcome sig = .ok .placed ∨ env.outcome sig = .ok .placedNoId)) ↔
        env.semaphoreAcquired = true ∧ env.metadataOk = true ∧ env.outcome sig = .ok .placed)) := by
  refine and_congr ⟨?_, ?_⟩ ?_
  · rintro hsize ⟨hallowed, hacquired, scale, hscale, hpos, hscaled⟩
    exact hscaled (hsize _ (leader_size_iff.2 ⟨hallowed, scale, hscale, hpos, rfl⟩) _
      (follower_size_iff.2 ⟨hacquired, ⟨scale, hscale, hpos⟩, rfl⟩))
  · intro hscales n hn m hm
    obtain ⟨hallowed, scale, hscale, hpos, rfl⟩ := leader_size_iff.1 hn
    obtain ⟨hacquired, -, rfl⟩ := follower_size_iff.1 hm
    by_contra hscaled
    exact hscales ⟨hallowed, hacquired, scale, hscale, hpos, hscaled⟩
  · rw [leader_enters_iff, follower_enters_iff, LeaderSends, FollowerSends]
    by_cases hpriced : env.Priced sig
    · by_cases hrecordable : env.Recordable sig
      · simp only [hpriced, hrecordable, true_and, and_true, true_implies, and_assoc]
      · simp only [hrecordable, false_and, and_false, false_implies, implies_true]
    · simp only [hpriced, false_and, and_false, false_implies]

/-- A stub price keeps the entry of an order that is placed from being recorded. -/
theorem placed_not_entered :
    ¬ ∀ (env : HandlerEnv) (sig : PipelineSignal),
      EntryIffPlaced (env.processSignal sig) ∧ EntryIffPlaced (env.followerExecute sig) := by
  intro hall
  exact absurd (hall (acceptingEnv (some "1") 1) (longSignal 100 90 110 1)) (by decide +kernel)

/-- Both paths record the entry of a placed order exactly when it can be recorded, and its id is known where the
follower placed it. -/
theorem entry_iff_placed_iff :
    EntryIffPlaced (env.processSignal sig) ∧ EntryIffPlaced (env.followerExecute sig) ↔
      (env.LeaderSends sig → env.outcome sig = .ok .placed ∨ env.outcome sig = .ok .placedNoId →
        env.Recordable sig ∧ env.metadataOk = true) ∧
      (env.FollowerSends sig → (env.outcome sig = .ok .placed → env.Recordable sig ∧ env.metadataOk = true) ∧
        env.outcome sig ≠ .ok .placedNoId) := by
  have hstatus : ∀ {status}, env.outcome sig = .ok status → status ≠ .notAttempted → env.LeaderSends sig →
      (env.processSignal sig).status = some status :=
    fun hout hne hsends => leader_status_iff.2 ⟨hsends, adapter_isSome_of_outcome hout hne, hout⟩
  refine and_congr ⟨?_, ?_⟩ ⟨?_, ?_⟩
  · rintro ⟨hentered, -⟩ hsends hout
    have hplaced : (env.processSignal sig).status = some .placed ∨ (env.processSignal sig).status = some .placedNoId :=
      hout.imp (fun h => hstatus h nofun hsends) (fun h => hstatus h nofun hsends)
    obtain ⟨-, hrecordable, hnone | ⟨hmetadata, -⟩⟩ := leader_enters_iff.1 (hentered hplaced)
    · rw [outcome_of_adapter_isNone hnone] at hout
      rcases hout with hout | hout <;> cases hout
    · exact ⟨hrecordable, hmetadata⟩
  · intro hrecorded
    refine ⟨fun hplaced => ?_, fun hsome hnot => ?_⟩
    · have hsent : env.LeaderSends sig ∧ (env.outcome sig = .ok .placed ∨ env.outcome sig = .ok .placedNoId) := by
        rcases hplaced with h | h
        · obtain ⟨hsends, -, hout⟩ := leader_status_iff.1 h
          exact ⟨hsends, .inl hout⟩
        · obtain ⟨hsends, -, hout⟩ := leader_status_iff.1 h
          exact ⟨hsends, .inr hout⟩
      obtain ⟨hrecordable, hmetadata⟩ := hrecorded hsent.1 hsent.2
      exact leader_enters_iff.2 ⟨hsent.1, hrecordable, .inr ⟨hmetadata, hsent.2⟩⟩
    · rw [← Option.not_isSome_iff_eq_none]
      intro hentered
      obtain ⟨hsends, -, hnone | ⟨-, hout⟩⟩ := leader_enters_iff.1 hentered
      · obtain ⟨status, hst⟩ := Option.isSome_iff_exists.1 hsome
        obtain ⟨-, hadapter, -⟩ := leader_status_iff.1 hst
        rw [Option.isNone_iff_eq_none.1 hnone] at hadapter
        cases hadapter
      · exact hout.elim (fun h => hnot.1 (hstatus h nofun hsends)) fun h => hnot.2 (hstatus h nofun hsends)
  · rintro ⟨hentered, -⟩ hsends
    refine ⟨fun hout => ?_, fun hout => ?_⟩
    · obtain ⟨-, hrecordable, hmetadata, -⟩ :=
        follower_enters_iff.1 (hentered (.inl (follower_status_iff.2 ⟨hsends, hout⟩)))
      exact ⟨hrecordable, hmetadata⟩
    · obtain ⟨-, -, -, hplaced⟩ := follower_enters_iff.1 (hentered (.inr (follower_status_iff.2 ⟨hsends, hout⟩)))
      rw [hout] at hplaced
      cases hplaced
  · intro hrecorded
    refine ⟨fun hplaced => ?_, fun _ hnot => ?_⟩
    · rcases hplaced with h | h
      · obtain ⟨hsends, hout⟩ := follower_status_iff.1 h
        obtain ⟨hrecordable, hmetadata⟩ := (hrecorded hsends).1 hout
        exact follower_enters_iff.2 ⟨hsends, hrecordable, hmetadata, hout⟩
      · obtain ⟨hsends, hout⟩ := follower_status_iff.1 h
        exact absurd hout (hrecorded hsends).2
    · rw [← Option.not_isSome_iff_eq_none]
      intro hentered
      obtain ⟨hsends, -, -, hout⟩ := follower_enters_iff.1 hentered
      exact hnot.1 (follower_status_iff.2 ⟨hsends, hout⟩)

end HandlerEnv

end PearlAlgo
