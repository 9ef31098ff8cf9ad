import Mathlib.Data.List.TakeWhile
import PearlAlgo.Tradovate.EventLoop
import PearlAlgo.Tradovate.CancelCoverage
import PearlAlgo.Tradovate.Flatten

/-!
# Execution control flags (`market_agent/execution_flags.py`)

The watcher that a service cycle begins with. It looks for three flag files, and runs the kill switch, disarms
or arms the adapter. `kill_removed` says what has happened when a kill flag is gone, for every sequence of
cycles and whatever the adapter's other coroutines, the broker and the writers of flags do before, between
and during them. The resume, grade and operator requests, the notifications and failing file operations
are left out.
-/

namespace PearlAlgo
open Py Coop

/-- What `_is_flag_stale` finds in a file: an aware time after `requested_at=`, one that does not parse or a
file that cannot be read, or no such text. -/
inductive FlagText
  | requestedAt (t : ℚ)
  | unreadable
  | noStamp
deriving DecidableEq

structure FlagFile where
  text : FlagText
  mtime : ℚ
deriving DecidableEq

def FLAG_TTL_SECONDS : ℚ := 300

def FlagFile.isStale (now : ℚ) (f : FlagFile) : Bool :=
  match f.text with
  | .requestedAt t => FLAG_TTL_SECONDS < now - t
  | .unreadable => true
  | .noStamp => FLAG_TTL_SECONDS < now - f.mtime

/-- What the watcher works on: the adapter, or only its clock when there is none, and the flag files.
`virtualCloses` counts the calls of `_close_all_virtual_trades`. -/
structure Watch where
  world : World
  kill : Option FlagFile := none
  disarm : Option FlagFile := none
  arm : Option FlagFile := none
  virtualCloses : Nat := 0

namespace Watch

/-- A flag file that is there and not stale. -/
def fresh (w : Watch) (f : Option FlagFile) : Option FlagFile := f.filter fun f => !f.isStale w.world.now

def clearStale (w : Watch) : Watch :=
  { w with kill := w.fresh w.kill, disarm := w.fresh w.disarm, arm := w.fresh w.arm }

def closeAllVirtualTrades (w : Watch) : Watch := { w with virtualCloses := w.virtualCloses + 1 }

def clearWithoutAdapter (w : Watch) : Watch :=
  let w := if w.kill.isSome then { w.closeAllVirtualTrades with kill := none } else w
  { w with disarm := none, arm := none }

/-- The disarm and arm flags, when there is no kill flag. -/
def disarmOrArm (cfg : ExecutionConfig) (w : Watch) : Watch :=
  if w.disarm.isSome then { w with world := w.world.disarm, disarm := none }
  else if w.arm.isSome then { w with world := { w.world with base := (w.world.base.arm cfg).2 }, arm := none }
  else w

end Watch

/-- The `try` block of the kill branch, with its `except Exception`. -/
def killSwitch (cfg : ExecutionConfig) : Flow (Except Err Unit) := do
  Proc.modify World.disarm
  match ← cancelAll cfg with
  | .error .cancelled => return .error .cancelled
  | .error _ => do
    Proc.modify World.disarm
    return .ok ()
  | .ok _ => do
    match ← flattenAllPositions cfg with
    | .error .cancelled => return .error .cancelled
    | .error _ => do
      Proc.modify World.disarm
      return .ok ()
    | .ok _ => return .ok ()

def checkExecutionControlFlags (adapter : Option ExecutionConfig) : Proc Watch Answer (Except Err Unit) := do
  Proc.modify Watch.clearStale
  match adapter with
  | none => do
    Proc.modify Watch.clearWithoutAdapter
    return .ok ()
  | some cfg => do
    let w ← Proc.read
    if w.kill.isSome then do
      let r ← (killSwitch cfg).zoom Watch.world fun world w => { w with world }
      -- `finally`, which runs when the task is cancelled as well
      Proc.modify fun w => { w with kill := none, disarm := none }
      match r with
      | .error e => return .error e
      | .ok () => do
        Proc.modify Watch.closeAllVirtualTrades
        return .ok ()
    else do
      Proc.modify (Watch.disarmOrArm cfg)
      return .ok ()

/-! ### Runs -/

inductive WatchEvent
  | writeKill (f : FlagFile)
  | writeDisarm (f : FlagFile)
  | writeArm (f : FlagFile)
  /-- The adapter's coroutines, the connection, the broker or the clock move the adapter's state. -/
  | adapter (world : World)

def WatchEvent.apply (w : Watch) : WatchEvent → Watch
  | .writeKill f => { w with kill := some f }
  | .writeDisarm f => { w with disarm := some f }
  | .writeArm f => { w with arm := some f }
  | .adapter world => { w with world }

inductive WatchAct
  | event (e : WatchEvent)
  /-- A cycle, the `n`-th await of which ends with `answers n` after the events `others n`. -/
  | cycle (answers : Nat → (q : Request) → Answer q) (others : Nat → List WatchEvent)

abbrev WatchOutcome : Type := Proc.Outcome Watch Answer (Except Err Unit)

inductive WatchTurn
  | event (before after : Watch)
  | cycle (before : Watch) (o : WatchOutcome)

namespace WatchTurn

def before : WatchTurn → Watch
  | .event before _ | .cycle before _ => before

def after : WatchTurn → Watch
  | .event _ after => after
  | .cycle _ o => o.state

end WatchTurn

def WatchAct.take (adapter : Option ExecutionConfig) (w : Watch) : WatchAct → WatchTurn
  | .event e => .event w (e.apply w)
  | .cycle answers others =>
    .cycle w ((checkExecutionControlFlags adapter).play
      (fun n => ⟨answers n, fun w => (others n).foldl WatchEvent.apply w⟩) w)

def watch (adapter : Option ExecutionConfig) : Watch → List WatchAct → List WatchTurn
  | _, [] => []
  | w, a :: acts => a.take adapter w :: watch adapter (a.take adapter w).after acts

/-! ### What a kill is -/

abbrev Trace : Type := List ((q : Request) × Answer q)

/-- Every tracked order and every working order was cancelled, and a liquidation order was accepted for every
open position. -/
structure KillCompleted (tracked : List Ident) (trace : Trace) : Prop where
  tracked : ∀ n, some n ∈ tracked → ⟨.cancelOrder n, .ok ()⟩ ∈ trace
  working : ∃ reply, ⟨.getOrders, .ok reply⟩ ∈ trace ∧ ∀ o n, some o ∈ Option.getD reply [] →
    normalizeOrderStatus o ∈ workingStates → orId o.id o.orderId = some n → ⟨.cancelOrder n, .ok ()⟩ ∈ trace
  liquidated : ∃ positions, ⟨.getPositions .liquidate, .ok (some (positions.map some))⟩ ∈ trace ∧
    AllLiquidated positions trace

/-- The broker granted the request; the rows of a listing are dictionaries. -/
def granted : (q : Request) × Answer q → Bool
  | ⟨.getPositions _, .ok (some rows)⟩ => rows.all Option.isSome
  | ⟨.getPositions _, .ok none⟩ => false
  | ⟨.getOrders, .ok reply⟩ => (Option.getD reply []).all Option.isSome
  | ⟨_, .ok _⟩ => true
  | ⟨_, .error _⟩ => false

/-! ### `cancel_all` under interference -/

section kill
variable {cfg : ExecutionConfig} {env : Nat → Proc.Interval World Answer} {s : World}

/-- A run that asks only for cancellations, and for all of `ids` unless the task is cancelled. -/
structure CancelRun {α : Type} (ids : List Ident) (trace : Trace) (value : Except Err α) : Prop where
  only : ∀ e ∈ trace, ∃ n, e.1 = .cancelOrder n
  ends : (∃ a, value = .ok a) ∧ (∀ n, some n ∈ ids → ∃ r, ⟨.cancelOrder n, r⟩ ∈ trace) ∨ value = .error .cancelled

theorem AttemptsAll.cancelRun {ids : List Ident} {trace : Trace} {value : Except Err (List ExecutionResult)}
    (h : AttemptsAll ids trace value) : CancelRun ids trace value := by
  have only (hrequests : trace.map Sigma.fst <+: cancelRequests ids) : ∀ e ∈ trace, ∃ n, e.1 = .cancelOrder n := by
    intro e he
    obtain ⟨i, -, hi⟩ := List.mem_filterMap.1 (hrequests.subset (List.mem_map_of_mem he))
    obtain ⟨n, -, hn⟩ := Option.map_eq_some_iff.1 hi
    exact ⟨n, hn.symm⟩
  cases h with
  | all hrequests hreported =>
    refine ⟨only (hrequests ▸ List.prefix_rfl), .inl ⟨⟨_, rfl⟩, fun n hn => ?_⟩⟩
    have hasked : .cancelOrder n ∈ trace.map Sigma.fst := by
      rw [hrequests]
      exact List.mem_filterMap.2 ⟨some n, hn, rfl⟩
    obtain ⟨⟨q, r⟩, he, rfl⟩ := List.mem_map.1 hasked
    exact ⟨r, he⟩
  | cancelled hrequests htask => exact ⟨only hrequests, .inr rfl⟩

theorem cancelAll_play (hlive : cfg.mode ≠ .dryRun) :
    ∃ r rest, ((cancelAll cfg).play env s).trace = ⟨.getOrders, r⟩ :: rest ∧
      CancelRun (s.openOrders.keys ++ listedOrderIds r) rest ((cancelAll cfg).play env s).value := by
  simp only [cancelAll, Proc.play_modify_bind]
  rw [if_neg hlive]
  simp only [Proc.play_read_bind, Proc.play_ask_bind]
  refine ⟨(env 0).answer .getOrders, _, rfl, ?_⟩
  split
  next => exact ⟨fun e he => absurd he List.not_mem_nil, .inr rfl⟩
  next =>
    rw [Proc.play_bind]
    have hrun := (@cancelEach_attempts cfg (fun n => env (n + 1)) ((env 0).others s.disarm) hlive
      (dedupKeepFirst (s.disarm.openOrders.keys ++ listedOrderIds ((env 0).answer .getOrders)))).cancelRun
    generalize (cancelEach cfg _).play (fun n => env (n + 1)) ((env 0).others s.disarm) = o at hrun
    dsimp only
    obtain ⟨honly, ⟨⟨results, hresults⟩, hasked⟩ | hcancelled⟩ := hrun
    · have hrun' {value : Except Err (List ExecutionResult)} (hvalue : ∃ a, value = .ok a) :
          CancelRun (s.openOrders.keys ++ listedOrderIds ((env 0).answer .getOrders)) (o.trace ++ []) value := by
        rw [List.append_nil]
        exact ⟨honly, .inl ⟨hvalue, fun n hn => hasked n (mem_dedupKeepFirst.2 hn)⟩⟩
      rw [hresults]
      cases results with
      | nil => exact hrun' ⟨_, rfl⟩
      | cons result results => exact hrun' ⟨_, rfl⟩
    · rw [hcancelled]
      exact ⟨fun e he => honly e (List.append_nil o.trace ▸ he), .inr rfl⟩

/-! ### `flatten_all_positions` under interference -/

theorem acceptedOrders_append (l l' : Trace) : acceptedOrders (l ++ l') = acceptedOrders l ++ acceptedOrders l' :=
  List.filterMap_append

theorem acceptedOrders_cancels {l : Trace} (h : ∀ e ∈ l, ∃ n, e.1 = .cancelOrder n) : acceptedOrders l = [] := by
  refine List.filterMap_eq_nil_iff.2 fun e he => ?_
  obtain ⟨q, r⟩ := e
  obtain ⟨n, hn⟩ := h _ he
  cases hn
  rfl

theorem liquidateEach_play (positions : List PositionRow)
    (h : ∀ e ∈ ((liquidateEach (positions.map some)).play env s).trace, granted e = true) :
    acceptedOrders ((liquidateEach (positions.map some)).play env s).trace =
      (openRows positions).map liquidationOrder := by
  induction positions generalizing env s with
  | nil => rfl
  | cons p positions ih =>
    rw [List.map_cons, liquidateEach] at h ⊢
    by_cases hp : p.net = 0
    · rw [if_pos hp] at h ⊢
      rw [openRows_cons_of_eq positions hp]
      exact ih h
    · rw [if_neg hp, Proc.play_ask_bind] at h ⊢
      rw [openRows_cons_of_ne hp, List.map_cons]
      cases hr : (env 0).answer (.placeOrder (liquidationOrder p)) with
      | error e =>
        rw [hr] at h
        exact absurd (h _ List.mem_cons_self) Bool.false_ne_true
      | ok u =>
        rw [hr] at h
        simp only [Proc.play_bind, Proc.play_pure, List.append_nil] at h ⊢
        refine congrArg (liquidationOrder p :: ·) ?_
        exact ih fun e he => h e (List.mem_cons_of_mem _ he)

theorem map_some_filterMap {α : Type} {rows : List (Option α)} (h : rows.all Option.isSome = true) :
    (rows.filterMap id).map some = rows := by
  induction rows with
  | nil => rfl
  | cons row rows ih =>
    rw [List.all_cons, Bool.and_eq_true] at h
    obtain ⟨a, rfl⟩ := Option.isSome_iff_exists.1 h.1
    exact congrArg (some a :: ·) (ih h.2)

theorem liquidateAllPositions_play (h : ∀ e ∈ (liquidateAllPositions.play env s).trace, granted e = true) :
    ∃ positions, ⟨.getPositions .liquidate, .ok (some (positions.map some))⟩ ∈
      (liquidateAllPositions.play env s).trace ∧ AllLiquidated positions (liquidateAllPositions.play env s).trace := by
  simp only [liquidateAllPositions, Proc.play_ask_bind] at h ⊢
  have hlisting := h _ List.mem_cons_self
  cases hr : (env 0).answer (.getPositions .liquidate) with
  | error e =>
    rw [hr] at hlisting
    exact absurd hlisting Bool.false_ne_true
  | ok reply =>
    rw [hr] at h hlisting
    cases reply with
    | none => exact absurd hlisting Bool.false_ne_true
    | some rows =>
      rw [← map_some_filterMap hlisting] at h ⊢
      exact ⟨_, List.mem_cons_self, liquidateEach_play _ fun e he => h e (List.mem_cons_of_mem _ he)⟩

theorem flattenAllPositions_play : ((flattenAllPositions cfg).play env s).trace = [] ∨
    cfg.mode ≠ .dryRun ∧
      ((flattenAllPositions cfg).play env s).trace = (liquidateAllPositions.play env s.disarm).trace := by
  simp only [flattenAllPositions, Proc.play_modify_bind, Proc.play_read_bind]
  split
  · exact .inl rfl
  next hlive =>
    split
    · exact .inl rfl
    · refine .inr ⟨hlive, ?_⟩
      rw [Proc.play_bind]
      dsimp only
      split <;> exact List.append_nil _

/-! ### The kill branch -/

/-- The kill was attempted: `cancel_all` ran from a disarmed adapter, and then `flatten_all_positions`, unless
the task was cancelled. If the flatten got as far as the listing and the broker granted every request, the
kill was completed. -/
structure KillAttempt (cfg : ExecutionConfig) (w : World) (trace : Trace) (value : Except Err Unit) : Prop where
  ran : ∃ env, ((cancelAll cfg).play env w.disarm).value = .error .cancelled ∧
      trace = ((cancelAll cfg).play env w.disarm).trace ∧ value = .error .cancelled ∨
    ∃ results env', ((cancelAll cfg).play env w.disarm).value = .ok results ∧
      trace = ((cancelAll cfg).play env w.disarm).trace ++
        ((flattenAllPositions cfg).play env' ((cancelAll cfg).play env w.disarm).state).trace
  completed : (∀ e ∈ trace, granted e = true) → (∃ r, ⟨.getPositions .liquidate, r⟩ ∈ trace) →
    KillCompleted w.openOrders.keys trace

theorem killCompleted_of_granted (hlive : cfg.mode ≠ .dryRun) {results : List ExecutionResult}
    {env' : Nat → Proc.Interval World Answer} {s' : World}
    (hvalue : ((cancelAll cfg).play env s).value = .ok results)
    (hgranted : ∀ e ∈ ((cancelAll cfg).play env s).trace ++ (liquidateAllPositions.play env' s').trace,
      granted e = true) :
    KillCompleted s.openOrders.keys (((cancelAll cfg).play env s).trace ++ (liquidateAllPositions.play env' s').trace) := by
  obtain ⟨r, rest, htrace, honly, hends⟩ := @cancelAll_play cfg env s hlive
  have hasked := (hends.resolve_right fun h => by rw [hvalue] at h; cases h).2
  obtain ⟨positions, hlisting, hliquidated⟩ := @liquidateAllPositions_play env' s' fun e he =>
    hgranted e (List.mem_append_right _ he)
  have hcancelled (n : Int) (hn : some n ∈ s.openOrders.keys ++ listedOrderIds r) :
      (⟨.cancelOrder n, .ok ()⟩ : (q : Request) × Answer q) ∈
        ((cancelAll cfg).play env s).trace ++ (liquidateAllPositions.play env' s').trace := by
    obtain ⟨r', hr'⟩ := hasked n hn
    have hmem : (⟨.cancelOrder n, r'⟩ : (q : Request) × Answer q) ∈
        ((cancelAll cfg).play env s).trace ++ (liquidateAllPositions.play env' s').trace := by
      rw [htrace]
      exact List.mem_append_left _ (List.mem_cons_of_mem _ hr')
    cases r' with
    | ok u => exact hmem
    | error e => exact absurd (hgranted _ hmem) Bool.false_ne_true
  refine ⟨fun n hn => hcancelled n (List.mem_append_left _ hn), ?_, positions, List.mem_append_right _ hlisting, ?_⟩
  · have hmem : (⟨.getOrders, r⟩ : (q : Request) × Answer q) ∈
        ((cancelAll cfg).play env s).trace ++ (liquidateAllPositions.play env' s').trace := by
      rw [htrace]
      exact List.mem_append_left _ List.mem_cons_self
    cases r with
    | error e => exact absurd (hgranted _ hmem) Bool.false_ne_true
    | ok reply =>
      refine ⟨reply, hmem, fun o n ho hworking hid => hcancelled n (List.mem_append_right _ ?_)⟩
      cases reply with
      | none => exact absurd ho List.not_mem_nil
      | some rows =>
        have hall : rows.takeWhile Option.isSome = rows :=
          List.takeWhile_eq_self_iff.2 (List.all_eq_true.1 (hgranted _ hmem))
        exact mem_workingOrderIds.2 ⟨n, rfl, o, hall.symm ▸ ho, hworking, hid⟩
  · have hnone : acceptedOrders ((cancelAll cfg).play env s).trace = [] := by
      rw [htrace]
      show acceptedOrders rest = []
      exact acceptedOrders_cancels honly
    rw [AllLiquidated, acceptedOrders_append, hnone]
    exact hliquidated

theorem cancelAll_ends : ((∃ results, ((cancelAll cfg).play env s).value = .ok results) ∨
    ((cancelAll cfg).play env s).value = .error .cancelled) ∧
    ∀ r, ⟨.getPositions .liquidate, r⟩ ∉ ((cancelAll cfg).play env s).trace := by
  by_cases hlive : cfg.mode = .dryRun
  · simp only [cancelAll, Proc.play_modify_bind]
    rw [if_pos hlive]
    exact ⟨.inl ⟨_, rfl⟩, fun r hr => absurd hr List.not_mem_nil⟩
  · obtain ⟨r, rest, htrace, honly, hends⟩ := @cancelAll_play cfg env s hlive
    refine ⟨hends.imp_left And.left, fun r' hr' => ?_⟩
    rw [htrace] at hr'
    rcases List.mem_cons.1 hr' with hr' | hr'
    · cases hr'
    · obtain ⟨n, hn⟩ := honly _ hr'
      cases hn

theorem killSwitch_play (w : World) :
    KillAttempt cfg w ((killSwitch cfg).play env w).trace ((killSwitch cfg).play env w).value := by
  obtain ⟨hends, hnotListed⟩ := @cancelAll_ends cfg env w.disarm
  simp only [killSwitch, Proc.play_modify_bind]
  rw [Proc.play_bind]
  dsimp only
  rcases hends with ⟨results, hresults⟩ | hcancelled
  · rw [hresults]
    dsimp only
    rw [Proc.play_bind]
    generalize henv' : (fun n => env (n + ((cancelAll cfg).play env w.disarm).trace.length)) = env'
    generalize hfl : (flattenAllPositions cfg).play env' ((cancelAll cfg).play env w.disarm).state = fl
    have hattempt (value : Except Err Unit) :
        KillAttempt cfg w (((cancelAll cfg).play env w.disarm).trace ++ fl.trace) value := by
      refine ⟨⟨env, .inr ⟨results, env', hresults, by rw [hfl]⟩⟩, fun hgranted ⟨r, hr⟩ => ?_⟩
      have hflatten := @flattenAllPositions_play cfg env' ((cancelAll cfg).play env w.disarm).state
      rw [hfl] at hflatten
      rcases hflatten with hnil | ⟨hlive, hliquidate⟩
      · rw [hnil, List.append_nil] at hr
        exact absurd hr (hnotListed r)
      · rw [hliquidate] at hgranted ⊢
        exact killCompleted_of_granted hlive hresults hgranted
    dsimp only
    split <;> exact (congrArg (_ ++ ·) (List.append_nil fl.trace)).symm ▸ hattempt _
  · rw [hcancelled]
    simp only [Proc.play_pure, List.append_nil]
    exact ⟨⟨env, .inl ⟨hcancelled, rfl, rfl⟩⟩, fun _ ⟨r, hr⟩ => absurd hr (hnotListed r)⟩

end kill

/-! ### The law -/

/-- How a cycle may have removed the kill flag `f`: as a stale one, without an adapter, or with an attempt at
the kill. -/
inductive Consumed (adapter : Option ExecutionConfig) (f : FlagFile) : WatchTurn → Prop
  | stale {w : Watch} {o : WatchOutcome} (hstale : f.isStale w.world.now = true) (hsilent : o.trace = []) :
    Consumed adapter f (.cycle w o)
  | noAdapter {w : Watch} {o : WatchOutcome} (hadapter : adapter = none) (hfresh : f.isStale w.world.now = false)
    (hclosed : o.state.virtualCloses = w.virtualCloses + 1) : Consumed adapter f (.cycle w o)
  | killed {w : Watch} {o : WatchOutcome} {cfg : ExecutionConfig} (hadapter : adapter = some cfg)
    (hfresh : f.isStale w.world.now = false) (hattempt : KillAttempt cfg w.world o.trace o.value) :
    Consumed adapter f (.cycle w o)

theorem checkExecutionControlFlags_play (adapter : Option ExecutionConfig) (env : Nat → Proc.Interval Watch Answer)
    {w : Watch} {f : FlagFile} (hf : w.kill = some f) :
    Consumed adapter f (.cycle w ((checkExecutionControlFlags adapter).play env w)) := by
  have hkill : w.clearStale.kill = if f.isStale w.world.now then none else some f := by
    show (w.kill.filter _) = _
    rw [hf]
    cases hstale : f.isStale w.world.now <;> simp [Option.filter, hstale]
  cases hstale : f.isStale w.world.now with
  | true =>
    refine .stale hstale ?_
    rw [hstale, if_pos rfl] at hkill
    cases adapter with
    | none => rfl
    | some cfg =>
      simp only [checkExecutionControlFlags, Proc.play_modify_bind, Proc.play_read_bind]
      rw [hkill]
      rfl
  | false =>
    rw [hstale, if_neg Bool.false_ne_true] at hkill
    cases adapter with
    | none =>
      refine .noAdapter rfl hstale ?_
      show w.clearStale.clearWithoutAdapter.virtualCloses = _
      rw [Watch.clearWithoutAdapter, hkill]
      rfl
    | some cfg =>
      refine .killed rfl hstale ?_
      simp only [checkExecutionControlFlags, Proc.play_modify_bind, Proc.play_read_bind]
      rw [if_pos (by rw [hkill]; rfl), Proc.play_bind]
      obtain ⟨env', htrace, hvalue, -⟩ := Proc.play_zoom Watch.world
        (fun world w => { w with world }) (fun _ _ => rfl) (killSwitch cfg) env w.clearStale
      have hattempt := @killSwitch_play cfg env' w.world
      rw [show w.world = w.clearStale.world from rfl, htrace, hvalue] at hattempt
      dsimp only
      rw [Proc.play_modify_bind]
      generalize ((killSwitch cfg).zoom _ _).play env w.clearStale = o at hattempt
      -- what follows the kill asks nothing and passes its outcome on
      cases hv : o.value with
      | error e =>
        rw [hv] at hattempt
        exact (List.append_nil o.trace).symm ▸ hattempt
      | ok u =>
        rw [hv] at hattempt
        exact (List.append_nil o.trace).symm ▸ hattempt

/-- In every run, a turn after which a kill flag is gone is a cycle that found it stale, that had no adapter and
closed the virtual trades, or that attempted the kill. -/
theorem kill_removed (adapter : Option ExecutionConfig) (w : Watch) (acts : List WatchAct) :
    ∀ turn ∈ watch adapter w acts, ∀ f, turn.before.kill = some f → turn.after.kill = none →
      Consumed adapter f turn := by
  induction acts generalizing w with
  | nil => exact fun turn hturn => absurd hturn List.not_mem_nil
  | cons a acts ih =>
    intro turn hturn f hf hgone
    rcases List.mem_cons.1 hturn with rfl | hturn
    · cases a with
      | event e =>
        -- no event removes a flag
        have hf : w.kill = some f := hf
        have hgone : (e.apply w).kill = none := hgone
        cases e with
        | writeKill f' => cases hgone
        | writeDisarm f' => cases hf.symm.trans hgone
        | writeArm f' => cases hf.symm.trans hgone
        | adapter world => cases hf.symm.trans hgone
      | cycle answers others => exact checkExecutionControlFlags_play adapter _ hf
    · exact ih _ turn hturn f hf hgone

/-- The watcher of an adapter in paper mode that is connected and armed, at the time `now`. -/
def sampleWatch (now : ℚ) : Watch :=
  ⟨{ World.init sampleConfig now with connected := true, isAuthenticated := true }, none, none, none, 0⟩

/-- A kill request of the time zero, and a cycle with a broker that holds one contract and accepts all. -/
def killRequest : List WatchAct :=
  [.event (.writeKill ⟨.requestedAt 0, 0⟩), .cycle (fun _ => holding 1) fun _ => []]

/-- The witness of `kill_removed`: after ten seconds the request is still fresh. -/
theorem kill_removed_fresh : ∃ turn ∈ watch (some sampleConfig) (sampleWatch 10) killRequest,
    turn.before.kill = some ⟨.requestedAt 0, 0⟩ ∧ turn.after.kill = none ∧
      Consumed (some sampleConfig) ⟨.requestedAt 0, 0⟩ turn := by
  refine ⟨_, List.mem_cons_of_mem _ List.mem_cons_self, rfl, ?_, kill_removed _ _ killRequest _
    (List.mem_cons_of_mem _ List.mem_cons_self) _ rfl ?_⟩ <;> decide +kernel

/-- The kill flag is only removed by a cycle that has completed the kill. -/
def Durable (adapter : Option ExecutionConfig) (turn : WatchTurn) : Prop :=
  ∀ f, turn.before.kill = some f → turn.after.kill = none → ∃ cfg o, adapter = some cfg ∧
    turn = .cycle turn.before o ∧ (cfg.mode = .dryRun ∨ KillCompleted turn.before.world.openOrders.keys o.trace)

/-- A request that is 301 seconds old is removed, and nothing is sent to the broker. -/
theorem not_durable : ¬ ∀ adapter w acts, ∀ turn ∈ watch adapter w acts, Durable adapter turn := by
  intro h
  obtain ⟨cfg, o, hcfg, ho, hkill⟩ := h (some sampleConfig) (sampleWatch 301) killRequest _
    (List.mem_cons_of_mem _ List.mem_cons_self) ⟨.requestedAt 0, 0⟩ rfl (by decide +kernel)
  cases hcfg
  obtain ⟨-, rfl⟩ := WatchTurn.cycle.inj ho
  rcases hkill with hdry | hcompleted
  · exact absurd hdry (by decide +kernel)
  · obtain ⟨reply, hmem, -⟩ := hcompleted.working
    exact absurd (List.isEmpty_eq_false_iff_exists_mem.2 ⟨_, hmem⟩) (by decide +kernel)

end PearlAlgo
