import PearlAlgo.Coop.Lock
import PearlAlgo.Tradovate.Segments

/-!
# The pending-orders counter (`TradovateExecutionAdapter.place_bracket`)

`place_bracket` with the lock around each change of its counter. Neither body has an await, so the lock is free at every
await and `placeBracketLocked` erases to `placeBracket`; there the counter is the number of calls that wait for
`place_oso`, whichever way the calls end.
-/

namespace PearlAlgo
open Py Coop

/-- A method with `_pending_orders_lock`. -/
abbrev LockFlow (α : Type) : Type := Proc (Guarded World) (LockAnswer Answer Err) α

def World.incrementPending (w : World) : World := { w with pendingOrdersCount := w.pendingOrdersCount + 1 }

/-- `max(0, self._pending_orders_count - 1)` -/
def World.decrementPending (w : World) : World := { w with pendingOrdersCount := w.pendingOrdersCount - 1 }

/-- The request and what follows its answer, between the changes of the counter. -/
def sendEntry (sig : Signal) (sid : String) (n : Nat) (o : EntryOrder) : Flow Exit := do
  let w ← Proc.read
  let symbol := w.contractSymbol.getD ""
  let r ← Proc.ask (Request.placeOso (o.body symbol))
  settle sig sid n o symbol r

/-- `submit` with the lock; an exception while it is waited for ends the call. -/
def submitLocked (sig : Signal) (sid : String) (n : Nat) (o : EntryOrder) : LockFlow Exit := do
  (Proc.modify (World.markExecuted sid)).unguarded
  match ← Proc.withLock (Proc.modify World.incrementPending) with
  | .error e => return .error e
  | .ok () => do
    let result ← (sendEntry sig sid n o).unguarded
    match ← Proc.withLock (Proc.modify World.decrementPending) with
    | .error e => return .error e
    | .ok () => return result

def placeEntryLocked (cfg : ExecutionConfig) (sig : Signal) (sid : String) : LockFlow Exit := do
  let n ← (step (World.acceptEntry ((sig.orderQty cfg).toOption.getD 0))).unguarded
  match ← (prepare cfg sig sid).unguarded with
  | .error r => do
    (Proc.modify (World.drop n)).unguarded
    return r
  | .ok o => submitLocked sig sid n o

def placeBracketLocked (cfg : ExecutionConfig) (sig : Signal) (uuid : String) : LockFlow Exit := do
  let sid := sig.idOr uuid
  match ← (checkSignal cfg sig sid).unguarded with
  | .error r => return r
  | .ok () => do
    match ← (guardPositions cfg sig sid).unguarded with
    | .error r => return r
    | .ok () => placeEntryLocked cfg sig sid

def lockedProcOf (cfg : ExecutionConfig) : Call → LockFlow Returned
  | .placeBracket sig uuid => do return .exit (← placeBracketLocked cfg sig uuid)
  | c => (procOf cfg c).unguarded

abbrev LockedMachine : Type := Machine (Guarded World) (LockAnswer Answer Err) Returned Call EnvEvent

def lockedMachine (cfg : ExecutionConfig) : LockedMachine :=
  ⟨lockedProcOf cfg, fun e g => { g with state := envStep cfg e g.state }⟩

/-! ### Without the lock -/

section erases
variable {cfg : ExecutionConfig} {sig : Signal} {sid : String}

theorem atomic_modify (f : World → World) : (Proc.modify f : Flow Unit).Atomic := fun _ => ⟨(), rfl⟩

theorem erases_submit (n : Nat) (o : EntryOrder) : (submitLocked sig sid n o).Erases (submit sig sid n o) := by
  have hsubmit : submit sig sid n o = (Proc.modify (World.markExecuted sid) >>= fun _ =>
      (Proc.modify World.incrementPending >>= fun a => pure (Except.ok a)) >>= fun x : Except Err Unit =>
        match x with
        | .error e => pure (.error e)
        | .ok () => sendEntry sig sid n o >>= fun result =>
            (Proc.modify World.decrementPending >>= fun a => pure (Except.ok a)) >>= fun x : Except Err Unit =>
              match x with
              | .error e => pure (.error e)
              | .ok () => pure result) := rfl
  rw [hsubmit]
  refine (Proc.erases_unguarded _).bind fun _ => ?_
  refine (Proc.erases_withLock (atomic_modify _)).bind fun x => ?_
  cases x with
  | error e => exact Proc.erases_pure _
  | ok _ =>
    refine (Proc.erases_unguarded _).bind fun result => ?_
    refine (Proc.erases_withLock (atomic_modify _)).bind fun x => ?_
    cases x with
    | error e => exact Proc.erases_pure _
    | ok _ => exact Proc.erases_pure _

theorem erases_placeBracket (uuid : String) : (placeBracketLocked cfg sig uuid).Erases (placeBracket cfg sig uuid) := by
  refine (Proc.erases_unguarded _).bind fun x => ?_
  cases x with
  | error r => exact Proc.erases_pure _
  | ok _ =>
    refine (Proc.erases_unguarded _).bind fun x => ?_
    cases x with
    | error r => exact Proc.erases_pure _
    | ok _ =>
      refine (Proc.erases_unguarded _).bind fun n => ?_
      refine (Proc.erases_unguarded _).bind fun x => ?_
      cases x with
      | error r => exact (Proc.erases_unguarded _).bind fun _ => Proc.erases_pure _
      | ok o => exact erases_submit n o

theorem erases_lockedMachine (cfg : ExecutionConfig) : (lockedMachine cfg).Erases (machine cfg) where
  proc c := by
    cases c with
    | placeBracket sig uuid => exact (erases_placeBracket uuid).bind fun _ => Proc.erases_pure _
    | _ => exact Proc.erases_unguarded _
  env _ _ := rfl

end erases

/-! ### The counter -/

/-- The counter is the number of calls that wait for `place_oso`, all of which are calls of `place_bracket`. -/
structure PendingInv (v : AdapterView) : Prop where
  count : v.shared.pendingOrdersCount = v.calls.countP fun e => sends e.2
  bracket : ∀ e ∈ v.calls, sends e.2 = true → ∃ sig uuid, e.1 = .placeBracket sig uuid

section pending
variable {cfg : ExecutionConfig} {v : AdapterView} {s' : World} {t : To Request Returned} {turn : AdapterTurn}

theorem PendingInv.spawn (h : PendingInv v) {c : Call}
    (hcount : s'.pendingOrdersCount = v.shared.pendingOrdersCount + (sends t).toNat)
    (hc : sends t = true → ∃ sig uuid, c = .placeBracket sig uuid) : PendingInv ⟨s', v.calls ++ [(c, t)], turn :: v.log⟩ := by
  refine ⟨?_, fun e he hsent => ?_⟩
  · show s'.pendingOrdersCount = (v.calls ++ [(c, t)]).countP _
    rw [hcount, h.count, List.countP_append, List.countP_singleton]
    cases sends t <;> rfl
  · rcases List.mem_append.1 he with he | he
    · exact h.bracket e he hsent
    · obtain rfl := List.mem_singleton.1 he
      exact hc hsent

theorem PendingInv.resume (h : PendingInv v) {i : Nat} {c : Call} {q : Request} (hi : v.calls[i]? = some (c, .waiting q))
    (hcount : s'.pendingOrdersCount =
      v.shared.pendingOrdersCount + (sends t).toNat - (sends (.waiting q : To Request Returned)).toNat)
    (hc : sends t = true → ∃ sig uuid, c = .placeBracket sig uuid) :
    PendingInv ⟨s', v.calls.set i (c, t), turn :: v.log⟩ := by
  refine ⟨?_, fun e he hsent => ?_⟩
  · have hset := countP_set_add (p := fun e => sends e.2) hi (c, t)
    show s'.pendingOrdersCount = (v.calls.set i (c, t)).countP _
    rw [hcount, h.count, ← hset, Nat.add_sub_cancel]
  · rcases List.mem_or_eq_of_mem_set he with he | rfl
    · exact h.bracket e he hsent
    · exact hc hsent

/-- A call that waits for `place_oso` is answered by the broker. -/
theorem answersOso_answer (q : Request) (r : Answer q) :
    answersOso (.answer q r) = sends (.waiting q : To Request Returned) := by
  cases q with
  | _ => rfl

theorem envStep_pending (cfg : ExecutionConfig) (e : EnvEvent) (w : World) :
    (envStep cfg e w).pendingOrdersCount = w.pendingOrdersCount := by
  cases e with
  | wsEvent e => exact (handleWsEvent_frame e w).2.2.2.1
  | _ => rfl

theorem pendingInv_step (v : AdapterView) (a : AdapterAct) (v' : AdapterView) (h : PendingInv v) (_ : True)
    (hm : (machine cfg).Move (contract cfg) v a v') : PendingInv v' := by
  cases hm with
  | @spawn s' c t hk =>
    have other (hunsent : sends t = false) (hpending : s'.pendingOrdersCount = v.shared.pendingOrdersCount) :
        PendingInv ⟨s', v.calls ++ [(c, t)], .seg c .start v.shared s' t :: v.log⟩ :=
      h.spawn (by rw [hunsent]; exact hpending) fun hsent => absurd (hunsent.symm.trans hsent) Bool.false_ne_true
    cases c with
    | placeBracket sig uuid => exact h.spawn hk.pending fun _ => ⟨sig, uuid, rfl⟩
    | cancelAll => exact other hk.unsent hk.pending
    | flattenAllPositions => exact other hk.unsent hk.pending
    | getPositions forceRest => exact other hk.unsent hk.pending
  | @resume s' i ans c q t hi hk =>
    have other (hc : ∀ sig uuid, c ≠ .placeBracket sig uuid) (hunsent : sends t = false)
        (hpending : s'.pendingOrdersCount = v.shared.pendingOrdersCount) :
        PendingInv ⟨s', v.calls.set i (c, t), .seg c (.answer q (ans q)) v.shared s' t :: v.log⟩ := by
      have hq : sends (.waiting q : To Request Returned) = false := by
        refine Bool.eq_false_iff.2 fun hsent => ?_
        obtain ⟨sig, uuid, hbracket⟩ := h.bracket _ (List.mem_of_getElem? hi) hsent
        exact hc sig uuid hbracket
      refine h.resume hi (by rw [hunsent, hq]; exact hpending) fun hsent => ?_
      exact absurd (hunsent.symm.trans hsent) Bool.false_ne_true
    cases c with
    | placeBracket sig uuid =>
      have hpending := hk.pending
      rw [answersOso_answer] at hpending
      exact h.resume hi hpending fun _ => ⟨sig, uuid, rfl⟩
    | cancelAll => exact other (fun _ _ hc => Call.noConfusion hc) hk.unsent hk.pending
    | flattenAllPositions => exact other (fun _ _ hc => Call.noConfusion hc) hk.unsent hk.pending
    | getPositions forceRest => exact other (fun _ _ hc => Call.noConfusion hc) hk.unsent hk.pending
  | @env e => exact ⟨(envStep_pending cfg e v.shared).trans h.count, h.bracket⟩

theorem pendingInv_start (cfg : ExecutionConfig) (t : ℚ) : PendingInv (start cfg t).view :=
  ⟨rfl, fun _ he => absurd he List.not_mem_nil⟩

theorem pendingInv_of_runs {t : ℚ} {acts : List AdapterAct} {s : Sys World Answer Returned Call EnvEvent}
    (hr : Runs cfg t acts s) : PendingInv s.view :=
  (Machine.invariant (machine_obeys cfg) pendingInv_step (Machine.ok_init _) (pendingInv_start cfg t)
    (Machine.admits_true _ acts) hr).2

end pending

/-- The call has passed the increment and not ended: `place_oso` is the one await between the two changes. -/
def pastIncrement : Call × To (LockQuery Request) Returned → Bool
  | (_, .waiting (.inner (.placeOso _))) => true
  | _ => false

/-- A new adapter with its lock. -/
def lockedStart (cfg : ExecutionConfig) (t : ℚ) : Sys (Guarded World) (LockAnswer Answer Err) Returned Call EnvEvent :=
  Machine.init (.free (World.init cfg t))

/-- In every state of every run the lock is free, no call waits for it, and the counter is the number of calls between its
two changes: 0 once all calls have ended. -/
theorem pendingOrdersCount_eq {cfg : ExecutionConfig} {t : ℚ} {acts : List (Act Call EnvEvent (LockAnswer Answer Err))}
    {s : Sys (Guarded World) (LockAnswer Answer Err) Returned Call EnvEvent}
    (hrun : (lockedMachine cfg).run (lockedStart cfg t) acts = some s) :
    s.shared.locked = false ∧ (∀ e ∈ s.view.calls, e.2 ≠ .waiting .acquire) ∧
      s.shared.state.pendingOrdersCount = s.view.calls.countP pastIncrement ∧
      ((∀ e ∈ s.view.calls, e.2.isWaiting = false) → s.shared.state.pendingOrdersCount = 0) := by
  obtain ⟨s₁, hr, hs⟩ := (erases_lockedMachine cfg).run (s := start cfg t) ⟨rfl, .nil⟩ hrun
  have hinv := pendingInv_of_runs hr
  have hcalls := hs.calls
  have hcount : s.shared.state.pendingOrdersCount = s.view.calls.countP pastIncrement := by
    rw [hs.shared, hcalls, List.countP_map]
    refine hinv.count.trans (List.countP_congr fun e _ => ?_)
    rcases e with ⟨c, a | q⟩
    · exact Iff.rfl
    · cases q with
      | _ => exact Iff.rfl
  refine ⟨?_, fun e he hacquire => ?_, hcount, fun hdone => ?_⟩
  · rw [hs.shared]
    rfl
  · rw [hcalls] at he
    obtain ⟨e₁, -, rfl⟩ := List.mem_map.1 he
    rcases e₁ with ⟨c, a | q⟩
    · cases hacquire
    · cases hacquire
  · rw [hcount]
    refine List.countP_eq_zero.2 fun e he hpast => ?_
    have hended := hdone e he
    rcases e with ⟨c, a | q⟩
    · cases hpast
    · cases hended

/-- The event loop's answers, with the lock handed over at once. -/
def withGrant (ans : (q : Request) → Answer q) : (q : LockQuery Request) → LockAnswer Answer Err q
  | .inner q => ans q
  | .acquire => .ok ()

/-- Every wait is cancelled. -/
def cancelEverything : (q : Request) → Answer q
  | .getPositions _ | .getOrders | .placeOrder _ | .placeOso _ | .cancelOrder _ | .suggestContracts _ | .rollContract _
    | .findContract _ => .error .cancelled

/-- A call that is cancelled while the broker has its order. -/
def cancelledPlacing : List (Act Call EnvEvent (LockAnswer Answer Err)) :=
  [.env (.connection true true), .env tenSeconds, .spawn (.placeBracket (sampleSignal "s1") ""),
    .resume 0 (withGrant acceptAll), .resume 0 (withGrant acceptAll), .resume 0 (withGrant cancelEverything)]

theorem pendingOrdersCount_eq_cancelled :
    ∃ s, (lockedMachine sampleConfig).run (lockedStart sampleConfig 0) cancelledPlacing = some s ∧
      s.shared.locked = false ∧ (∀ e ∈ s.view.calls, e.2 ≠ .waiting .acquire) ∧
      s.shared.state.pendingOrdersCount = s.view.calls.countP pastIncrement ∧
      ((∀ e ∈ s.view.calls, e.2.isWaiting = false) → s.shared.state.pendingOrdersCount = 0) := by
  have hsome : ((lockedMachine sampleConfig).run (lockedStart sampleConfig 0) cancelledPlacing).isSome = true := by
    decide +kernel
  obtain ⟨s, hs⟩ := Option.isSome_iff_exists.1 hsome
  exact ⟨s, hs, pendingOrdersCount_eq hs⟩

end PearlAlgo
