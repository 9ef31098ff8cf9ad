import Mathlib.Data.List.Dedup
import PearlAlgo.Tradovate.Segments

/-!
# What `cancel_all` attempts (`execution/tradovate/adapter.py`)

`cancel_all` collects the tracked orders and the working orders of a listing, each once, and cancels one after the other;
each attempt turns its failure into a result. `cancelAll_covers` holds for every pattern of answers and whatever else
happens to the adapter meanwhile: unless the task itself is cancelled, each order of the union is attempted once.
-/

namespace PearlAlgo
open Py Coop

/-- A listed order that is working and can be named: `order.get("id") or order.get("orderId")`. -/
def OrderRow.Working (o : OrderRow) (n : Int) : Prop :=
  normalizeOrderStatus o ∈ workingStates ∧ orId o.id o.orderId = some n

/-- The listing succeeds and has the working order; reading it ends at what is not a dictionary. -/
def ListedWorking (r : Answer .getOrders) (n : Int) : Prop :=
  ∃ rows : List (Option OrderRow), r = .ok (some rows) ∧ ∃ o, some o ∈ rows.takeWhile Option.isSome ∧ o.Working n

/-- The task was cancelled while it waited for this answer. -/
def taskCancelled (e : (q : Request) × Answer q) : Bool :=
  match (e.2 : Except Err (Reply e.1)) with
  | .error .cancelled => true
  | _ => false

/-- The requests that the attempts to cancel the orders make; a text that is no number makes none. -/
def cancelRequests (ids : List Ident) : List Request := ids.filterMap fun i => i.map .cancelOrder

/-- The order that a result is about. -/
def resultId (i : Ident) : Option String := some (i.elim "" toString)

/-- Each order was attempted once, in order, with a result each; or the task was cancelled in one of the attempts. -/
inductive AttemptsAll (ids : List Ident) : List ((q : Request) × Answer q) → Except Err (List ExecutionResult) → Prop
  | all {trace : List ((q : Request) × Answer q)} {results : List ExecutionResult}
    (requests : trace.map Sigma.fst = cancelRequests ids)
    (reported : results.map ExecutionResult.orderId = ids.map resultId) : AttemptsAll ids trace (.ok results)
  | cancelled {trace : List ((q : Request) × Answer q)} (requests : trace.map Sigma.fst <+: cancelRequests ids)
    (task : ∃ e ∈ trace, taskCancelled e = true) : AttemptsAll ids trace (.error .cancelled)

section cancel
variable {cfg : ExecutionConfig} {env : Nat → Proc.Interval World Answer} {s : World}

/-- One attempt: a result about the order, or the task is cancelled. -/
theorem cancelOrder_attempt (hlive : cfg.mode ≠ .dryRun) (i : Ident) :
    let o := (cancelOrder cfg i).play env s
    o.trace.map Sigma.fst = cancelRequests [i] ∧
      ((∃ result, o.value = .ok result ∧ result.orderId = resultId i) ∨
        o.value = .error .cancelled ∧ ∃ e ∈ o.trace, taskCancelled e = true) := by
  unfold cancelOrder
  rw [if_neg hlive]
  cases i with
  | none => exact ⟨rfl, .inl ⟨_, rfl, rfl⟩⟩
  | some n =>
    simp only [Proc.play_ask_bind]
    cases hanswer : (env 0).answer (.cancelOrder n) with
    | ok u => exact ⟨rfl, .inl ⟨_, rfl, rfl⟩⟩
    | error e =>
      cases e with
      | cancelled => exact ⟨rfl, .inr ⟨rfl, _, List.mem_cons_self, rfl⟩⟩
      | _ => exact ⟨rfl, .inl ⟨_, rfl, rfl⟩⟩

theorem cancelRequests_cons (i : Ident) (ids : List Ident) :
    cancelRequests (i :: ids) = cancelRequests [i] ++ cancelRequests ids :=
  @List.filterMap_append _ _ [i] ids _

/-- A failure of one attempt does not keep the loop from the others. -/
theorem cancelEach_attempts (hlive : cfg.mode ≠ .dryRun) (ids : List Ident) :
    AttemptsAll ids ((cancelEach cfg ids).play env s).trace ((cancelEach cfg ids).play env s).value := by
  induction ids generalizing env s with
  | nil => exact .all rfl rfl
  | cons i ids ih =>
    obtain ⟨hfirst, ⟨result, hresult, hid⟩ | ⟨hcancelled, htask⟩⟩ := @cancelOrder_attempt cfg env s hlive i
    · rw [cancelEach, Proc.play_bind]
      generalize (cancelOrder cfg i).play env s = o at hfirst hresult
      simp only [hresult, Proc.play_bind, Proc.play_pure, List.append_nil]
      have hrest := @ih (fun n => env (n + o.trace.length)) o.state
      generalize (cancelEach cfg ids).play (fun n => env (n + o.trace.length)) o.state = o' at hrest
      obtain ⟨trace, state, value⟩ := o'
      cases hrest with
      | all hrequests hreported =>
        refine .all ?_ ?_
        · rw [List.map_append, hfirst, hrequests, ← cancelRequests_cons]
        · rw [List.map_cons, List.map_cons, hid, hreported]
      | cancelled hrequests htask =>
        refine .cancelled ?_ ?_
        · rw [List.map_append, hfirst, cancelRequests_cons i ids]
          exact (List.prefix_append_right_inj _).2 hrequests
        · obtain ⟨e, he, hcancelled⟩ := htask
          exact ⟨e, List.mem_append_right _ he, hcancelled⟩
    · rw [cancelEach, Proc.play_bind]
      generalize (cancelOrder cfg i).play env s = o at hfirst hcancelled htask
      simp only [hcancelled, Proc.play_pure, List.append_nil]
      refine .cancelled ?_ htask
      rw [hfirst, cancelRequests_cons i ids]
      exact List.prefix_append _ _

theorem mem_workingOrderIds {rows : List (Option OrderRow)} {i : Ident} :
    i ∈ workingOrderIds rows ↔ ∃ n, i = some n ∧ ∃ o, some o ∈ rows.takeWhile Option.isSome ∧ o.Working n := by
  induction rows with
  | nil => simp [workingOrderIds]
  | cons row rows ih =>
    cases row with
    | none => simp [workingOrderIds]
    | some o =>
      have hrest : (∃ n, i = some n ∧ ∃ o', some o' ∈ (some o :: rows).takeWhile Option.isSome ∧ o'.Working n) ↔
          (∃ n, i = some n ∧ o.Working n) ∨ i ∈ workingOrderIds rows := by
        rw [ih, List.takeWhile_cons_of_pos rfl]
        simp only [List.mem_cons, Option.some.injEq]
        constructor
        · rintro ⟨n, hi, o', rfl | hmem, hworking⟩
          · exact .inl ⟨n, hi, hworking⟩
          · exact .inr ⟨n, hi, o', hmem, hworking⟩
        · rintro (⟨n, hi, hworking⟩ | ⟨n, hi, o', hmem, hworking⟩)
          · exact ⟨n, hi, o, .inl rfl, hworking⟩
          · exact ⟨n, hi, o', .inr hmem, hworking⟩
      rw [hrest, workingOrderIds]
      by_cases hstatus : normalizeOrderStatus o ∈ workingStates
      · rw [if_neg (not_not.2 hstatus)]
        cases hid : orId o.id o.orderId with
        | none => simp [OrderRow.Working, hid]
        | some n =>
          have hworking : (∃ m, i = some m ∧ o.Working m) ↔ i = some n := by
            simp [OrderRow.Working, hid, hstatus]
          rw [hworking, List.mem_cons]
      · rw [if_pos hstatus]
        have hidle : ¬ ∃ n, i = some n ∧ o.Working n := by
          rintro ⟨_, _, hworking⟩
          exact hstatus hworking.1
        simp only [hidle, false_or]

theorem mem_listedOrderIds {r : Answer .getOrders} {i : Ident} :
    i ∈ listedOrderIds r ↔ ∃ n, i = some n ∧ ListedWorking r n := by
  have hnone (h : ∀ rows, r ≠ .ok (some rows)) : ¬ ∃ n, i = some n ∧ ListedWorking r n :=
    fun ⟨_, _, rows, hr, _⟩ => h rows hr
  unfold listedOrderIds
  split
  next rows =>
    rw [mem_workingOrderIds]
    refine exists_congr fun n => and_congr_right fun _ => ?_
    constructor
    · rintro ⟨o, ho⟩
      exact ⟨rows, rfl, o, ho⟩
    · rintro ⟨rows', hrows, o, ho⟩
      cases hrows
      exact ⟨o, ho⟩
  next hother => exact iff_of_false List.not_mem_nil (hnone hother)

/-- What `cancel_all` has done at its end: disarmed the adapter, unless others have armed it meanwhile, and attempted to
cancel each tracked or listed order once, with a result each, unless the task was cancelled under way. -/
structure CancelAllDone (env : Nat → Proc.Interval World Answer) (s : World)
    (o : Proc.Outcome World Answer (Except Err (List ExecutionResult))) : Prop where
  disarmed : (∀ n w, w.base.armed = false → ((env n).others w).base.armed = false) → o.state.base.armed = false
  attempts : ∃ (r : Answer .getOrders) (rest : List ((q : Request) × Answer q)) (ids : List Ident),
    o.trace = ⟨.getOrders, r⟩ :: rest ∧ ids.Nodup ∧
      (∀ i, i ∈ ids ↔ i ∈ s.openOrders.keys ∨ ∃ n, i = some n ∧ ListedWorking r n) ∧
      (rest.map Sigma.fst = cancelRequests ids ∧
          (∃ results, o.value = .ok results ∧
            results.map ExecutionResult.orderId = if ids = [] then [none] else ids.map resultId) ∨
        (∃ e ∈ o.trace, taskCancelled e = true) ∧ o.value = .error .cancelled ∧
          rest.map Sigma.fst <+: cancelRequests ids)

/-- A segment of the kill switch that begins disarmed ends disarmed. -/
def StaysDisarmed (_ : From Answer) (s₀ s : World) : Prop := s₀.base.armed = false → s.base.armed = false

theorem stable_staysDisarmed (S : Request → Prop) :
    Proc.Stable S (fun w s₀ s _ => StaysDisarmed w s₀ s) StaysDisarmed where
  pause _ h := h
  resume _ _ _ := id

theorem mem_dedupKeepFirst {l : List Ident} {i : Ident} : i ∈ dedupKeepFirst l ↔ i ∈ l := by
  rw [dedupKeepFirst, List.mem_reverse, List.mem_dedup, List.mem_reverse]

theorem nodup_dedupKeepFirst (l : List Ident) : (dedupKeepFirst l).Nodup :=
  List.nodup_reverse.2 (List.nodup_dedup _)

/-- `cancel_all` outside the dry run disarms and attempts every cancellation, for all tracked orders, all listings and
all failures. -/
theorem cancelAll_covers (hlive : cfg.mode ≠ .dryRun) : CancelAllDone env s ((cancelAll cfg).play env s) where
  disarmed hothers := by
    have hsegments : (cancelAll cfg).wp (fun w s₀ s _ => StaysDisarmed w s₀ s) (fun _ => StaysDisarmed) .start s.disarm s :=
      cancelAll_wp (stable_staysDisarmed _) (fun _ _ _ _ h => h) fun _ => rfl
    exact Proc.play_of_wp (cancelAll cfg) env hothers hsegments rfl
  attempts := by
    simp only [cancelAll, Proc.play_modify_bind]
    rw [if_neg hlive]
    simp only [Proc.play_read_bind, Proc.play_ask_bind]
    let ids := dedupKeepFirst (s.openOrders.keys ++ listedOrderIds ((env 0).answer .getOrders))
    have hids (i : Ident) : i ∈ ids ↔
        i ∈ s.openOrders.keys ∨ ∃ n, i = some n ∧ ListedWorking ((env 0).answer .getOrders) n := by
      rw [mem_dedupKeepFirst, List.mem_append, mem_listedOrderIds]
    refine ⟨(env 0).answer .getOrders, _, ids, rfl, nodup_dedupKeepFirst _, hids, ?_⟩
    split
    next hcancelled =>
      -- the task is cancelled while it waits for the listing
      refine .inr ⟨⟨_, List.mem_cons_self, ?_⟩, rfl, List.nil_prefix⟩
      simp only [taskCancelled, hcancelled]
    next =>
      have hids : dedupKeepFirst (s.disarm.openOrders.keys ++ listedOrderIds ((env 0).answer .getOrders)) = ids := rfl
      have hloop := @cancelEach_attempts cfg (fun n => env (n + 1)) ((env 0).others s.disarm) hlive ids
      rw [Proc.play_bind, hids]
      generalize (cancelEach cfg ids).play (fun n => env (n + 1)) ((env 0).others s.disarm) = o at hloop ⊢
      obtain ⟨trace, state, value⟩ := o
      cases hloop with
      | @all results hrequests hreported =>
        have hrest (value : List ExecutionResult) (hvalue : value.map ExecutionResult.orderId =
            if ids = [] then [none] else ids.map resultId) :
            (trace ++ []).map Sigma.fst = cancelRequests ids ∧ ∃ results, (Except.ok value : Except Err _) = .ok results ∧
              results.map ExecutionResult.orderId = if ids = [] then [none] else ids.map resultId :=
          ⟨by rw [List.append_nil]; exact hrequests, value, rfl, hvalue⟩
        cases results with
        | nil =>
          have hnil : ids = [] := List.map_eq_nil_iff.1 hreported.symm
          exact .inl (hrest _ (by rw [if_pos hnil]; rfl))
        | cons result results =>
          have hne : ids ≠ [] := fun hnil => by rw [hnil] at hreported; cases hreported
          exact .inl (hrest _ (by rw [if_neg hne]; exact hreported))
      | cancelled hrequests htask =>
        obtain ⟨e, he, hcancelled⟩ := htask
        refine .inr ⟨⟨e, ?_, hcancelled⟩, rfl, ?_⟩
        · exact List.mem_cons_of_mem _ (List.mem_append_left _ he)
        · show (trace ++ []).map Sigma.fst <+: _
          rw [List.append_nil]
          exact hrequests

end cancel

/-- Two tracked orders. -/
def trackedWorld : World :=
  { World.init sampleConfig 0 with
    openOrders := (Dict.empty.set (some 1) ⟨"s1", "long", "MNQH6", 1, 0⟩).set (some 2) ⟨"s2", "short", "MNQH6", 1, 0⟩ }

/-- The listing and every cancellation time out. -/
theorem cancelAll_covers_timeouts :
    CancelAllDone (fun _ => ⟨fun _ => .error .timeout, id⟩) trackedWorld
      ((cancelAll sampleConfig).play (fun _ => ⟨fun _ => .error .timeout, id⟩) trackedWorld) :=
  cancelAll_covers (by decide +kernel)

end PearlAlgo
