import PearlAlgo.Lts.Reach
import PearlAlgo.Py.Dict
import Mathlib.Data.List.Nodup
import Mathlib.Logic.Function.Basic

/-!
# The executor of the broker's tasks (`data_providers/ibkr_data_executor.py`)

`submit_task`, the worker thread and `stop` as one transition system, which begins after `start()`. A step is what
a thread does between two points where another one can come in. `answered_of_safe` is about every run.
-/

namespace PearlAlgo
open Py Lts

namespace IBKRExecutor

/-- A task, with the number of the `submit_task` call and so of the future that it got. -/
structure Task where
  taskId : String
  future : Nat
deriving DecidableEq

inductive Queued
  | task (t : Task)
  | shutdown
deriving DecidableEq

/-- What a task's `execute` comes to; `exception` is one that `except Exception` catches. -/
inductive Outcome (V : Type)
  | result (v : V)
  | exception (error : String)

/-- A future is completed with what came of a task. -/
structure Completion (V : Type) where
  future : Nat
  task : Nat
  outcome : Outcome V

inductive SubmitPhase
  | new
  | accepted (taskId : String)
  /-- The executor is not running. -/
  | refused
  /-- The future is in `_results`, the task is not in the queue yet. -/
  | registered (taskId : String)
  | returned
deriving DecidableEq

inductive StopPhase
  | new
  | stopping
  | signalled
  | joining
  | returned
deriving DecidableEq

inductive Worker (V : Type)
  /-- Before `while not self._shutdown_event.is_set()`. -/
  | atLoop
  | getting
  | executing (t : Task)
  | completing (t : Task) (outcome : Outcome V)
  | ended

structure State (V : Type) where
  running : Bool
  shutdownEvent : Bool
  taskQueue : List Queued
  results : Dict String Nat
  worker : Worker V
  submits : Nat → SubmitPhase
  stops : Nat → StopPhase
  completions : List (Completion V)

variable {V : Type}

def init : State V where
  running := true
  shutdownEvent := false
  taskQueue := []
  results := .empty
  worker := .atLoop
  submits _ := .new
  stops _ := .new
  completions := []

inductive Act (V : Type)
  | submit (k : Nat) (taskId : String)
  | submitting (k : Nat)
  | stop (j : Nat)
  | stopping (j : Nat)
  | loop
  /-- `fails` where the execution of a shutdown task raises. -/
  | get (fails : Bool)
  /-- `none` where something is raised that is no `Exception`. -/
  | execute (outcome : Option (Outcome V))
  | complete

/-- The next step of a `submit_task` call: the future's entry, or the task's. -/
def submitStep (s : State V) (k : Nat) : Option (State V) :=
  match s.submits k with
  | .accepted taskId =>
    some { s with results := s.results.set taskId k, submits := Function.update s.submits k (.registered taskId) }
  | .registered taskId =>
    some { s with
      taskQueue := s.taskQueue ++ [.task ⟨taskId, k⟩]
      submits := Function.update s.submits k .returned }
  | _ => none

/-- The next step of a `stop` call; its `join` can time out. -/
def stopStep (s : State V) (j : Nat) : Option (State V) :=
  match s.stops j with
  | .stopping => some { s with shutdownEvent := true, stops := Function.update s.stops j .signalled }
  | .signalled =>
    some { s with taskQueue := s.taskQueue ++ [.shutdown], stops := Function.update s.stops j .joining }
  | .joining => some { s with running := false, stops := Function.update s.stops j .returned }
  | _ => none

/-- `self._task_queue.get(timeout=0.5)` -/
def getStep (s : State V) (fails : Bool) : State V :=
  match s.taskQueue with
  | [] => { s with worker := .atLoop }
  | .shutdown :: rest => { s with taskQueue := rest, worker := if fails then .atLoop else .ended }
  | .task t :: rest => { s with taskQueue := rest, worker := .executing t }

/-- The future of the task's id is popped and completed. -/
def completeStep (s : State V) (t : Task) (outcome : Outcome V) : State V :=
  let completed := (s.results.get? t.taskId).toList.map fun k => { future := k, task := t.future, outcome }
  { s with
    results := s.results.pop t.taskId
    worker := .atLoop
    completions := s.completions ++ completed }

def step (s : State V) : Act V → Option (State V)
  | .submit k taskId =>
    if s.submits k = .new then
      some { s with submits := Function.update s.submits k (if s.running then .accepted taskId else .refused) }
    else none
  | .submitting k => submitStep s k
  | .stop j =>
    if s.stops j = .new then
      some { s with stops := Function.update s.stops j (if s.running then .stopping else .returned) }
    else none
  | .stopping j => stopStep s j
  | .loop =>
    match s.worker with
    | .atLoop => some { s with worker := if s.shutdownEvent then .ended else .getting }
    | _ => none
  | .get fails =>
    match s.worker with
    | .getting => some (getStep s fails)
    | _ => none
  | .execute outcome =>
    match s.worker with
    | .executing t =>
      match outcome with
      | some outcome => some { s with worker := .completing t outcome }
      | none => some { s with worker := .ended }
    | _ => none
  | .complete =>
    match s.worker with
    | .completing t outcome => some (completeStep s t outcome)
    | _ => none

/-- No future is completed twice or with what came of another task, and when the worker has ended the future of every
`submit_task` call that returned is completed. -/
structure Answered (s : State V) : Prop where
  own : ∀ c ∈ s.completions, c.task = c.future
  once : (s.completions.map Completion.future).Nodup
  ended : s.worker = .ended → ∀ k, s.submits k = .returned → ∃ c ∈ s.completions, c.future = k

/-! ### Its condition -/

def tasks (queue : List Queued) : List Task :=
  queue.filterMap fun
    | .task t => some t
    | .shutdown => none

def Worker.hasEnded : Worker V → Bool
  | .ended => true
  | _ => false

/-- No id is given to a task while another one of that id is not answered, the worker leaves its loop only when no
task is queued, and no task is queued after that. -/
def safe (s : State V) : Act V → Bool
  | .submitting k =>
    match s.submits k with
    | .accepted taskId => !s.results.contains taskId
    | .registered _ => !s.worker.hasEnded
    | _ => true
  | .loop => !s.shutdownEvent || (tasks s.taskQueue).isEmpty
  | .get fails =>
    match s.taskQueue with
    | .shutdown :: rest => fails || (tasks rest).isEmpty
    | _ => true
  | .execute outcome => outcome.isSome
  | _ => true

/-! ### The invariant -/

@[simp] theorem tasks_nil : tasks [] = [] := rfl

@[simp] theorem tasks_cons_task (t : Task) (queue : List Queued) : tasks (.task t :: queue) = t :: tasks queue := rfl

@[simp] theorem tasks_cons_shutdown (queue : List Queued) : tasks (.shutdown :: queue) = tasks queue := rfl

@[simp] theorem tasks_append (q q' : List Queued) : tasks (q ++ q') = tasks q ++ tasks q' := List.filterMap_append

def Worker.current : Worker V → List Task
  | .executing t | .completing t _ => [t]
  | _ => []

/-- The tasks that the worker has or will get. -/
def State.unanswered (s : State V) : List Task := s.worker.current ++ tasks s.taskQueue

/-- The futures of these tasks, and the completed ones. -/
def State.futures (s : State V) : List Nat := s.unanswered.map Task.future ++ s.completions.map Completion.future

structure Inv (s : State V) : Prop where
  own : ∀ c ∈ s.completions, c.task = c.future
  nodup : s.futures.Nodup
  returned : ∀ k, s.submits k = .returned ↔ k ∈ s.futures
  /-- `_results` has the future of each task that is not answered, under the task's id. -/
  pending : ∀ id k, s.results.get? id = some k ↔ s.submits k = .registered id ∨ ⟨id, k⟩ ∈ s.unanswered
  ended : s.worker = .ended → s.unanswered = []

variable {s s' : State V} {a : Act V} {k : Nat}

theorem inv_init : Inv (init : State V) := by
  constructor <;> simp [init, State.futures, State.unanswered, Worker.current, Dict.get?, Dict.empty]

theorem Inv.answered (h : Inv s) : Answered s := by
  refine ⟨h.own, (List.nodup_append.1 h.nodup).2.1, fun hended k hk => ?_⟩
  have hmem := (h.returned k).1 hk
  simpa [State.futures, h.ended hended] using hmem

/-- A step that changes none of what the invariant is about, except who has a task. -/
theorem Inv.congr (h : Inv s) (hsubmits : s'.submits = s.submits) (hresults : s'.results = s.results)
    (hunanswered : s'.unanswered = s.unanswered) (hcompletions : s'.completions = s.completions)
    (hended : s'.worker = .ended → s'.unanswered = []) : Inv s' := by
  have hfutures : s'.futures = s.futures := by rw [State.futures, hunanswered, hcompletions, State.futures]
  constructor
  · rw [hcompletions]
    exact h.own
  · rw [hfutures]
    exact h.nodup
  · rw [hsubmits, hfutures]
    exact h.returned
  · rw [hresults, hsubmits, hunanswered]
    exact h.pending
  · exact hended

/-- `submit_task` looks whether the executor is running. -/
theorem Inv.submit (h : Inv s) (hnew : s.submits k = .new) {phase : SubmitPhase} (hreturned : phase ≠ .returned)
    (hregistered : ∀ id, phase ≠ .registered id) : Inv { s with submits := Function.update s.submits k phase } := by
  refine ⟨h.own, h.nodup, fun k' => ?_, fun id k' => ?_, h.ended⟩
  · show Function.update s.submits k phase k' = .returned ↔ k' ∈ s.futures
    rw [← h.returned k']
    by_cases hk : k' = k
    · subst hk
      simp [hreturned, hnew]
    · simp [hk]
  · show _ ↔ Function.update s.submits k phase k' = .registered id ∨ ⟨id, k'⟩ ∈ s.unanswered
    rw [h.pending id k']
    by_cases hk : k' = k
    · subst hk
      simp [hregistered, hnew]
    · simp [hk]

theorem Inv.notMem_unanswered (h : Inv s) (hk : s.submits k ≠ .returned) (id : String) : ⟨id, k⟩ ∉ s.unanswered := by
  intro hmem
  have hfuture : k ∈ s.unanswered.map Task.future := List.mem_map.2 ⟨⟨id, k⟩, hmem, rfl⟩
  exact hk ((h.returned k).2 (List.mem_append_left _ hfuture))

theorem Inv.register (h : Inv s) {taskId : String} (haccepted : s.submits k = .accepted taskId)
    (hfree : s.results.get? taskId = none) :
    Inv { s with results := s.results.set taskId k, submits := Function.update s.submits k (.registered taskId) } := by
  have hnotMem : ∀ id, ⟨id, k⟩ ∉ s.unanswered := h.notMem_unanswered (by simp [haccepted])
  refine ⟨h.own, h.nodup, fun k' => ?_, fun id k' => ?_, h.ended⟩
  · show Function.update s.submits k (.registered taskId) k' = .returned ↔ k' ∈ s.futures
    rw [← h.returned k']
    by_cases hk : k' = k
    · subst hk
      simp [haccepted]
    · simp [hk]
  · show (s.results.set taskId k).get? id = some k' ↔
      Function.update s.submits k (.registered taskId) k' = .registered id ∨ ⟨id, k'⟩ ∈ s.unanswered
    have hiff := h.pending id k'
    rw [Dict.get?_set]
    by_cases hid : id = taskId
    · subst hid
      by_cases hk : k' = k
      · subst hk
        simp
      · simpa [hk, Ne.symm hk, hfree] using hiff
    · by_cases hk : k' = k
      · subst hk
        simpa [hid, Ne.symm hid, haccepted, hnotMem] using hiff
      · simpa [hid, hk] using hiff

theorem Inv.put (h : Inv s) {taskId : String} (hregistered : s.submits k = .registered taskId)
    (hworker : s.worker ≠ .ended) (hs : s' = { s with
      taskQueue := s.taskQueue ++ [.task ⟨taskId, k⟩], submits := Function.update s.submits k .returned }) :
    Inv s' := by
  have hnew : k ∉ s.futures := by
    intro hmem
    have hk := (h.returned k).2 hmem
    simp [hregistered] at hk
  have hnotMem : ∀ id, ⟨id, k⟩ ∉ s.unanswered := h.notMem_unanswered (by simp [hregistered])
  have hunanswered : s'.unanswered = s.unanswered ++ [⟨taskId, k⟩] := by simp [hs, State.unanswered]
  have hcompletions : s'.completions = s.completions := by rw [hs]
  have hsubmits : s'.submits = Function.update s.submits k .returned := by rw [hs]
  have hperm : s'.futures.Perm (k :: s.futures) := by
    rw [State.futures, hunanswered, hcompletions, List.map_append, List.append_assoc]
    exact List.perm_middle
  refine ⟨?_, ?_, fun k' => ?_, fun id k' => ?_, fun hended => ?_⟩
  · rw [hcompletions]
    exact h.own
  · rw [hperm.nodup_iff]
    exact List.nodup_cons.2 ⟨hnew, h.nodup⟩
  · rw [hperm.mem_iff, List.mem_cons, hsubmits, ← h.returned k']
    by_cases hk : k' = k
    · subst hk
      simp
    · simp [hk]
  · have hresults : s'.results = s.results := by rw [hs]
    rw [hresults, hsubmits, hunanswered, h.pending id k', List.mem_append, List.mem_singleton]
    by_cases hk : k' = k
    · subst hk
      simp [hregistered, hnotMem, eq_comm]
    · simp [hk]
  · rw [hs] at hended
    exact absurd hended hworker

theorem Inv.complete (h : Inv s) {t : Task} {outcome : Outcome V} (hworker : s.worker = .completing t outcome) :
    Inv (completeStep s t outcome) := by
  have hunanswered : s.unanswered = t :: tasks s.taskQueue := by simp [State.unanswered, hworker, Worker.current]
  have hfutures : s.futures = t.future :: ((tasks s.taskQueue).map Task.future ++ s.completions.map Completion.future) := by
    rw [State.futures, hunanswered, List.map_cons, List.cons_append]
  have hget : s.results.get? t.taskId = some t.future := by
    rw [h.pending, hunanswered]
    exact .inr List.mem_cons_self
  have hcompletions : (completeStep s t outcome).completions = s.completions ++ [⟨t.future, t.future, outcome⟩] := by
    simp [completeStep, hget]
  have hrest : (completeStep s t outcome).unanswered = tasks s.taskQueue := by
    simp [completeStep, State.unanswered, Worker.current]
  have hperm : (completeStep s t outcome).futures.Perm s.futures := by
    rw [State.futures, hrest, hcompletions, hfutures, List.map_append, ← List.append_assoc]
    exact List.perm_append_singleton _ _
  have hnodup := h.nodup
  rw [hfutures, List.nodup_cons, List.mem_append] at hnodup
  refine ⟨fun c hc => ?_, ?_, fun k' => ?_, fun id k' => ?_, fun hended => ?_⟩
  · rw [hcompletions, List.mem_append, List.mem_singleton] at hc
    rcases hc with hc | rfl
    · exact h.own c hc
    · rfl
  · rw [hperm.nodup_iff]
    exact h.nodup
  · rw [hperm.mem_iff]
    exact h.returned k'
  · have hiff := h.pending id k'
    rw [hrest]
    rw [hunanswered, List.mem_cons] at hiff
    show (s.results.pop t.taskId).get? id = some k' ↔ s.submits k' = .registered id ∨ ⟨id, k'⟩ ∈ tasks s.taskQueue
    by_cases hid : id = t.taskId
    · subst hid
      have hreturned : s.submits t.future = .returned := by
        rw [h.returned, hfutures]
        exact List.mem_cons_self
      have hnone : ¬ (s.submits k' = .registered t.taskId ∨ ⟨t.taskId, k'⟩ ∈ tasks s.taskQueue) := by
        intro hpending
        have hk : k' = t.future := by
          have hsome := (h.pending t.taskId k').2 (hpending.imp_right fun hmem => hunanswered ▸ List.mem_cons_of_mem _ hmem)
          rw [hget] at hsome
          exact (Option.some.inj hsome).symm
        subst hk
        rcases hpending with hregistered | hmem
        · simp [hreturned] at hregistered
        · exact hnodup.1 (.inl (List.mem_map.2 ⟨_, hmem, rfl⟩))
      simp [Dict.get?_pop_self, hnone]
    · rw [Dict.get?_pop_ne _ hid, hiff]
      have hne : (⟨id, k'⟩ : Task) ≠ t := by
        rintro rfl
        exact hid rfl
      simp [hne]
  · cases hended

theorem Inv.step (h : Inv s) (hsafe : safe s a = true) (hstep : step s a = some s') : Inv s' := by
  cases a with
  | submit k taskId =>
    obtain ⟨hnew, ⟨⟩⟩ := Option.ite_none_right_eq_some.1 hstep
    refine h.submit hnew ?_ fun id => ?_
    · split <;> simp
    · split <;> simp
  | submitting k =>
    simp only [IBKRExecutor.step, submitStep] at hstep
    rcases hphase : s.submits k with _ | taskId | _ | taskId | _
    · simp [hphase] at hstep
    · simp only [hphase, Option.some.injEq] at hstep
      simp only [safe, hphase, Bool.not_eq_true', Dict.contains_eq_false] at hsafe
      subst hstep
      exact h.register hphase hsafe
    · simp [hphase] at hstep
    · simp only [hphase, Option.some.injEq] at hstep
      refine h.put hphase (fun hended => ?_) hstep.symm
      simp [safe, hphase, hended, Worker.hasEnded] at hsafe
    · simp [hphase] at hstep
  | stop j =>
    obtain ⟨-, ⟨⟩⟩ := Option.ite_none_right_eq_some.1 hstep
    exact h.congr rfl rfl rfl rfl h.ended
  | stopping j =>
    simp only [IBKRExecutor.step, stopStep] at hstep
    split at hstep
    · cases hstep
      exact h.congr rfl rfl rfl rfl h.ended
    · cases hstep
      have hsame : s.worker.current ++ tasks (s.taskQueue ++ [.shutdown]) = s.unanswered := by simp [State.unanswered]
      exact h.congr rfl rfl hsame rfl fun hended => hsame.trans (h.ended hended)
    · cases hstep
      exact h.congr rfl rfl rfl rfl h.ended
    · cases hstep
  | loop =>
    simp only [IBKRExecutor.step] at hstep
    rcases hworker : s.worker with _ | _ | _ | _ | _
    · simp only [hworker, Option.some.injEq] at hstep
      subst hstep
      have hsame : s.unanswered = tasks s.taskQueue := by simp [State.unanswered, hworker, Worker.current]
      refine h.congr rfl rfl ?_ rfl fun hended => ?_
      · rw [hsame]
        simp only [State.unanswered]
        split <;> rfl
      · by_cases hevent : s.shutdownEvent
        · simpa [safe, hevent, State.unanswered, Worker.current] using hsafe
        · simp [hevent] at hended
    all_goals simp [hworker] at hstep
  | get fails =>
    simp only [IBKRExecutor.step] at hstep
    rcases hworker : s.worker with _ | _ | _ | _ | _
    case getting =>
      simp only [hworker, Option.some.injEq, getStep] at hstep
      have hsame : s.unanswered = tasks s.taskQueue := by simp [State.unanswered, hworker, Worker.current]
      rcases hqueue : s.taskQueue with _ | ⟨t | _, rest⟩
      · simp only [hqueue] at hstep
        subst hstep
        refine h.congr rfl rfl ?_ rfl fun hended => ?_
        · rw [hsame, hqueue]
          simp [State.unanswered, Worker.current]
        · cases hended
      · simp only [hqueue] at hstep
        subst hstep
        refine h.congr rfl rfl ?_ rfl fun hended => ?_
        · rw [hsame, hqueue]
          rfl
        · cases hended
      · simp only [hqueue] at hstep
        subst hstep
        have hcurrent : (if fails then Worker.atLoop else Worker.ended : Worker V).current = [] := by split <;> rfl
        refine h.congr rfl rfl ?_ rfl fun hended => ?_
        · rw [hsame, hqueue]
          simp [State.unanswered, hcurrent]
        · by_cases hfails : fails
          · simp [hfails] at hended
          · simpa [safe, hqueue, hfails, State.unanswered, Worker.current] using hsafe
    all_goals simp [hworker] at hstep
  | execute outcome =>
    simp only [IBKRExecutor.step] at hstep
    rcases hworker : s.worker with _ | _ | t | _ | _
    case executing =>
      obtain ⟨outcome, rfl⟩ : ∃ o, outcome = some o := Option.isSome_iff_exists.1 hsafe
      simp only [hworker, Option.some.injEq] at hstep
      subst hstep
      refine h.congr rfl rfl ?_ rfl fun hended => ?_
      · simp [State.unanswered, hworker, Worker.current]
      · cases hended
    all_goals simp [hworker] at hstep
  | complete =>
    simp only [IBKRExecutor.step] at hstep
    rcases hworker : s.worker with _ | _ | _ | ⟨t, outcome⟩ | _
    case completing =>
      simp only [hworker, Option.some.injEq] at hstep
      subst hstep
      exact h.complete hworker
    all_goals simp [hworker] at hstep

/-- In a run whose steps meet the condition every task is answered once, with what came of it. -/
theorem answered_of_safe (h : Reach step (fun s a => safe s a = true) init s) : Answered s :=
  (h.invariant inv_init fun _ _ _ hinv hsafe hstep => hinv.step hsafe hstep).answered

def sampleActs : List (Act Unit) :=
  [.submit 0 "validate_connection", .submitting 0, .submitting 0, .submit 1 "5d0e", .submitting 1, .submitting 1, .loop,
    .get false, .execute (some (.exception "not connected")), .complete, .loop, .get false, .execute (some (.result ())),
    .complete, .loop, .stop 0, .stopping 0, .stopping 0, .get false, .stopping 0]

/-- A validation that fails and a fetch, before `stop`. -/
theorem answered_sampleRun : ∃ s : State Unit, Reach step (fun s a => safe s a = true) init s ∧
    (s.worker.hasEnded ∧ s.submits 0 = .returned ∧ s.submits 1 = .returned) ∧ Answered s := by
  obtain ⟨s, hreach, hs⟩ := exists_reach step (fun s a => safe s a = true) init sampleActs
    (fun s => s.worker.hasEnded ∧ s.submits 0 = .returned ∧ s.submits 1 = .returned) (by decide +kernel)
  exact ⟨s, hreach, of_decide_eq_true hs, answered_of_safe hreach⟩

/-- Two validations at the same time: the first one's result goes to the second one's future. -/
theorem not_answered : ¬ ∀ s : State Unit, Reach step AnyStep init s → Answered s := by
  intro hall
  obtain ⟨s, hreach, hs⟩ := exists_reach step AnyStep (init : State Unit)
    [.submit 0 "validate_connection", .submitting 0, .submitting 0, .submit 1 "validate_connection", .submitting 1,
      .submitting 1, .loop, .get false, .execute (some (.result ())), .complete]
    (fun s => s.completions.any fun c => c.task ≠ c.future) (by decide +kernel)
  obtain ⟨c, hc, hne⟩ := List.any_eq_true.1 hs
  exact of_decide_eq_true hne ((hall s hreach).own c hc)

end IBKRExecutor

end PearlAlgo
