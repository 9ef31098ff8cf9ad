import Mathlib.Data.List.Nodup
import PearlAlgo.Lts.Reach
import PearlAlgo.Py.Heapq

/-!
# The write queue (`storage/async_sqlite_queue.py`)

`enqueue`, the worker thread and `stop`, as one transition system. A step is what a thread does between two
points where another one can come in: a call of the priority queue, the overflow lock, the shutdown event, a
write. The system begins after `start()`. `QueueSys.accounted`: each accepted write is in one place.
-/

namespace PearlAlgo
open Py Lts

inductive WritePriority
  | high
  | medium
  | low
deriving DecidableEq

namespace WritePriority

def value : WritePriority → Nat
  | high => 1
  | medium => 2
  | low => 3

end WritePriority

/-- `call` numbers the call of `enqueue` that made it. -/
structure QueuedWrite where
  priority : WritePriority
  operation : String
  call : Nat
deriving DecidableEq

/-- `__lt__` compares this. -/
def QueuedWrite.rank (w : QueuedWrite) : Nat := w.priority.value

/-- The operations that `_execute_write` hands to the database. -/
def operations : List String := ["add_trade", "add_signal_event", "add_cycle_diagnostics", "add_regime_snapshot"]

inductive WriteOutcome
  | written
  | raised
  /-- Only a warning is logged. -/
  | unknownOperation
deriving DecidableEq

/-- A call of `_execute_write`; `dbRaises` where the method of the database would raise. -/
structure Execution where
  write : QueuedWrite
  fromOverflow : Bool
  dbRaises : Bool
deriving DecidableEq

def Execution.outcome (e : Execution) : WriteOutcome :=
  if e.write.operation ∈ operations then if e.dbRaises then .raised else .written else .unknownOperation

def MAX_OVERFLOW_SIZE : Nat := 1000

structure AsyncSQLiteQueue where
  maxQueueSize : Int
  queue : PriorityQueue QueuedWrite.rank := .empty
  overflow : List QueuedWrite := []
  running : Bool := true
  shutdownEvent : Bool := false
  totalWrites : Nat := 0
  totalErrors : Nat := 0

/-- `put` would find the queue full. -/
def AsyncSQLiteQueue.Full (q : AsyncSQLiteQueue) : Prop := 0 < q.maxQueueSize ∧ q.maxQueueSize ≤ q.queue.qsize

instance (q : AsyncSQLiteQueue) : Decidable q.Full := inferInstanceAs (Decidable (_ ∧ _))

inductive EnqueuePc
  /-- Before `put_nowait`. -/
  | putting
  /-- In `put(timeout=0.1)`. -/
  | waiting
  /-- Before the overflow lock. -/
  | spilling
  | returned (accepted : Bool)
deriving DecidableEq

structure EnqueueCall where
  write : QueuedWrite
  pc : EnqueuePc
deriving DecidableEq

inductive StopPc
  | signalling
  | joining
  | joined
  | returned
deriving DecidableEq

inductive WorkerPc
  /-- Before the test of the shutdown event. -/
  | checking
  | draining
  /-- In the loop over the batch, and after it in `get(timeout=0.5)`. -/
  | batch (overflowBatch : List QueuedWrite)
  | writing (write : QueuedWrite)
  /-- Before the overflow is taken for the last time. -/
  | leaving
  | flushingOverflow (overflowRemaining : List QueuedWrite)
  /-- Before the test of the flush loop. -/
  | flushing (remaining flushed : Nat)
  | flushWriting (write : QueuedWrite) (remaining flushed : Nat)
  | exited
deriving DecidableEq

namespace WorkerPc

/-- The write that the worker has taken from the queue. -/
def executing : WorkerPc → Option QueuedWrite
  | writing w => some w
  | flushWriting w _ _ => some w
  | _ => none

/-- What the worker has taken from the overflow and not yet executed. -/
def overflowBatch : WorkerPc → List QueuedWrite
  | batch b => b
  | flushingOverflow b => b
  | _ => []

/-- The worker does not look into the overflow again. -/
def leftOverflow : WorkerPc → Bool
  | flushingOverflow _ => true
  | flushing _ _ => true
  | flushWriting _ _ _ => true
  | exited => true
  | _ => false

end WorkerPc

/-- The queue with its threads. No code reads the lists `executed`, `enqueued` (what was put into the queue or the
overflow), `spilled` (what was put into the overflow), `evicted`, and `drained`, the length of `spilled` when
the worker last emptied the overflow. -/
structure QueueSys extends AsyncSQLiteQueue where
  worker : WorkerPc := .checking
  calls : List EnqueueCall := []
  stops : List StopPc := []
  executed : List Execution := []
  enqueued : List QueuedWrite := []
  spilled : List QueuedWrite := []
  evicted : List QueuedWrite := []
  drained : Nat := 0

inductive QueueAct
  /-- A call of `enqueue` begins. -/
  | enqueue (operation : String) (priority : WritePriority)
  /-- The `i`-th call of `enqueue` goes on. -/
  | call (i : Nat)
  /-- The worker goes on; `dbRaises` where the method of the database that it calls raises. -/
  | worker (dbRaises : Bool)
  /-- A call of `stop` begins. -/
  | stop
  /-- The `i`-th call of `stop` goes on; in `join`, when the worker has exited or the time is over. -/
  | stopping (i : Nat)

namespace QueueSys

def start (maxQueueSize : Int) : QueueSys := { maxQueueSize }

def put (s : QueueSys) (w : QueuedWrite) : QueueSys :=
  { s with queue := s.queue.put w, enqueued := s.enqueued ++ [w] }

def takeOverflow (s : QueueSys) : QueueSys := { s with overflow := [], drained := s.spilled.length }

/-- `self._overflow.pop(0)` -/
def evict (s : QueueSys) : QueueSys :=
  { s with overflow := s.overflow.tail, evicted := s.evicted ++ s.overflow.take 1 }

/-- The write joins the overflow; at its cap, the oldest one leaves it. -/
def spill (s : QueueSys) (w : QueuedWrite) : QueueSys :=
  let s := if MAX_OVERFLOW_SIZE ≤ s.overflow.length then s.evict else s
  { s with overflow := s.overflow ++ [w], enqueued := s.enqueued ++ [w], spilled := s.spilled ++ [w] }

/-- `_execute_write` with the counters. -/
def execute (s : QueueSys) (e : Execution) : QueueSys :=
  { s with
    executed := s.executed ++ [e]
    totalErrors := if e.outcome = .raised then s.totalErrors + 1 else s.totalErrors
    totalWrites := if e.outcome = .raised then s.totalWrites else s.totalWrites + 1 }

/-- A call of `enqueue`, up to `put_nowait`. -/
def enqueue (s : QueueSys) (operation : String) (priority : WritePriority) : QueueSys :=
  { s with
    calls := s.calls ++ [⟨⟨priority, operation, s.calls.length⟩, if s.running then .putting else .returned false⟩] }

/-- What a call of `enqueue` does next. -/
def enqueueStep (s : QueueSys) (c : EnqueueCall) : Option (QueueSys × EnqueuePc) :=
  match c.pc with
  | .putting =>
    if s.Full then
      match c.write.priority with
      | .high => some (s, .spilling)
      | .medium => some (s, .waiting)
      | .low => some (s, .returned false)
    else some (s.put c.write, .returned true)
  | .waiting => if s.Full then some (s, .returned false) else some (s.put c.write, .returned true)
  | .spilling => some (s.spill c.write, .returned true)
  | .returned _ => none

/-- `_worker_loop` -/
def workerStep (s : QueueSys) (dbRaises : Bool) : Option QueueSys :=
  match s.worker with
  | .checking => some { s with worker := if s.shutdownEvent then .leaving else .draining }
  | .draining => some { s.takeOverflow with worker := .batch s.overflow }
  | .batch (w :: b) => some { s.execute ⟨w, true, dbRaises⟩ with worker := .batch b }
  | .batch [] =>
    match s.queue.get? with
    | none => some { s with worker := .checking }
    | some (w, queue) => some { s with queue, worker := .writing w }
  | .writing w => some { s.execute ⟨w, false, dbRaises⟩ with worker := .checking }
  | .leaving => some { s.takeOverflow with worker := .flushingOverflow s.overflow }
  | .flushingOverflow (w :: b) => some { s.execute ⟨w, true, dbRaises⟩ with worker := .flushingOverflow b }
  | .flushingOverflow [] =>
    some { s with worker := if 0 < s.queue.qsize then .flushing s.queue.qsize 0 else .exited }
  | .flushing remaining flushed =>
    match s.queue.get? with
    | none => some { s with worker := .exited }
    | some (w, queue) =>
      if flushed < remaining then some { s with queue, worker := .flushWriting w remaining flushed }
      else some { s with worker := .exited }
  | .flushWriting w remaining flushed =>
    let e : Execution := ⟨w, false, dbRaises⟩
    some { s.execute e with worker := .flushing remaining (if e.outcome = .raised then flushed else flushed + 1) }
  | .exited => none

/-- What a call of `stop` does next. -/
def stopStep (s : QueueSys) : StopPc → Option (QueueSys × StopPc)
  | .signalling => some ({ s with shutdownEvent := true }, .joining)
  | .joining => some (s, .joined)
  | .joined => some ({ s with running := false }, .returned)
  | .returned => none

def step (s : QueueSys) : QueueAct → Option QueueSys
  | .enqueue operation priority => some (s.enqueue operation priority)
  | .call i => do
    let c ← s.calls[i]?
    let (s', pc) ← s.enqueueStep c
    return { s' with calls := s.calls.set i { c with pc } }
  | .worker dbRaises => s.workerStep dbRaises
  | .stop => some { s with stops := s.stops ++ [if s.running then .signalling else .returned] }
  | .stopping i => do
    let pc ← s.stops[i]?
    let (s', pc) ← s.stopStep pc
    return { s' with stops := s.stops.set i pc }

/-! ### What a step does -/

/-- What the worker does, as far as the places of the writes tell. -/
inductive WorkerMove (s : QueueSys) : QueueSys → Prop
  /-- It goes on without a write. -/
  | turn {pc : WorkerPc} (hbatch : s.worker.overflowBatch = []) (hexecuting : s.worker.executing = none)
    (hbatch' : pc.overflowBatch = []) (hexecuting' : pc.executing = none)
    (hleft : pc.leftOverflow = s.worker.leftOverflow)
    (hexit : pc = .exited → s.queue.items = [] ∨ ∃ r f, s.worker = .flushing r f ∧ r ≤ f) :
    WorkerMove s { s with worker := pc }
  | drain {pc : WorkerPc} (hbatch : s.worker.overflowBatch = []) (hexecuting : s.worker.executing = none)
    (hbatch' : pc.overflowBatch = s.overflow) (hexecuting' : pc.executing = none) (hexit : pc ≠ .exited) :
    WorkerMove s { s.takeOverflow with worker := pc }
  | overflowWrite {pc : WorkerPc} {w : QueuedWrite} {b : List QueuedWrite} {dbRaises : Bool}
    (hbatch : s.worker.overflowBatch = w :: b) (hexecuting : s.worker.executing = none)
    (hbatch' : pc.overflowBatch = b) (hexecuting' : pc.executing = none)
    (hleft : pc.leftOverflow = s.worker.leftOverflow) (hexit : pc ≠ .exited) :
    WorkerMove s { s.execute ⟨w, true, dbRaises⟩ with worker := pc }
  | take {pc : WorkerPc} {w : QueuedWrite} {queue : PriorityQueue QueuedWrite.rank}
    (hget : s.queue.get? = some (w, queue)) (hbatch : s.worker.overflowBatch = [])
    (hexecuting : s.worker.executing = none) (hbatch' : pc.overflowBatch = []) (hexecuting' : pc.executing = some w)
    (hleft : pc.leftOverflow = s.worker.leftOverflow) (hexit : pc ≠ .exited) :
    WorkerMove s { s with queue, worker := pc }
  | write {pc : WorkerPc} {w : QueuedWrite} {dbRaises : Bool} (hbatch : s.worker.overflowBatch = [])
    (hexecuting : s.worker.executing = some w) (hbatch' : pc.overflowBatch = []) (hexecuting' : pc.executing = none)
    (hleft : pc.leftOverflow = s.worker.leftOverflow) (hexit : pc ≠ .exited) :
    WorkerMove s { s.execute ⟨w, false, dbRaises⟩ with worker := pc }

variable {s s' : QueueSys}

theorem workerStep_move {dbRaises : Bool} (h : s.workerStep dbRaises = some s') :
    s.WorkerMove s' ∧ s.worker ≠ .exited := by
  rcases hw : s.worker with _ | _ | (_ | ⟨w, b⟩) | w | _ | (_ | ⟨w, b⟩) | ⟨r, f⟩ | ⟨w, r, f⟩ | _ <;>
    simp only [workerStep, hw] at h
  case checking =>
    cases h
    cases s.shutdownEvent <;>
      exact ⟨.turn (by rw [hw]; rfl) (by rw [hw]; rfl) rfl rfl (by rw [hw]; rfl) nofun, nofun⟩
  case draining =>
    cases h
    exact ⟨.drain (by rw [hw]; rfl) (by rw [hw]; rfl) rfl rfl nofun, nofun⟩
  case batch.nil =>
    split at h
    · cases h
      exact ⟨.turn (by rw [hw]; rfl) (by rw [hw]; rfl) rfl rfl (by rw [hw]; rfl) nofun, nofun⟩
    next w queue hget =>
      cases h
      exact ⟨.take hget (by rw [hw]; rfl) (by rw [hw]; rfl) rfl rfl (by rw [hw]; rfl) nofun, nofun⟩
  case batch.cons =>
    cases h
    exact ⟨.overflowWrite (by rw [hw]; rfl) (by rw [hw]; rfl) rfl rfl (by rw [hw]; rfl) nofun, nofun⟩
  case writing =>
    cases h
    exact ⟨.write (by rw [hw]; rfl) (by rw [hw]; rfl) rfl rfl (by rw [hw]; rfl) nofun, nofun⟩
  case leaving =>
    cases h
    exact ⟨.drain (by rw [hw]; rfl) (by rw [hw]; rfl) rfl rfl nofun, nofun⟩
  case flushingOverflow.nil =>
    cases h
    by_cases hq : 0 < s.queue.qsize
    · rw [if_pos hq]
      exact ⟨.turn (by rw [hw]; rfl) (by rw [hw]; rfl) rfl rfl (by rw [hw]; rfl) nofun, nofun⟩
    · rw [if_neg hq]
      refine ⟨.turn (by rw [hw]; rfl) (by rw [hw]; rfl) rfl rfl (by rw [hw]; rfl) fun _ => .inl ?_, nofun⟩
      exact List.length_eq_zero_iff.1 (by rw [PriorityQueue.length_items]; omega)
  case flushingOverflow.cons =>
    cases h
    exact ⟨.overflowWrite (by rw [hw]; rfl) (by rw [hw]; rfl) rfl rfl (by rw [hw]; rfl) nofun, nofun⟩
  case flushing =>
    split at h
    next hget =>
      cases h
      exact ⟨.turn (by rw [hw]; rfl) (by rw [hw]; rfl) rfl rfl (by rw [hw]; rfl)
        fun _ => .inl (PriorityQueue.get?_eq_none.1 hget), nofun⟩
    next w queue hget =>
      split at h
      · cases h
        exact ⟨.take hget (by rw [hw]; rfl) (by rw [hw]; rfl) rfl rfl (by rw [hw]; rfl) nofun, nofun⟩
      next hbudget =>
        cases h
        exact ⟨.turn (by rw [hw]; rfl) (by rw [hw]; rfl) rfl rfl (by rw [hw]; rfl)
          fun _ => .inr ⟨r, f, hw, not_lt.1 hbudget⟩, nofun⟩
  case flushWriting =>
    cases h
    exact ⟨.write (by rw [hw]; rfl) (by rw [hw]; rfl) rfl rfl (by rw [hw]; rfl) nofun, nofun⟩
  case exited => cases h

theorem enqueueStep_cases {c : EnqueueCall} {pc : EnqueuePc} (h : s.enqueueStep c = some (s', pc)) :
    (s' = s ∧ pc ≠ .returned true) ∨
    (s' = s.put c.write ∧ pc = .returned true ∧ c.pc ≠ .spilling ∧ ¬ s.Full) ∨
    (s' = s.spill c.write ∧ pc = .returned true ∧ c.pc = .spilling) := by
  unfold enqueueStep at h
  split at h
  next hpc =>
    split at h
    · split at h <;> cases h <;> exact .inl ⟨rfl, nofun⟩
    next hfull =>
      cases h
      exact .inr (.inl ⟨rfl, rfl, by rw [hpc]; nofun, hfull⟩)
  next hpc =>
    split at h
    · cases h
      exact .inl ⟨rfl, nofun⟩
    next hfull =>
      cases h
      exact .inr (.inl ⟨rfl, rfl, by rw [hpc]; nofun, hfull⟩)
  next hpc =>
    cases h
    exact .inr (.inr ⟨rfl, rfl, hpc⟩)
  · cases h

theorem stopStep_cases {pc pc' : StopPc} (h : s.stopStep pc = some (s', pc')) :
    (pc = .signalling ∧ s' = { s with shutdownEvent := true } ∧ pc' = .joining) ∨
    (pc = .joining ∧ s' = s ∧ pc' = .joined) ∨
    (pc = .joined ∧ s' = { s with running := false } ∧ pc' = .returned) := by
  cases pc <;> cases h
  · exact .inl ⟨rfl, rfl, rfl⟩
  · exact .inr (.inl ⟨rfl, rfl, rfl⟩)
  · exact .inr (.inr ⟨rfl, rfl, rfl⟩)

/-! ### Where the accepted writes are -/

end QueueSys

/-- The write, when the call has returned `True`. -/
def EnqueueCall.accepted (c : EnqueueCall) : Option QueuedWrite :=
  if c.pc = .returned true then some c.write else none

theorem EnqueueCall.accepted_of_ne {c : EnqueueCall} (h : c.pc ≠ .returned true) : c.accepted = none := if_neg h

theorem filterMap_set_perm {α β : Type} (f : α → Option β) {l : List α} {i : Nat} {a : α} (h : l[i]? = some a)
    (hf : f a = none) (a' : α) : ((l.set i a').filterMap f).Perm ((f a').toList ++ l.filterMap f) := by
  induction l generalizing i with
  | nil => cases h
  | cons b l ih =>
    cases i with
    | zero =>
      obtain rfl : b = a := Option.some.inj h
      rw [List.set_cons_zero, List.filterMap_cons, List.filterMap_cons, hf]
      cases f a' <;> exact .refl _
    | succ i =>
      rw [List.set_cons_succ, List.filterMap_cons, List.filterMap_cons]
      cases f b with
      | none => exact ih h
      | some b' => exact ((ih h).cons b').trans List.perm_middle.symm

theorem map_set_of_eq {α β : Type} {f : α → β} {l : List α} {i : Nat} {a a' : α} (h : l[i]? = some a)
    (hf : f a' = f a) : (l.set i a').map f = l.map f := by
  induction l generalizing i with
  | nil => rfl
  | cons b l ih =>
    cases i with
    | zero =>
      obtain rfl : b = a := Option.some.inj h
      rw [List.set_cons_zero, List.map_cons, List.map_cons, hf]
    | succ i => rw [List.set_cons_succ, List.map_cons, List.map_cons, ih h]

namespace QueueSys

def accepted (s : QueueSys) : List QueuedWrite := s.calls.filterMap EnqueueCall.accepted

/-- The writes wherever they can be. -/
def places (s : QueueSys) : List QueuedWrite :=
  s.executed.map (·.write) ++ (s.worker.overflowBatch ++ (s.worker.executing.toList ++
    (s.overflow ++ (s.queue.items ++ s.evicted))))

/-- Each accepted write is in one place, and no other write is. -/
structure Accounted (s : QueueSys) : Prop where
  numbered : s.calls.map (·.write.call) = List.range s.calls.length
  places : s.places.Perm s.accepted

variable {s s' : QueueSys}

theorem WorkerMove.places (h : s.WorkerMove s') : s'.places.Perm s.places := by
  cases h with
  | turn hbatch hexecuting hbatch' hexecuting' =>
    simp only [QueueSys.places, hbatch, hexecuting, hbatch', hexecuting']
    exact .refl _
  | drain hbatch hexecuting hbatch' hexecuting' =>
    simp only [QueueSys.places, takeOverflow, hbatch, hexecuting, hbatch', hexecuting']
    exact .refl _
  | overflowWrite hbatch hexecuting hbatch' hexecuting' =>
    simp [QueueSys.places, execute, hbatch, hexecuting, hbatch', hexecuting']
  | take hget hbatch hexecuting hbatch' hexecuting' =>
    simp only [QueueSys.places, hbatch, hexecuting, hbatch', hexecuting', List.nil_append, Option.toList_some,
      Option.toList_none, List.singleton_append]
    refine .append_left _ ?_
    have hperm := (PriorityQueue.get?_eq_some hget).1
    refine List.perm_middle.symm.trans (.append_left _ ?_)
    exact (hperm.append_right s.evicted).symm
  | write hbatch hexecuting hbatch' hexecuting' =>
    simp [QueueSys.places, execute, hbatch, hexecuting, hbatch', hexecuting']

theorem places_put (w : QueuedWrite) : (s.put w).places.Perm (w :: s.places) := by
  refine List.perm_iff_count.2 fun a => ?_
  have hput := (PriorityQueue.items_put s.queue w).count_eq a
  simp only [places, put, List.count_append, List.count_cons] at hput ⊢
  omega

theorem places_evict : s.evict.places.Perm s.places := by
  refine List.perm_iff_count.2 fun a => ?_
  rcases hoverflow : s.overflow with _ | ⟨w, rest⟩
  · simp [places, evict, hoverflow]
  · simp only [places, evict, hoverflow, List.tail_cons, List.take_succ_cons, List.take_zero, List.count_append,
      List.count_cons, List.count_nil]
    omega

theorem places_spill (w : QueuedWrite) : (s.spill w).places.Perm (w :: s.places) := by
  have happend (s : QueueSys) (e l : List QueuedWrite) :
      places { s with overflow := s.overflow ++ [w], enqueued := e, spilled := l } |>.Perm (w :: s.places) := by
    refine List.perm_iff_count.2 fun a => ?_
    simp only [places, List.count_append, List.count_cons, List.count_nil]
    omega
  unfold spill
  refine (happend _ _ _).trans (.cons w ?_)
  split
  · exact places_evict
  · exact .refl _

theorem enqueueStep_places {c : EnqueueCall} {pc : EnqueuePc} (h : s.enqueueStep c = some (s', pc)) :
    s'.places.Perm (({ c with pc } : EnqueueCall).accepted.toList ++ s.places) := by
  rcases enqueueStep_cases h with ⟨rfl, hpc⟩ | ⟨rfl, rfl, -, -⟩ | ⟨rfl, rfl, -⟩
  · rw [EnqueueCall.accepted_of_ne hpc]
    exact .refl _
  · exact places_put c.write
  · exact places_spill c.write

theorem enqueueStep_pc {c : EnqueueCall} {pc : EnqueuePc} (h : s.enqueueStep c = some (s', pc)) :
    c.pc ≠ .returned true := by
  intro hpc
  simp [enqueueStep, hpc] at h

theorem step_accounted {a : QueueAct} (h : s.step a = some s') (hs : s.Accounted) : s'.Accounted := by
  cases a with
  | enqueue operation priority =>
    cases h
    constructor
    · rw [enqueue, List.map_append, hs.numbered, List.length_append]
      exact List.range_succ.symm
    · have hnew : (s.enqueue operation priority).accepted = s.accepted := by
        rw [accepted, enqueue, List.filterMap_append, List.filterMap_cons, EnqueueCall.accepted_of_ne, List.filterMap_nil]
        · exact List.append_nil _
        · show (if s.running then EnqueuePc.putting else .returned false) ≠ _
          split <;> nofun
      rw [hnew]
      exact hs.places
  | call i =>
    simp only [step, Option.bind_eq_bind, Option.bind_eq_some_iff] at h
    obtain ⟨c, hc, ⟨s₁, pc⟩, hstep, h⟩ := h
    cases h
    constructor
    · show (s.calls.set i { c with pc }).map (fun c => c.write.call) = List.range (s.calls.set i _).length
      rw [map_set_of_eq hc, hs.numbered, List.length_set]
      rfl
    · have haccepted := filterMap_set_perm EnqueueCall.accepted hc
        (EnqueueCall.accepted_of_ne (enqueueStep_pc hstep)) { c with pc }
      exact (enqueueStep_places hstep).trans ((hs.places.append_left _).trans haccepted.symm)
  | worker dbRaises =>
    obtain ⟨hmove, -⟩ := workerStep_move h
    have hcalls : s'.calls = s.calls := by cases hmove <;> rfl
    refine ⟨hcalls ▸ hs.numbered, hmove.places.trans ?_⟩
    rw [accepted, hcalls]
    exact hs.places
  | stop =>
    cases h
    exact ⟨hs.numbered, hs.places⟩
  | stopping i =>
    simp only [step, Option.bind_eq_bind, Option.bind_eq_some_iff] at h
    obtain ⟨pc, hpc, ⟨s₁, pc'⟩, hstep, h⟩ := h
    cases h
    rcases stopStep_cases hstep with ⟨-, rfl, -⟩ | ⟨-, rfl, -⟩ | ⟨-, rfl, -⟩ <;> exact ⟨hs.numbered, hs.places⟩

theorem accounted {maxQueueSize : Int} {P : QueueSys → QueueAct → Prop} (h : Reach step P (start maxQueueSize) s) :
    s.Accounted :=
  h.invariant ⟨rfl, .refl _⟩ fun _ _ _ hs _ hstep => step_accounted hstep hs

theorem accepted_sublist (calls : List EnqueueCall) :
    (calls.filterMap EnqueueCall.accepted).Sublist (calls.map (·.write)) := by
  induction calls with
  | nil => exact .refl _
  | cons c calls ih =>
    rw [List.filterMap_cons, EnqueueCall.accepted, List.map_cons]
    split
    next h => exact ih.cons _
    next h =>
      split at h <;> cases h
      exact ih.cons_cons _

theorem Accounted.nodup (hs : s.Accounted) : s.accepted.Nodup := by
  have hwrites : (s.calls.map (·.write)).Nodup := by
    refine List.Nodup.of_map (·.call) ?_
    rw [List.map_map]
    exact hs.numbered ▸ List.nodup_range
  exact (accepted_sublist s.calls).nodup hwrites

theorem Accounted.count_eq_one (hs : s.Accounted) {c : EnqueueCall} (hc : c ∈ s.calls)
    (hpc : c.pc = .returned true) : s.places.count c.write = 1 := by
  have hmem : c.write ∈ s.accepted := List.mem_filterMap.2 ⟨c, hc, if_pos hpc⟩
  rw [hs.places.count_eq, List.count_eq_one_of_mem hs.nodup hmem]

end QueueSys

end PearlAlgo
