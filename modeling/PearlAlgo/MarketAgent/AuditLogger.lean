import Mathlib.Data.List.Count
import Mathlib.Data.Rat.Defs
import PearlAlgo.Lts.Components
import PearlAlgo.Lts.Reach

/-!
# The audit log (`market_agent/audit_logger.py`)

The thread of the event loop puts events into a bounded queue, and a worker thread inserts them into `audit_events` and
commits ten at a time, or what there is after two seconds. A step is what one thread does between two points at which
another can see it. A worker that `stop` gave up waiting for goes on, beside the worker that a later `start` makes.
-/

namespace PearlAlgo.AuditLogger

variable {E : Type}

/-- What follows a commit. -/
inductive Next
  | loop
  | drain
  | exit
deriving DecidableEq

/-- Where `_worker_loop` stands. -/
inductive WorkerPc (E : Type)
  | connecting
  | looping
  | getting
  | idle
  | inserting (event : E)
  | batchCheck
  | committing (next : Next)
  | counting (next : Next)
  | leaving
  | draining
  | taking
  | flushing (event : E)
  | drained
  | exited
  | dead  -- by an exception that no `except` clause inside handles
deriving DecidableEq

/-- `pending` is `flushed` after the loop. `transaction` is what the connection has inserted since its last commit. -/
structure Worker (E : Type) where
  pc : WorkerPc E := .connecting
  transaction : List E := []
  pending : Nat := 0
  lastCommit : ℚ := 0

/-- Where the thread of the event loop stands. -/
inductive MainPc
  | idle
  | counting
  | joining (worker : Nat)
  | stopped (worker : Nat)
  | flushing
  | flushTest (processed : Nat)
  | flushEmpty
  | flushed
deriving DecidableEq

/-- No code reads what stands below `table`. -/
structure Logger (E : Type) where
  maxQueueSize : Nat := 5000
  running : Bool := false
  shutdown : Bool := false
  queue : List E := []
  totalWrites : Nat := 0
  totalDrops : Nat := 0
  totalErrors : Nat := 0
  totalEnqueued : Nat := 0
  clock : ℚ := 0
  main : MainPc := .idle
  workers : List (Worker E) := []
  table : List E := []  -- what is committed
  accepted : List E := []
  errored : List E := []
  lost : List E := []  -- what a worker that died had not committed

inductive Act (E : Type)
  | enqueue (event : E) (raises : Bool)
  | count
  | start
  | stop
  | joined
  | joinTimeout
  | flush
  | flushStep
  | flushTimeout
  | back
  | work (worker : Nat) (raises : Bool)
  | tick (d : ℚ)
deriving DecidableEq

def BATCH_SIZE : Nat := 10

def BATCH_TIMEOUT : ℚ := 2

def WorkerPc.held : WorkerPc E → List E
  | .inserting event | .flushing event => [event]
  | _ => []

def WorkerPc.Finished (pc : WorkerPc E) : Prop := pc = .exited ∨ pc = .dead

instance [DecidableEq E] (pc : WorkerPc E) : Decidable pc.Finished := inferInstanceAs (Decidable (_ ∨ _))

def Next.pc : Next → WorkerPc E
  | .loop => .looping
  | .drain => .draining
  | .exit => .exited

namespace Logger

def setWorker (s : Logger E) (i : Nat) (w : Worker E) : Logger E := { s with workers := s.workers.set i w }

/-- A batch is committed after so long even if it is small. -/
def elapsed (s : Logger E) (w : Worker E) : Bool := decide (BATCH_TIMEOUT ≤ s.clock - w.lastCommit)

/-- `conn.execute("INSERT ...")` -/
def insert (s : Logger E) (i : Nat) (w : Worker E) (event : E) (raises : Bool) (pc : WorkerPc E) : Logger E :=
  if raises then
    { s.setWorker i { w with pc } with totalErrors := s.totalErrors + 1, errored := s.errored ++ [event] }
  else s.setWorker i { w with pc, transaction := w.transaction ++ [event], pending := w.pending + 1 }

/-- What worker `i` does next; `raises` is for the calls of SQLite. -/
def workerStep (s : Logger E) (i : Nat) (w : Worker E) (raises : Bool) : Option (Logger E) :=
  match w.pc with
  | .connecting =>
    some (s.setWorker i (if raises then { w with pc := .dead } else { w with pc := .looping, lastCommit := s.clock }))
  | .looping => some (s.setWorker i { w with pc := if s.shutdown then .leaving else .getting })
  | .getting =>
    match s.queue with
    | [] => some (s.setWorker i { w with pc := .idle })
    | event :: queue => some { s.setWorker i { w with pc := .inserting event } with queue }
  | .idle => some (s.setWorker i { w with pc := if 0 < w.pending ∧ s.elapsed w then .committing .loop else .looping })
  | .inserting event => some (s.insert i w event raises .batchCheck)
  | .batchCheck =>
    some (s.setWorker i { w with pc := if BATCH_SIZE ≤ w.pending ∨ s.elapsed w then .committing .loop else .looping })
  | .committing next =>
    some (if raises then
        { s.setWorker i { w with pc := .dead, transaction := [] } with lost := s.lost ++ w.transaction }
      else { s.setWorker i { w with pc := .counting next, transaction := [] } with table := s.table ++ w.transaction })
  | .counting next =>
    some { s.setWorker i { w with pc := next.pc, pending := 0, lastCommit := s.clock } with
      totalWrites := s.totalWrites + w.pending }
  | .leaving => some (s.setWorker i { w with pc := if 0 < w.pending then .committing .drain else .draining })
  | .draining => some (s.setWorker i { w with pc := if s.queue = [] then .drained else .taking })
  | .taking =>
    match s.queue with
    | [] => some (s.setWorker i { w with pc := .drained })
    | event :: queue => some { s.setWorker i { w with pc := .flushing event } with queue }
  | .flushing event => some (s.insert i w event raises .draining)
  | .drained => some (s.setWorker i { w with pc := if 0 < w.pending then .committing .exit else .exited })
  | .exited | .dead => none

/-- `_enqueue`, up to the counter; `raises` is for what is no queue operation. -/
def enqueue (s : Logger E) (event : E) (raises : Bool) : Logger E :=
  if s.running then
    if raises ∨ s.maxQueueSize ≤ s.queue.length ∧ 0 < s.maxQueueSize then { s with totalDrops := s.totalDrops + 1 }
    else { s with queue := s.queue ++ [event], accepted := s.accepted ++ [event], main := .counting }
  else { s with totalDrops := s.totalDrops + 1 }

def startWorker (s : Logger E) : Logger E :=
  if s.running then s else { s with running := true, shutdown := false, workers := s.workers ++ [{}] }

def stop (s : Logger E) : Logger E :=
  if s.running then { s with shutdown := true, main := .joining (s.workers.length - 1) } else s

def step (s : Logger E) : Act E → Option (Logger E)
  | .enqueue event raises => if s.main = .idle then some (s.enqueue event raises) else none
  | .count =>
    if s.main = .counting then some { s with totalEnqueued := s.totalEnqueued + 1, main := .idle } else none
  | .start => if s.main = .idle then some s.startWorker else none
  | .stop => if s.main = .idle then some s.stop else none
  | .joined =>
    match s.main with
    | .joining i => (s.workers[i]?).bind fun w =>
      match w.pc with
      | .exited | .dead => some { s with running := false, main := .stopped i }
      | _ => none
    | _ => none
  | .joinTimeout =>
    match s.main with
    | .joining _ => some { s with running := false, main := .idle }
    | _ => none
  | .flush => if s.main = .idle ∧ s.running then some { s with main := .flushing } else none
  | .flushStep =>
    match s.main with
    | .flushing => some { s with main := .flushTest (s.totalWrites + s.totalErrors) }
    | .flushTest processed =>
      some { s with main := if s.totalEnqueued ≤ processed then .flushEmpty else .flushing }
    | .flushEmpty => some { s with main := if s.queue = [] then .flushed else .flushing }
    | _ => none
  | .flushTimeout => if s.main = .flushing then some { s with main := .idle } else none
  | .back =>
    match s.main with
    | .stopped _ | .flushed => some { s with main := .idle }
    | _ => none
  | .work i raises => (s.workers[i]?).bind fun w => s.workerStep i w raises
  | .tick d => if 0 ≤ d then some { s with clock := s.clock + d } else none

end Logger

end PearlAlgo.AuditLogger
