import Mathlib.Data.Rat.Defs
import Mathlib.Algebra.Order.Ring.Rat
import PearlAlgo.Lts.Reach
import PearlAlgo.Py.Dict
import PearlAlgo.Py.Seq

/-!
# The IBKR executor (`data_providers/ibkr_data_executor.py`)

`submit_task` files a future in `_results` under the task's id and then puts the task into the queue, from any thread. One
thread takes the tasks out: it connects, keeps the requests a tenth of a second apart, executes the task, pops the future of
its id and settles it. A caller that no longer waits cancels its future. `stop` comes from a further thread.

`log` and `line` are written down for the theorems only. The clock does not step back.
-/

namespace PearlAlgo.Ibkr
open Py

/-- `connects` tells a `ConnectTask`, before which `_ensure_connected` is left out. -/
structure Task (Id : Type) where
  taskId : Id
  connects : Bool
deriving DecidableEq

inductive Item (Id : Type)
  | task (t : Task Id)
  | shutdown

def Item.task? {Id : Type} : Item Id → Option (Task Id)
  | .task t => some t
  | .shutdown => none

/-- What comes of a task; of an exception its text counts. -/
inductive Outcome (ρ : Type)
  | result (r : ρ)
  | exception (text : String)
deriving DecidableEq

/-- The test on which the executor no longer counts as connected. -/
def ofConnection (text : String) : Bool := isIn "not connected" text.toLower || isIn "connection" text.toLower

inductive FutureState (ρ : Type)
  | pending
  | cancelled
  | done (o : Outcome ρ)
deriving DecidableEq

inductive Event (Id ρ : Type)
  | submitted (f : Nat) (id : Id)
  | put (id : Id)
  | cancelled (f : Nat)
  | finished (id : Id) (o : Outcome ρ)

/-- What happens on the line to the gateway; `taken` marks the task for which it does. -/
inductive Sign
  | taken
  | connected
  | failed
  | error
deriving DecidableEq

/-- Where the thread of the executor is. -/
inductive Pc (Id ρ : Type)
  | idle
  | checking (t : Task Id)
  | attempting (t : Task Id)
  | backoff (t : Task Id) (wakes : ℚ)
  | spacing (t : Task Id)
  | sleeping (t : Task Id) (wakes : ℚ)
  | executing (t : Task Id)
  | settling (t : Task Id) (o : Outcome ρ)
  | recovering (wakes : ℚ)
  | ended

/-- How far `stop` has come. -/
inductive StopPc
  | waiting
  | signalled
  | disconnected
  | put
  | returned

structure Config where
  reconnectDelay : ℚ
  maxReconnectAttempts : Nat

structure Executor (Id ρ : Type) [DecidableEq Id] where
  futures : List (Id × FutureState ρ) := []
  results : Dict Id Nat := Dict.empty
  submitting : List (Task Id) := []
  queue : List (Item Id) := []
  running : Bool := true
  shutdown : Bool := false
  stopPc : StopPc := .waiting
  pc : Pc Id ρ := .idle
  up : Bool := false
  connected : Bool := false
  reconnectAttempts : Nat := 0
  lastRequestTime : ℚ := 0
  now : ℚ
  log : List (Event Id ρ) := []
  line : List Sign := []
  requests : List ℚ := []

inductive Act (Id ρ : Type)
  | submit (t : Task Id)
  | put (k : Nat)
  | cancel (f : Nat)
  | tick (d : ℚ)
  | drop
  | stop
  /-- `ib.connect` returns or raises; `up` is what `isConnected` then says. -/
  | connects (ok up : Bool) (text : String)
  /-- `task.execute` ends; `up` counts for a `ConnectTask` that was not connected. -/
  | returns (o : Outcome ρ) (up : Bool)
  /-- The executor's thread goes on. -/
  | turn

def MIN_REQUEST_INTERVAL : ℚ := 1 / 10

/-- The task that the thread works on. -/
def Pc.task? {Id ρ : Type} : Pc Id ρ → Option (Task Id)
  | .checking t | .attempting t | .backoff t _ | .spacing t | .sleeping t _ | .executing t | .settling t _ => some t
  | .idle | .recovering _ | .ended => none

variable {Id ρ : Type} [DecidableEq Id]

/-- How long `_ensure_connected` waits after so many failures. -/
def Config.delay (c : Config) (attempts : Nat) : ℚ := min (c.reconnectDelay * 2 ^ (attempts - 1)) 10

namespace Executor

def isConnected (s : Executor Id ρ) : Bool := s.connected && s.up

def submitTask (s : Executor Id ρ) (t : Task Id) : Executor Id ρ :=
  { s with
    futures := s.futures ++ [(t.taskId, .pending)]
    results := s.results.set t.taskId s.futures.length
    submitting := s.submitting ++ [t]
    log := s.log ++ [.submitted s.futures.length t.taskId] }

/-- The thread leaves the loop and disconnects. -/
def leave (s : Executor Id ρ) : Executor Id ρ := { s with pc := .ended, up := false }

/-- What a failure that reached the loop leaves behind. -/
def noteFailure (s : Executor Id ρ) : Outcome ρ → Executor Id ρ
  | .result _ => s
  | .exception text => if ofConnection text then { s with connected := false, line := s.line ++ [.error] } else s

/-- Pop the future of the id and settle it. One that was cancelled cannot be settled: that raises, inside the `try` for a
result, and out of the `except` for an exception, after which the loop sleeps for a second. -/
def settle (s : Executor Id ρ) (t : Task Id) (o : Outcome ρ) : Executor Id ρ :=
  let s : Executor Id ρ := { s with pc := .idle, log := s.log ++ [.finished t.taskId o] }
  match s.results.get? t.taskId with
  | none => s.noteFailure o
  | some f =>
    let s : Executor Id ρ := { s with results := s.results.pop t.taskId }
    match s.futures[f]? with
    | some (_, .pending) => { s with futures := s.futures.set f (t.taskId, .done o) }.noteFailure o
    | _ =>
      match o with
      | .result _ => s
      | .exception _ => { s with pc := .recovering (s.now + 1) }

/-- `_rate_limit` is over and the request goes out. -/
def request (s : Executor Id ρ) (t : Task Id) : Executor Id ρ :=
  { s with pc := .executing t, lastRequestTime := s.now, requests := s.requests ++ [s.now] }

def turn (s : Executor Id ρ) : Option (Executor Id ρ) :=
  match s.pc with
  | .idle =>
    if s.shutdown then some s.leave
    else
      match s.queue with
      | [] => some s
      | .task t :: queue => some { s with queue, pc := .checking t, line := s.line ++ [.taken] }
      | .shutdown :: queue => some { s with queue }.leave
  | .checking t =>
    if t.connects then some { s with pc := .spacing t }
    else if s.connected && s.up then some { s with pc := .spacing t }
    else if s.up then some { s with pc := .spacing t }
    else some { s with pc := .attempting t }
  | .backoff t wakes =>
    if s.now < wakes then none
    else if s.up then some { s with pc := .spacing t }
    else some { s with pc := .attempting t }
  | .spacing t =>
    let elapsed := s.now - s.lastRequestTime
    if elapsed < MIN_REQUEST_INTERVAL then
      some { s with pc := .sleeping t (s.now + (MIN_REQUEST_INTERVAL - elapsed)) }
    else some (s.request t)
  | .sleeping t wakes => if s.now < wakes then none else some (s.request t)
  | .settling t o => some (s.settle t o)
  | .recovering wakes => if s.now < wakes then none else some { s with pc := .idle }
  | .attempting _ | .executing _ | .ended => none

/-- An attempt of `_ensure_connected` ends. The text of the exception when it gives up. -/
def connectEnds (c : Config) (s : Executor Id ρ) (ok up : Bool) (text : String) : Option (Executor Id ρ) :=
  match s.pc with
  | .attempting t =>
    if ok then
      some { s with
        pc := .spacing t, up := true, connected := true, reconnectAttempts := 0, line := s.line ++ [.connected] }
    else
      let s : Executor Id ρ :=
        { s with up, connected := false, reconnectAttempts := s.reconnectAttempts + 1, line := s.line ++ [.failed] }
      if c.maxReconnectAttempts ≤ s.reconnectAttempts then some { s with pc := .settling t (.exception text) }
      else some { s with pc := .backoff t (s.now + c.delay s.reconnectAttempts) }
  | _ => none

def stop (s : Executor Id ρ) : Option (Executor Id ρ) :=
  match s.stopPc with
  | .waiting => if s.running then some { s with stopPc := .signalled, shutdown := true } else none
  | .signalled => some { s with stopPc := .disconnected, up := false }
  | .disconnected => some { s with stopPc := .put, queue := s.queue ++ [.shutdown] }
  | .put => some { s with stopPc := .returned, running := false }
  | .returned => none

def step (c : Config) (s : Executor Id ρ) : Act Id ρ → Option (Executor Id ρ)
  | .submit t => if s.running then some (s.submitTask t) else none
  | .put k =>
    match s.submitting[k]? with
    | some t => some { s with
        submitting := s.submitting.eraseIdx k
        queue := s.queue ++ [.task t]
        log := s.log ++ [.put t.taskId] }
    | none => none
  | .cancel f =>
    match s.futures[f]? with
    | some (id, .pending) => some { s with futures := s.futures.set f (id, .cancelled), log := s.log ++ [.cancelled f] }
    | _ => none
  | .tick d => if 0 ≤ d then some { s with now := s.now + d } else none
  | .drop => some { s with up := false }
  | .stop => s.stop
  | .connects ok up text => s.connectEnds c ok up text
  | .returns o up =>
    match s.pc with
    | .executing t => some { s with pc := .settling t o, up := if t.connects && !s.up then up else s.up }
    | _ => none
  | .turn => s.turn

end Executor

end PearlAlgo.Ibkr
