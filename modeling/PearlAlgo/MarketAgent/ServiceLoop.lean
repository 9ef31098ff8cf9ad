import Mathlib.Algebra.Order.Floor.Ring
import Mathlib.Data.Rat.Floor
import Mathlib.Tactic.Linarith
import PearlAlgo.Py.While

/-!
# The main loop of the service (`market_agent/service_loop.py`, `market_agent/service.py`)

`_run_loop`, cycle by cycle: the guards that decide whether a cycle analyses its data, the error counters that pause the
service, and the sleeps, which look for control flags every five seconds. A cycle is a function of what its calls return
or raise. What the loop does to the rest of the service (entries, exits, broker polls) is modelled in
`MarketAgent/Service.lean` and does not touch these fields.

`continue` leaves the `try` statement without its `else` clause, so that only a completed cycle resets
`consecutive_errors`.
-/

namespace PearlAlgo.ServiceLoop
open Py

structure LoopConfig where
  scanInterval : ℚ
  scanIntervalPaused : ℚ := 60
  maxConsecutiveErrors : Int := 10
  maxDataFetchErrors : Int := 5
  maxConnectionFailures : Int := 10
  pauseOnConnectionFailures : Bool := true
  connectionFailureAlertInterval : ℚ := 600
  connectionTimeoutMinutes : ℚ := 30
  staleDataThresholdMinutes : ℚ := 10
  enableNewBarGating : Bool := true

inductive PauseReason
  | connectionFailures
  | consecutiveErrors
deriving DecidableEq

/-- A frame has `rows` rows; `latest` is the maximum of its timestamp column, in UTC, where it has that column. -/
structure Frame where
  rows : Nat
  latest : Option ℚ

structure MarketData where
  df : Option Frame
  latestBar : Bool  -- `latest_bar` is not `None`

/-- `executorConnected` is the answer of the provider's executor, where it has one. -/
structure Provider where
  mock : Bool := false
  ibkr : Bool := true
  executorConnected : Option Bool := some true

/-- What the loop has done, for the statements below; no code reads it. -/
inductive Event (Sig : Type)
  | checked (at_ : ℚ)
  | resumed
  | connectionError (alertRaised : Bool)
  | fetchError (isConnection : Bool)
  | fetched
  | analyzed (bar : Option ℚ) (at_ : ℚ) (signals : List Sig)
  | processed (signal : Sig)
  | failed
  | completed
deriving DecidableEq

/-- `clock` is the monotonic time of the sleeps; the other times of a cycle are wall-clock readings. -/
structure LoopState (Sig : Type) where
  clock : ℚ := 0
  shutdownRequested : Bool := false
  stopped : Bool := false
  paused : Bool := false
  pauseReason : Option PauseReason := none
  cycleCount : Nat := 0
  errorCount : Int := 0
  consecutiveErrors : Int := 0
  connectionFailures : Int := 0
  dataFetchErrors : Int := 0
  cbConnectionNotified : Bool := false
  lastSuccessfulCycle : Option ℚ := none
  lastConnectionFailureAlert : Option ℚ := none
  lastAnalyzedBarTs : Option ℚ := none
  analysisRunCount : Nat := 0
  analysisSkipCount : Nat := 0
  log : List (Event Sig) := []  -- newest first

/-- What a chunk of a sleep finds when it ends. -/
structure Wake where
  shutdown : Bool := false
  resume : Bool := false

inductive Fetch
  | raised (isConnection : Bool)
  | data (marketData : MarketData)

/-- What the calls of one cycle return; a call that raises an exception says whether `ErrorHandler` takes it for a
connection error, where that matters. -/
structure CycleInput (Sig : Type) where
  shutdown : Bool := false
  resume : Bool := false
  scheduledTasksRaise : Bool := false  -- a call before the `try` statement
  work : ℚ := 0  -- from the check of the flags to the sleep
  syncRaises : Bool := false
  fetch : Fetch
  provider : Option Provider := some {}
  fetchedAt : ℚ
  alertRaises : Option Bool := none
  qualityRaises : Option Bool := none
  idleAt : ℚ
  idleRaises : Bool := false
  guardedAt : ℚ
  analyze : Option (List Sig)  -- `none`: it raises
  summaryRaises : Bool := false
  processRaises : Option Nat := none  -- the signal whose processing raises
  restRaises : Bool := false
  sleepTime : ℚ
  wakes : Nat → Wake := fun _ => {}

variable {Sig : Type}

namespace LoopState

def record (e : Event Sig) (s : LoopState Sig) : LoopState Sig := { s with log := e :: s.log }

/-- `resume`; `consecutive_errors` stays. -/
def resume (s : LoopState Sig) : LoopState Sig :=
  { s with paused := false, pauseReason := none, connectionFailures := 0, cbConnectionNotified := false }.record .resumed

/-- `_check_execution_control_flags`, as far as it concerns the loop. -/
def checkFlags (resumeRequested : Bool) (s : LoopState Sig) : LoopState Sig :=
  let s := s.record (.checked s.clock)
  if resumeRequested then s.resume else s

def pause (reason : PauseReason) (s : LoopState Sig) : LoopState Sig :=
  { s with paused := true, pauseReason := some reason }

/-- `_handle_connection_failure`: an alert, unless there has been one lately. -/
def handleConnectionFailure (c : LoopConfig) (now : ℚ) (s : LoopState Sig) : LoopState Sig :=
  if s.lastConnectionFailureAlert.all fun t => decide (c.connectionFailureAlertInterval ≤ now - t) then
    { s with lastConnectionFailureAlert := some now }
  else s

end LoopState

/-! ### Sleeping -/

def FLAG_CHECK_INTERVAL : ℚ := 5

structure Sleep (Sig : Type) where
  remaining : ℚ
  round : Nat := 0
  state : LoopState Sig

def Sleep.goesOn (x : Sleep Sig) : Bool := decide (0 < x.remaining) && !x.state.shutdownRequested

def Sleep.chunk (wakes : Nat → Wake) (x : Sleep Sig) : Sleep Sig :=
  let chunk := min x.remaining FLAG_CHECK_INTERVAL
  let wake := wakes x.round
  let s := { x.state with
    clock := x.state.clock + chunk, shutdownRequested := x.state.shutdownRequested || wake.shutdown }
  let remaining := x.remaining - chunk
  ⟨remaining, x.round + 1, if 0 < remaining then s.checkFlags wake.resume else s⟩

/-- So many chunks are enough. -/
def sleepFuel (total : ℚ) : Nat := ⌈total / FLAG_CHECK_INTERVAL⌉₊ + 1

/-- `_interruptible_sleep` -/
def interruptibleSleep (wakes : Nat → Wake) (total : ℚ) (s : LoopState Sig) : LoopState Sig :=
  ((whileLoop Sleep.goesOn (Sleep.chunk wakes) (sleepFuel total) ⟨total, 0, s⟩).map Sleep.state).getD s

/-- The fuel is enough: each chunk takes five seconds off, or ends the sleep. -/
theorem interruptibleSleep_ends (wakes : Nat → Wake) (total : ℚ) (s : LoopState Sig) :
    ∃ x, whileLoop Sleep.goesOn (Sleep.chunk wakes) (sleepFuel total) ⟨total, 0, s⟩ = some x ∧
      interruptibleSleep wakes total s = x.state := by
  have hlower (x : Sleep Sig) (h : x.goesOn = true) :
      ⌈(x.chunk wakes).remaining / FLAG_CHECK_INTERVAL⌉₊ < ⌈x.remaining / FLAG_CHECK_INTERVAL⌉₊ := by
    rw [Sleep.goesOn, Bool.and_eq_true, decide_eq_true_eq] at h
    have hpos : 0 < ⌈x.remaining / FLAG_CHECK_INTERVAL⌉₊ := Nat.ceil_pos.2 (div_pos h.1 (by norm_num [FLAG_CHECK_INTERVAL]))
    change ⌈(x.remaining - min x.remaining FLAG_CHECK_INTERVAL) / FLAG_CHECK_INTERVAL⌉₊ < _
    rcases le_total x.remaining FLAG_CHECK_INTERVAL with hle | hle
    · rw [min_eq_left hle, sub_self, zero_div, Nat.ceil_zero]
      exact hpos
    · rw [min_eq_right hle, sub_div, div_self (by norm_num [FLAG_CHECK_INTERVAL]), Nat.ceil_sub_one]
      omega
  have hfuel : ⌈total / FLAG_CHECK_INTERVAL⌉₊ < sleepFuel total := Nat.lt_succ_self _
  obtain ⟨x, hx⟩ := whileLoop_ends (s := ⟨total, 0, s⟩)
    (m := fun x : Sleep Sig => ⌈x.remaining / FLAG_CHECK_INTERVAL⌉₊) hlower hfuel
  exact ⟨x, hx, by rw [interruptibleSleep, hx]; rfl⟩

/-- A sleep that no shutdown interrupts takes the time it was asked for. -/
theorem interruptibleSleep_clock {wakes : Nat → Wake} (hwakes : ∀ k, (wakes k).shutdown = false) {total : ℚ}
    (htotal : 0 ≤ total) {s : LoopState Sig} (hs : s.shutdownRequested = false) :
    (interruptibleSleep wakes total s).clock = s.clock + total := by
  obtain ⟨x, hloop, heq⟩ := interruptibleSleep_ends wakes total s
  let I (x : Sleep Sig) : Prop :=
    x.state.clock + x.remaining = s.clock + total ∧ 0 ≤ x.remaining ∧ x.state.shutdownRequested = false
  have hflags (resumeRequested : Bool) (s : LoopState Sig) : (s.checkFlags resumeRequested).clock = s.clock ∧
      (s.checkFlags resumeRequested).shutdownRequested = s.shutdownRequested := by
    cases resumeRequested <;> exact ⟨rfl, rfl⟩
  have hstep (x : Sleep Sig) (hx : I x) : I (x.chunk wakes) := by
    obtain ⟨hclock, -, hrunning⟩ := hx
    have hshutdown : (x.state.shutdownRequested || (wakes x.round).shutdown) = false := by rw [hrunning, hwakes]; rfl
    dsimp only [I, Sleep.chunk]
    refine ⟨?_, sub_nonneg.2 (min_le_left _ _), ?_⟩
    · split
      · rw [(hflags _ _).1]
        linarith
      · linarith
    · split
      · rw [(hflags _ _).2]
        exact hshutdown
      · exact hshutdown
  obtain ⟨⟨hclock, hnonneg, hrunning⟩, hend⟩ := whileLoop_invariant (fun x hx _ => hstep x hx) hloop ⟨rfl, htotal, hs⟩
  rw [Sleep.goesOn, hrunning, Bool.not_false, Bool.and_true, decide_eq_false_iff_not] at hend
  rw [heq]
  linarith

/-! ### The stages of a cycle -/

/-- `ErrorHandler.is_connection_error_from_data` -/
def isConnectionErrorFromData (d : MarketData) (provider : Option Provider) (now : ℚ) (last : Option ℚ) : Bool :=
  if (d.df.any fun f => f.rows ≠ 0) && d.latestBar then false
  else
    match provider with
    | none => false
    | some p =>
      if p.mock then false
      else if p.executorConnected = some false then true
      else p.ibkr && (d.df.any fun f => f.rows = 0) && !d.latestBar && last.any fun t => decide (now - t < 600)

/-- How the fetch stage ends: with data, or with a sleep, which is longer after too many errors. -/
inductive Fetched
  | data (d : MarketData)
  | skip (backoff : Bool)

/-- The `except` clause of the fetch. -/
def onFetchError (c : LoopConfig) (isConnection : Bool) (now : ℚ) (s : LoopState Sig) : Fetched × LoopState Sig :=
  let s := { s with dataFetchErrors := s.dataFetchErrors + 1, errorCount := s.errorCount + 1 }.record
    (.fetchError isConnection)
  let s := if isConnection then
      { s with connectionFailures := s.connectionFailures + 1 }.handleConnectionFailure c now
    else s
  (.skip (decide (c.maxDataFetchErrors ≤ s.dataFetchErrors)), s)

inductive AfterConnectionError
  | runs
  | skips
  | raises (isConnection : Bool)

/-- A connection error that the data show. The first time it pauses the service it sends an alert, which is formatted
before the service is paused. -/
def onConnectionError (c : LoopConfig) (d : MarketData) (now : ℚ) (alertRaises : Option Bool) (s : LoopState Sig) :
    AfterConnectionError × LoopState Sig :=
  let s := { s with
    connectionFailures := s.connectionFailures + 1, dataFetchErrors := s.dataFetchErrors + 1
    errorCount := s.errorCount + 1 }
  if c.maxConnectionFailures ≤ s.connectionFailures then
    if c.pauseOnConnectionFailures then
      match if s.cbConnectionNotified then none else alertRaises with
      | some isConnection => (.raises isConnection, { s with cbConnectionNotified := true }.record (.connectionError true))
      | none =>
        (.skips, ({ s with cbConnectionNotified := true }.pause .connectionFailures).record (.connectionError false))
    else
      let s := s.record (.connectionError false)
      if d.df.any fun f => f.rows ≠ 0 then (.runs, s)
      else (.skips, s.handleConnectionFailure c now)
  else (.skips, (s.record (.connectionError false)).handleConnectionFailure c now)

/-- The counters are reset before the quality of the data is checked. -/
def onFetched (c : LoopConfig) (i : CycleInput Sig) (d : MarketData) (s : LoopState Sig) : Fetched × LoopState Sig :=
  let s := { s with
    dataFetchErrors := 0, connectionFailures := 0, cbConnectionNotified := false
    lastSuccessfulCycle := some i.fetchedAt }.record .fetched
  match i.qualityRaises with
  | some isConnection => onFetchError c isConnection i.fetchedAt s
  | none => (.data d, s)

def fetchStage (c : LoopConfig) (i : CycleInput Sig) (s : LoopState Sig) : Fetched × LoopState Sig :=
  match i.fetch with
  | .raised isConnection => onFetchError c isConnection i.fetchedAt s
  | .data d =>
    if isConnectionErrorFromData d i.provider i.fetchedAt s.lastSuccessfulCycle then
      match onConnectionError c d i.fetchedAt i.alertRaises s with
      | (.raises isConnection, s) => onFetchError c isConnection i.fetchedAt s
      | (.skips, s) => (.skip false, s)
      | (.runs, s) => onFetched c i d s
    else onFetched c i d s

/-- How the body of the `try` statement ends. -/
inductive Flow
  | continued
  | completed
  | raised

/-- No rows: the market is closed, or something is wrong. -/
def idleStage (c : LoopConfig) (i : CycleInput Sig) (s : LoopState Sig) : Flow × LoopState Sig :=
  let s := if s.lastSuccessfulCycle.any fun t => decide (c.connectionTimeoutMinutes * 60 < i.idleAt - t) then
      s.handleConnectionFailure c i.idleAt
    else s
  if i.idleRaises then (.raised, s)
  else (.continued, interruptibleSleep i.wakes i.sleepTime { s with cycleCount := s.cycleCount + 1 })

def isStale (c : LoopConfig) (f : Frame) (now : ℚ) : Bool :=
  f.latest.any fun t => decide (c.staleDataThresholdMinutes * 60 < now - t)

/-- `current_bar_ts`, which is read for the gating only. -/
def currentBarTs (c : LoopConfig) (f : Frame) : Option ℚ := if c.enableNewBarGating then f.latest else none

/-- New-bar gating: the bar is the one that was analysed last. -/
def skipsAnalysis (c : LoopConfig) (f : Frame) (s : LoopState Sig) : Bool :=
  s.lastAnalyzedBarTs.isSome && decide (currentBarTs c f = s.lastAnalyzedBarTs)

/-- The signals, or `none` where the analysis raises. -/
def analysisStage (c : LoopConfig) (i : CycleInput Sig) (f : Frame) (s : LoopState Sig) :
    Option (List Sig) × LoopState Sig :=
  let skips := skipsAnalysis c f s
  let s := if skips then { s with analysisSkipCount := s.analysisSkipCount + 1 } else s
  if isStale c f i.guardedAt || skips then (some [], s)
  else
    match i.analyze with
    | none => (none, s)
    | some signals =>
      (some signals, { s with
        analysisRunCount := s.analysisRunCount + 1
        lastAnalyzedBarTs := (currentBarTs c f).or s.lastAnalyzedBarTs }.record
          (.analyzed f.latest i.guardedAt signals))

/-- The signals go to the handler one by one, up to the one whose processing raises. -/
def processSignals (processRaises : Option Nat) (signals : List Sig) (s : LoopState Sig) : LoopState Sig :=
  (match processRaises with
    | some k => signals.take (k + 1)
    | none => signals).foldl (fun s signal => s.record (.processed signal)) s

def analyzingCycle (c : LoopConfig) (i : CycleInput Sig) (f : Frame) (s : LoopState Sig) : Flow × LoopState Sig :=
  match analysisStage c i f s with
  | (none, s) => (.raised, s)
  | (some signals, s) =>
    if i.summaryRaises then (.raised, s)
    else
      let s := processSignals i.processRaises signals s
      if (i.processRaises.any fun k => decide (k < signals.length)) || i.restRaises then (.raised, s)
      else (.completed, interruptibleSleep i.wakes i.sleepTime { s with cycleCount := s.cycleCount + 1 })

/-- The body of the `try` statement. -/
def tryBody (c : LoopConfig) (i : CycleInput Sig) (s : LoopState Sig) : Flow × LoopState Sig :=
  if s.paused then (.continued, interruptibleSleep i.wakes c.scanIntervalPaused s)
  else if i.syncRaises then (.raised, s)
  else
    match fetchStage c i s with
    | (.skip true, s) => (.continued, interruptibleSleep i.wakes (c.scanInterval * 2) s)
    | (.skip false, s) => (.continued, interruptibleSleep i.wakes i.sleepTime s)
    | (.data d, s) =>
      match d.df with
      | none => (.raised, s)
      | some f => if f.rows = 0 then idleStage c i s else analyzingCycle c i f s

/-- The outer `except` clause. -/
def onError (c : LoopConfig) (i : CycleInput Sig) (s : LoopState Sig) : LoopState Sig :=
  let s := { s with errorCount := s.errorCount + 1, consecutiveErrors := s.consecutiveErrors + 1 }.record .failed
  let s := if c.maxConsecutiveErrors ≤ s.consecutiveErrors then s.pause .consecutiveErrors else s
  interruptibleSleep i.wakes i.sleepTime s

/-- One round of `while not self.shutdown_requested`. -/
def cycle (c : LoopConfig) (s : LoopState Sig) (i : CycleInput Sig) : LoopState Sig :=
  let s := { s with shutdownRequested := s.shutdownRequested || i.shutdown }
  if s.stopped || s.shutdownRequested then { s with stopped := true }
  else
    let s := s.checkFlags i.resume
    if i.scheduledTasksRaise then { s with stopped := true }
    else
      let s := { s with clock := s.clock + i.work }
      match tryBody c i s with
      | (.continued, s) => s
      | (.raised, s) => onError c i s
      | (.completed, s) => { s with consecutiveErrors := 0 }.record .completed

/-- `_run_loop`, with what each of its cycles meets. -/
def runLoop (c : LoopConfig) (inputs : List (CycleInput Sig)) : LoopState Sig := inputs.foldl (cycle c) {}

end PearlAlgo.ServiceLoop
