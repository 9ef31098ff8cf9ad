import PearlAlgo.Coop.Proc
import PearlAlgo.MarketAgent.PerformanceTracker
import PearlAlgo.Py.Seq

/-!
# The lifecycle of a signal, with the queue's worker at work

With SQLite on, the `generated` event of a signal goes through `AsyncSQLiteQueue`, and its `entered` and `exited`
events are written by the main thread. The worker runs whenever the main thread comes to the database, so the calls of
the tracker are coroutines that pause there. When the worker is idle they are the functions of `SignalStore`
(`trackExit_eval`). The latest row of a signal is its status: `staysExited_iff` says when it stays `exited`.
-/

namespace PearlAlgo
open Py Coop

/-- The stores of the tracker, and the events that the queue has not written yet. -/
structure PerformanceTracker where
  lines : List SignalRecord := []
  events : List SignalRecord := []
  performance : List Performance := []
  pending : List SignalRecord := []
deriving DecidableEq

/-- What the worker does with the `i`-th queued event: the write may fail, which is logged. All have one priority,
among which the priority queue has no order. -/
inductive WorkerEvent
  | write (i : Nat)
  | fail (i : Nat)

namespace PerformanceTracker

def store (s : PerformanceTracker) : SignalStore :=
  { lines := s.lines, events := some s.events, performance := s.performance }

def addSignalEvent (r : SignalRecord) (s : PerformanceTracker) : PerformanceTracker :=
  { s with events := s.events ++ [r] }

def getSignalEventById (signalId : String) (s : PerformanceTracker) : Option SignalRecord :=
  s.events.findRev? fun r => r.signalId = signalId

def appendLine (r : SignalRecord) (s : PerformanceTracker) : PerformanceTracker :=
  { s with lines := s.lines ++ [r] }

end PerformanceTracker

def WorkerEvent.apply (s : PerformanceTracker) : WorkerEvent → PerformanceTracker
  | .write i =>
    match s.pending[i]? with
    | some r => { s.addSignalEvent r with pending := s.pending.eraseIdx i }
    | none => s
  | .fail i => { s with pending := s.pending.eraseIdx i }

/-- A call of the tracker; at an `await` the worker may run. -/
abbrev TrackerProc (α : Type) : Type := Proc PerformanceTracker (fun _ : Unit => Unit) α

/-- The price that `track_exit` takes for the entry price. -/
def SignalRecord.entryPrice (r : SignalRecord) : Number :=
  (orNum r.own.entryPrice (orNum r.data.entryPrice none)).getD (.fin 0)

/-- The part of `track_exit` between its read and its writes: the performance record, unless a price is not valid. -/
def SignalRecord.exitPerformance (signalId : String) (exitPrice : Number) (exitReason : String) (exitTime : ℚ)
    (r : SignalRecord) : Option Performance :=
  match SignalStore.validPrice r.entryPrice, SignalStore.validPrice exitPrice with
  | some entry, some exit =>
    let tickValue := (r.data.tickValue.filter (· ≠ 0)).getD DEFAULT_MNQ_TICK_VALUE
    let positionSize := (r.data.positionSize.filter (· ≠ 0)).getD 1
    let points := if r.data.side = "long" then exit - entry else entry - exit
    let pnl := points * tickValue * positionSize
    some { signalId, signalType := r.typeText, direction := r.data.side, entryPrice := entry, exitPrice := exit
           pnl, isWin := 0 < pnl, exitReason, holdDurationMinutes := r.entryTime.map fun t => (exitTime - t) / 60
           exitTime }
  | _, _ => none

/-- What `track_exit` writes to the record. -/
def Performance.change (signal : SignalData) (p : Performance) : SignalRecord :=
  { signalId := p.signalId, status := .exited, own := { signalType := signal.type }
    exit := some { exitPrice := .fin p.exitPrice, exitTime := p.exitTime, exitReason := p.exitReason, pnl := p.pnl
                   isWin := p.isWin, holdDurationMinutes := p.holdDurationMinutes } }

namespace TrackerProc

/-- `_update_signal_status`: read the latest event, unless the caller has the signal, and write the next. -/
def updateSignalStatus (change : SignalRecord) (preserve : Option SignalRecord) : TrackerProc Unit := do
  let current ←
    match preserve with
    | some r => pure (some r)
    | none => do
      Proc.ask ()
      let s ← Proc.read
      pure (s.getSignalEventById change.signalId)
  Proc.ask ()
  Proc.modify fun s =>
    (s.addSignalEvent (current.elim change fun r => r.update change)).appendLine { change with statusChange := true }

/-- `track_signal_generated`, which delegates to `save_signal`; the queue may be full, and drop the event. -/
def trackSignalGenerated (signalId : String) (signal : SignalData) (accepted : Bool) : TrackerProc Unit := do
  let record : SignalRecord := { signalId, status := .generated, signal := some signal }
  Proc.modify fun s => s.appendLine record
  Proc.ask ()
  Proc.modify fun s => if accepted then { s with pending := s.pending ++ [record] } else s

def trackEntry (signalId : String) (entryPrice : Number) (entryTime : ℚ) (signalData : Option SignalData) :
    TrackerProc Unit :=
  updateSignalStatus { signalId, status := .entered, own := { entryPrice := some entryPrice }, entryTime := some entryTime }
    (signalData.map fun signal => { signalId, status := .entered, own := signal })

def trackSignalExpired (signalId : String) : TrackerProc Unit :=
  updateSignalStatus { signalId, status := .expired } none

def trackExit (signalId : String) (exitPrice : Number) (exitReason : String) (exitTime : ℚ) :
    TrackerProc (Option Performance) := do
  Proc.ask ()
  let s ← Proc.read
  match s.store.getSignalRecord signalId with
  | none => pure none
  | some r =>
    if r.status = .exited then pure none
    else
      match r.exitPerformance signalId exitPrice exitReason exitTime with
      | none => pure none
      | some perf => do
        updateSignalStatus (perf.change r.data) none
        Proc.modify fun s => { s with performance := s.performance ++ [perf] }
        pure (some perf)

end TrackerProc

inductive TrackerCall
  | trackSignalGenerated (signalId : String) (signal : SignalData) (accepted : Bool)
  | trackEntry (signalId : String) (entryPrice : Number) (entryTime : ℚ) (signalData : Option SignalData)
  | trackSignalExpired (signalId : String)
  | trackExit (signalId : String) (exitPrice : Number) (exitReason : String) (exitTime : ℚ)

namespace TrackerCall

def signalId : TrackerCall → String
  | trackSignalGenerated x _ _ | trackEntry x _ _ _ | trackSignalExpired x | trackExit x _ _ _ => x

def status : TrackerCall → SignalStatus
  | trackSignalGenerated _ _ _ => .generated
  | trackEntry _ _ _ _ => .entered
  | trackSignalExpired _ => .expired
  | trackExit _ _ _ _ => .exited

def proc : TrackerCall → TrackerProc Unit
  | trackSignalGenerated x signal accepted => TrackerProc.trackSignalGenerated x signal accepted
  | trackEntry x entryPrice entryTime signalData => TrackerProc.trackEntry x entryPrice entryTime signalData
  | trackSignalExpired x => TrackerProc.trackSignalExpired x
  | trackExit x exitPrice exitReason exitTime => do
    let _ ← TrackerProc.trackExit x exitPrice exitReason exitTime
    pure ()

end TrackerCall

/-- What happens next: the worker handles an event, or the main thread makes a call, during whose `n`-th await the
worker handles the events `others n`. -/
inductive TrackerAct
  | worker (e : WorkerEvent)
  | call (c : TrackerCall) (others : Nat → List WorkerEvent)

def meanwhile (others : Nat → List WorkerEvent) (n : Nat) : Proc.Interval PerformanceTracker fun _ : Unit => Unit :=
  ⟨fun _ => (), fun s => (others n).foldl WorkerEvent.apply s⟩

def TrackerAct.apply (s : PerformanceTracker) : TrackerAct → PerformanceTracker
  | worker e => e.apply s
  | call c others => (c.proc.play (meanwhile others) s).state

def runTracker (s : PerformanceTracker) (acts : List TrackerAct) : PerformanceTracker := acts.foldl TrackerAct.apply s

/-! ### The latest row -/

section rows
variable {x : String} {s : PerformanceTracker} {r : SignalRecord}

theorem getSignalEventById_add : (s.addSignalEvent r).getSignalEventById x =
    if r.signalId = x then some r else s.getSignalEventById x := by
  unfold PerformanceTracker.getSignalEventById PerformanceTracker.addSignalEvent
  rw [findRev?_concat]
  simp

theorem mem_of_getSignalEventById (h : s.getSignalEventById x = some r) : r ∈ s.events ∧ r.signalId = x := by
  unfold PerformanceTracker.getSignalEventById at h
  rw [List.findRev?_eq_find?_reverse] at h
  exact ⟨List.mem_reverse.1 (List.mem_of_find?_eq_some h), by simpa using List.find?_some h⟩

theorem getSignalEventById_isSome (hr : r ∈ s.events) (hx : r.signalId = x) :
    ∃ r', s.getSignalEventById x = some r' := by
  unfold PerformanceTracker.getSignalEventById
  rw [List.findRev?_eq_find?_reverse]
  cases h : s.events.reverse.find? fun r => r.signalId = x with
  | some r' => exact ⟨r', rfl⟩
  | none =>
    have hne := List.find?_eq_none.1 h r (List.mem_reverse.2 hr)
    simp [hx] at hne

theorem getSignalRecord_of_event (h : s.getSignalEventById x = some r) : s.store.getSignalRecord x = some r := by
  have hevent : (s.store.events.bind fun evs => evs.findRev? fun r => r.signalId = x) = some r := h
  unfold SignalStore.getSignalRecord
  rw [hevent]

end rows

/-! ### The worker idle -/

section idle
variable {ans : Nat → (q : Unit) → Unit} {s : PerformanceTracker}

theorem updateSignalStatus_eval (change : SignalRecord) (preserve : Option SignalRecord) :
    ((TrackerProc.updateSignalStatus change preserve).eval ans s).state.store =
      s.store.updateSignalStatus change preserve := by
  cases preserve <;> rfl

theorem trackExit_eval (signalId : String) (exitPrice : Number) (exitReason : String) (exitTime : ℚ) :
    let o := (TrackerProc.trackExit signalId exitPrice exitReason exitTime).eval ans s
    (o.value, o.state.store) = s.store.trackExit signalId exitPrice exitReason exitTime := by
  simp only [TrackerProc.trackExit, Proc.eval_ask_bind, Proc.eval_read_bind, SignalStore.trackExit]
  cases s.store.getSignalRecord signalId with
  | none => rfl
  | some r =>
    by_cases hexited : r.status = .exited
    · simp [hexited]
    · simp only [hexited, ↓reduceIte, SignalRecord.exitPerformance, SignalRecord.entryPrice]
      cases SignalStore.validPrice ((orNum r.own.entryPrice (orNum r.data.entryPrice none)).getD (.fin 0)) with
      | none => rfl
      | some entry =>
        cases SignalStore.validPrice exitPrice with
        | none => rfl
        | some exit => rfl

end idle

/-! ### What a call may do -/

/-- `J` survives everything that the call does to the stores. -/
structure KeptBy (J : PerformanceTracker → Prop) (c : TrackerCall) : Prop where
  event : ∀ s r, J s → r.signalId = c.signalId → r.status = c.status → J (s.addSignalEvent r)
  line : ∀ s r, J s → J (s.appendLine r)
  queue : ∀ s r, J s → c.status = .generated → r.signalId = c.signalId → r.status = .generated →
    J { s with pending := s.pending ++ [r] }
  record : ∀ s p, J s → c.status = .exited → p.signalId = c.signalId →
    J { s with performance := s.performance ++ [p] }

section kept
variable {J : PerformanceTracker → Prop}

theorem keeps_updateSignalStatus {change : SignalRecord} (preserve : Option SignalRecord)
    (hevent : ∀ s r, J s → r.signalId = change.signalId → r.status = change.status → J (s.addSignalEvent r))
    (hline : ∀ s r, J s → J (s.appendLine r)) : (TrackerProc.updateSignalStatus change preserve).Keeps J := by
  have hwrite (current : Option SignalRecord) : (Proc.ask () >>= fun _ => Proc.modify fun s : PerformanceTracker =>
      (s.addSignalEvent (current.elim change fun r => r.update change)).appendLine
        { change with statusChange := true } : TrackerProc Unit).Keeps J := by
    refine (Proc.keeps_ask ()).bind fun _ => Proc.keeps_modify fun s hs => hline _ _ (hevent _ _ hs ?_ ?_)
    all_goals cases current <;> rfl
  unfold TrackerProc.updateSignalStatus
  cases preserve with
  | some r => exact (Proc.keeps_pure _).bind hwrite
  | none =>
    exact (Proc.keeps_ask ()).bind fun _ => Proc.keeps_read.bind fun _ => (Proc.keeps_pure _).bind hwrite

theorem exitPerformance_signalId {x reason : String} {price : Number} {time : ℚ} {r : SignalRecord} {perf : Performance}
    (h : r.exitPerformance x price reason time = some perf) : perf.signalId = x := by
  unfold SignalRecord.exitPerformance at h
  split at h
  · obtain rfl := Option.some.inj h
    rfl
  · cases h

theorem exitPerformance_pos {x reason : String} {price : Number} {time : ℚ} {r : SignalRecord} {perf : Performance}
    (h : r.exitPerformance x price reason time = some perf) : 0 < perf.entryPrice := by
  unfold SignalRecord.exitPerformance SignalStore.validPrice at h
  split at h
  next entry exit hentry hexit =>
    obtain rfl := Option.some.inj h
    split at hentry
    next q hq =>
      split at hentry
      next hpos =>
        obtain rfl := Option.some.inj hentry
        exact hpos
      · cases hentry
    · cases hentry
  · cases h

theorem KeptBy.keeps {c : TrackerCall} (h : KeptBy J c) : c.proc.Keeps J := by
  cases c with
  | trackSignalGenerated x signal accepted =>
    refine (Proc.keeps_modify fun s => h.line s _).bind fun _ => (Proc.keeps_ask ()).bind fun _ => ?_
    refine Proc.keeps_modify fun s hs => ?_
    split
    · exact h.queue s _ hs rfl rfl rfl
    · exact hs
  | trackEntry x price time signalData =>
    unfold TrackerCall.proc TrackerProc.trackEntry
    exact keeps_updateSignalStatus _ h.event h.line
  | trackSignalExpired x =>
    unfold TrackerCall.proc TrackerProc.trackSignalExpired
    exact keeps_updateSignalStatus _ h.event h.line
  | trackExit x price reason time =>
    refine Proc.Keeps.bind ?_ fun _ => Proc.keeps_pure _
    refine (Proc.keeps_ask ()).bind fun _ => Proc.keeps_read.bind fun s => ?_
    split
    · exact Proc.keeps_pure _
    · split
      · exact Proc.keeps_pure _
      · split
        · exact Proc.keeps_pure _
        next perf hperf =>
          have hid : perf.signalId = x := exitPerformance_signalId hperf
          have hevent (s : PerformanceTracker) (r : SignalRecord) (hs : J s) (hr : r.signalId = perf.signalId)
              (hstatus : r.status = .exited) : J (s.addSignalEvent r) := h.event s r hs (hr.trans hid) hstatus
          refine (keeps_updateSignalStatus _ hevent h.line).bind fun _ => ?_
          exact (Proc.keeps_modify fun s hs => h.record s perf hs rfl hid).bind fun _ => Proc.keeps_pure _

end kept

theorem runTracker_invariant {J : PerformanceTracker → Prop} {P : TrackerAct → Prop}
    (hact : ∀ a s, P a → J s → J (TrackerAct.apply s a)) {s : PerformanceTracker} {acts : List TrackerAct}
    (hacts : ∀ a ∈ acts, P a) (hs : J s) : J (runTracker s acts) := by
  induction acts generalizing s with
  | nil => exact hs
  | cons a acts ih =>
    have ha := hacts a List.mem_cons_self
    exact ih (fun a' ha' => hacts a' (List.mem_cons_of_mem _ ha')) (hact a s ha hs)

theorem foldl_worker {J : PerformanceTracker → Prop} (hworker : ∀ s e, J s → J (WorkerEvent.apply s e))
    {s : PerformanceTracker} (es : List WorkerEvent) (hs : J s) : J (es.foldl WorkerEvent.apply s) := by
  induction es generalizing s with
  | nil => exact hs
  | cons e es ih => exact ih (hworker s e hs)

theorem KeptBy.call {J : PerformanceTracker → Prop} {c : TrackerCall} (h : KeptBy J c)
    (hworker : ∀ s e, J s → J (WorkerEvent.apply s e)) {s : PerformanceTracker} (others : Nat → List WorkerEvent)
    (hs : J s) : J (TrackerAct.apply s (.call c others)) :=
  h.keeps.play (meanwhile others) (fun n _ hs => foldl_worker hworker (others n) hs) hs

/-! ### Before and after the exit -/

structure Unknown (x : String) (s : PerformanceTracker) : Prop where
  events : ∀ r ∈ s.events, r.signalId ≠ x
  pending : ∀ r ∈ s.pending, r.signalId ≠ x
  performance : ∀ p ∈ s.performance, p.signalId ≠ x

/-- The signal has had no exit; only its `generated` event goes through the queue. -/
structure Opened (x : String) (s : PerformanceTracker) : Prop where
  events : ∀ r ∈ s.events, r.signalId = x → r.status ≠ .exited
  pending : ∀ r ∈ s.pending, r.signalId = x → r.status = .generated
  performance : ∀ p ∈ s.performance, p.signalId ≠ x

/-- The latest row of the signal is `exited`, and no event of it is queued. -/
structure Closed (x : String) (s : PerformanceTracker) : Prop where
  latest : ∃ r, s.getSignalEventById x = some r ∧ r.status = .exited
  pending : ∀ r ∈ s.pending, r.signalId ≠ x
  counted : s.performance.countP (·.signalId = x) ≤ 1

def HasRow (x : String) (s : PerformanceTracker) : Prop := ∃ r ∈ s.events, r.signalId = x

section invariants
variable {x : String} {s : PerformanceTracker} {c : TrackerCall}

theorem Unknown.opened (h : Unknown x s) : Opened x s where
  events r hr hx := absurd hx (h.events r hr)
  pending r hr hx := absurd hx (h.pending r hr)
  performance := h.performance

theorem opened_worker (s : PerformanceTracker) (e : WorkerEvent) (h : Opened x s) : Opened x (e.apply s) := by
  cases e with
  | write i =>
    unfold WorkerEvent.apply
    dsimp only
    split
    next r hr =>
      have hmem : r ∈ s.pending := List.mem_of_getElem? hr
      refine ⟨?_, fun r' hr' => h.pending r' (List.mem_of_mem_eraseIdx hr'), h.performance⟩
      refine forall_mem_concat h.events fun hx => ?_
      rw [h.pending r hmem hx]
      decide
    · exact h
  | fail i => exact ⟨h.events, fun r hr => h.pending r (List.mem_of_mem_eraseIdx hr), h.performance⟩

/-- Only an exit of the signal ends this. -/
theorem opened_keptBy (hc : c.signalId ≠ x ∨ c.status ≠ .exited) : KeptBy (Opened x) c where
  event s r h hid hstatus := by
    refine ⟨forall_mem_concat h.events fun hx => ?_, h.pending, h.performance⟩
    rw [hstatus]
    exact hc.resolve_left fun hne => hne (hid.symm.trans hx)
  line s r h := ⟨h.events, h.pending, h.performance⟩
  queue s r h _ _ hstatus := ⟨h.events, forall_mem_concat h.pending fun _ => hstatus, h.performance⟩
  record s p h hexited hid := by
    refine ⟨h.events, h.pending, forall_mem_concat h.performance ?_⟩
    rw [hid]
    exact hc.resolve_right fun hne => hne hexited

theorem closed_worker (s : PerformanceTracker) (e : WorkerEvent) (h : Closed x s) : Closed x (e.apply s) := by
  cases e with
  | write i =>
    unfold WorkerEvent.apply
    dsimp only
    split
    next r hr =>
      have hne : r.signalId ≠ x := h.pending r (List.mem_of_getElem? hr)
      refine ⟨?_, fun r' hr' => h.pending r' (List.mem_of_mem_eraseIdx hr'), h.counted⟩
      obtain ⟨r', hr', hstatus⟩ := h.latest
      refine ⟨r', ?_, hstatus⟩
      have hadd := @getSignalEventById_add x s r
      rw [if_neg hne] at hadd
      exact hadd.trans hr'
    · exact h
  | fail i => exact ⟨h.latest, fun r hr => h.pending r (List.mem_of_mem_eraseIdx hr), h.counted⟩

theorem closed_keptBy (hc : c.signalId ≠ x) : KeptBy (Closed x) c where
  event s r h hid _ := by
    refine ⟨?_, h.pending, h.counted⟩
    rw [getSignalEventById_add, if_neg (hid ▸ hc)]
    exact h.latest
  line s r h := ⟨h.latest, h.pending, h.counted⟩
  queue s r h _ hid _ := ⟨h.latest, forall_mem_concat h.pending (hid ▸ hc), h.counted⟩
  record s p h _ hid := by
    refine ⟨h.latest, h.pending, ?_⟩
    have hne : p.signalId ≠ x := hid ▸ hc
    simpa [List.countP_append, hne] using h.counted

theorem hasRow_worker (s : PerformanceTracker) (e : WorkerEvent) (h : HasRow x s) : HasRow x (e.apply s) := by
  obtain ⟨r, hr, hx⟩ := h
  cases e with
  | write i =>
    unfold WorkerEvent.apply
    dsimp only
    split
    · exact ⟨r, List.mem_append_left _ hr, hx⟩
    · exact ⟨r, hr, hx⟩
  | fail i => exact ⟨r, hr, hx⟩

theorem hasRow_keptBy : KeptBy (HasRow x) c where
  event _ _ h _ _ := h.imp fun _ hr => ⟨List.mem_append_left _ hr.1, hr.2⟩
  line _ _ h := h
  queue _ _ h _ _ _ := h
  record _ _ h _ _ := h

end invariants

/-! ### The exit -/

def TrackerAct.Foreign (x : String) : TrackerAct → Prop
  | worker _ => True
  | call c _ => c.signalId ≠ x

/-- The act does not start the signal again, nor let it expire. -/
def TrackerAct.Continues (x : String) : TrackerAct → Prop
  | worker _ => True
  | call c _ => c.signalId = x → c.status = .exited

/-- From here on, whatever the worker and the main thread do, the signal reads as exited, and its P&L has been counted
once at most. -/
def StaysExited (x : String) (s : PerformanceTracker) : Prop :=
  ∀ acts, (∀ a ∈ acts, TrackerAct.Continues x a) →
    ((runTracker s acts).store.getSignalRecord x).map SignalRecord.status = some .exited ∧
      (runTracker s acts).performance.countP (·.signalId = x) ≤ 1

/-- `validate_trade_prices` accepts the prices of an exit. -/
def PricesValid (x : String) (exitPrice : Number) (s : PerformanceTracker) : Prop :=
  (SignalStore.validPrice exitPrice).isSome ∧
    ∃ r, s.store.getSignalRecord x = some r ∧ (SignalStore.validPrice r.entryPrice).isSome

section exit
variable {x reason : String} {price : Number} {time : ℚ} {s : PerformanceTracker} {r : SignalRecord} {perf : Performance}
  {others : Nat → List WorkerEvent}

theorem exitPerformance_isSome : (r.exitPerformance x price reason time).isSome =
    ((SignalStore.validPrice r.entryPrice).isSome && (SignalStore.validPrice price).isSome) := by
  unfold SignalRecord.exitPerformance
  cases SignalStore.validPrice r.entryPrice with
  | none => rfl
  | some entry =>
    cases SignalStore.validPrice price with
    | none => rfl
    | some exit => rfl

theorem exit_skipped (hr : ((others 0).foldl WorkerEvent.apply s).store.getSignalRecord x = some r)
    (hskip : r.status = .exited ∨ r.exitPerformance x price reason time = none) :
    TrackerAct.apply s (.call (.trackExit x price reason time) others) = (others 0).foldl WorkerEvent.apply s := by
  have hr : ((meanwhile others 0).others s).store.getSignalRecord x = some r := hr
  simp only [TrackerAct.apply, TrackerCall.proc, Proc.play_bind, Proc.play_pure]
  simp only [TrackerProc.trackExit, Proc.play_ask_bind, Proc.play_read_bind, hr]
  rcases hskip with hexited | hperf
  · rw [if_pos hexited]
    rfl
  · rw [hperf]
    split <;> rfl

theorem exit_recorded (hr : ((others 0).foldl WorkerEvent.apply s).store.getSignalRecord x = some r)
    (hstatus : r.status ≠ .exited) (hperf : r.exitPerformance x price reason time = some perf) :
    ∃ row line, row.signalId = x ∧ row.status = .exited ∧
      TrackerAct.apply s (.call (.trackExit x price reason time) others) =
        let s' := (others 2).foldl WorkerEvent.apply ((others 1).foldl WorkerEvent.apply
          ((others 0).foldl WorkerEvent.apply s))
        { (s'.addSignalEvent row).appendLine line with performance := s'.performance ++ [perf] } := by
  have hr : ((meanwhile others 0).others s).store.getSignalRecord x = some r := hr
  have hid : perf.signalId = x := exitPerformance_signalId hperf
  simp only [TrackerAct.apply, TrackerCall.proc, Proc.play_bind, Proc.play_pure]
  simp only [TrackerProc.trackExit, Proc.play_ask_bind, Proc.play_read_bind, hr]
  rw [if_neg hstatus, hperf]
  let current := ((others 1).foldl WorkerEvent.apply ((others 0).foldl WorkerEvent.apply s)).getSignalEventById perf.signalId
  refine ⟨current.elim (perf.change r.data) fun r' => r'.update (perf.change r.data), _, ?_, ?_, rfl⟩
  · rw [← hid]
    cases current <;> rfl
  · cases current <;> rfl

theorem closed_apply (a : TrackerAct) (s : PerformanceTracker) (ha : a.Continues x) (h : Closed x s) :
    Closed x (a.apply s) := by
  cases a with
  | worker e => exact closed_worker s e h
  | call c others =>
    by_cases hx : c.signalId = x
    · cases c with
      | trackExit y price reason time =>
        obtain rfl : y = x := hx
        have hread : Closed y ((others 0).foldl WorkerEvent.apply s) := foldl_worker closed_worker (others 0) h
        obtain ⟨r, hr, hexited⟩ := hread.latest
        rw [exit_skipped (getSignalRecord_of_event hr) (.inl hexited)]
        exact hread
      | trackSignalGenerated y signal accepted => cases ha hx
      | trackEntry y price time signalData => cases ha hx
      | trackSignalExpired y => cases ha hx
    · exact (closed_keptBy hx).call closed_worker others h

theorem Closed.staysExited (h : Closed x s) : StaysExited x s := by
  intro acts hacts
  have hclosed : Closed x (runTracker s acts) := runTracker_invariant closed_apply hacts h
  obtain ⟨r, hr, hexited⟩ := hclosed.latest
  rw [getSignalRecord_of_event hr, Option.map_some, hexited]
  exact ⟨rfl, hclosed.counted⟩

/-- A `generated` event that is written late is the latest row. -/
theorem not_staysExited_of_pending (hr : r ∈ s.pending) (hx : r.signalId = x) (hgenerated : r.status = .generated) :
    ¬ StaysExited x s := by
  intro h
  obtain ⟨i, hi⟩ := List.mem_iff_getElem?.1 hr
  have hread := (h [.worker (.write i)] (by simp [TrackerAct.Continues])).1
  have hlate : (runTracker s [.worker (.write i)]).getSignalEventById x = some r := by
    have hwrite : runTracker s [.worker (.write i)] = { s.addSignalEvent r with pending := s.pending.eraseIdx i } := by
      simp [runTracker, TrackerAct.apply, WorkerEvent.apply, hi]
    rw [hwrite]
    exact getSignalEventById_add.trans (if_pos hx)
  rw [getSignalRecord_of_event hlate, Option.map_some, hgenerated] at hread
  cases hread

theorem Opened.record (h : Opened x s) (hrow : HasRow x s) :
    ∃ r, s.store.getSignalRecord x = some r ∧ r.status ≠ .exited := by
  obtain ⟨r, hr, hx⟩ := hrow
  obtain ⟨r', hr'⟩ := getSignalEventById_isSome hr hx
  obtain ⟨hmem, hx'⟩ := mem_of_getSignalEventById hr'
  exact ⟨r', getSignalRecord_of_event hr', h.events r' hmem hx'⟩

theorem Opened.exit (h : Opened x s) (hrow : HasRow x s) :
    let s' := TrackerAct.apply s (.call (.trackExit x price reason time) others)
    StaysExited x s' ↔ PricesValid x price ((others 0).foldl WorkerEvent.apply s) ∧ ∀ r ∈ s'.pending, r.signalId ≠ x := by
  have hread : Opened x ((others 0).foldl WorkerEvent.apply s) := foldl_worker opened_worker (others 0) h
  obtain ⟨r, hr, hstatus⟩ := hread.record (foldl_worker hasRow_worker (others 0) hrow)
  have hvalid : PricesValid x price ((others 0).foldl WorkerEvent.apply s) ↔
      (r.exitPerformance x price reason time).isSome := by
    unfold PricesValid
    rw [exitPerformance_isSome, hr, Bool.and_eq_true, and_comm]
    simp
  dsimp only
  rw [hvalid]
  cases hperf : r.exitPerformance x price reason time with
  | none =>
    have hnot : ¬ StaysExited x ((others 0).foldl WorkerEvent.apply s) := by
      intro hstays
      have hexited := (hstays [] (by simp)).1
      rw [show runTracker ((others 0).foldl WorkerEvent.apply s) [] = (others 0).foldl WorkerEvent.apply s from rfl, hr,
        Option.map_some] at hexited
      exact hstatus (Option.some.inj hexited)
    rw [exit_skipped hr (.inr hperf)]
    simp [hnot]
  | some perf =>
    have hid : perf.signalId = x := exitPerformance_signalId hperf
    obtain ⟨row, line, hx, hexited, hs'⟩ := exit_recorded hr hstatus hperf
    have hopen := foldl_worker opened_worker (others 2) (foldl_worker opened_worker (others 1) hread)
    rw [hs']
    dsimp only
    generalize (others 2).foldl WorkerEvent.apply ((others 1).foldl WorkerEvent.apply
      ((others 0).foldl WorkerEvent.apply s)) = s₂ at hopen
    constructor
    · intro hstays
      refine ⟨rfl, fun r' hr' hx' => ?_⟩
      refine absurd hstays (not_staysExited_of_pending ?_ hx' (hopen.pending r' hr' hx'))
      exact hr'
    · rintro ⟨-, hpending⟩
      refine Closed.staysExited ⟨⟨row, ?_, hexited⟩, hpending, ?_⟩
      · exact getSignalEventById_add.trans (if_pos hx)
      · -- the first exit that is counted
        have hnone : s₂.performance.countP (·.signalId = x) = 0 := by
          rw [List.countP_eq_zero]
          intro p hp
          simpa using hopen.performance p hp
        simp [List.countP_append, hnone, hid]

theorem opened_apply (a : TrackerAct) (s : PerformanceTracker) (ha : a.Foreign x) (h : Opened x s) :
    Opened x (a.apply s) := by
  cases a with
  | worker e => exact opened_worker s e h
  | call c others => exact (opened_keptBy (.inl ha)).call opened_worker others h

theorem hasRow_apply (a : TrackerAct) (s : PerformanceTracker) (h : HasRow x s) : HasRow x (a.apply s) := by
  cases a with
  | worker e => exact hasRow_worker s e h
  | call c others => exact hasRow_keptBy.call hasRow_worker others h

theorem hasRow_entry {signalData : Option SignalData} :
    HasRow x (TrackerAct.apply s (.call (.trackEntry x price time signalData) others)) := by
  have hadd (s : PerformanceTracker) (row : SignalRecord) (hrow : row.signalId = x) : HasRow x (s.addSignalEvent row) :=
    ⟨row, List.mem_append_right _ (List.mem_singleton_self row), hrow⟩
  simp only [TrackerAct.apply, TrackerCall.proc, TrackerProc.trackEntry, TrackerProc.updateSignalStatus]
  cases signalData with
  | some signal => exact hadd _ _ rfl
  | none =>
    refine hadd ((others 1).foldl WorkerEvent.apply ((others 0).foldl WorkerEvent.apply s)) _ ?_
    cases ((meanwhile others 0).others s).getSignalEventById x <;> rfl

end exit

/-- A signal that was not known is generated, entered and exited, and in between the worker and the main thread do what
they like. The signal stays exited, with its P&L counted once, if and only if `track_exit` accepts its prices and its
`generated` event is no longer queued when `track_exit` returns. -/
theorem staysExited_iff (x : String) (s₀ : PerformanceTracker) (h₀ : Unknown x s₀) (signal : SignalData) (accepted : Bool)
    (entryPrice exitPrice : Number) (entryTime exitTime : ℚ) (signalData : Option SignalData) (exitReason : String)
    (others₁ others₂ others₃ : Nat → List WorkerEvent) (acts₁ acts₂ : List TrackerAct)
    (hforeign : ∀ a ∈ acts₁ ++ acts₂, TrackerAct.Foreign x a) :
    let s := runTracker s₀ (.call (.trackSignalGenerated x signal accepted) others₁ :: acts₁ ++
      .call (.trackEntry x entryPrice entryTime signalData) others₂ :: acts₂)
    let s' := TrackerAct.apply s (.call (.trackExit x exitPrice exitReason exitTime) others₃)
    StaysExited x s' ↔
      PricesValid x exitPrice ((others₃ 0).foldl WorkerEvent.apply s) ∧ ∀ r ∈ s'.pending, r.signalId ≠ x := by
  intro s
  have hforeign₁ : ∀ a ∈ acts₁, TrackerAct.Foreign x a := fun a ha => hforeign a (List.mem_append_left _ ha)
  have hforeign₂ : ∀ a ∈ acts₂, TrackerAct.Foreign x a := fun a ha => hforeign a (List.mem_append_right _ ha)
  have hsplit : s = runTracker (TrackerAct.apply (runTracker
      (TrackerAct.apply s₀ (.call (.trackSignalGenerated x signal accepted) others₁)) acts₁)
      (.call (.trackEntry x entryPrice entryTime signalData) others₂)) acts₂ := by
    simp [s, runTracker, List.foldl_append]
  have hgenerated : Opened x (TrackerAct.apply s₀ (.call (.trackSignalGenerated x signal accepted) others₁)) :=
    (opened_keptBy (.inr (by simp [TrackerCall.status]))).call opened_worker others₁ h₀.opened
  have hbefore := runTracker_invariant opened_apply hforeign₁ hgenerated
  have hentered := (@opened_keptBy x (.trackEntry x entryPrice entryTime signalData)
    (.inr (by simp [TrackerCall.status]))).call opened_worker others₂ hbefore
  have hopened : Opened x s := by
    rw [hsplit]
    exact runTracker_invariant opened_apply hforeign₂ hentered
  have hrow : HasRow x s := by
    rw [hsplit]
    exact runTracker_invariant (fun a s _ h => hasRow_apply a s h) hforeign₂ hasRow_entry
  exact hopened.exit hrow

/-- A signal as the strategy makes it, with its entry price. -/
def longSignal : SignalData := { direction := some "long", entryPrice := some (.fin 100) }

def idle : Nat → List WorkerEvent := fun _ => []

/-- The exit of a signal that was entered at 100. -/
def sampleExit : TrackerAct := .call (.trackExit "s1" (.fin 110) "take_profit" 60) idle

/-- A signal that is generated and entered, and what happens in between. -/
def sampleEntry (acts : List TrackerAct) : PerformanceTracker :=
  runTracker {} (.call (.trackSignalGenerated "s1" longSignal true) idle :: acts ++
    [.call (.trackEntry "s1" (.fin 100) 0 none) idle])

theorem staysExited_iff_written : StaysExited "s1" (sampleExit.apply (sampleEntry [.worker (.write 0)])) := by
  refine (staysExited_iff "s1" {} ⟨by simp, by simp, by simp⟩ longSignal true (.fin 100) (.fin 110) 0 60
    none "take_profit" idle idle idle [.worker (.write 0)] [] ?_).2 ⟨⟨by decide +kernel, _, rfl, by decide +kernel⟩, ?_⟩
  · intro a ha
    obtain rfl : a = .worker (.write 0) := by simpa using ha
    trivial
  · have hpending : (sampleExit.apply (sampleEntry [.worker (.write 0)])).pending = [] := by decide +kernel
    intro r hr
    have hr : r ∈ (sampleExit.apply (sampleEntry [.worker (.write 0)])).pending := hr
    rw [hpending] at hr
    cases hr

/-- The worker writes the `generated` event after the exit. -/
theorem not_staysExited : ¬ ∀ x s₀, Unknown x s₀ → ∀ signal accepted entryPrice exitPrice entryTime exitTime signalData
    exitReason others₁ others₂ others₃ acts₁ acts₂, (∀ a ∈ acts₁ ++ acts₂, TrackerAct.Foreign x a) →
    let s := runTracker s₀ (.call (.trackSignalGenerated x signal accepted) others₁ :: acts₁ ++
      .call (.trackEntry x entryPrice entryTime signalData) others₂ :: acts₂)
    PricesValid x exitPrice ((others₃ 0).foldl WorkerEvent.apply s) →
      StaysExited x (TrackerAct.apply s (.call (.trackExit x exitPrice exitReason exitTime) others₃)) := by
  intro h
  have hstays : StaysExited "s1" (sampleExit.apply (sampleEntry [])) := h "s1" {} ⟨by simp, by simp, by simp⟩
    longSignal true (.fin 100) (.fin 110) 0 60 none "take_profit" idle idle idle [] [] (by simp)
    ⟨by decide +kernel, _, rfl, by decide +kernel⟩
  -- the next exit is then counted as well
  have hcounted := (hstays [.worker (.write 0), sampleExit] (by simp [TrackerAct.Continues, sampleExit, TrackerCall.status])).2
  exact absurd hcounted (by decide +kernel)

end PearlAlgo
