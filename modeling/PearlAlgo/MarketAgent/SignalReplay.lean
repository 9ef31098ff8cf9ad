import Mathlib.Data.List.Induction
import PearlAlgo.MarketAgent.PerformanceTracker
import PearlAlgo.Py.Dict
import PearlAlgo.Py.Seq

/-!
# Signal reconciliation (`market_agent/state_manager.py`, `storage/trade_database.py`)

`reconcile_signals` compares the number of lines of `signals.jsonl` with the number of rows of `signal_events` and,
where the file is ahead, adds an event for each record of a signal that has none. Of a dictionary the model keeps the
keys that the code reads; `α` is what the others hold. File and database operations succeed.
-/

namespace PearlAlgo
open Py

structure EventPayload (α : Type) where
  signalId : Option String := none
  status : Option SignalStatus := none
  timestamp : Option String := none
  rest : α

/-- A line of `signals.jsonl`. -/
inductive JsonLine (α : Type)
  | record (r : EventPayload α)
  /-- JSON that is no dictionary. -/
  | value
  | malformed

def JsonLine.record? {α : Type} : JsonLine α → Option (EventPayload α)
  | .record r => some r
  | .value | .malformed => none

/-- A row of `signal_events`. -/
structure SignalEvent (α : Type) where
  signalId : String
  status : SignalStatus
  timestamp : String
  payload : EventPayload α

structure ReconcileStores (α : Type) where
  signalsFile : Option (List (JsonLine α)) := none
  events : List (SignalEvent α) := []
  sidecar : Option Int := none
  signalCount : Option Int := none

structure ReconcileResult where
  jsonCount : Int := 0
  sqliteCount : Nat := 0
  divergence : Int := 0
  replayed : Nat := 0
  errors : Nat := 0
deriving DecidableEq

/-- The later status of a signal; an expired one was never entered. -/
def SignalStatus.AtLeast (a b : SignalStatus) : Prop := a = b ∨ b = .generated ∨ (a = .exited ∧ b = .entered)

instance (a b : SignalStatus) : Decidable (a.AtLeast b) := inferInstanceAs (Decidable (_ ∨ _ ∨ _ ∧ _))

variable {α : Type}

namespace SignalEvent

/-- `get_signal_event_by_id` -/
def lookup (signalId : String) (events : List (SignalEvent α)) : Option (EventPayload α) :=
  (events.findRev? fun row => row.signalId = signalId).map fun row => { row.payload with
    signalId := row.payload.signalId <|> some row.signalId
    status := row.payload.status <|> some row.status
    timestamp := row.payload.timestamp <|> some row.timestamp }

/-- `get_signal_event_counts` -/
def counts (events : List (SignalEvent α)) : Dict SignalStatus Nat :=
  events.foldl (fun d row => d.set row.status ((d.get? row.status).getD 0 + 1)) .empty

/-- `get_all_signal_ids` -/
def signalIds (events : List (SignalEvent α)) : List String := events.map SignalEvent.signalId

end SignalEvent

/-- The event that the replay adds for a record, unless its signal is known. -/
def EventPayload.replayed (existing : List String) (r : EventPayload α) : Option (SignalEvent α) :=
  let signalId := r.signalId.getD ""
  if signalId = "" ∨ signalId ∈ existing then none
  else some ⟨signalId, r.status.getD .generated, r.timestamp.getD "", r⟩

structure Replay (α : Type) where
  events : List (SignalEvent α)
  replayed : Nat := 0
  errors : Nat := 0

/-- One line of the replay. -/
def Replay.line (existing : List String) (s : Replay α) : JsonLine α → Replay α
  | .record r =>
    match r.replayed existing with
    | some event => { s with events := s.events ++ [event], replayed := s.replayed + 1 }
    | none => s
  | .value | .malformed => { s with errors := s.errors + 1 }

namespace ReconcileStores

def lines (s : ReconcileStores α) : List (JsonLine α) := s.signalsFile.getD []

def getSignalCount (s : ReconcileStores α) : Int × ReconcileStores α :=
  match s.signalCount, s.sidecar with
  | some count, _ => (count, s)
  | none, some count => (count, { s with signalCount := some count })
  | none, none =>
    let count : Int := s.lines.length
    (count, { s with signalCount := some count, sidecar := some count })

def divergence (s : ReconcileStores α) : Int := s.getSignalCount.1 - (SignalEvent.counts s.events).values.sum

def reconcileSignals (threshold : Int) (s : ReconcileStores α) : ReconcileResult × ReconcileStores α :=
  let (jsonCount, counted) := s.getSignalCount
  let sqliteCount := (SignalEvent.counts s.events).values.sum
  let result : ReconcileResult := { jsonCount, sqliteCount, divergence := s.divergence }
  if s.divergence ≤ threshold then (result, counted)
  else
    let replay := s.lines.foldl (Replay.line (SignalEvent.signalIds s.events)) { events := s.events }
    ({ result with replayed := replay.replayed, errors := replay.errors }, { counted with events := replay.events })

/-- The last record of a signal in the file. -/
def lastRecord (signalId : String) (s : ReconcileStores α) : Option (EventPayload α) :=
  (s.lines.filterMap JsonLine.record?).findRev? fun r => r.signalId.getD "" = signalId

/-- The latest event of the signal is as advanced as its last record, which is `generated` where it has no status. -/
def CaughtUp (signalId : String) (s : ReconcileStores α) : Prop :=
  ∀ r ∈ s.lastRecord signalId, ∃ event ∈ SignalEvent.lookup signalId s.events, ∃ status ∈ event.status,
    status.AtLeast (r.status.getD .generated)

/-- Every signal of the file is caught up, and another reconciliation adds nothing. -/
def Reconciled (s : ReconcileStores α) : Prop :=
  (∀ signalId, signalId ≠ "" → s.CaughtUp signalId) ∧ ∀ threshold, (s.reconcileSignals threshold).2.events = s.events

variable {existing : List String} {s : ReconcileStores α} {x : String}

theorem foldl_line (existing : List String) (lines : List (JsonLine α)) (s : Replay α) :
    (lines.foldl (Replay.line existing) s).events =
      s.events ++ (lines.filterMap JsonLine.record?).filterMap (EventPayload.replayed existing) := by
  induction lines generalizing s with
  | nil => exact (List.append_nil _).symm
  | cons line lines ih =>
    rw [List.foldl_cons, ih]
    rcases line with r | _ | _
    · show _ = s.events ++ (r :: lines.filterMap JsonLine.record?).filterMap (EventPayload.replayed existing)
      rcases hr : r.replayed existing with _ | event
      · rw [List.filterMap_cons_none hr, Replay.line, hr]
      · rw [List.filterMap_cons_some hr, Replay.line, hr, List.append_assoc]
        rfl
    · rfl
    · rfl

/-- The events after a reconciliation that replays. -/
theorem events_reconcile {threshold : Int} (h : threshold < s.divergence) :
    (s.reconcileSignals threshold).2.events = s.events ++
      (s.lines.filterMap JsonLine.record?).filterMap (EventPayload.replayed (SignalEvent.signalIds s.events)) := by
  unfold reconcileSignals
  dsimp only
  rw [if_neg (by omega)]
  exact foldl_line _ _ _

/-- Counting the file leaves the file and the events alone. -/
theorem getSignalCount_same (s : ReconcileStores α) :
    s.getSignalCount.2.events = s.events ∧ s.getSignalCount.2.signalsFile = s.signalsFile := by
  unfold getSignalCount
  rcases s.signalCount with _ | count
  · rcases s.sidecar with _ | count
    · exact ⟨rfl, rfl⟩
    · exact ⟨rfl, rfl⟩
  · exact ⟨rfl, rfl⟩

theorem signalsFile_reconcile (threshold : Int) (s : ReconcileStores α) :
    (s.reconcileSignals threshold).2.signalsFile = s.signalsFile := by
  unfold reconcileSignals
  dsimp only
  split
  · exact (getSignalCount_same s).2
  · exact (getSignalCount_same s).2

theorem replayed_known (h : x ∈ existing) (records : List (EventPayload α)) :
    ∀ row ∈ records.filterMap (EventPayload.replayed existing), row.signalId ≠ x := by
  intro row hrow hid
  obtain ⟨r, -, hr⟩ := List.mem_filterMap.1 hrow
  unfold EventPayload.replayed at hr
  dsimp only at hr
  split at hr
  · cases hr
  next hnew =>
    obtain rfl := Option.some.inj hr
    exact hnew (.inr (by rwa [← hid] at h))

/-- The last event that the replay adds for a signal without events is that of its last record. -/
theorem replayed_last (hx : x ≠ "") (h : x ∉ existing) (records : List (EventPayload α)) :
    (records.filterMap (EventPayload.replayed existing)).findRev? (fun row => row.signalId = x) =
      (records.findRev? fun r => r.signalId.getD "" = x).map fun r =>
        ⟨x, r.status.getD .generated, r.timestamp.getD "", r⟩ := by
  induction records using List.reverseRecOn with
  | nil => rfl
  | append_singleton records r ih =>
    rw [List.filterMap_append, findRev?_concat]
    by_cases hr : r.signalId.getD "" = x
    · have hadded : r.replayed existing = some ⟨x, r.status.getD .generated, r.timestamp.getD "", r⟩ := by
        unfold EventPayload.replayed
        dsimp only
        rw [hr, if_neg (not_or.2 ⟨hx, h⟩)]
      rw [List.filterMap_cons_some hadded, List.filterMap_nil, findRev?_concat, if_pos (by simp), if_pos (by simpa using hr)]
      rfl
    · rw [if_neg (by simpa using hr), ← ih]
      rcases hadded : r.replayed existing with _ | row
      · rw [List.filterMap_cons_none hadded, List.filterMap_nil, List.append_nil]
      · have hrow : row.signalId ≠ x := by
          unfold EventPayload.replayed at hadded
          dsimp only at hadded
          split at hadded
          · cases hadded
          · obtain rfl := Option.some.inj hadded
            exact hr
        rw [List.filterMap_cons_some hadded, List.filterMap_nil, findRev?_concat, if_neg (by simpa using hrow)]

theorem events_skipped {threshold : Int} (h : ¬ threshold < s.divergence) :
    (s.reconcileSignals threshold).2.events = s.events := by
  unfold reconcileSignals
  dsimp only
  rw [if_pos (by omega)]
  exact (getSignalCount_same s).1

theorem lookup_append_of_ne {events new : List (SignalEvent α)} (h : ∀ row ∈ new, row.signalId ≠ x) :
    SignalEvent.lookup x (events ++ new) = SignalEvent.lookup x events := by
  unfold SignalEvent.lookup
  induction new using List.reverseRecOn with
  | nil => rw [List.append_nil]
  | append_singleton new row ih =>
    rw [← List.append_assoc, findRev?_concat, if_neg (by simpa using h row (by simp))]
    exact ih fun row' hrow' => h row' (List.mem_append_left _ hrow')

/-- A signal without events is caught up by the replay. -/
theorem caughtUp_replayed {threshold : Int} (h : threshold < s.divergence) (hx : x ≠ "")
    (hnew : x ∉ SignalEvent.signalIds s.events) : (s.reconcileSignals threshold).2.CaughtUp x := by
  intro r hr
  unfold lastRecord lines at hr
  rw [signalsFile_reconcile] at hr
  have hlast := replayed_last hx hnew (s.lines.filterMap JsonLine.record?)
  rw [show (s.lines.filterMap JsonLine.record?).findRev? (fun r => r.signalId.getD "" = x) = some r from hr] at hlast
  have hrow : ((s.reconcileSignals threshold).2.events.findRev? fun row => row.signalId = x) =
      some ⟨x, r.status.getD .generated, r.timestamp.getD "", r⟩ := by
    rw [events_reconcile h, List.findRev?_eq_find?_reverse, List.reverse_append, List.find?_append,
      ← List.findRev?_eq_find?_reverse, hlast]
    rfl
  refine ⟨_, congrArg (Option.map _) hrow, r.status.getD .generated, ?_, .inl rfl⟩
  rcases hstatus : r.status with _ | status
  · simp [hstatus]
  · simp [hstatus]

/-- The replay leaves the events of a signal that has some. -/
theorem caughtUp_known {threshold : Int} (hknown : x ∈ SignalEvent.signalIds s.events) :
    (s.reconcileSignals threshold).2.CaughtUp x ↔ s.CaughtUp x := by
  have hlookup : SignalEvent.lookup x (s.reconcileSignals threshold).2.events = SignalEvent.lookup x s.events := by
    by_cases h : threshold < s.divergence
    · rw [events_reconcile h]
      exact lookup_append_of_ne (replayed_known hknown _)
    · rw [events_skipped h]
  unfold CaughtUp lastRecord lines
  rw [hlookup, signalsFile_reconcile]

/-- After a replay every signal of the file has an event, and another reconciliation adds nothing. -/
theorem events_again {threshold : Int} (h : threshold < s.divergence) (threshold' : Int) :
    ((s.reconcileSignals threshold).2.reconcileSignals threshold').2.events = (s.reconcileSignals threshold).2.events := by
  by_cases h' : threshold' < (s.reconcileSignals threshold).2.divergence
  · have hnothing : ∀ r ∈ s.lines.filterMap JsonLine.record?,
        r.replayed (SignalEvent.signalIds (s.reconcileSignals threshold).2.events) = none := by
      intro r hr
      unfold EventPayload.replayed
      dsimp only
      refine if_pos ?_
      by_cases hx : r.signalId.getD "" = ""
      · exact .inl hx
      · refine .inr ?_
        rw [SignalEvent.signalIds, events_reconcile h, List.map_append, List.mem_append]
        by_cases hold : r.signalId.getD "" ∈ SignalEvent.signalIds s.events
        · exact .inl hold
        · have hadded : r.replayed (SignalEvent.signalIds s.events) =
              some ⟨r.signalId.getD "", r.status.getD .generated, r.timestamp.getD "", r⟩ := if_neg (not_or.2 ⟨hx, hold⟩)
          exact .inr (List.mem_map.2 ⟨_, List.mem_filterMap.2 ⟨r, hr, hadded⟩, rfl⟩)
    have hlines : (s.reconcileSignals threshold).2.lines = s.lines := by
      unfold lines
      rw [signalsFile_reconcile]
    rw [events_reconcile h', hlines, List.filterMap_eq_nil_iff.2 hnothing, List.append_nil]
  · exact events_skipped h'

/-- A reconciliation that replays leaves the stores reconciled if and only if every signal with events is caught up
already. -/
theorem reconciled_iff (s : ReconcileStores α) {threshold : Int} (h : threshold < s.divergence) :
    (s.reconcileSignals threshold).2.Reconciled ↔ ∀ x ∈ SignalEvent.signalIds s.events, x ≠ "" → s.CaughtUp x := by
  constructor
  · rintro ⟨hcaught, -⟩ x hknown hx
    exact (caughtUp_known hknown).1 (hcaught x hx)
  · intro hcaught
    refine ⟨?_, events_again h⟩
    intro x hx
    by_cases hknown : x ∈ SignalEvent.signalIds s.events
    · exact (caughtUp_known hknown).2 (hcaught x hknown hx)
    · exact caughtUp_replayed h hx hknown

def generatedSignal (signalId : String) : EventPayload Unit := { signalId := some signalId, status := some .generated, rest := () }

/-- Twelve lines of the file, the second of which is the entry of the first signal. -/
def twelveLines : List (JsonLine Unit) :=
  [.record (generatedSignal "s0"), .record { generatedSignal "s0" with status := some .entered }] ++
    (List.range 10).map fun n => .record (generatedSignal (toString (n + 1)))

theorem reconciled_empty : ({ signalsFile := some twelveLines } : ReconcileStores Unit).reconcileSignals 10 |>.2.Reconciled :=
  (reconciled_iff { signalsFile := some twelveLines } (by decide +kernel)).2 fun x hx => by cases hx

/-- Only the first event of the signal has reached the table: its entry is not replayed. -/
theorem not_reconciled : ¬ ∀ (s : ReconcileStores Unit) (threshold : Int), threshold < s.divergence →
    (s.reconcileSignals threshold).1.errors = 0 → (s.reconcileSignals threshold).2.Reconciled := by
  intro h
  let event : SignalEvent Unit := ⟨"s0", .generated, "", generatedSignal "s0"⟩
  obtain ⟨hcaught, -⟩ := h { signalsFile := some twelveLines, events := [event] } 10 (by decide +kernel) (by decide +kernel)
  exact absurd (hcaught "s0" (by decide)) (by unfold CaughtUp; decide +kernel)

end ReconcileStores

end PearlAlgo
