import PearlAlgo.MarketAgent.SignalReplay
import PearlAlgo.MarketAgent.VirtualTradeManager

/-!
# The SQLite export (`_SignalStore.export_signals_to_json`)

The export writes the rows of `signal_events` over `signals.jsonl`, newest first and each with its payload under
`payload`, where no reader of the file looks. It drops the cache, so `get_recent_signals` reads the last `limit` lines of
the new file. File and database operations succeed.
-/

namespace PearlAlgo
open Py

/-- The keys of a payload that the readers of a record look at, besides those of the row. -/
structure PayloadKeys where
  signal : Option SignalData := none
  own : SignalData := {}
deriving DecidableEq

structure ExportStores where
  signalsFile : Option (List SignalRecord) := none
  events : List (SignalEvent PayloadKeys) := []
  signalCount : Option Nat := none

/-- What a reader of the file finds in the row: the keys of the payload are not its own. -/
def SignalEvent.exported (row : SignalEvent PayloadKeys) : SignalRecord := { signalId := row.signalId, status := row.status }

structure RecordView where
  status : Option SignalStatus
  entryPrice : Option Number
  signal : Option SignalData
deriving DecidableEq

def SignalRecord.recordView (r : SignalRecord) : RecordView := ⟨some r.status, r.own.entryPrice, r.signal⟩

def EventPayload.recordView (r : EventPayload PayloadKeys) : RecordView := ⟨r.status, r.rest.own.entryPrice, r.rest.signal⟩

/-- `get_recent_signal_events` -/
def SignalEvent.recent (limit : Nat) (events : List (SignalEvent PayloadKeys)) : List (SignalEvent PayloadKeys) :=
  events.reverse.take limit

namespace ExportStores

def exportSignalsToJson (limit : Nat) (s : ExportStores) : Nat × ExportStores :=
  let events := SignalEvent.recent limit s.events
  if events.isEmpty then (0, s)
  else
    (events.length,
      { s with signalsFile := some (events.map SignalEvent.exported), signalCount := some events.length })

def lines (s : ExportStores) : List SignalRecord := s.signalsFile.getD []

/-- `_get_signal_record` without SQLite. -/
def fallback (signalId : String) (s : ExportStores) : Option SignalRecord :=
  ({ lines := s.lines } : SignalStore).getSignalRecord signalId

/-- The latest record of a signal among those of `get_recent_signals`. -/
def latest (limit : Nat) (signalId : String) (s : ExportStores) : Option SignalRecord :=
  (latestById (lastN limit s.lines)).get? signalId

/-- The readers of the file tell of every signal what the event table does. -/
def Readable (limit : Nat) (s : ExportStores) : Prop :=
  ∀ x, x ≠ "" →
    (s.fallback x).map SignalRecord.recordView = (SignalEvent.lookup x s.events).map EventPayload.recordView ∧
    (s.latest limit x).map SignalRecord.recordView = (SignalEvent.lookup x s.events).map EventPayload.recordView

end ExportStores

/-- The columns of the first event of the signal tell what its latest event does: that event ends in the same status
and has no entry price and no signal data. A fold over `limit` lines has to reach back to the first event, which is
among the last lines. -/
def ToldByFirst (limit : Nat) (x : String) (events : List (SignalEvent PayloadKeys)) : Prop :=
  ∃ first ∈ (events.take limit).find? (fun row => row.signalId = x),
    ∃ last ∈ events.findRev? (fun row => row.signalId = x),
      last.payload.status.getD last.status = first.status ∧ last.payload.rest.own.entryPrice = none ∧
        last.payload.rest.signal = none

variable {x : String} {limit n : Nat} {events : List (SignalEvent PayloadKeys)}

theorem foldl_scanLine_exported (rows : List (SignalEvent PayloadKeys)) :
    (rows.map SignalEvent.exported).foldl (SignalStore.scanLine x) none =
      (rows.findRev? fun row => row.signalId = x).map SignalEvent.exported := by
  induction rows using List.reverseRecOn with
  | nil => rfl
  | append_singleton rows row ih =>
    rw [List.map_append, List.foldl_append, findRev?_concat]
    show SignalStore.scanLine x _ row.exported = _
    by_cases hrow : row.signalId = x
    · simp [SignalStore.scanLine, SignalEvent.exported, hrow]
    · simp [SignalStore.scanLine, SignalEvent.exported, hrow] at ih ⊢
      exact ih

theorem findRev?_exported (rows : List (SignalEvent PayloadKeys)) :
    ((rows.map SignalEvent.exported).findRev? fun r => r.signalId = x) =
      (rows.findRev? fun row => row.signalId = x).map SignalEvent.exported := by
  rw [List.findRev?_eq_find?_reverse, List.findRev?_eq_find?_reverse, ← List.map_reverse, List.find?_map]
  rfl

theorem lastN_reverse (hn : 0 < n) (rows : List (SignalEvent PayloadKeys)) :
    lastN n rows.reverse = (rows.take n).reverse := by
  unfold lastN
  rw [if_neg (by omega), List.length_reverse, List.reverse_take]

/-- Whoever looks up a signal among the columns of `first` reads the table right if and only if `first` tells what its
latest event does. -/
theorem view_eq_iff {first last : SignalEvent PayloadKeys} (hlast : events.findRev? (fun row => row.signalId = x) = some last) :
    (some first.exported).map SignalRecord.recordView = (SignalEvent.lookup x events).map EventPayload.recordView ↔
      last.payload.status.getD last.status = first.status ∧ last.payload.rest.own.entryPrice = none ∧
        last.payload.rest.signal = none := by
  have hstatus : (last.payload.status <|> some last.status) = some (last.payload.status.getD last.status) := by
    rcases last.payload.status with _ | status
    · rfl
    · rfl
  unfold SignalEvent.lookup
  rw [hlast]
  simp only [Option.map_some, EventPayload.recordView, SignalRecord.recordView, SignalEvent.exported, Option.some.injEq,
    RecordView.mk.injEq, hstatus]
  constructor
  · rintro ⟨hs, hprice, hsignal⟩
    exact ⟨hs.symm, hprice.symm, hsignal.symm⟩
  · rintro ⟨hs, hprice, hsignal⟩
    exact ⟨hs.symm, hprice.symm, hsignal.symm⟩

namespace ExportStores

variable {s : ExportStores}

theorem lines_export (hlen : s.events.length ≤ limit) (hne : s.events ≠ []) :
    (s.exportSignalsToJson limit).2.lines = s.events.reverse.map SignalEvent.exported := by
  have hrecent : SignalEvent.recent limit s.events = s.events.reverse := List.take_of_length_le (by simpa using hlen)
  unfold exportSignalsToJson
  simp [hrecent, hne, lines]

theorem events_export (limit : Nat) (s : ExportStores) : (s.exportSignalsToJson limit).2.events = s.events := by
  unfold exportSignalsToJson
  dsimp only
  split <;> rfl

/-- The scan of the exported file ends at the first event of the signal. -/
theorem fallback_export (hlen : s.events.length ≤ limit) (hne : s.events ≠ []) :
    (s.exportSignalsToJson limit).2.fallback x =
      (s.events.find? fun row => row.signalId = x).map SignalEvent.exported := by
  unfold fallback
  rw [lines_export hlen hne]
  show Option.map _ ((s.events.reverse.map SignalEvent.exported).foldl (SignalStore.scanLine x) none) = _
  rw [foldl_scanLine_exported, List.findRev?_eq_find?_reverse, List.reverse_reverse, Option.map_map]
  rfl

theorem latest_export (hlen : s.events.length ≤ limit) (hne : s.events ≠ []) (hn : 0 < n) (hx : x ≠ "") :
    (s.exportSignalsToJson limit).2.latest n x =
      ((s.events.take n).find? fun row => row.signalId = x).map SignalEvent.exported := by
  have hlast : lastN n (s.events.reverse.map SignalEvent.exported) = (s.events.take n).reverse.map SignalEvent.exported := by
    rw [← lastN_reverse hn]
    unfold lastN
    rw [if_neg (by omega), if_neg (by omega), List.length_map, List.map_drop]
  unfold latest
  rw [lines_export hlen hne, hlast, latestById_get?, if_neg hx, findRev?_exported, List.findRev?_eq_find?_reverse,
    List.reverse_reverse]

/-- After an export of the whole table its readers tell what the table does if and only if the first event of each
signal does. -/
theorem export_readable_iff (s : ExportStores) (hlen : s.events.length ≤ limit) (hne : s.events ≠ []) (hn : 0 < n) :
    (s.exportSignalsToJson limit).2.Readable n ↔
      ∀ x ∈ SignalEvent.signalIds s.events, x ≠ "" → ToldByFirst n x s.events := by
  unfold Readable
  simp only [events_export]
  constructor
  · intro h x hx hne'
    obtain ⟨-, hlatest⟩ := h x hne'
    rw [latest_export hlen hne hn hne'] at hlatest
    rcases hlast : s.events.findRev? (fun row => row.signalId = x) with _ | last
    · rw [List.findRev?_eq_find?_reverse, List.find?_eq_none] at hlast
      obtain ⟨row, hrow, hid⟩ := List.mem_map.1 hx
      exact absurd hid (by simpa using hlast row (List.mem_reverse.2 hrow))
    rcases hfirst : (s.events.take n).find? (fun row => row.signalId = x) with _ | first
    · rw [hfirst, SignalEvent.lookup, hlast] at hlatest
      cases hlatest
    · rw [hfirst] at hlatest
      exact ⟨first, hfirst, last, hlast, (view_eq_iff hlast).1 hlatest⟩
  · intro h x hne'
    rw [fallback_export hlen hne, latest_export hlen hne hn hne']
    by_cases hx : x ∈ SignalEvent.signalIds s.events
    · obtain ⟨first, hfirst, last, hlast, htold⟩ := h x hx hne'
      have hall : s.events.find? (fun row => row.signalId = x) = some first :=
        (List.take_prefix n s.events).find?_eq_some hfirst
      rw [Option.mem_def.1 hfirst, hall]
      exact ⟨(view_eq_iff hlast).2 htold, (view_eq_iff hlast).2 htold⟩
    · have hnone : ∀ row ∈ s.events, ¬ (decide (row.signalId = x) = true) := by
        intro row hrow hid
        exact hx (List.mem_map.2 ⟨row, hrow, of_decide_eq_true hid⟩)
      have hlookup : SignalEvent.lookup x s.events = none := by
        rw [SignalEvent.lookup, List.findRev?_eq_find?_reverse,
          List.find?_eq_none.2 fun row hrow => hnone row (List.mem_reverse.1 hrow)]
        rfl
      rw [hlookup, List.find?_eq_none.2 hnone, List.find?_eq_none.2 fun row hrow => hnone row (List.mem_of_mem_take hrow)]
      exact ⟨rfl, rfl⟩

/-- A signal that was generated and entered. -/
def enteredSignal : ExportStores where
  events :=
    [⟨"s0", .generated, "2026-03-25T10:00:00", { status := some .generated, rest := { signal := some { direction := some "long" } } }⟩,
     ⟨"s0", .entered, "2026-03-25T10:01:00",
      { status := some .entered, rest := { signal := some { direction := some "long" }, own := { entryPrice := some (.fin 20000) } } }⟩]

/-- One event with nothing but its columns. -/
def bareEvent : ExportStores where
  events := [⟨"s0", .generated, "2026-03-25T10:00:00", { rest := {} }⟩]

theorem readable_bare : (bareEvent.exportSignalsToJson 5000).2.Readable 300 :=
  (export_readable_iff bareEvent (by decide) (by simp [bareEvent]) (by decide)).2 (by
    intro x hx hne
    obtain rfl : x = "s0" := by simpa [bareEvent, SignalEvent.signalIds] using hx
    exact ⟨_, rfl, _, rfl, rfl, rfl, rfl⟩)

/-- The file says that the entered signal was generated, without its entry price and its signal data. -/
theorem export_unreadable : ¬ ∀ (s : ExportStores) (limit n : Nat), s.events.length ≤ limit → s.events ≠ [] → 0 < n →
    (s.exportSignalsToJson limit).2.Readable n := by
  intro h
  obtain ⟨hscan, -⟩ := h enteredSignal 5000 300 (by decide) (by simp [enteredSignal]) (by decide) "s0" (by decide)
  exact absurd hscan (by decide +kernel)

end ExportStores

end PearlAlgo
