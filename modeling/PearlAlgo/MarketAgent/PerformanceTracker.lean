import PearlAlgo.Py.Number

/-!
# Signal records and exits (`market_agent/performance_tracker.py`)

The two stores of signal records, `signals.jsonl` and the SQLite event table, and `track_exit`. A record
is a dictionary that may hold the signal dictionary under `signal` or be itself the signal, so both have
the keys of `SignalData`. Naive Eastern timestamps are the seconds that their clock shows. P&L is exact;
the metric caches, excursions, fill attribution and the trades table are left out, and so are failing
writes.
-/

namespace PearlAlgo
open Py

def DEFAULT_MNQ_TICK_VALUE : ℚ := 2

/-- The keys of a signal dictionary that the trackers read. -/
structure SignalData where
  type : Option String := none
  signalType : Option String := none
  direction : Option String := none
  entryPrice : Option Number := none
  stopLoss : Option Number := none
  takeProfit : Option Number := none
  tickValue : Option ℚ := none
  positionSize : Option ℚ := none
  cbWouldBlock : Bool := false
deriving DecidableEq

inductive SignalStatus
  | generated
  | entered
  | exited
  | expired
deriving DecidableEq

structure ExitData where
  exitPrice : Number
  exitTime : ℚ
  exitReason : String
  pnl : ℚ
  isWin : Bool
  holdDurationMinutes : Option ℚ
deriving DecidableEq

/-- A line of `signals.jsonl`, or the payload of an event. `own` are the record's own keys. -/
structure SignalRecord where
  signalId : String
  status : SignalStatus
  statusChange : Bool := false  -- `event` is `status_change`
  signal : Option SignalData := none
  own : SignalData := {}
  entryTime : Option ℚ := none
  exit : Option ExitData := none
deriving DecidableEq

/-- `d.update(d')`: the keys that are present in `d'` win. -/
def SignalData.update (d d' : SignalData) : SignalData where
  type := d'.type <|> d.type
  signalType := d'.signalType <|> d.signalType
  direction := d'.direction <|> d.direction
  entryPrice := d'.entryPrice <|> d.entryPrice
  stopLoss := d'.stopLoss <|> d.stopLoss
  takeProfit := d'.takeProfit <|> d.takeProfit
  tickValue := d'.tickValue <|> d.tickValue
  positionSize := d'.positionSize <|> d.positionSize
  cbWouldBlock := d'.cbWouldBlock || d.cbWouldBlock

def SignalRecord.update (r r' : SignalRecord) : SignalRecord where
  signalId := r'.signalId
  status := r'.status
  statusChange := r'.statusChange || r.statusChange
  signal := r'.signal <|> r.signal
  own := r.own.update r'.own
  entryTime := r'.entryTime <|> r.entryTime
  exit := r'.exit <|> r.exit

/-- `signal_record.get("signal") or signal_record` -/
def SignalRecord.data (r : SignalRecord) : SignalData := r.signal.getD r.own

/-- `_resolved_type` -/
def SignalRecord.typeText (r : SignalRecord) : Option String :=
  [r.data.type, r.data.signalType, r.own.signalType, r.own.type].findSome? fun x => x.filter (· ≠ "")

/-- `x or y` of two optional numbers: zero is falsy. -/
def orNum (x y : Option Number) : Option Number :=
  match x with
  | some n => if n = .fin 0 then y else some n
  | none => y

/-- `str(signal.get("direction") or "long").lower()` -/
def SignalData.side (d : SignalData) : String :=
  match d.direction with
  | none | some "" => "long"
  | some text => text.toLower

structure Performance where
  signalId : String
  signalType : Option String
  direction : String
  entryPrice : ℚ
  exitPrice : ℚ
  pnl : ℚ
  isWin : Bool
  exitReason : String
  holdDurationMinutes : Option ℚ
  exitTime : ℚ
deriving DecidableEq

/-- The stores: the lines of `signals.jsonl`, the event payloads when SQLite is enabled, and
`performance.json`. -/
structure SignalStore where
  lines : List SignalRecord := []
  events : Option (List SignalRecord) := none
  performance : List Performance := []
deriving DecidableEq

namespace SignalStore

/-- One line of the scan of `signals.jsonl` for a signal. -/
def scanLine (signalId : String) (base : Option SignalRecord) (r : SignalRecord) : Option SignalRecord :=
  if r.signalId ≠ signalId then base
  else if r.statusChange then base.map fun b => b.update r
  else some r

def getSignalRecord (signalId : String) (st : SignalStore) : Option SignalRecord :=
  let event := st.events.bind fun evs => evs.findRev? fun r => r.signalId = signalId
  match event with
  | some r => some r
  | none => (st.lines.foldl (scanLine signalId) none).map fun r => { r with statusChange := false }

def rewriteFirst (signalId : String) (f : SignalRecord → SignalRecord) : List SignalRecord → List SignalRecord
  | [] => []
  | r :: rest => if r.signalId = signalId then f r :: rest else r :: rewriteFirst signalId f rest

/-- `_update_signal_status`: with SQLite a new event and an appended line, without it a rewrite of the
signal's record. `change` holds the keys to set. -/
def updateSignalStatus (change : SignalRecord) (preserve : Option SignalRecord) (st : SignalStore) : SignalStore :=
  match st.events with
  | some evs =>
    let current := preserve <|> evs.findRev? fun r => r.signalId = change.signalId
    { st with
      events := some (evs ++ [current.elim change fun r => r.update change])
      lines := st.lines ++ [{ change with statusChange := true }] }
  | none => { st with lines := rewriteFirst change.signalId (fun r => r.update change) st.lines }

/-- The finite price behind a valid one: `validate_trade_prices`. -/
def validPrice : Number → Option ℚ
  | .fin q => if 0 < q then some q else none
  | _ => none

/-- `track_exit`; the P&L in dollars is points times tick value times position size. -/
def trackExit (signalId : String) (exitPrice : Number) (exitReason : String) (exitTime : ℚ) (st : SignalStore) :
    Option Performance × SignalStore :=
  match st.getSignalRecord signalId with
  | none => (none, st)
  | some rec =>
    if rec.status = .exited then (none, st)
    else
      let signal := rec.data
      let direction := signal.side
      match validPrice ((orNum rec.own.entryPrice (orNum signal.entryPrice none)).getD (.fin 0)), validPrice exitPrice with
      | some entry, some exit =>
        let tickValue := (signal.tickValue.filter (· ≠ 0)).getD DEFAULT_MNQ_TICK_VALUE
        let positionSize := (signal.positionSize.filter (· ≠ 0)).getD 1
        let points := if direction = "long" then exit - entry else entry - exit
        let pnl := points * tickValue * positionSize
        let isWin := decide (0 < pnl)
        let holdDurationMinutes := rec.entryTime.map fun t => (exitTime - t) / 60
        let perf : Performance :=
          { signalId, signalType := rec.typeText, direction, entryPrice := entry, exitPrice := exit
            pnl, isWin, exitReason, holdDurationMinutes, exitTime }
        let change : SignalRecord :=
          { signalId, status := .exited, own := { signalType := signal.type }
            exit := some { exitPrice := .fin exit, exitTime, exitReason, pnl, isWin, holdDurationMinutes } }
        (some perf, { st.updateSignalStatus change none with performance := st.performance ++ [perf] })
      | _, _ => (none, st)

end SignalStore

end PearlAlgo
