import PearlAlgo.MarketAgent.PerformanceTracker
import PearlAlgo.Py.Dict
import PearlAlgo.Py.Seq

/-!
# The trade database (`storage/trade_database.py`)

The tables `trades` and `signal_events`, the row that `track_exit` adds, and the latest status of a signal. A trade is a
row without its times and the columns that describe the market.
-/

namespace PearlAlgo
open Py

/-- A row of `trades`. -/
structure TradeRow where
  tradeId : String
  signalId : String
  signalType : String
  direction : String
  entryPrice : Number
  exitPrice : Number
  stopLoss : Option Number
  takeProfit : Option Number
  pnl : ℚ
  isWin : Bool
  exitReason : String
deriving DecidableEq

/-- The same trade, but for the trade id and the type of the signal. -/
structure TradeRow.Shows (row' row : TradeRow) : Prop where
  signalId : row'.signalId = row.signalId
  direction : row'.direction = row.direction
  entryPrice : row'.entryPrice = row.entryPrice
  exitPrice : row'.exitPrice = row.exitPrice
  stopLoss : row'.stopLoss = row.stopLoss
  takeProfit : row'.takeProfit = row.takeProfit
  pnl : row'.pnl = row.pnl
  isWin : row'.isWin = row.isWin
  exitReason : row'.exitReason = row.exitReason

/-- The tables `trades`, by trade id, and `signal_events`. -/
structure TradeDatabase where
  trades : Dict String TradeRow := .empty
  events : List SignalRecord := []

/-- The status of the last of the records of a signal. -/
def latestStatus (records : List SignalRecord) (x : String) : Option SignalStatus :=
  (records.findRev? fun r => r.signalId = x).map SignalRecord.status

/-- The row that `track_exit` adds. -/
def Performance.tradeRow (signal : SignalData) (p : Performance) : TradeRow where
  tradeId := p.signalId
  signalId := p.signalId
  signalType := (signal.type.filter (· ≠ "") <|> signal.signalType.filter (· ≠ "")).getD "unknown"
  direction := p.direction
  entryPrice := .fin p.entryPrice
  exitPrice := .fin p.exitPrice
  stopLoss := signal.stopLoss
  takeProfit := signal.takeProfit
  pnl := p.pnl
  isWin := p.isWin
  exitReason := p.exitReason

/-! ### Latest statuses -/

section latest
variable {l l' : List SignalRecord} {x : String}

/-- What of a record the latest statuses depend on. -/
def SignalRecord.statusKey (r : SignalRecord) : String × SignalStatus := (r.signalId, r.status)

theorem latestStatus_eq (l : List SignalRecord) (x : String) :
    latestStatus l x = ((l.map SignalRecord.statusKey).reverse.find? fun k => k.1 = x).map Prod.snd := by
  rw [latestStatus, List.findRev?_eq_find?_reverse, ← List.map_reverse, List.find?_map, Option.map_map]
  rfl

theorem latestStatus_eq_none_iff : latestStatus l x = none ↔ ∀ r ∈ l, r.signalId ≠ x := by
  rw [latestStatus, Option.map_eq_none_iff, List.findRev?_eq_find?_reverse, List.find?_eq_none]
  simp

/-- The later records tell the status where they have the signal. -/
theorem latestStatus_of_suffix (h : l'.map SignalRecord.statusKey <:+ l.map SignalRecord.statusKey) {r : SignalRecord}
    (hr : r ∈ l') :
    latestStatus l' r.signalId = latestStatus l r.signalId := by
  obtain ⟨pre, hpre⟩ := h
  rw [latestStatus_eq, latestStatus_eq, ← hpre, List.reverse_append, List.find?_append]
  have hsome : ((l'.map SignalRecord.statusKey).reverse.find? fun k => k.1 = r.signalId).isSome = true := by
    rw [List.find?_isSome]
    exact ⟨r.statusKey, List.mem_reverse.2 (List.mem_map_of_mem hr), by simp [SignalRecord.statusKey]⟩
  rw [Option.or_of_isSome hsome]

theorem latestStatus_eq_of_suffix (h : l'.map SignalRecord.statusKey <:+ l.map SignalRecord.statusKey)
    (hmem : ∀ r ∈ l, r.signalId = x → ∃ r' ∈ l', r'.signalId = x) :
    latestStatus l' x = latestStatus l x := by
  by_cases hx : ∃ r ∈ l', r.signalId = x
  · obtain ⟨r, hr, rfl⟩ := hx
    exact latestStatus_of_suffix h hr
  · have hnone : ∀ r ∈ l', r.signalId ≠ x := fun r hr hrx => hx ⟨r, hr, hrx⟩
    rw [latestStatus_eq_none_iff.2 hnone, eq_comm, latestStatus_eq_none_iff]
    exact fun r hr hrx => hx (hmem r hr hrx)

end latest

end PearlAlgo
