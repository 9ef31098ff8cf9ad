import PearlAlgo.Api.PairedTrades
import PearlAlgo.Py.StableSort

/-!
# Performance rebuilt from fills (`scripts/ops/backfill_performance_from_fills.py`)

`rebuild` pairs the fills, attributes the trades to signals, and writes a row for each of them beside the rows of the
old `performance.json` that have other ids. `lawful_iff` says when its runs can be repeated and staged: what an earlier
run wrote is recognised by its id only.
-/

namespace PearlAlgo.Backfill
open Py

/-! ### The vendored pairing -/

def MNQ_POINT_VALUE : ℚ := 2

/-- An entry of `open_lots`. -/
structure ScriptLot where
  leg : FillLeg
  qty : Int

structure Pairing where
  trades : List Trade := []
  openLots : List ScriptLot := []

def scriptTrade (lot : FillLeg) (matchQty : Int) (fill : FillLeg) : Trade :=
  let direction := if lot.side = .buy then TradeDirection.long else .short
  let pnl :=
    if direction = .long then roundCents ((fill.price - lot.price) * matchQty * MNQ_POINT_VALUE)
    else roundCents ((lot.price - fill.price) * matchQty * MNQ_POINT_VALUE)
  { signalId := (lot.id, fill.id), symbol := "MNQ", direction, positionSize := matchQty.toNat, entryTime := lot.time,
    entryPrice := lot.price, exitTime := fill.time, exitPrice := fill.price, pnl, isWin := 0 < pnl,
    exitReason := if 0 < pnl then "take_profit" else "stop_loss" }

/-- `while remaining > 0 and open_lots` -/
def matchLots (fill : FillLeg) : Int → List ScriptLot → List Trade × Int × List ScriptLot
  | remaining, [] => ([], remaining, [])
  | remaining, lot :: lots =>
    if 0 < remaining then
      let matchQty := min remaining lot.qty
      let trade := scriptTrade lot.leg matchQty fill
      if lot.qty - matchQty ≤ 0 then
        let r := matchLots fill (remaining - matchQty) lots
        (trade :: r.1, r.2)
      else
        -- a lot that stays has taken all that remained
        ([trade], remaining - matchQty, ⟨lot.leg, lot.qty - matchQty⟩ :: lots)
    else ([], remaining, lot :: lots)

/-- What the loop does with `remaining` contracts of a fill. -/
def Pairing.process (s : Pairing) (fill : FillLeg) (remaining : Int) : Pairing :=
  if s.openLots = [] ∨ ∀ lot ∈ s.openLots.head?, lot.leg.side = fill.side then
    { s with openLots := s.openLots ++ [⟨fill, remaining⟩] }
  else
    let r := matchLots fill remaining s.openLots
    ⟨s.trades ++ r.1, if 0 < r.2.1 then r.2.2 ++ [⟨fill, r.2.1⟩] else r.2.2⟩

/-- A turn of the loop over the sorted fills. -/
def Pairing.step (s : Pairing) (fill : Fill) : Except Err Pairing :=
  match fill.side with
  | none => .ok s
  | some action =>
    match fill.numbers with
    | .error .type | .error .value => .ok s
    | .error e => .error e
    | .ok (price, remaining) =>
      .ok (if remaining ≤ 0 then s else s.process ⟨price, fill.timestamp, fill.id, action⟩ remaining)

/-- `pair_fills_to_trades` -/
def pairFillsToTrades (fills : List Fill) : Except Err (List Trade) :=
  if fills = [] then .ok []
  else do
    let s ← (sortedBy Fill.sortKey fills).foldlM Pairing.step {}
    return s.trades

def ScriptLot.ofLot (lot : OpenLot) : ScriptLot := ⟨lot.item, lot.qty⟩

def Pairing.ofMatching (m : Matching) : Pairing := ⟨m.trades, m.openLots.map .ofLot⟩

theorem scriptTrade_eq (lot : FillLeg) (matchQty : Nat) (fill : FillLeg) :
    scriptTrade lot matchQty fill = tradeOf lot matchQty fill := rfl

theorem matchLots_eq (fill : FillLeg) (remaining : Nat) (lots : List OpenLot) :
    matchLots fill remaining (lots.map .ofLot) = ((closeLots fill remaining lots).1,
      ((closeLots fill remaining lots).2.1 : Int), (closeLots fill remaining lots).2.2.map .ofLot) := by
  induction lots generalizing remaining with
  | nil => rfl
  | cons lot lots ih =>
    rw [List.map_cons, matchLots, closeLots]
    by_cases hr : remaining = 0
    · subst hr
      simp [ScriptLot.ofLot]
    · have hmin : min (remaining : Int) lot.qty = (min remaining lot.qty : Nat) := by omega
      have hsub : (remaining : Int) - (min remaining lot.qty : Nat) = (remaining - min remaining lot.qty : Nat) := by omega
      rw [if_pos (by omega), if_neg hr]
      rw [ScriptLot.ofLot]
      simp only [hmin, hsub, scriptTrade_eq]
      by_cases hq : lot.qty - min remaining lot.qty = 0
      · rw [if_pos (by omega), dif_pos hq]
        rw [ih]
      · rw [if_neg (by omega), dif_neg hq]
        simp only [List.map_cons, ScriptLot.ofLot]
        congr 4
        omega

theorem Pairing.process_eq (m : Matching) (fill : OpenLot) :
    (Pairing.ofMatching m).process fill.item fill.qty = .ofMatching (m.process fill) := by
  have hhead : (m.openLots.map ScriptLot.ofLot = [] ∨
      ∀ lot ∈ (m.openLots.map ScriptLot.ofLot).head?, lot.leg.side = fill.item.side) ↔
      ∀ lot ∈ m.openLots.head?, lot.item.side = fill.item.side := by
    cases m.openLots with
    | nil => simp
    | cons lot lots => simp [ScriptLot.ofLot]
  simp only [Pairing.process, Pairing.ofMatching, Matching.process, hhead, matchLots_eq]
  split
  · simp [ScriptLot.ofLot]
  · by_cases hleft : 0 < (closeLots fill.item fill.qty m.openLots).2.1
    · simp [hleft, ScriptLot.ofLot]
    · simp [hleft]

theorem Pairing.step_eq (m : Matching) (f : Fill) :
    (Pairing.ofMatching m).step f = (m.step f).map .ofMatching := by
  unfold Pairing.step Matching.step Fill.read
  cases f.side with
  | none => rfl
  | some action =>
    dsimp only
    rcases f.numbers with e | ⟨price, remaining⟩
    · cases e <;> rfl
    · by_cases hr : remaining ≤ 0
      · simp only [if_pos hr, dif_pos hr]
        rfl
      · have hqty : (remaining.toNat : Int) = remaining := by omega
        have hprocess := Pairing.process_eq m ⟨⟨price, f.timestamp, f.id, action⟩, remaining.toNat, by omega⟩
        simp only [hqty] at hprocess
        simp only [if_neg hr, dif_neg hr, hprocess]
        rfl

/-- The copy has not drifted. -/
theorem pairFillsToTrades_eq (fills : List Fill) : pairFillsToTrades fills = tradovateFillsToTrades fills := by
  have hloop (l : List Fill) (m : Matching) :
      l.foldlM Pairing.step (.ofMatching m) = (l.foldlM Matching.step m).map .ofMatching := by
    induction l generalizing m with
    | nil => rfl
    | cons f l ih =>
      rw [List.foldlM_cons, List.foldlM_cons, Pairing.step_eq]
      cases m.step f with
      | error e => rfl
      | ok m' => exact ih m'
  unfold pairFillsToTrades
  split
  next hnil =>
    subst hnil
    rfl
  next =>
    show (do let s ← (sortedFills fills).foldlM Pairing.step (.ofMatching {}); return s.trades) = _
    rw [hloop]
    unfold tradovateFillsToTrades matchFills
    cases (sortedFills fills).foldlM Matching.step {} with
    | error e => rfl
    | ok m => rfl

/-! ### The signals -/

/-- The `signal` of a `generated` row. An absent key is `none`, and so is `null`. -/
structure GeneratedSignal where
  signalId : Option String := none
  direction : Option String := none
  positionSize : Option Value := none
  entryPrice : Option Value := none
  type : Option String := none
  signalSource : Option String := none
  stopLoss : Option ℚ := none
  takeProfit : Option ℚ := none

/-- A row of `signals_archive.jsonl` or `signals.jsonl`. -/
structure SignalRow where
  signalId : Option String := none
  status : Option String := none
  timestamp : Option String := none
  entryTime : Option String := none
  entryPrice : Option Value := none
  signal : GeneratedSignal := {}

/-- An entry of `gen_meta`. -/
structure SignalMeta where
  direction : TradeDirection
  positionSize : Int
  entryPrice : Option Value
  signalType : Option String
  stopLoss : Option ℚ
  takeProfit : Option ℚ

/-- `gen_meta` and `entered_rows` -/
structure SignalScan where
  genMeta : Dict String SignalMeta := .empty
  enteredRows : List SignalRow := []

def directionOf (text : Option String) : Option TradeDirection :=
  match (text.getD "").toLower with
  | "long" => some .long
  | "short" => some .short
  | _ => none

/-- `x or y` of two values. -/
def orValue (x y : Option Value) : Option Value := if x.any Value.truthy then x else y

/-- `int(x or 0) or 1` -/
def positionSizeOf (x : Option Value) : Except Err Int := do
  let size ← ((orValue x none).getD (.ofInt 0)).int
  return if size = 0 then 1 else size

/-- A line of a log; `none` is blank, or no JSON. -/
def SignalScan.step (s : SignalScan) : Option SignalRow → Except Err SignalScan
  | none => .ok s
  | some row =>
    match (orText row.signalId row.signal.signalId).getD "" with
    | "" => .ok s
    | sid =>
      if row.status = some "generated" then
        match directionOf row.signal.direction with
        | none => .ok s
        | some direction => do
          -- a later row of the signal replaces an earlier one
          let info : SignalMeta :=
            { direction, positionSize := ← positionSizeOf row.signal.positionSize, entryPrice := row.signal.entryPrice,
              signalType := orText row.signal.type row.signal.signalSource, stopLoss := row.signal.stopLoss,
              takeProfit := row.signal.takeProfit }
          return { s with genMeta := s.genMeta.set sid info }
      else if row.status = some "entered" then .ok { s with enteredRows := s.enteredRows ++ [row] }
      else .ok s

section
variable (parse : String → Option ℚ)

/-- `_parse_trade_timestamp`, where `parse` reads a text that is not empty as a time of New York. -/
def parseTradeTimestamp (text : Option String) : Option ℚ := if text.getD "" = "" then none else parse (text.getD "")

/-- The candidate of an `entered` row; `none` is a `continue`. -/
def candidateOf (genMeta : Dict String SignalMeta) (row : SignalRow) : Except Err (Option SignalCandidate) :=
  match row.signalId.bind fun sid => (genMeta.get? sid).map (sid, ·) with
  | none => .ok none
  | some (sid, info) =>
    match (orValue row.entryPrice info.entryPrice).map Value.float with
    | none | some (.error .type) | some (.error .value) => .ok none
    | some (.error e) => .error e
    | some (.ok entryPrice) =>
      .ok ((parseTradeTimestamp parse (orText row.timestamp row.entryTime)).map fun timestamp =>
        { signalId := sid, direction := info.direction, entryPrice, positionSize := info.positionSize, timestamp,
          signalType := info.signalType, stopLoss := info.stopLoss, takeProfit := info.takeProfit })

/-- `load_signal_candidates`, on the lines of both logs. -/
def loadSignalCandidates (lines : List (Option SignalRow)) : Except Err (List SignalCandidate) := do
  let scan ← lines.foldlM SignalScan.step {}
  let candidates ← scan.enteredRows.mapM (candidateOf parse scan.genMeta)
  return candidates.reduceOption

/-! ### The attribution -/

def ENTRY_PRICE_TOL : ℚ := 2

/-- `eligible` -/
def eligibleFor (trade : Trade) (tradeTime : ℚ) (remaining : List SignalCandidate) : List (ℚ × ℚ × Nat) :=
  remaining.zipIdx.filterMap fun (c, idx) =>
    let priceDelta := |c.entryPrice - trade.entryPrice|
    let timeDelta := |c.timestamp - tradeTime|
    if c.direction = trade.direction ∧ c.positionSize = trade.positionSize ∧ priceDelta ≤ ENTRY_PRICE_TOL ∧
        timeDelta ≤ TIME_DELTA_TOL_S then some (timeDelta, priceDelta, idx)
    else none

def attributedTo (trade : Trade) (cand : SignalCandidate) : AttributedTrade where
  trade := trade
  pearlId := if cand.signalId = "" then none else some cand.signalId
  signalType := cand.signalType
  stopLoss := cand.stopLoss
  takeProfit := cand.takeProfit

/-- `attribute_trades_to_signals`: the attributed trades and the others. -/
def attributeTradesToSignals : List Trade → List SignalCandidate → List AttributedTrade × List Trade
  | [], _ => ([], [])
  | trade :: trades, remaining =>
    let best := do
      let (_, _, idx) ← minTuple (eligibleFor trade (← parseTradeTimestamp parse trade.entryTime) remaining)
      return (← remaining[idx]?, idx)
    match best with
    | some (cand, idx) =>
      let r := attributeTradesToSignals trades (remaining.eraseIdx idx)
      (attributedTo trade cand :: r.1, r.2)
    | none =>
      let r := attributeTradesToSignals trades remaining
      (r.1, trade :: r.2)

end

theorem attributeTradesToSignals_perm (parse : String → Option ℚ) (trades : List Trade) (remaining : List SignalCandidate) :
    ((attributeTradesToSignals parse trades remaining).1.map AttributedTrade.trade ++
      (attributeTradesToSignals parse trades remaining).2).Perm trades := by
  induction trades generalizing remaining with
  | nil => exact .refl _
  | cons trade trades ih =>
    rw [attributeTradesToSignals]
    dsimp only
    split
    next cand idx _ => exact (ih _).cons trade
    next => exact List.perm_middle.trans ((ih _).cons trade)

/-! ### The rebuild -/

/-- A row of `performance.json`. `rest` is its other keys, which the rows of this script have as `None`. -/
structure PerfRow (α : Type) where
  signalId : Option String := none
  signalType : Option String := none
  direction : Option String := none
  entryPrice : Option ℚ := none
  exitPrice : Option ℚ := none
  pnl : Option ℚ := none
  isWin : Option Bool := none
  exitReason : Option String := none
  exitTime : Option String := none
  pnlSource : Option String := none
  rest : Option α := none
deriving DecidableEq

structure Inputs where
  fills : List Fill := []
  archive : List (Option SignalRow) := []
  live : List (Option SignalRow) := []

/-- The files after more has been appended to each of them. -/
def Inputs.add (i more : Inputs) : Inputs := ⟨i.fills ++ more.fills, i.archive ++ more.archive, i.live ++ more.live⟩

structure Summary where
  fillsTotal : Nat
  pairedTotal : Nat
  attributed : Nat
  unattributed : Nat
  oldPerfRows : Nat
  newPerfRows : Nat
  newFillMatched : Nat
  newVirtualIbkr : Nat
  newOther : Int
  newSumPnl : ℚ
  fillMatchedSumPnl : ℚ

def directionText : TradeDirection → String
  | .long => "long"
  | .short => "short"

/-- `f"tv_{lot['id']}_{fill_id}"` -/
def tvId (ids : Ident × Ident) : String :=
  let text (id : Ident) : String := (id.map toString).getD ""
  "tv_" ++ text ids.1 ++ "_" ++ text ids.2

section
variable {α : Type}

/-- The row of a paired trade. -/
def perfRowOf (t : AttributedTrade) : PerfRow α where
  signalId := some (t.pearlId.getD (tvId t.trade.signalId))
  signalType := orText t.signalType (some "pearlbot_pinescript")
  direction := some (directionText t.trade.direction)
  entryPrice := some t.trade.entryPrice
  exitPrice := some t.trade.exitPrice
  pnl := some t.trade.pnl
  isWin := some t.trade.isWin
  exitReason := some t.trade.exitReason
  exitTime := t.trade.exitTime
  pnlSource := some "fill_matched"

/-- The copy of an old row. -/
def PerfRow.retag (row : PerfRow α) : PerfRow α :=
  if row.pnlSource ≠ some "fill_matched" then { row with pnlSource := some "virtual_ibkr" } else row

/-- `row.get("signal_id") in fill_matched_ids` for the rows `new` of the paired trades. -/
def rowsHaveId (new : List (PerfRow α)) (row : PerfRow α) : Bool := (new.map PerfRow.signalId).contains row.signalId

/-- The old rows that the rebuild keeps beside `new`. -/
def preserved (new old : List (PerfRow α)) : List (PerfRow α) := (old.filter (!rowsHaveId new ·)).map PerfRow.retag

def pnlSum (rows : List (PerfRow α)) : ℚ := (rows.map fun row => row.pnl.getD 0).sum

def pnlSourceTotal (source : String) (rows : List (PerfRow α)) : Nat := rows.countP (·.pnlSource = some source)

variable (parse : String → Option ℚ)

/-- `_parse_trade_timestamp(row.get("exit_time") or "")` -/
def PerfRow.exitAt (row : PerfRow α) : Option ℚ := parseTradeTimestamp parse row.exitTime

/-- A naive time does not compare with the aware `datetime.min` of a row without one. -/
def Sortable (rows : List (PerfRow α)) : Prop :=
  (∀ row ∈ rows, (row.exitAt parse).isSome) ∨ ∀ row ∈ rows, row.exitAt parse = none

instance (rows : List (PerfRow α)) : Decidable (Sortable parse rows) :=
  inferInstanceAs (Decidable ((∀ row ∈ rows, (row.exitAt parse).isSome) ∨ ∀ row ∈ rows, row.exitAt parse = none))

/-- `_exit_key` where the rows compare; rows without a time are all alike. -/
def exitKey (row : PerfRow α) : ℚ := (row.exitAt parse).getD 0

/-- `new_perf.sort(key=_exit_key)` -/
def sortByExit (rows : List (PerfRow α)) : Except Err (List (PerfRow α)) :=
  if Sortable parse rows then .ok (sortedBy (exitKey parse) rows) else .error .type

/-- Steps 1 to 3: the paired trades, the attributed ones, the others, and the rows of the fills. -/
def matchFillsToSignals (i : Inputs) :
    Except Err (List Trade × List AttributedTrade × List Trade × List (PerfRow α)) := do
  let paired ← pairFillsToTrades i.fills
  let candidates ← loadSignalCandidates parse (i.archive ++ i.live)
  let (attributed, unattributed) := attributeTradesToSignals parse paired candidates
  let new := (attributed ++ unattributed.map fun trade => ({ trade } : AttributedTrade)).map perfRowOf
  return (paired, attributed, unattributed, new)

/-- The new rows and the summary. -/
def newPerf (i : Inputs) (oldPerf : List (PerfRow α)) : Except Err (List (PerfRow α) × Summary) := do
  let (paired, attributed, unattributed, new) ← matchFillsToSignals parse i
  let newPerf ← sortByExit parse (new ++ preserved new oldPerf)
  let fillTotal := pnlSourceTotal "fill_matched" newPerf
  let virtualTotal := pnlSourceTotal "virtual_ibkr" newPerf
  return (newPerf,
    { fillsTotal := i.fills.length, pairedTotal := paired.length, attributed := attributed.length,
      unattributed := unattributed.length, oldPerfRows := oldPerf.length, newPerfRows := newPerf.length,
      newFillMatched := fillTotal, newVirtualIbkr := virtualTotal,
      newOther := (newPerf.length : Int) - fillTotal - virtualTotal, newSumPnl := roundCents (pnlSum newPerf),
      fillMatchedSumPnl := roundCents (pnlSum (newPerf.filter (·.pnlSource = some "fill_matched"))) })

/-- `rebuild`: the summary, or the error that ends the script, and what is in `performance.json` afterwards. -/
def rebuild (apply : Bool) (i : Inputs) (oldPerf : List (PerfRow α)) : Except Err Summary × List (PerfRow α) :=
  match newPerf parse i oldPerf with
  | .error e => (.error e, oldPerf)
  | .ok (rows, summary) => (.ok summary, if apply then rows else oldPerf)

/-- The rows of the fills alone. -/
def newRows (i : Inputs) : Except Err (List (PerfRow α)) := (matchFillsToSignals parse i).map fun r => r.2.2.2

/-- What is sorted and written. -/
def written (new old : List (PerfRow α)) : List (PerfRow α) := new ++ preserved new old

end

section
variable {α : Type} {parse : String → Option ℚ} {new final old old' rows : List (PerfRow α)} {row : PerfRow α}

@[simp] theorem PerfRow.signalId_retag : row.retag.signalId = row.signalId := by
  unfold PerfRow.retag
  split <;> rfl

@[simp] theorem exitKey_retag : exitKey parse row.retag = exitKey parse row := by
  unfold PerfRow.retag
  split <;> rfl

theorem PerfRow.retag_of_fillMatched (h : row.pnlSource = some "fill_matched") : row.retag = row := if_neg (not_not.2 h)

theorem PerfRow.pnlSource_retag : row.retag.pnlSource = some "fill_matched" ∧ row.pnlSource = some "fill_matched" ∨
    row.retag.pnlSource = some "virtual_ibkr" ∧ row.pnlSource ≠ some "fill_matched" := by
  by_cases h : row.pnlSource = some "fill_matched"
  · rw [PerfRow.retag_of_fillMatched h]
    exact .inl ⟨h, h⟩
  · rw [PerfRow.retag, if_pos h]
    exact .inr ⟨rfl, h⟩

@[simp] theorem PerfRow.retag_retag : row.retag.retag = row.retag := by
  by_cases h : row.pnlSource = some "fill_matched"
  · rw [PerfRow.retag_of_fillMatched h, PerfRow.retag_of_fillMatched h]
  · simp [PerfRow.retag, h]

@[simp] theorem rowsHaveId_retag : rowsHaveId new row.retag = rowsHaveId new row := by
  rw [rowsHaveId, PerfRow.signalId_retag, rowsHaveId]

theorem rowsHaveId_of_mem (h : row ∈ new) : rowsHaveId new row = true :=
  List.contains_iff_mem.2 (List.mem_map_of_mem h)

theorem preserved_append : preserved new (old ++ old') = preserved new old ++ preserved new old' := by
  rw [preserved, List.filter_append, List.map_append, preserved, preserved]

theorem preserved_perm (h : old.Perm old') : (preserved new old).Perm (preserved new old') := (h.filter _).map _

theorem preserved_map_retag : preserved new (old.map PerfRow.retag) = preserved new old := by
  rw [preserved, preserved, List.filter_map, List.map_map]
  simp [Function.comp_def]

theorem preserved_self : preserved new new = [] := by
  have hnone : new.filter (!rowsHaveId new ·) = [] := by
    refine List.filter_eq_nil_iff.2 fun row hrow => ?_
    simp [rowsHaveId_of_mem hrow]
  rw [preserved, hnone, List.map_nil]

theorem preserved_preserved : preserved final (preserved new old) =
    (old.filter fun row => !rowsHaveId final row && !rowsHaveId new row).map PerfRow.retag := by
  show preserved final ((old.filter (!rowsHaveId new ·)).map PerfRow.retag) = _
  rw [preserved_map_retag, preserved, List.filter_filter]

/-- A second run on the same fills keeps what the first one kept. -/
theorem preserved_written : preserved new (written new old) = preserved new old := by
  rw [written, preserved_append, preserved_self, List.nil_append, preserved_preserved, preserved]
  simp

theorem preserved_sortedBy (rows : List (PerfRow α)) :
    preserved new (sortedBy (exitKey parse) rows) =
      sortedBy (exitKey parse) (preserved new rows) := by
  rw [preserved, preserved, filter_sortedBy, map_sortedBy fun row => exitKey_retag]

/-! ### One run -/

theorem sortable_congr (h : rows.Perm old) : Sortable parse rows ↔ Sortable parse old := by
  simp only [Sortable, h.mem_iff]

theorem matchFillsToSignals_eq_ok {i : Inputs} {paired unattributed : List Trade} {attributed : List AttributedTrade}
    (h : matchFillsToSignals parse i = .ok (paired, attributed, unattributed, new)) :
    pairFillsToTrades i.fills = .ok paired ∧ (attributed.map AttributedTrade.trade ++ unattributed).Perm paired ∧
      new = (attributed ++ unattributed.map fun trade => ({ trade } : AttributedTrade)).map perfRowOf := by
  unfold matchFillsToSignals at h
  cases hpaired : pairFillsToTrades i.fills with
  | error e =>
    rw [hpaired] at h
    cases h
  | ok paired' =>
    rw [hpaired] at h
    cases hcandidates : loadSignalCandidates parse (i.archive ++ i.live) with
    | error e =>
      rw [hcandidates] at h
      cases h
    | ok candidates =>
      rw [hcandidates] at h
      cases Except.ok.inj h
      exact ⟨rfl, attributeTradesToSignals_perm parse _ candidates, rfl⟩

/-- There is a row for each paired trade. -/
theorem newRows_eq {i : Inputs} (h : newRows parse i = .ok new) :
    ∃ (paired : List Trade) (trades : List AttributedTrade), pairFillsToTrades i.fills = .ok paired ∧
      (trades.map AttributedTrade.trade).Perm paired ∧ new = trades.map perfRowOf := by
  unfold newRows at h
  cases hmatch : matchFillsToSignals parse i with
  | error e =>
    rw [hmatch] at h
    cases h
  | ok r =>
    obtain ⟨paired, attributed, unattributed, rows⟩ := r
    rw [hmatch] at h
    obtain rfl : rows = new := Except.ok.inj h
    obtain ⟨hpaired, hperm, hrows⟩ := matchFillsToSignals_eq_ok hmatch
    refine ⟨paired, _, hpaired, ?_, hrows⟩
    rw [List.map_append, List.map_map]
    simpa [Function.comp_def] using hperm

theorem fillMatched_of_newRows {i : Inputs} (h : newRows parse i = .ok new) :
    ∀ row ∈ new, row.pnlSource = some "fill_matched" := by
  obtain ⟨paired, trades, -, -, rfl⟩ := newRows_eq h
  intro row hrow
  obtain ⟨t, -, rfl⟩ := List.mem_map.1 hrow
  rfl

/-- The run writes when its files convert and the exit times of its rows compare. -/
def Completes (parse : String → Option ℚ) (i : Inputs) (old : List (PerfRow α)) : Prop :=
  ∃ new, newRows parse i = .ok new ∧ Sortable parse (written new old)

theorem newPerf_rows (i : Inputs) (old : List (PerfRow α)) :
    (newPerf parse i old).map Prod.fst =
      (newRows parse i).bind fun new => sortByExit parse (written new old) := by
  unfold newPerf newRows
  rcases matchFillsToSignals parse i with e | ⟨paired, attributed, unattributed, new⟩
  · rfl
  · show Except.map Prod.fst (sortByExit parse (written new old) >>= _) = sortByExit parse (written new old)
    cases sortByExit parse (written new old) with
    | error e => rfl
    | ok rows => rfl

theorem rebuild_eq (i : Inputs) (old : List (PerfRow α)) :
    (rebuild parse true i old).1.isOk = ((newPerf parse i old).map Prod.fst).isOk ∧
      (rebuild parse true i old).2 = ((newPerf parse i old).map Prod.fst).toOption.getD old := by
  unfold rebuild
  rcases newPerf parse i old with e | ⟨rows, summary⟩
  · exact ⟨rfl, rfl⟩
  · exact ⟨rfl, rfl⟩

theorem rebuild_of_completes {i : Inputs} (hnew : newRows parse i = .ok new) (hsort : Sortable parse (written new old)) :
    (rebuild parse true i old).1.isOk = true ∧
      (rebuild parse true i old).2 = sortedBy (exitKey parse) (written new old) := by
  have hrows : (newPerf parse i old).map Prod.fst = .ok (sortedBy (exitKey parse) (written new old)) := by
    rw [newPerf_rows, hnew]
    exact if_pos hsort
  obtain ⟨hok, hfile⟩ := @rebuild_eq _ parse i old
  rw [hok, hfile, hrows]
  exact ⟨rfl, rfl⟩

theorem rebuild_perm {i : Inputs} (hnew : newRows parse i = .ok new) (hsort : Sortable parse (written new old)) :
    (rebuild parse true i old).2.Perm (written new old) := by
  rw [(rebuild_of_completes hnew hsort).2]
  exact perm_sortedBy _ _

theorem rebuild_of_not_completes {i : Inputs} (h : ¬ Completes parse i old) :
    (rebuild parse true i old).1.isOk = false ∧ (rebuild parse true i old).2 = old := by
  have hrows : ∃ e, (newPerf parse i old).map Prod.fst = .error e := by
    rw [newPerf_rows]
    cases hnew : newRows parse i with
    | error e => exact ⟨e, rfl⟩
    | ok new => exact ⟨.type, if_neg fun hsort => h ⟨new, hnew, hsort⟩⟩
  obtain ⟨e, hrows⟩ := hrows
  obtain ⟨hok, hfile⟩ := @rebuild_eq _ parse i old
  rw [hok, hfile, hrows]
  exact ⟨rfl, rfl⟩

theorem rebuild_isOk_iff {i : Inputs} : (rebuild parse true i old).1.isOk = true ↔ Completes parse i old := by
  constructor
  · intro hok
    by_contra h
    rw [(rebuild_of_not_completes h).1] at hok
    cases hok
  · rintro ⟨new, hnew, hsort⟩
    exact (rebuild_of_completes hnew hsort).1

theorem completes_iff {i : Inputs} (hnew : newRows parse i = .ok new) :
    Completes parse i old ↔ Sortable parse (written new old) := by
  constructor
  · rintro ⟨new', hnew', hsort⟩
    obtain rfl := Except.ok.inj (hnew.symm.trans hnew')
    exact hsort
  · intro hsort
    exact ⟨new, hnew, hsort⟩

/-- A run that has completed changes nothing when it is repeated. -/
theorem rebuild_rebuild (i : Inputs) (old : List (PerfRow α)) :
    (rebuild parse true i (rebuild parse true i old).2).2 = (rebuild parse true i old).2 := by
  by_cases h : Completes parse i old
  · obtain ⟨new, hnew, hsort⟩ := h
    rw [(rebuild_of_completes hnew hsort).2]
    have hwritten : written new (sortedBy (exitKey parse) (written new old)) =
        new ++ sortedBy (exitKey parse) (preserved new old) := by
      rw [written, preserved_sortedBy, preserved_written]
    have hsort' : Sortable parse (written new (sortedBy (exitKey parse) (written new old))) := by
      rw [hwritten]
      exact (sortable_congr ((perm_sortedBy _ _).append_left new)).2 hsort
    rw [(rebuild_of_completes hnew hsort').2, hwritten, sortedBy_append_sortedBy, written]
  · rw [(rebuild_of_not_completes h).2, (rebuild_of_not_completes h).2]

theorem pnlSource_of_mem_written (hnew : ∀ row ∈ new, row.pnlSource = some "fill_matched") :
    ∀ row ∈ written new old, row.pnlSource = some "fill_matched" ∨ row.pnlSource = some "virtual_ibkr" := by
  intro row hrow
  rcases List.mem_append.1 hrow with hrow | hrow
  · exact .inl (hnew row hrow)
  · obtain ⟨oldRow, -, rfl⟩ := List.mem_map.1 hrow
    exact oldRow.pnlSource_retag.imp And.left And.left

theorem pnlSourceTotal_add (h : ∀ row ∈ rows, row.pnlSource = some "fill_matched" ∨ row.pnlSource = some "virtual_ibkr") :
    pnlSourceTotal "fill_matched" rows + pnlSourceTotal "virtual_ibkr" rows = rows.length := by
  rw [List.length_eq_countP_add_countP (fun row : PerfRow α => row.pnlSource = some "fill_matched") (l := rows)]
  refine congrArg _ (List.countP_congr fun row hrow => ?_)
  rcases h row hrow with h | h <;> simp [h]

/-- Every paired trade is counted as attributed or not, and every row as matched to a fill or as virtual. -/
theorem newPerf_summary {i : Inputs} {summary : Summary} (h : newPerf parse i old = .ok (rows, summary)) :
    summary.attributed + summary.unattributed = summary.pairedTotal ∧ summary.newOther = 0 := by
  unfold newPerf at h
  cases hmatch : matchFillsToSignals parse i with
  | error e =>
    rw [hmatch] at h
    cases h
  | ok r =>
    obtain ⟨paired, attributed, unattributed, new⟩ := r
    rw [hmatch] at h
    obtain ⟨-, hperm, -⟩ := matchFillsToSignals_eq_ok hmatch
    have hnew : newRows parse i = .ok new := by
      rw [newRows, hmatch]
      rfl
    by_cases hsort : Sortable parse (written new old)
    · have hsorted : sortByExit parse (new ++ preserved new old) =
          .ok (sortedBy (exitKey parse) (written new old)) := if_pos hsort
      have hsources : ∀ row ∈ sortedBy (exitKey parse) (written new old),
          row.pnlSource = some "fill_matched" ∨ row.pnlSource = some "virtual_ibkr" :=
        fun row hrow => pnlSource_of_mem_written (fillMatched_of_newRows hnew) row (mem_sortedBy.1 hrow)
      have htotal := pnlSourceTotal_add hsources
      have hlength := hperm.length_eq
      rw [List.length_append, List.length_map] at hlength
      simp only [bind, Except.bind, hsorted, pure, Except.pure] at h
      cases Except.ok.inj h
      dsimp only
      omega
    · have hsorted : sortByExit parse (new ++ preserved new old) = .error .type := if_neg hsort
      simp only [bind, Except.bind, hsorted] at h
      cases h

/-! ### The law -/

/-- What a row and a paired trade both say of a round trip. -/
structure Trip where
  direction : Option String
  entryPrice : Option ℚ
  exitPrice : Option ℚ
  pnl : Option ℚ
  isWin : Option Bool
  exitReason : Option String
  exitTime : Option String
deriving DecidableEq

def PerfRow.trip (row : PerfRow α) : Trip :=
  ⟨row.direction, row.entryPrice, row.exitPrice, row.pnl, row.isWin, row.exitReason, row.exitTime⟩

def tripOf (t : Trade) : Trip :=
  ⟨some (directionText t.direction), some t.entryPrice, some t.exitPrice, some t.pnl, some t.isWin, some t.exitReason,
    t.exitTime⟩

/-- The row counts as the actual fills of the trip. -/
def PerfRow.shows (row : PerfRow α) (trip : Trip) : Bool := row.pnlSource = some "fill_matched" ∧ row.trip = trip

/-- No round trip of the fills has more than one row: as many rows show its data as there are paired trades with them. -/
def OncePerTrip (paired : List Trade) (rows : List (PerfRow α)) : Prop :=
  ∀ trade ∈ paired, rows.countP (·.shows (tripOf trade)) ≤ paired.countP fun t => tripOf t = tripOf trade

section
variable (parse)

def RowsOnce (i : Inputs) (old : List (PerfRow α)) : Prop :=
  ∀ paired, pairFillsToTrades i.fills = .ok paired → (rebuild parse true i old).1.isOk = true →
    OncePerTrip paired (rebuild parse true i old).2

/-- A run changes nothing when it is repeated; a run on the first files and then one on the files with `more` leave the
rows of one run on the latter; no round trip has two rows; the copy pairs as the original does. -/
structure Lawful (first more : Inputs) (old : List (PerfRow α)) : Prop where
  idempotent : (rebuild parse true first (rebuild parse true first old).2).2 = (rebuild parse true first old).2
  completes : (rebuild parse true (first.add more) (rebuild parse true first old).2).1.isOk =
    (rebuild parse true (first.add more) old).1.isOk
  incremental : (rebuild parse true (first.add more) old).1.isOk = true →
    (rebuild parse true (first.add more) (rebuild parse true first old).2).2.Perm
      (rebuild parse true (first.add more) old).2
  once : RowsOnce parse first old
  onceStaged : RowsOnce parse (first.add more) (rebuild parse true first old).2
  parity : ∀ fills, pairFillsToTrades fills = tradovateFillsToTrades fills

end

/-- No old row that is kept counts as the fills of a new one. -/
def NoCopies (new old : List (PerfRow α)) : Prop :=
  ∀ row ∈ old, rowsHaveId new row = false → row.pnlSource = some "fill_matched" → row.trip ∉ new.map PerfRow.trip

/-- The rows of the first fills under ids that the final ones do not have are those that the old file had under these
ids. -/
def Replaced (new final old : List (PerfRow α)) : Prop :=
  (new.filter (!rowsHaveId final ·)).Perm
    ((old.filter fun row => rowsHaveId new row && !rowsHaveId final row).map PerfRow.retag)

variable (parse) in
/-- The rows that a run wrote are recognised by the next one. A first run that ends with an error leaves the file to the
second one. -/
structure Recognised (first more : Inputs) (old : List (PerfRow α)) : Prop where
  noCopies : ∀ new, newRows parse first = .ok new → Sortable parse (written new old) → NoCopies new old
  replaced : ∀ new final, newRows parse first = .ok new → newRows parse (first.add more) = .ok final →
    Sortable parse (written new old) →
    Sortable parse (written final old) ∨ Sortable parse (written final (written new old)) →
    Replaced new final old ∧ NoCopies final (written new old)
  noCopiesAlone : ¬ Completes parse first old → ∀ final, newRows parse (first.add more) = .ok final →
    Sortable parse (written final old) → NoCopies final old

theorem PerfRow.shows_eq_true {trip : Trip} :
    row.shows trip = true ↔ row.pnlSource = some "fill_matched" ∧ row.trip = trip := decide_eq_true_iff

theorem PerfRow.shows_retag {trip : Trip} : row.retag.shows trip = row.shows trip := by
  by_cases hsource : row.pnlSource = some "fill_matched"
  · rw [PerfRow.retag_of_fillMatched hsource]
  · simp [PerfRow.shows, PerfRow.retag, hsource]

theorem NoCopies.perm (h : NoCopies new old) (hperm : old'.Perm old) : NoCopies new old' := by
  intro row hrow
  exact h row (hperm.mem_iff.1 hrow)

theorem countP_newRows {i : Inputs} (h : newRows parse i = .ok new) {paired : List Trade}
    (hpaired : pairFillsToTrades i.fills = .ok paired) (trip : Trip) :
    new.countP (·.shows trip) = paired.countP fun t => tripOf t = trip := by
  obtain ⟨paired', trades, hpaired', htrades, rfl⟩ := newRows_eq h
  obtain rfl : paired = paired' := Except.ok.inj (hpaired.symm.trans hpaired')
  rw [← htrades.countP_eq, List.countP_map, List.countP_map]
  refine List.countP_congr fun t _ => ?_
  rw [Function.comp_apply, PerfRow.shows_eq_true, Function.comp_apply, decide_eq_true_iff]
  exact and_iff_right rfl

theorem mem_trip_newRows {i : Inputs} (h : newRows parse i = .ok new) {paired : List Trade}
    (hpaired : pairFillsToTrades i.fills = .ok paired) {trip : Trip} :
    trip ∈ new.map PerfRow.trip ↔ ∃ t ∈ paired, tripOf t = trip := by
  obtain ⟨paired', trades, hpaired', htrades, rfl⟩ := newRows_eq h
  obtain rfl : paired = paired' := Except.ok.inj (hpaired.symm.trans hpaired')
  simp only [← htrades.mem_iff, List.map_map, List.mem_map]
  constructor
  · rintro ⟨t, ht, rfl⟩
    exact ⟨t.trade, ⟨t, ht, rfl⟩, rfl⟩
  · rintro ⟨-, ⟨t, ht, rfl⟩, rfl⟩
    exact ⟨t, ht, rfl⟩

/-- A copy that is kept shows the trip once more. -/
theorem oncePerTrip_iff {i : Inputs} (h : newRows parse i = .ok new) {paired : List Trade}
    (hpaired : pairFillsToTrades i.fills = .ok paired) : OncePerTrip paired (written new old) ↔ NoCopies new old := by
  have hcount (trade : Trade) :
      (written new old).countP (·.shows (tripOf trade)) ≤ paired.countP (fun t => tripOf t = tripOf trade) ↔
        ∀ row ∈ old, rowsHaveId new row = false → row.pnlSource = some "fill_matched" → row.trip ≠ tripOf trade := by
    rw [written, List.countP_append, countP_newRows h hpaired, preserved, List.countP_map, List.countP_filter]
    have hzero (n m : Nat) : n + m ≤ n ↔ m = 0 := by omega
    rw [hzero, List.countP_eq_zero]
    refine forall₂_congr fun row _ => ?_
    simp only [Function.comp_apply, Bool.and_eq_true, PerfRow.shows_retag, PerfRow.shows_eq_true, Bool.not_eq_true']
    tauto
  constructor
  · intro honce row hrow hid hsource htrip
    obtain ⟨t, ht, htrip⟩ := (mem_trip_newRows h hpaired).1 htrip
    exact (hcount t).1 (honce t ht) row hrow hid hsource htrip.symm
  · intro hcopies trade htrade
    refine (hcount trade).2 fun row hrow hid hsource htrip => hcopies row hrow hid hsource ?_
    exact (mem_trip_newRows h hpaired).2 ⟨trade, htrade, htrip.symm⟩

theorem rowsOnce_iff {i : Inputs} : RowsOnce parse i old ↔
    ∀ new, newRows parse i = .ok new → Sortable parse (written new old) → NoCopies new old := by
  have hcount (new rows : List (PerfRow α)) (paired : List Trade) (hperm : rows.Perm new) :
      OncePerTrip paired rows ↔ OncePerTrip paired new := by
    simp only [OncePerTrip, hperm.countP_eq]
  constructor
  · intro honce new hnew hsort
    obtain ⟨paired, trades, hpaired, -, -⟩ := newRows_eq hnew
    have hrows := honce paired hpaired (rebuild_of_completes hnew hsort).1
    rw [hcount _ _ paired (rebuild_perm hnew hsort)] at hrows
    exact (oncePerTrip_iff hnew hpaired).1 hrows
  · intro hcopies paired hpaired hok
    obtain ⟨new, hnew, hsort⟩ := rebuild_isOk_iff.1 hok
    rw [hcount _ _ paired (rebuild_perm hnew hsort)]
    exact (oncePerTrip_iff hnew hpaired).2 (hcopies new hnew hsort)

/-- What a second run keeps: rows of the first one that have lost their id, and old rows. -/
theorem preserved_written_of_fillMatched (hnew : ∀ row ∈ new, row.pnlSource = some "fill_matched") :
    preserved final (written new old) = new.filter (!rowsHaveId final ·) ++
      (old.filter fun row => !rowsHaveId final row && !rowsHaveId new row).map PerfRow.retag := by
  rw [written, preserved_append, preserved_preserved, preserved]
  congr 1
  refine (List.map_congr_left fun row hrow => ?_).trans (List.map_id _)
  exact PerfRow.retag_of_fillMatched (hnew row (List.mem_filter.1 hrow).1)

theorem preserved_split : (preserved final old).Perm
    ((old.filter fun row => rowsHaveId new row && !rowsHaveId final row).map PerfRow.retag ++
      (old.filter fun row => !rowsHaveId final row && !rowsHaveId new row).map PerfRow.retag) := by
  rw [← List.map_append]
  refine List.Perm.map _ ?_
  have hsplit := List.filter_append_perm (rowsHaveId new) (old.filter (!rowsHaveId final ·))
  rw [List.filter_filter, List.filter_filter] at hsplit
  refine hsplit.symm.trans (.of_eq ?_)
  congr 1
  refine List.filter_congr fun row _ => Bool.and_comm _ _

theorem written_written_perm_iff (hnew : ∀ row ∈ new, row.pnlSource = some "fill_matched") :
    (written final (written new old)).Perm (written final old) ↔ Replaced new final old := by
  show (final ++ preserved final (written new old)).Perm (final ++ preserved final old) ↔ _
  rw [List.perm_append_left_iff, preserved_written_of_fillMatched hnew, (@preserved_split _ new final old).congr_right,
    List.perm_append_right_iff, Replaced]

/-- Where the old file has no stale id, every id of the first run must come back. -/
theorem replaced_iff_of_forall (hold : ∀ row ∈ old, rowsHaveId new row = true → rowsHaveId final row = true) :
    Replaced new final old ↔ ∀ row ∈ new, rowsHaveId final row = true := by
  have hnone : (old.filter fun row => rowsHaveId new row && !rowsHaveId final row) = [] := by
    refine List.filter_eq_nil_iff.2 fun row hrow hstale => ?_
    obtain ⟨hnew, hfinal⟩ := Bool.and_eq_true_iff.1 hstale
    rw [hold row hrow hnew] at hfinal
    cases hfinal
  rw [Replaced, hnone, List.map_nil, List.perm_nil, List.filter_eq_nil_iff]
  simp

theorem written_perm (h : old.Perm old') : (written new old).Perm (written new old') := (preserved_perm h).append_left new

theorem sameRows_iff {i : Inputs} :
    ((rebuild parse true i old').1.isOk = (rebuild parse true i old).1.isOk ∧
        ((rebuild parse true i old).1.isOk = true → (rebuild parse true i old').2.Perm (rebuild parse true i old).2)) ↔
      ∀ final, newRows parse i = .ok final → Sortable parse (written final old) ∨ Sortable parse (written final old') →
        (written final old').Perm (written final old) := by
  constructor
  · rintro ⟨hok, hperm⟩ final hfinal hsort
    have hboth : Sortable parse (written final old') ∧ Sortable parse (written final old) := by
      have hiff : Completes parse i old' ↔ Completes parse i old := by
        rw [← rebuild_isOk_iff, ← rebuild_isOk_iff, hok]
      rw [completes_iff hfinal, completes_iff hfinal] at hiff
      rcases hsort with hsort | hsort
      · exact ⟨hiff.2 hsort, hsort⟩
      · exact ⟨hsort, hiff.1 hsort⟩
    have hrows := hperm (rebuild_of_completes hfinal hboth.2).1
    exact (rebuild_perm hfinal hboth.1).symm.trans (hrows.trans (rebuild_perm hfinal hboth.2))
  · intro h
    have hiff : Completes parse i old' ↔ Completes parse i old := by
      constructor
      · rintro ⟨final, hfinal, hsort⟩
        exact ⟨final, hfinal, (sortable_congr (h final hfinal (.inr hsort))).1 hsort⟩
      · rintro ⟨final, hfinal, hsort⟩
        exact ⟨final, hfinal, (sortable_congr (h final hfinal (.inl hsort))).2 hsort⟩
    rw [← rebuild_isOk_iff, ← rebuild_isOk_iff] at hiff
    refine ⟨Bool.eq_iff_iff.2 hiff, fun hok => ?_⟩
    obtain ⟨final, hfinal, hsort⟩ := rebuild_isOk_iff.1 hok
    have hperm := h final hfinal (.inl hsort)
    exact (rebuild_perm hfinal ((sortable_congr hperm).2 hsort)).trans (hperm.trans (rebuild_perm hfinal hsort).symm)

/-- The runs can be repeated and staged just when what they wrote is recognised. -/
theorem lawful_iff (first more : Inputs) (old : List (PerfRow α)) :
    Lawful parse first more old ↔ Recognised parse first more old := by
  constructor
  · intro h
    have hsame := sameRows_iff.1 ⟨h.completes, h.incremental⟩
    have hstaged := rowsOnce_iff.1 h.onceStaged
    refine ⟨rowsOnce_iff.1 h.once, fun new final hnew hfinal hsort hruns => ?_, fun hfails final hfinal hsort => ?_⟩
    · have hfile := rebuild_perm hnew hsort
      have hsorts : Sortable parse (written final old) ∨
          Sortable parse (written final (rebuild parse true first old).2) :=
        hruns.imp_right (sortable_congr (written_perm hfile)).2
      have hperm := hsame final hfinal hsorts
      have hsortStaged : Sortable parse (written final (rebuild parse true first old).2) :=
        hsorts.elim (sortable_congr hperm).2 id
      refine ⟨?_, (hstaged final hfinal hsortStaged).perm hfile.symm⟩
      exact (written_written_perm_iff (fillMatched_of_newRows hnew)).1 ((written_perm hfile).symm.trans hperm)
    · rw [(rebuild_of_not_completes hfails).2] at hstaged
      exact hstaged final hfinal hsort
  · intro h
    by_cases hfirst : Completes parse first old
    · obtain ⟨new, hnew, hsort⟩ := hfirst
      have hfile := rebuild_perm hnew hsort
      have hsame := (@sameRows_iff α parse old (rebuild parse true first old).2 (first.add more)).2
        fun final hfinal hruns => by
          have hreplaced := (h.replaced new final hnew hfinal hsort
            (hruns.imp_right (sortable_congr (written_perm hfile)).1)).1
          exact (written_perm hfile).trans ((written_written_perm_iff (fillMatched_of_newRows hnew)).2 hreplaced)
      refine ⟨rebuild_rebuild first old, hsame.1, hsame.2, rowsOnce_iff.2 h.noCopies, rowsOnce_iff.2 ?_,
        pairFillsToTrades_eq⟩
      intro final hfinal hstaged
      have hcopies := (h.replaced new final hnew hfinal hsort
        (.inr ((sortable_congr (written_perm hfile)).1 hstaged))).2
      exact hcopies.perm hfile
    · have hfile := (rebuild_of_not_completes hfirst).2
      refine ⟨rebuild_rebuild first old, ?_, ?_, rowsOnce_iff.2 h.noCopies, rowsOnce_iff.2 ?_, pairFillsToTrades_eq⟩
      · rw [hfile]
      · intro _
        rw [hfile]
      · rw [hfile]
        exact h.noCopiesAlone hfirst

end

/-! ### A trade that is attributed late -/

def buyFill : Fill :=
  { id := some 1, action := some "Buy", price := some (.ofInt 100), qty := some (.ofInt 1),
    timestamp := some "2026-04-23T09:30:00" }

def sellFill : Fill :=
  { id := some 2, action := some "Sell", price := some (.ofInt 102), qty := some (.ofInt 1),
    timestamp := some "2026-04-23T09:40:00" }

def sampleTime (text : String) : Option ℚ :=
  if text = "2026-04-23T09:30:00" then some 34200 else if text = "2026-04-23T09:40:00" then some 34800 else none

def lateSignal : List (Option SignalRow) :=
  [some { signalId := some "s1", status := some "generated",
          signal := { direction := some "long", positionSize := some (.ofInt 1), entryPrice := some (.ofInt 100) } },
    some { signalId := some "s1", status := some "entered", timestamp := some "2026-04-23T09:30:00" }]

/-- After its first row as `tv_1_2` the trade gets a second one as `s1`. -/
theorem not_lawful : ¬ ∀ (parse : String → Option ℚ) (first more : Inputs) (old : List (PerfRow Unit)),
    (∀ row ∈ old, (row.exitAt parse).isSome) → Lawful parse first more old := by
  intro h
  have hlawful := h sampleTime { fills := [buyFill, sellFill] } { live := lateSignal } [] fun row hrow =>
    absurd hrow List.not_mem_nil
  have hlength := (hlawful.incremental (by decide +kernel)).length_eq
  revert hlength
  decide +kernel

end PearlAlgo.Backfill
