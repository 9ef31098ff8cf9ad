import PearlAlgo.MarketAgent.SignalStores
import PearlAlgo.Storage.TradeDatabase

/-!
# Rebuilding SQLite (`scripts/maintenance/rebuild_sqlite_from_json.py`)

The calls of the tracker write the trades table beside the two signal stores; `rebuild_database` makes a new database of
the lines of `signals.jsonl`. `rebuild_restores_iff` says when the new database tells what the old one did. The lines are
a suffix of the events (`LiveStores.Inv.suffix`), so they tell the same status of every signal that they have.
-/

namespace PearlAlgo.RebuildSqlite
open Py Lts

/-! ### The tracker with its trades table -/

structure LiveStores extends SignalStores where
  trades : Dict String TradeRow := .empty

inductive TrackCall
  | trackSignalGenerated (signalId : String) (signal : SignalData) (isTest : Bool)
  | trackEntry (signalId : String) (entryPrice : Number) (entryTime : ℚ) (signalData : Option (SignalData × Bool))
  | trackExit (signalId : String) (exitPrice : Number) (exitReason : String) (exitTime : ℚ)

namespace LiveStores

def database (s : LiveStores) : TradeDatabase := { trades := s.trades, events := s.events }

/-- The signal and the performance record of an exit that `track_exit` records. -/
def exitOf (signalId : String) (exitPrice : Number) (exitReason : String) (exitTime : ℚ) (s : LiveStores) :
    Option (SignalData × Performance) :=
  (s.store.getSignalRecord signalId).bind fun r =>
    if r.status = .exited then none
    else (r.exitPerformance signalId exitPrice exitReason exitTime).map fun perf => (r.data, perf)

def trackExit (signalId : String) (exitPrice : Number) (exitReason : String) (exitTime : ℚ) (s : LiveStores) : LiveStores :=
  match s.exitOf signalId exitPrice exitReason exitTime with
  | none => s
  | some (signal, perf) =>
    { s.updateSignalStatus (perf.change signal) none true with trades := s.trades.set perf.signalId (perf.tradeRow signal) }

def apply (s : LiveStores) : TrackCall → LiveStores
  | .trackSignalGenerated x signal isTest => { s with toSignalStores := s.trackSignalGenerated x signal isTest }
  | .trackEntry x entryPrice entryTime signalData =>
    { s with toSignalStores := s.trackEntry x entryPrice entryTime signalData }
  | .trackExit x exitPrice exitReason exitTime => s.trackExit x exitPrice exitReason exitTime

def step (s : LiveStores) (c : TrackCall) : Option LiveStores := some (s.apply c)

end LiveStores

/-! ### The rebuild -/

/-- What the signal dictionary of a line tells of an exit. -/
structure NestedExit where
  pnl : Option ℚ := none
  virtualPnl : Option ℚ := none
  exitPrice : Option Number := none
  exitReason : Option String := none

def orZero (x : Option Number) : Number := (orNum x none).getD (.fin 0)

/-- The trade of an exited record; `signal` is its dictionary, which may be missing. -/
def extractTrade (nested : LineRecord → NestedExit) (r : LineRecord) : Option TradeRow :=
  if r.status ≠ .exited then none
  else
    let signal := r.signal.getD {}
    let more := if r.signal.isSome then nested r else {}
    let pnl := ((r.exit.map ExitData.pnl).filter (· ≠ 0) <|> more.pnl.filter (· ≠ 0) <|> more.virtualPnl).getD 0
    some
      { tradeId := "trade_" ++ r.signalId
        signalId := r.signalId
        signalType := signal.type.getD "unknown"
        direction := signal.direction.getD "unknown"
        entryPrice := orZero signal.entryPrice
        exitPrice := orZero (orNum (r.exit.map ExitData.exitPrice) more.exitPrice)
        stopLoss := some (orZero signal.stopLoss)
        takeProfit := some (orZero signal.takeProfit)
        pnl
        isWin := 0 < pnl
        exitReason := ((r.exit.map ExitData.exitReason).filter (· ≠ "") <|> more.exitReason).getD "" }

def extractTrades (nested : LineRecord → NestedExit) (records : List LineRecord) : List TradeRow :=
  records.filterMap (extractTrade nested)

def extractSignalEvents (records : List LineRecord) : List SignalRecord :=
  (records.filter fun r => r.signalId ≠ "").map LineRecord.toSignalRecord

/-- Which steps of a rebuild work. An insert that fails is passed over. -/
structure RebuildOps where
  read : Bool := true
  backup : Bool := true
  unlink : Bool := true
  importDatabase : Bool := true
  create : Bool := true
  addTrade : Nat → Bool := fun _ => true
  addSignalEvent : Nat → Bool := fun _ => true
  verify : Bool := true

/-- The rows whose insert works. -/
def inserted {α : Type} (works : Nat → Bool) (rows : List α) : List α :=
  (rows.zipIdx.filter fun e => works e.2).map Prod.fst

def rebuilt (nested : LineRecord → NestedExit) (ops : RebuildOps) (records : List LineRecord) : TradeDatabase where
  trades := (inserted ops.addTrade (extractTrades nested records)).foldl (fun d row => d.set row.tradeId row) .empty
  events := inserted ops.addSignalEvent (extractSignalEvents records)

/-- What is at the path of the database after a run. -/
inductive OnDisk
  | old
  | missing
  | new (db : TradeDatabase)

def OnDisk.database? (s : LiveStores) : OnDisk → Option TradeDatabase
  | .old => some s.database
  | .missing => none
  | .new db => some db

/-- `rebuild_database`: whether it ends with success, and what is there then. -/
def rebuildDatabase (nested : LineRecord → NestedExit) (ops : RebuildOps) (dryRun createBackup : Bool) (s : LiveStores) :
    Bool × OnDisk :=
  match s.signalsFile with
  | none => (false, .old)
  | some records =>
    if ¬ ops.read then (false, .old)
    else if dryRun then (true, .old)
    else if createBackup ∧ ¬ ops.backup then (false, .old)
    else if ¬ ops.unlink then (false, .old)
    else if ¬ ops.importDatabase then (false, .missing)
    else if ¬ ops.create then (false, .missing)
    else (ops.verify, .new (rebuilt nested ops records))

/-! ### When the rebuild restores the database -/

/-- A run with success restores every exit and every status, one without leaves the old database. -/
structure Restores (s : LiveStores) (result : Bool × OnDisk) : Prop where
  trades : result.1 = true → ∀ x, latestStatus s.events x = some .exited → ∀ row ∈ s.trades.get? x,
    ∃ db ∈ result.2.database? s, ∃ row' ∈ db.trades.values, row'.Shows row
  status : result.1 = true → ∃ db ∈ result.2.database? s, ∀ x, latestStatus db.events x = latestStatus s.events x
  kept : result.1 = false → result.2 = .old

/-- The rebuild gets to the point where the old database is removed. -/
def Removes (ops : RebuildOps) (dryRun createBackup : Bool) (s : LiveStores) : Prop :=
  s.signalsFile.isSome = true ∧ ops.read = true ∧ dryRun = false ∧ (createBackup = true → ops.backup = true) ∧
    ops.unlink = true

/-- No signal is exited, each one has a line, and no insert that fails hides the last status of a signal. -/
structure Restorable (ops : RebuildOps) (s : LiveStores) : Prop where
  noExit : ∀ x, latestStatus s.events x ≠ some .exited
  lines : ∀ e ∈ s.events, e.signalId ≠ "" ∧ ∃ r ∈ s.lines, r.signalId = e.signalId
  inserts : ∀ x, latestStatus (inserted ops.addSignalEvent (extractSignalEvents s.lines)) x =
    latestStatus (s.lines.map LineRecord.toSignalRecord) x

/-! ### What every run keeps -/

namespace LiveStores

/-- Each line has its event, exited lines have no signal dictionary, and each exit has a row with a positive entry
price. -/
structure Inv (s : LiveStores) : Prop where
  suffix : (s.lines.map LineRecord.toSignalRecord).map SignalRecord.statusKey <:+ s.events.map SignalRecord.statusKey
  exited : ∀ r ∈ s.lines, r.status = .exited → r.signal = none
  positive : ∀ x, ∀ row ∈ s.trades.get? x, .fin 0 < row.entryPrice
  recorded : ∀ e ∈ s.events, e.status = .exited → (s.trades.get? e.signalId).isSome = true

variable {s : LiveStores} {c : SignalRecord} {pre : Option SignalRecord} {ser : Bool} {trades : Dict String TradeRow}

theorem events_updateSignalStatus (c : SignalRecord) (pre : Option SignalRecord) (ser : Bool) (s : SignalStores) :
    ∃ e, e.statusKey = c.statusKey ∧
    (s.updateSignalStatus c pre ser).events = s.events ++ [e] := by
  refine ⟨_, ?_, rfl⟩
  split
  · rcases pre <|> s.getSignalEventById c.signalId with _ | r <;> rfl
  · rfl

theorem lines_updateSignalStatus (c : SignalRecord) (pre : Option SignalRecord) (ser : Bool) (s : SignalStores) :
    (s.updateSignalStatus c pre ser).lines =
    if s.signalsFile.isSome = true then s.lines ++ [{ toSignalRecord := { c with statusChange := true } }] else [] := by
  unfold SignalStores.updateSignalStatus SignalStores.lines
  cases s.signalsFile <;> rfl

theorem Inv.status (h : s.Inv) (hc : c.signal = none) (hpositive : ∀ x, ∀ row ∈ trades.get? x, .fin 0 < row.entryPrice)
    (hrecorded : ∀ x, (s.trades.get? x).isSome = true → (trades.get? x).isSome = true)
    (hexit : c.status = .exited → (trades.get? c.signalId).isSome = true) :
    Inv { s.updateSignalStatus c pre ser with trades } := by
  obtain ⟨e, hkey, hevents⟩ := events_updateSignalStatus c pre ser s.toSignalStores
  obtain ⟨hid, hstatus⟩ := Prod.ext_iff.1 hkey
  have hlines := lines_updateSignalStatus c pre ser s.toSignalStores
  refine ⟨?_, ?_, hpositive, ?_⟩
  · show (SignalStores.lines _ |>.map _ |>.map _) <:+ (SignalStores.events _).map SignalRecord.statusKey
    rw [hlines, hevents, List.map_append]
    split
    · rw [List.map_append, List.map_append]
      obtain ⟨p, hp⟩ := h.suffix
      refine ⟨p, ?_⟩
      rw [← List.append_assoc, hp, List.map_singleton, List.map_singleton, List.map_singleton, hkey]
      rfl
    · exact List.nil_suffix
  · intro r hr
    replace hr : r ∈ SignalStores.lines _ := hr
    rw [hlines] at hr
    split at hr
    · rcases List.mem_append.1 hr with hr | hr
      · exact h.exited r hr
      · rw [List.mem_singleton.1 hr]
        exact fun _ => hc
    · cases hr
  · intro e' he' hexited
    replace he' : e' ∈ SignalStores.events _ := he'
    rw [hevents] at he'
    rcases List.mem_append.1 he' with he' | he'
    · exact hrecorded _ (h.recorded e' he' hexited)
    · obtain rfl := List.mem_singleton.1 he'
      rw [show e'.signalId = c.signalId from hid]
      exact hexit (hstatus.symm.trans hexited)

theorem Inv.generated (h : s.Inv) (x : String) (signal : SignalData) (isTest : Bool) :
    Inv { s with toSignalStores := s.trackSignalGenerated x signal isTest } := by
  unfold SignalStores.trackSignalGenerated
  split
  · exact h
  · let record : LineRecord := { signalId := x, status := .generated, signal := some signal }
    let s' := s.appendSignal record
    -- a rotation leaves the last lines of the file
    obtain ⟨k, hlines⟩ : ∃ k, (s.saveSignal record).lines = (s.lines ++ [record]).drop k := by
      show ∃ k, (if s'.signalWriteCount % 100 = 0 then s'.rotate else s').lines = s'.lines.drop k
      split
      · exact ⟨s'.skipCount, SignalStores.lines_rotate s'⟩
      · exact ⟨0, List.drop_zero.symm⟩
    have hevents : (s.saveSignal record).events = s.events ++ [record.toSignalRecord] :=
      SignalStores.events_saveSignal record s.toSignalStores
    refine ⟨?_, ?_, h.positive, ?_⟩
    · show (SignalStores.lines _ |>.map _ |>.map _) <:+ (SignalStores.events _).map SignalRecord.statusKey
      rw [hlines, hevents, List.map_drop, List.map_drop]
      refine (List.drop_suffix k _).trans ?_
      rw [List.map_append, List.map_append, List.map_append]
      obtain ⟨p, hp⟩ := h.suffix
      exact ⟨p, by rw [← List.append_assoc, hp]; rfl⟩
    · intro r hr
      replace hr : r ∈ SignalStores.lines _ := hr
      rw [hlines] at hr
      rcases List.mem_append.1 (List.mem_of_mem_drop hr) with hr | hr
      · exact h.exited r hr
      · rw [List.mem_singleton.1 hr]
        exact nofun
    · intro e he
      replace he : e ∈ SignalStores.events _ := he
      rw [hevents] at he
      rcases List.mem_append.1 he with he | he
      · exact h.recorded e he
      · rw [List.mem_singleton.1 he]
        exact nofun

theorem Inv.exit (h : s.Inv) (x : String) (price : Number) (reason : String) (time : ℚ) :
    (s.trackExit x price reason time).Inv := by
  unfold trackExit
  split
  · exact h
  next signal perf hexit =>
    obtain ⟨r, -, hexit⟩ := Option.bind_eq_some_iff.1 hexit
    split at hexit
    · cases hexit
    · obtain ⟨perf', hperf, heq⟩ := Option.map_eq_some_iff.1 hexit
      cases heq
      refine h.status rfl ?_ ?_ ?_
      · intro y row hrow
        rw [Dict.get?_set] at hrow
        split at hrow
        · cases hrow
          exact Number.fin_lt_fin.2 (exitPerformance_pos hperf)
        · exact h.positive y row hrow
      · intro y hy
        rw [Dict.get?_set]
        split
        · rfl
        · exact hy
      · intro _
        exact Option.isSome_iff_exists.2 ⟨_, Dict.get?_set_self _ _ _⟩

theorem Inv.step (h : s.Inv) (c : TrackCall) : (s.apply c).Inv := by
  cases c with
  | trackSignalGenerated x signal isTest => exact h.generated x signal isTest
  | trackEntry x price time signalData => exact h.status rfl h.positive (fun _ => id) nofun
  | trackExit x price reason time => exact h.exit x price reason time

theorem inv_of_reach {s₀ : LiveStores} (hlines : s₀.lines = []) (hevents : s₀.events = [])
    (htrades : s₀.trades = .empty) (h : Reach step AnyStep s₀ s) : s.Inv := by
  refine h.invariant ⟨?_, ?_, ?_, ?_⟩ ?_
  · rw [hlines]
    exact List.nil_suffix
  · rw [hlines]
    exact fun r hr => absurd hr List.not_mem_nil
  · rw [htrades]
    exact fun _ _ hrow => absurd hrow (Option.not_mem_none _)
  · rw [hevents]
    exact fun e he => absurd he List.not_mem_nil
  · rintro s c _ hinv - ⟨⟩
    exact hinv.step c

end LiveStores

/-! ### The rebuilt tables -/

section rebuilt
variable {s : LiveStores} {nested : LineRecord → NestedExit} {ops : RebuildOps} {dryRun createBackup : Bool}

theorem mem_inserted {α : Type} {works : Nat → Bool} {rows : List α} {row : α} (h : row ∈ inserted works rows) :
    row ∈ rows := by
  obtain ⟨⟨row', i⟩, he, rfl⟩ := List.mem_map.1 h
  obtain ⟨-, -, hrow⟩ := List.mem_zipIdx (List.mem_of_mem_filter he)
  rw [hrow]
  exact List.getElem_mem _

theorem mem_values_foldl_set {rows : List TradeRow} {row : TradeRow} {d : Dict String TradeRow}
    (h : row ∈ (rows.foldl (fun d row => d.set row.tradeId row) d).values) : row ∈ d.values ∨ row ∈ rows := by
  induction rows generalizing d with
  | nil => exact .inl h
  | cons row₀ rows ih =>
    rcases ih h with h | h
    · obtain ⟨⟨k, row'⟩, he, rfl⟩ := List.mem_map.1 h
      rcases (Dict.mem_upsert d.nodup).1 he with he | ⟨-, he⟩
      · cases he
        exact .inr List.mem_cons_self
      · exact .inl (List.mem_map_of_mem he)
    · exact .inr (List.mem_cons_of_mem _ h)

/-- The lines of exits have no signal dictionary, so no rebuilt trade has an entry price. -/
theorem entryPrice_rebuilt (h : s.Inv) {row : TradeRow} (hrow : row ∈ (rebuilt nested ops s.lines).trades.values) :
    row.entryPrice = .fin 0 := by
  rcases mem_values_foldl_set hrow with hrow | hrow
  · cases hrow
  · obtain ⟨r, hr, htrade⟩ := List.mem_filterMap.1 (mem_inserted hrow)
    unfold extractTrade at htrade
    split at htrade
    · cases htrade
    next hexited =>
      cases htrade
      show orZero (r.signal.getD {}).entryPrice = .fin 0
      rw [h.exited r hr (not_not.1 hexited)]
      rfl

theorem mem_events_rebuilt {r : SignalRecord} (hr : r ∈ (rebuilt nested ops s.lines).events) :
    r.signalId ≠ "" ∧ r ∈ s.lines.map LineRecord.toSignalRecord := by
  obtain ⟨r', hr', rfl⟩ := List.mem_map.1 (mem_inserted hr)
  obtain ⟨hmem, hid⟩ := List.mem_filter.1 hr'
  exact ⟨of_decide_eq_true hid, List.mem_map_of_mem hmem⟩

/-- The rebuilt events tell every status exactly if each signal has a line and no failed insert hides its last status. -/
theorem status_rebuilt_iff (h : s.Inv) :
    (∀ x, latestStatus (rebuilt nested ops s.lines).events x = latestStatus s.events x) ↔
      (∀ e ∈ s.events, e.signalId ≠ "" ∧ ∃ r ∈ s.lines, r.signalId = e.signalId) ∧
        ∀ x, latestStatus (inserted ops.addSignalEvent (extractSignalEvents s.lines)) x =
          latestStatus (s.lines.map LineRecord.toSignalRecord) x := by
  constructor
  · intro hall
    have hlines : ∀ e ∈ s.events, e.signalId ≠ "" ∧ ∃ r ∈ s.lines, r.signalId = e.signalId := by
      intro e he
      have hsome : ¬ latestStatus (rebuilt nested ops s.lines).events e.signalId = none := by
        rw [hall, latestStatus_eq_none_iff]
        exact fun hnone => hnone e he rfl
      rw [latestStatus_eq_none_iff] at hsome
      push Not at hsome
      obtain ⟨r, hr, hid⟩ := hsome
      obtain ⟨hne, hmem⟩ := mem_events_rebuilt hr
      obtain ⟨line, hline, rfl⟩ := List.mem_map.1 hmem
      exact ⟨hid ▸ hne, line, hline, hid⟩
    refine ⟨hlines, fun x => ?_⟩
    refine (hall x).trans (latestStatus_eq_of_suffix h.suffix ?_).symm
    rintro e he rfl
    obtain ⟨-, r, hr, hid⟩ := hlines e he
    exact ⟨_, List.mem_map_of_mem hr, hid⟩
  · rintro ⟨hlines, hinserts⟩ x
    refine (hinserts x).trans (latestStatus_eq_of_suffix h.suffix ?_)
    rintro e he rfl
    obtain ⟨-, r, hr, hid⟩ := hlines e he
    exact ⟨_, List.mem_map_of_mem hr, hid⟩

theorem trades_rebuilt_iff (h : s.Inv) :
    (∀ x, latestStatus s.events x = some .exited → ∀ row ∈ s.trades.get? x,
      ∃ row' ∈ (rebuilt nested ops s.lines).trades.values, row'.Shows row) ↔ ∀ x, latestStatus s.events x ≠ some .exited := by
  constructor
  · intro hall x hx
    obtain ⟨e, he, hstatus⟩ := Option.map_eq_some_iff.1 hx
    rw [List.findRev?_eq_find?_reverse] at he
    have hid : e.signalId = x := by simpa using List.find?_some he
    obtain ⟨row, hrow⟩ := Option.isSome_iff_exists.1
      (h.recorded e (List.mem_reverse.1 (List.mem_of_find?_eq_some he)) hstatus)
    rw [hid] at hrow
    obtain ⟨row', hmem, hshows⟩ := hall x hx row hrow
    have hpos := h.positive x row hrow
    rw [← hshows.entryPrice, entryPrice_rebuilt h hmem] at hpos
    exact absurd hpos (by decide)
  · exact fun hnone x hx => absurd hx (hnone x)

theorem rebuildDatabase_of_not (h : ¬ Removes ops dryRun createBackup s) :
    (rebuildDatabase nested ops dryRun createBackup s).2 = .old := by
  unfold rebuildDatabase
  split
  · rfl
  next records hfile =>
    have hremoves (hread : ops.read = true) (hdry : ¬ dryRun = true) (hbackup : ¬ (createBackup = true ∧ ¬ ops.backup = true))
        (hunlink : ops.unlink = true) : Removes ops dryRun createBackup s :=
      ⟨by rw [hfile]; rfl, hread, Bool.eq_false_iff.2 hdry, fun hb => not_not.1 fun hno => hbackup ⟨hb, hno⟩, hunlink⟩
    split_ifs with hread hdry hbackup hunlink
    all_goals first
      | rfl
      | exact absurd (hremoves hread hdry hbackup hunlink) h

theorem rebuildDatabase_of_removes (h : Removes ops dryRun createBackup s) :
    rebuildDatabase nested ops dryRun createBackup s =
      if ops.importDatabase = true ∧ ops.create = true then (ops.verify, .new (rebuilt nested ops s.lines))
      else (false, .missing) := by
  obtain ⟨hfile, hread, rfl, hbackup, hunlink⟩ := h
  obtain ⟨records, hrecords⟩ := Option.isSome_iff_exists.1 hfile
  have hlines : s.lines = records := by rw [SignalStores.lines, hrecords, Option.getD_some]
  have hnot : ¬ (createBackup = true ∧ ¬ ops.backup = true) := fun hb => hb.2 (hbackup hb.1)
  unfold rebuildDatabase
  rw [hrecords]
  dsimp only
  rw [if_neg (not_not.2 hread), if_neg Bool.false_ne_true, if_neg hnot, if_neg (not_not.2 hunlink), hlines]
  by_cases himport : ops.importDatabase = true
  · by_cases hcreate : ops.create = true
    · rw [if_neg (not_not.2 himport), if_neg (not_not.2 hcreate), if_pos ⟨himport, hcreate⟩]
    · rw [if_neg (not_not.2 himport), if_pos hcreate, if_neg fun h => hcreate h.2]
  · rw [if_pos himport, if_neg fun h => himport h.1]

end rebuilt

/-- After every run of the calls, a rebuild restores the database exactly if it does not get to remove it, or nothing
fails from then on, no signal is exited and each has its last line. -/
theorem rebuild_restores_iff {s₀ s : LiveStores} (hlines : s₀.lines = []) (hevents : s₀.events = [])
    (htrades : s₀.trades = .empty) (h : Reach LiveStores.step AnyStep s₀ s) (nested : LineRecord → NestedExit)
    (ops : RebuildOps) (dryRun createBackup : Bool) :
    Restores s (rebuildDatabase nested ops dryRun createBackup s) ↔
      (Removes ops dryRun createBackup s →
        ops.importDatabase = true ∧ ops.create = true ∧ ops.verify = true ∧ Restorable ops s) := by
  have hinv := LiveStores.inv_of_reach hlines hevents htrades h
  by_cases hremoves : Removes ops dryRun createBackup s
  · rw [rebuildDatabase_of_removes hremoves]
    constructor
    · intro hrestores _
      split_ifs at hrestores with hworks
      · have hverify : ops.verify = true := by
          rcases Bool.eq_false_or_eq_true ops.verify with hverify | hverify
          · exact hverify
          · cases hrestores.kept hverify
        have hrows : ∀ x, latestStatus s.events x = some .exited → ∀ row ∈ s.trades.get? x,
            ∃ row' ∈ (rebuilt nested ops s.lines).trades.values, row'.Shows row := by
          intro x hx row hrow
          obtain ⟨_, ⟨⟩, hmem⟩ := hrestores.trades hverify x hx row hrow
          exact hmem
        obtain ⟨_, ⟨⟩, hstatus⟩ := hrestores.status hverify
        obtain ⟨hkept, hinserts⟩ := (status_rebuilt_iff hinv).1 hstatus
        exact ⟨hworks.1, hworks.2, hverify, (trades_rebuilt_iff hinv).1 hrows, hkept, hinserts⟩
      · cases hrestores.kept rfl
    · intro hcond
      obtain ⟨himport, hcreate, hverify, hrestorable⟩ := hcond hremoves
      rw [if_pos ⟨himport, hcreate⟩]
      refine ⟨fun _ x hx row hrow => ?_, fun _ => ?_, fun hfalse => ?_⟩
      · exact absurd hx (hrestorable.noExit x)
      · exact ⟨_, rfl, (status_rebuilt_iff hinv).2 ⟨hrestorable.lines, hrestorable.inserts⟩⟩
      · cases hverify.symm.trans hfalse
  · have hold : (rebuildDatabase nested ops dryRun createBackup s).2 = .old := rebuildDatabase_of_not hremoves
    refine ⟨fun _ hr => absurd hr hremoves, fun _ => ⟨fun _ x _ row hrow => ?_, fun _ => ?_, fun _ => hold⟩⟩
    · rw [hold]
      exact ⟨_, rfl, row, List.mem_map.2 ⟨_, Dict.get?_eq_some.1 hrow, rfl⟩, rfl, rfl, rfl, rfl, rfl, rfl, rfl, rfl, rfl⟩
    · rw [hold]
      exact ⟨_, rfl, fun _ => rfl⟩

/-- A signal that is entered, and another one. -/
def openCalls : List TrackCall :=
  [.trackSignalGenerated "s1" pricedSignal false, .trackEntry "s1" (.fin 101) 0 none,
    .trackSignalGenerated "s2" pricedSignal false]

theorem rebuild_restores_open : ∃ s : LiveStores, s.events.length = 3 ∧
    Restores s (rebuildDatabase (fun _ => {}) {} false true s) := by
  obtain ⟨s, hreach, hs⟩ := exists_reach LiveStores.step AnyStep {} openCalls
    (fun s => s.events.length = 3 ∧ (∀ e ∈ s.events, e.status ≠ .exited) ∧
      (∀ e ∈ s.events, e.signalId ≠ "" ∧ ∃ r ∈ s.lines, r.signalId = e.signalId) ∧
      inserted (fun _ => true) (extractSignalEvents s.lines) = s.lines.map LineRecord.toSignalRecord) (by decide +kernel)
  obtain ⟨hlength, hopen, hlines, hinserted⟩ := of_decide_eq_true hs
  refine ⟨s, hlength, (rebuild_restores_iff rfl rfl rfl hreach (fun _ => {}) {} false true).2 fun _ => ⟨rfl, rfl, rfl, ?_⟩⟩
  refine ⟨fun x hx => ?_, hlines, fun x => congrArg (latestStatus · x) hinserted⟩
  obtain ⟨e, he, hstatus⟩ := Option.map_eq_some_iff.1 hx
  rw [List.findRev?_eq_find?_reverse] at he
  exact hopen e (List.mem_reverse.1 (List.mem_of_find?_eq_some he)) hstatus

/-- The trade of an exit comes back without its direction and its prices. -/
theorem rebuild_loses_exit : ¬ ∀ s, Reach LiveStores.step AnyStep {} s → ∀ nested ops dryRun createBackup,
    Restores s (rebuildDatabase nested ops dryRun createBackup s) := by
  intro hall
  obtain ⟨s, hreach, hs⟩ := exists_reach LiveStores.step AnyStep {}
    [.trackSignalGenerated "s1" pricedSignal false, .trackEntry "s1" (.fin 101) 0 none,
      .trackExit "s1" (.fin 110) "take_profit" 60]
    (fun s => s.signalsFile.isSome = true ∧ latestStatus s.events "s1" = some .exited ∧
      ∃ row ∈ s.trades.get? "s1", ∀ row' ∈ (rebuilt (fun _ => {}) {} s.lines).trades.values, row'.direction ≠ row.direction)
    (by decide +kernel)
  obtain ⟨hfile, hexited, row, hrow, hlost⟩ := of_decide_eq_true hs
  have hremoves : Removes {} false false s := ⟨hfile, rfl, rfl, nofun, rfl⟩
  have hrestores := hall s hreach (fun _ => {}) {} false false
  rw [rebuildDatabase_of_removes hremoves, if_pos ⟨rfl, rfl⟩] at hrestores
  obtain ⟨_, ⟨⟩, row', hrow', hshows⟩ := hrestores.trades rfl "s1" hexited row hrow
  exact hlost row' hrow' hshows.direction

end PearlAlgo.RebuildSqlite
