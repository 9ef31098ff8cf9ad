import PearlAlgo.MarketAgent.SignalLifecycle
import PearlAlgo.MarketAgent.VirtualTradeManager
import PearlAlgo.Py.Datetime

/-!
# The two engines of virtual exits (`market_agent/position_tracker.py`, `market_agent/virtual_trade_manager.py`)

`update_virtual_trade_exits` is a second `process_exits`. It takes every `entered` record with its own signal
dictionary, reads a naive entry time as UTC, and hands the time of the bar to `track_exit` with its time zone. A row is
an exit that `track_exit` recorded; `exits_agree_iff` says when the engines make the same rows. What happens after
`track_exit` is left out.
-/

namespace PearlAlgo
open Py

structure ExitRow where
  signalId : String
  bar : ℚ
  price : ℚ
  reason : String
deriving DecidableEq

def Performance.row (bar : ℚ) (p : Performance) : ExitRow := ⟨p.signalId, bar, p.exitPrice, p.exitReason⟩

def ExitRow.report (row : ExitRow) : String × ℚ × String := (row.signalId, row.price, row.reason)

def Performance.report (p : Performance) : String × ℚ × String := (p.signalId, p.exitPrice, p.exitReason)

/-- `track_exit` at a time that may have a time zone. The entry time of the record has none, and a hold time cannot be
computed from the two kinds. -/
def SignalStore.trackExitAt (signalId : String) (exitPrice : Number) (exitReason : String) (exitTime : PyDatetime)
    (st : SignalStore) : Except PyErr (Option Performance × SignalStore) :=
  match exitTime with
  | .naive t => .ok (st.trackExit signalId exitPrice exitReason t)
  | .aware t =>
    match st.getSignalRecord signalId with
    | none => .ok (none, st)
    | some r =>
      if r.status = .exited then .ok (none, st)
      else
        match r.exitPerformance signalId exitPrice exitReason t, r.entryTime with
        | some _, some entryTime =>
          ((PyDatetime.aware t).sub (.naive entryTime)).map fun _ => st.trackExit signalId exitPrice exitReason t
        | _, _ => .ok (st.trackExit signalId exitPrice exitReason t)

/-- The price and the reason of an exit on this bar. -/
def Bar.exitLevel (tiebreak : Tiebreak) (direction : String) (stop target : Number) (b : Bar) : Number × String :=
  if b.hitsTarget direction target ∧ b.hitsStop direction stop then
    match tiebreak with
    | .takeProfit => (target, "take_profit")
    | .stopLoss => (stop, "stop_loss")
  else if b.hitsStop direction stop then (stop, "stop_loss")
  else (target, "take_profit")

/-! ### The position tracker -/

structure VirtualPositionTracker where
  virtualPnlEnabled : Bool := true
  tiebreak : Tiebreak := .stopLoss

structure TrackerScan where
  store : SignalStore
  exitedThisCycle : List String := []
  rows : List ExitRow := []

namespace VirtualPositionTracker

def updateRecord (bars : List Bar) (t : VirtualPositionTracker) (s : TrackerScan) (r : SignalRecord) : TrackerScan :=
  if r.status ≠ .entered ∨ r.signalId = "" ∨ r.signalId ∈ s.exitedThisCycle then s
  else
    let sig := r.signal.getD {}
    match sig.bracket with
    | none => s
    | some (stop, target) =>
      -- the naive Eastern time is taken for UTC
      match bars.find? (Bar.exits sig.side stop target r.entryTime) with
      | none => s
      | some bar =>
        let (price, reason) := bar.exitLevel t.tiebreak sig.side stop target
        match s.store.trackExitAt r.signalId price reason (.aware bar.timestamp) with
        | .error _ => s
        | .ok (perf, store) =>
          { store, exitedThisCycle := s.exitedThisCycle ++ [r.signalId]
            rows := s.rows ++ (perf.map (Performance.row bar.timestamp)).toList }

def updateVirtualTradeExits (bars : Option (List Bar)) (recent : Option (List SignalRecord)) (t : VirtualPositionTracker)
    (store : SignalStore) : TrackerScan :=
  match t.virtualPnlEnabled, bars, recent with
  | true, some bars, some recent => recent.foldl (t.updateRecord bars) { store }
  | _, _, _ => { store }

end VirtualPositionTracker

/-! ### The rows of `process_exits` -/

/-- The record with the dictionary of its `generated` record where it has none. -/
def SignalRecord.withSignal (signals : Dict String SignalData) (r : SignalRecord) : SignalRecord :=
  { r with signal := r.signal <|> signals.get? r.signalId }

namespace VirtualTradeManager

def entryUtc (vtm : VirtualTradeManager) (r : SignalRecord) : Option (Option ℚ) :=
  match r.entryTime with
  | none => some none
  | some t => (vtm.zone.toUtc t).map some

/-- The bar on which `process_exits` exits the trade. -/
def exitBar (r : SignalRecord) (bars : List Bar) (vtm : VirtualTradeManager) : Option Bar := do
  let (stop, target) ← (r.signal.getD {}).bracket
  let entry ← vtm.entryUtc r
  bars.find? (Bar.exits (r.signal.getD {}).side stop target entry)

/-- The exit of the trade, when `track_exit` records it. -/
def exitRow (r : SignalRecord) (bars : List Bar) (store : SignalStore) (vtm : VirtualTradeManager) : Option ExitRow := do
  let bar ← vtm.exitBar r bars
  let e ← vtm.checkSingleTradeExit r bars
  let perf ← (store.trackExit r.signalId e.price e.reason e.time).1
  return perf.row bar.timestamp

/-- A turn of `process_exits`, and the rows so far. -/
def processRecordRows (cfg : ExecutionConfig) (signals : Dict String SignalData) (bars : List Bar)
    (s : (VirtualTradeManager × Trackers) × List ExitRow) (r : SignalRecord) :
    (VirtualTradeManager × Trackers) × List ExitRow :=
  (processRecord cfg signals bars s.1 r,
    if r.status ≠ .entered ∨ r.signalId ∈ s.1.1.processedExits then s.2
    else s.2 ++ (s.1.1.exitRow (r.withSignal signals) bars s.1.2.store).toList)

def exitRows (cfg : ExecutionConfig) (bars : Option (List Bar)) (recent : Option (List SignalRecord))
    (vtm : VirtualTradeManager) (x : Trackers) : List ExitRow :=
  match vtm.virtualPnlEnabled, bars, recent with
  | true, some bars, some recent =>
    ((latestById recent).values.foldl (processRecordRows cfg (signalDataMap recent) bars) ((vtm, x), [])).2
  | _, _, _ => []

end VirtualTradeManager

/-! ### When the engines agree -/

/-- The first bar after the entry that touches the stop or the target does so at a price that `track_exit` takes. -/
def Touched (tiebreak : Tiebreak) (bars : List Bar) (entry : Option ℚ) (sig : SignalData) : Prop :=
  ∃ b ∈ sig.bracket, ∃ bar ∈ bars.find? (Bar.exits sig.side b.1 b.2 entry),
    (SignalStore.validPrice (bar.exitLevel tiebreak sig.side b.1 b.2).1).isSome = true

/-- The store has a record of the signal that can be exited. -/
def SignalStore.CanExit (signalId : String) (st : SignalStore) : Prop :=
  ∃ r ∈ st.getSignalRecord signalId, r.status ≠ .exited ∧ (SignalStore.validPrice r.entryPrice).isSome = true

/-- The latest record of the signal is `entered`, it can be exited, and a bar after its entry touches its bracket. -/
def VirtualTradeManager.Ends (bars : List Bar) (recent : List SignalRecord) (store : SignalStore) (signalId : String)
    (vtm : VirtualTradeManager) : Prop :=
  signalId ≠ "" ∧ store.CanExit signalId ∧
    ∃ r ∈ recent.findRev? fun r => r.signalId = signalId, r.status = .entered ∧
      ∃ entry ∈ vtm.entryUtc r, Touched vtm.tiebreak bars entry ((r.withSignal (signalDataMap recent)).signal.getD {})

namespace SignalStore
variable {st : SignalStore} {x reason : String} {price : Number} {time : ℚ}

theorem trackExit_fst : (st.trackExit x price reason time).1 =
    (st.getSignalRecord x).bind fun r => if r.status = .exited then none else r.exitPerformance x price reason time := by
  unfold trackExit
  cases st.getSignalRecord x with
  | none => rfl
  | some r =>
    rw [Option.bind_some]
    by_cases hexited : r.status = .exited
    · simp only [if_pos hexited]
    · simp only [if_neg hexited, SignalRecord.exitPerformance, SignalRecord.entryPrice]
      cases validPrice ((orNum r.own.entryPrice (orNum r.data.entryPrice none)).getD (.fin 0)) with
      | none => rfl
      | some entry =>
        cases validPrice price with
        | none => rfl
        | some exit => rfl

theorem trackExit_none (h : (st.trackExit x price reason time).1 = none) : (st.trackExit x price reason time).2 = st := by
  unfold trackExit at h ⊢
  split
  · rfl
  · split
    · rfl
    · dsimp only
      split
      next hentry hexit => simp_all
      · rfl

theorem trackExit_isSome : (st.trackExit x price reason time).1.isSome = true ↔
    st.CanExit x ∧ (validPrice price).isSome = true := by
  rw [trackExit_fst]
  unfold CanExit
  cases hr : st.getSignalRecord x with
  | none => simp
  | some r =>
    rw [Option.bind_some]
    by_cases hexited : r.status = .exited
    · simp [hexited]
    · rw [if_neg hexited, exitPerformance_isSome, Bool.and_eq_true]
      simp [hexited]

theorem trackExitAt_aware (h : ∀ r ∈ st.getSignalRecord x, r.entryTime.isSome = true) :
    st.trackExitAt x price reason (.aware time) = .error .typeError ∨
      st.trackExitAt x price reason (.aware time) = .ok (none, st) := by
  unfold trackExitAt
  dsimp only
  cases hr : st.getSignalRecord x with
  | none => exact .inr rfl
  | some r =>
    obtain ⟨entryTime, hentry⟩ := Option.isSome_iff_exists.1 (h r hr)
    dsimp only
    split
    · exact .inr rfl
    next hexited =>
      rw [hentry]
      cases hperf : r.exitPerformance x price reason time with
      | some perf => exact .inl rfl
      | none =>
        have hnone : (st.trackExit x price reason time).1 = none := by
          rw [trackExit_fst, hr, Option.bind_some, if_neg hexited, hperf]
        exact .inr (congrArg Except.ok (Prod.ext hnone (trackExit_none hnone)))

end SignalStore

namespace VirtualPositionTracker
variable {t : VirtualPositionTracker} {bars : List Bar} {store : SignalStore}

theorem updateRecord_untouched {s : TrackerScan} {r : SignalRecord} (hstore : s.store = store) (hrows : s.rows = [])
    (h : r.status = .entered → ∀ r' ∈ store.getSignalRecord r.signalId, r'.entryTime.isSome = true) :
    (t.updateRecord bars s r).store = store ∧ (t.updateRecord bars s r).rows = [] := by
  subst hstore
  unfold updateRecord
  split
  · exact ⟨rfl, hrows⟩
  next hturn =>
    have hentered : r.status = .entered := by
      by_contra hne
      exact hturn (.inl hne)
    dsimp only
    split
    · exact ⟨rfl, hrows⟩
    next stop target hbracket =>
      split
      · exact ⟨rfl, hrows⟩
      next bar hbar =>
        have haware := fun price reason =>
          @SignalStore.trackExitAt_aware s.store r.signalId reason price bar.timestamp (h hentered)
        rcases haware (bar.exitLevel t.tiebreak (r.signal.getD {}).side stop target).1
          (bar.exitLevel t.tiebreak (r.signal.getD {}).side stop target).2 with herror | hnone
        · rw [herror]
          exact ⟨rfl, hrows⟩
        · rw [hnone]
          refine ⟨rfl, ?_⟩
          show s.rows ++ [] = []
          rw [hrows]
          rfl

/-- While every entered signal has its entry time, the position tracker records no exit. -/
theorem updateVirtualTradeExits_rows (bars : Option (List Bar)) {recent : List SignalRecord}
    (h : ∀ r ∈ recent, r.status = .entered → ∀ r' ∈ store.getSignalRecord r.signalId, r'.entryTime.isSome = true) :
    (t.updateVirtualTradeExits bars (some recent) store).rows = [] := by
  have hloop (bars : List Bar) (rs : List SignalRecord) (hrs : ∀ r ∈ rs, r ∈ recent) (s : TrackerScan)
      (hstore : s.store = store) (hrows : s.rows = []) : (rs.foldl (t.updateRecord bars) s).rows = [] := by
    induction rs generalizing s with
    | nil => exact hrows
    | cons r rs ih =>
      obtain ⟨hstore', hrows'⟩ := @updateRecord_untouched t bars store s r hstore hrows (h r (hrs r (List.mem_cons_self ..)))
      exact ih (fun r' hr' => hrs r' (List.mem_cons_of_mem _ hr')) _ hstore' hrows'
  unfold updateVirtualTradeExits
  split
  next bars' recent' _ hrecent =>
    cases hrecent
    exact hloop _ recent (fun _ hr => hr) { store } rfl rfl
  · rfl

end VirtualPositionTracker

namespace VirtualTradeManager
variable {vtm : VirtualTradeManager} {bars : List Bar} {store : SignalStore} {r : SignalRecord}

theorem checkSingleTradeExit_eq (vtm : VirtualTradeManager) (r : SignalRecord) (bars : List Bar) :
    vtm.checkSingleTradeExit r bars =
      (r.signal.getD {}).bracket.bind fun b => (vtm.exitBar r bars).map fun bar =>
        let level := bar.exitLevel vtm.tiebreak (r.signal.getD {}).side b.1 b.2
        ⟨level.1, level.2, vtm.zone.ofUtc bar.timestamp⟩ := by
  have hfind (stop target : Number) (entry : Option ℚ) :
      ((bars.find? (Bar.exits (r.signal.getD {}).side stop target entry)).bind fun bar =>
        if bar.hitsTarget (r.signal.getD {}).side target = true ∧ bar.hitsStop (r.signal.getD {}).side stop = true then
          some (match vtm.tiebreak with
            | .takeProfit => (⟨target, "take_profit", vtm.zone.ofUtc bar.timestamp⟩ : VirtualExit)
            | .stopLoss => ⟨stop, "stop_loss", vtm.zone.ofUtc bar.timestamp⟩)
        else if bar.hitsStop (r.signal.getD {}).side stop = true then some ⟨stop, "stop_loss", vtm.zone.ofUtc bar.timestamp⟩
        else some ⟨target, "take_profit", vtm.zone.ofUtc bar.timestamp⟩) =
      (bars.find? (Bar.exits (r.signal.getD {}).side stop target entry)).map fun bar =>
        let level := bar.exitLevel vtm.tiebreak (r.signal.getD {}).side stop target
        ⟨level.1, level.2, vtm.zone.ofUtc bar.timestamp⟩ := by
    cases bars.find? (Bar.exits (r.signal.getD {}).side stop target entry) with
    | none => rfl
    | some bar =>
      rw [Option.bind_some, Option.map_some]
      unfold Bar.exitLevel
      split
      · cases vtm.tiebreak <;> rfl
      · split <;> rfl
  unfold checkSingleTradeExit exitBar entryUtc
  dsimp only
  cases (r.signal.getD {}).bracket with
  | none => rfl
  | some b =>
    cases r.entryTime with
    | none => exact hfind b.1 b.2 none
    | some time =>
      cases hutc : vtm.zone.toUtc time with
      | none => simp [hutc]
      | some utc =>
        simp only [Option.bind_eq_bind, Option.bind_some, hutc, Option.map_some]
        exact hfind b.1 b.2 (some utc)

theorem exitBar_of_exit {e : VirtualExit} (h : vtm.checkSingleTradeExit r bars = some e) :
    ∃ bar, vtm.exitBar r bars = some bar := by
  rw [checkSingleTradeExit_eq] at h
  obtain ⟨b, -, hmap⟩ := Option.bind_eq_some_iff.1 h
  obtain ⟨bar, hbar, -⟩ := Option.map_eq_some_iff.1 hmap
  exact ⟨bar, hbar⟩

theorem exitRow_eq {e : VirtualExit} {bar : Bar} (he : vtm.checkSingleTradeExit r bars = some e)
    (hbar : vtm.exitBar r bars = some bar) : vtm.exitRow r bars store =
      (store.trackExit r.signalId e.price e.reason e.time).1.map (Performance.row bar.timestamp) := by
  unfold exitRow
  rw [hbar, he]
  show (store.trackExit r.signalId e.price e.reason e.time).1.bind _ = _
  cases (store.trackExit r.signalId e.price e.reason e.time).1 <;> rfl

theorem exitRow_isSome : (vtm.exitRow r bars store).isSome = true ↔
    (∃ entry ∈ vtm.entryUtc r, Touched vtm.tiebreak bars entry (r.signal.getD {})) ∧ store.CanExit r.signalId := by
  unfold exitRow
  rw [checkSingleTradeExit_eq]
  unfold exitBar Touched
  cases (r.signal.getD {}).bracket with
  | none => simp
  | some b =>
    cases vtm.entryUtc r with
    | none => simp
    | some entry =>
      cases hbar : bars.find? (Bar.exits (r.signal.getD {}).side b.1 b.2 entry) with
      | none => simp [hbar]
      | some bar =>
        have hrow := @SignalStore.trackExit_isSome store r.signalId
          (bar.exitLevel vtm.tiebreak (r.signal.getD {}).side b.1 b.2).2
          (bar.exitLevel vtm.tiebreak (r.signal.getD {}).side b.1 b.2).1 (vtm.zone.ofUtc bar.timestamp)
        have hbind (o : Option Performance) : (o.bind fun perf => some (perf.row bar.timestamp)).isSome = o.isSome := by
          cases o <;> rfl
        simp [hbar, hbind, hrow, and_comm]

theorem processRecord_store {cfg : ExecutionConfig} {signals : Dict String SignalData} {x : Trackers}
    (h : r.status = .entered → r.signalId ∉ vtm.processedExits → vtm.exitRow (r.withSignal signals) bars x.store = none) :
    (processRecord cfg signals bars (vtm, x) r).2.store = x.store := by
  unfold processRecord
  dsimp only
  split
  · rfl
  next hturn =>
    rw [not_or, not_not] at hturn
    split
    · rfl
    next e he =>
      have he' : vtm.checkSingleTradeExit (r.withSignal signals) bars = some e := he
      obtain ⟨bar, hbar⟩ := exitBar_of_exit he'
      have hnone := h hturn.1 hturn.2
      rw [exitRow_eq he' hbar, Option.map_eq_none_iff] at hnone
      have hexit : (x.store.trackExit r.signalId e.price e.reason e.time).1 = none := hnone
      unfold recordExit Trackers.trackExit
      dsimp only
      rw [hexit]
      exact SignalStore.trackExit_none hexit

theorem processRecord_exits {cfg : ExecutionConfig} {signals : Dict String SignalData} {x : Trackers} :
    ∃ recorded, (processRecord cfg signals bars (vtm, x) r).2.exits = x.exits ++ recorded ∧
      (processRecordRows cfg signals bars ((vtm, x), []) r).2.map ExitRow.report = recorded.map Performance.report := by
  unfold processRecordRows processRecord
  dsimp only
  split
  · exact ⟨[], (List.append_nil _).symm, rfl⟩
  · rw [List.nil_append]
    split
    next hnone =>
      have hnone' : vtm.checkSingleTradeExit (r.withSignal signals) bars = none := hnone
      refine ⟨[], (List.append_nil _).symm, ?_⟩
      unfold exitRow
      rw [hnone']
      cases vtm.exitBar (r.withSignal signals) bars <;> rfl
    next e he =>
      have he' : vtm.checkSingleTradeExit (r.withSignal signals) bars = some e := he
      obtain ⟨bar, hbar⟩ := exitBar_of_exit he'
      refine ⟨(x.store.trackExit r.signalId e.price e.reason e.time).1.toList, ?_, ?_⟩
      · unfold recordExit Trackers.trackExit
        dsimp only
        cases (x.store.trackExit r.signalId e.price e.reason e.time).1 <;> rfl
      · rw [exitRow_eq he' hbar]
        show List.map ExitRow.report ((x.store.trackExit r.signalId e.price e.reason e.time).1.map _).toList = _
        cases (x.store.trackExit r.signalId e.price e.reason e.time).1 <;> rfl

theorem markProcessed_eq {signalId : String} (hnew : signalId ∉ vtm.processedExits) (hlen : vtm.processedExits.length < 1000) :
    vtm.markProcessed signalId = { vtm with processedExits := vtm.processedExits ++ [signalId] } := by
  have hfew : ¬ 1000 < (vtm.processedExits ++ [signalId]).length := by
    rw [List.length_append, List.length_singleton]
    omega
  unfold markProcessed
  rw [if_neg hnew]
  exact congrArg (fun marks => { vtm with processedExits := marks }) (if_neg hfew)

theorem processRecord_marks {cfg : ExecutionConfig} {signals : Dict String SignalData} {x : Trackers}
    (hlen : vtm.processedExits.length < 1000) :
    ∃ marks, (processRecord cfg signals bars (vtm, x) r).1 = { vtm with processedExits := marks } ∧
      (∀ k ∈ marks, k ∈ vtm.processedExits ∨ k = r.signalId) ∧ marks.length ≤ vtm.processedExits.length + 1 := by
  unfold processRecord
  dsimp only
  split
  · exact ⟨_, rfl, fun k hk => .inl hk, Nat.le_succ _⟩
  next hturn =>
    rw [not_or] at hturn
    split
    · exact ⟨_, rfl, fun k hk => .inl hk, Nat.le_succ _⟩
    · refine ⟨vtm.processedExits ++ [r.signalId], markProcessed_eq hturn.2 hlen, ?_, ?_⟩
      · intro k hk
        rcases List.mem_append.1 hk with hk | hk
        · exact .inl hk
        · exact .inr (List.mem_singleton.1 hk)
      · rw [List.length_append, List.length_singleton]

theorem rows_append (cfg : ExecutionConfig) (signals : Dict String SignalData) (rs : List SignalRecord)
    (s : VirtualTradeManager × Trackers) (rows : List ExitRow) :
    (rs.foldl (processRecordRows cfg signals bars) (s, rows)).2 =
      rows ++ (rs.foldl (processRecordRows cfg signals bars) (s, [])).2 := by
  induction rs generalizing s rows with
  | nil => exact (List.append_nil rows).symm
  | cons r rs ih =>
    rw [List.foldl_cons, List.foldl_cons]
    unfold processRecordRows
    dsimp only
    split
    · exact ih _ _
    · rw [List.nil_append]
      refine (ih _ _).trans ?_
      rw [List.append_assoc]
      exact congrArg (rows ++ ·) (ih _ _).symm

/-- The loop records no exit if and only if no `entered` record of it has one. -/
theorem rows_eq_nil_iff (cfg : ExecutionConfig) (signals : Dict String SignalData) (rs : List SignalRecord)
    (hnodup : (rs.map SignalRecord.signalId).Nodup) (s : VirtualTradeManager × Trackers)
    (hlen : s.1.processedExits.length + rs.length ≤ 1000) (hnew : ∀ r ∈ rs, r.signalId ∉ s.1.processedExits) :
    (rs.foldl (processRecordRows cfg signals bars) (s, [])).2 = [] ↔
      ∀ r ∈ rs, r.status = .entered → s.1.exitRow (r.withSignal signals) bars s.2.store = none := by
  induction rs generalizing s with
  | nil => simp
  | cons r rs ih =>
    obtain ⟨vtm, x⟩ := s
    rw [List.map_cons, List.nodup_cons] at hnodup
    have hroom : vtm.processedExits.length + (rs.length + 1) ≤ 1000 := hlen
    have hturn : r.signalId ∉ vtm.processedExits := hnew r (List.mem_cons_self ..)
    rw [List.foldl_cons, List.forall_mem_cons]
    show (rs.foldl (processRecordRows cfg signals bars) (processRecord cfg signals bars (vtm, x) r, _)).2 = [] ↔ _
    rw [rows_append, List.append_eq_nil_iff]
    have hrow : (if r.status ≠ .entered ∨ r.signalId ∈ vtm.processedExits then ([] : List ExitRow)
        else [] ++ (vtm.exitRow (r.withSignal signals) bars x.store).toList) = [] ↔
        (r.status = .entered → vtm.exitRow (r.withSignal signals) bars x.store = none) := by
      by_cases hentered : r.status = .entered
      · rw [if_neg (by simp [hentered, hturn]), List.nil_append, Option.toList_eq_nil_iff]
        simp [hentered]
      · simp [hentered]
    have hrest : (r.status = .entered → vtm.exitRow (r.withSignal signals) bars x.store = none) →
        ((rs.foldl (processRecordRows cfg signals bars) (processRecord cfg signals bars (vtm, x) r, [])).2 = [] ↔
          ∀ r' ∈ rs, r'.status = .entered → vtm.exitRow (r'.withSignal signals) bars x.store = none) := by
      intro hnone
      obtain ⟨marks, heq, hmarks, hmarked⟩ :=
        @processRecord_marks vtm bars r cfg signals x (by omega)
      have hstore : (processRecord cfg signals bars (vtm, x) r).2.store = x.store := processRecord_store fun h _ => hnone h
      refine (ih hnodup.2 _ ?_ ?_).trans ?_
      · rw [heq]
        show marks.length + rs.length ≤ 1000
        omega
      · rw [heq]
        intro r' hr' hmem
        rcases hmarks _ hmem with hold | hown
        · exact hnew r' (List.mem_cons_of_mem _ hr') hold
        · exact hnodup.1 (hown ▸ List.mem_map_of_mem hr')
      · rw [heq, hstore]
        rfl
    constructor
    · rintro ⟨hfirst, hlater⟩
      exact ⟨hrow.1 hfirst, (hrest (hrow.1 hfirst)).1 hlater⟩
    · rintro ⟨hfirst, hlater⟩
      exact ⟨hrow.2 hfirst, (hrest hfirst).2 hlater⟩

/-- The rows are the exits that `process_exits` records. -/
theorem processExits_exits (cfg : ExecutionConfig) (bars : List Bar) (recent : List SignalRecord) (vtm : VirtualTradeManager)
    (x : Trackers) :
    ∃ recorded, (vtm.processExits cfg (some bars) (some recent) x).2.exits = x.exits ++ recorded ∧
      (vtm.exitRows cfg (some bars) (some recent) x).map ExitRow.report = recorded.map Performance.report := by
  have hloop (signals : Dict String SignalData) (rs : List SignalRecord) (s : VirtualTradeManager × Trackers) :
      ∃ recorded, (rs.foldl (processRecord cfg signals bars) s).2.exits = s.2.exits ++ recorded ∧
        (rs.foldl (processRecordRows cfg signals bars) (s, [])).2.map ExitRow.report = recorded.map Performance.report := by
    induction rs generalizing s with
    | nil => exact ⟨[], (List.append_nil _).symm, rfl⟩
    | cons r rs ih =>
      obtain ⟨first, hfirst, hreport⟩ := @processRecord_exits s.1 bars r cfg signals s.2
      obtain ⟨later, hlater, hreports⟩ := ih (processRecord cfg signals bars s r)
      refine ⟨first ++ later, ?_, ?_⟩
      · rw [List.foldl_cons, hlater, ← List.append_assoc, ← hfirst]
      · rw [List.foldl_cons, List.map_append, ← hreport, ← hreports, ← List.map_append]
        exact congrArg (List.map ExitRow.report) (rows_append cfg signals rs (processRecord cfg signals bars s r) _)
  unfold processExits exitRows
  rcases henabled : vtm.virtualPnlEnabled
  · exact ⟨[], (List.append_nil _).symm, rfl⟩
  · exact hloop _ _ _

/-- A manager that has processed nothing records no exit if and only if no trade ends. -/
theorem exitRows_eq_nil_iff (cfg : ExecutionConfig) (bars : List Bar) (recent : List SignalRecord) (vtm : VirtualTradeManager)
    (x : Trackers) (henabled : vtm.virtualPnlEnabled = true) (hnew : vtm.processedExits = []) (hlen : recent.length ≤ 1000) :
    vtm.exitRows cfg (some bars) (some recent) x = [] ↔ ∀ k, ¬ vtm.Ends bars recent x.store k := by
  have hids : ((latestById recent).values.map SignalRecord.signalId).Nodup := by
    rw [latestById_ids]
    exact (latestById recent).nodup
  have hfew : vtm.processedExits.length + (latestById recent).values.length ≤ 1000 := by
    rw [hnew, List.length_nil, Nat.zero_add]
    exact (latestById_length recent).trans hlen
  have hrows := @rows_eq_nil_iff bars cfg (signalDataMap recent) (latestById recent).values hids (vtm, x) hfew
    (by simp [hnew])
  unfold exitRows
  rw [henabled]
  refine hrows.trans ?_
  constructor
  · rintro hnone k ⟨hk, hcan, r, hr, hentered, htouched⟩
    have hget : (latestById recent).get? k = some r := by rw [latestById_get?, if_neg hk]; exact hr
    obtain ⟨rfl, -⟩ := latestById_signalId hget
    have hrow := hnone r (mem_latestById_values.2 hget) hentered
    have hsome := (@exitRow_isSome vtm bars x.store (r.withSignal (signalDataMap recent))).2 ⟨htouched, hcan⟩
    rw [hrow] at hsome
    cases hsome
  · intro hends r hr hentered
    have hget := mem_latestById_values.1 hr
    rw [latestById_get?] at hget
    split at hget
    · cases hget
    next hk =>
      by_contra hne
      obtain ⟨htouched, hcan⟩ := (@exitRow_isSome vtm bars x.store (r.withSignal (signalDataMap recent))).1
        (Option.isSome_iff_ne_none.2 hne)
      exact hends r.signalId ⟨hk, hcan, r, hget, hentered, htouched⟩

end VirtualTradeManager

/-- The engines, with the same settings and on the same records and bars, record the same exits if and only if no trade
ends. The entry times are those of `track_entry`; the manager has processed nothing yet. -/
theorem exits_agree_iff (cfg : ExecutionConfig) (vtm : VirtualTradeManager) (hnew : vtm.processedExits = []) (x : Trackers)
    (bars : List Bar) (lines : List SignalRecord)
    (hentry : ∀ r ∈ lines, r.status = .entered → ∀ r' ∈ x.store.getSignalRecord r.signalId, r'.entryTime.isSome = true) :
    let recent := lastN 300 lines
    let tracker : VirtualPositionTracker := { virtualPnlEnabled := vtm.virtualPnlEnabled, tiebreak := vtm.tiebreak }
    (∀ row, row ∈ vtm.exitRows cfg (some bars) (some recent) x ↔
        row ∈ (tracker.updateVirtualTradeExits (some bars) (some recent) x.store).rows) ↔
      (vtm.virtualPnlEnabled = true → ∀ k, ¬ vtm.Ends bars recent x.store k) := by
  intro recent tracker
  have hsub : ∀ r ∈ recent, r ∈ lines := fun r hr => mem_of_mem_lastN hr
  have htracker : (tracker.updateVirtualTradeExits (some bars) (some recent) x.store).rows = [] :=
    VirtualPositionTracker.updateVirtualTradeExits_rows (some bars) fun r hr => hentry r (hsub r hr)
  rw [htracker]
  have hnone : (∀ row, row ∈ vtm.exitRows cfg (some bars) (some recent) x ↔ row ∈ ([] : List ExitRow)) ↔
      vtm.exitRows cfg (some bars) (some recent) x = [] := by
    rw [List.eq_nil_iff_forall_not_mem]
    simp
  rw [hnone]
  have hlen : recent.length ≤ 1000 := (length_lastN_le (by omega) lines).trans (by omega)
  cases henabled : vtm.virtualPnlEnabled with
  | true => simpa using vtm.exitRows_eq_nil_iff cfg bars recent x henabled hnew hlen
  | false =>
    have hoff : vtm.exitRows cfg (some bars) (some recent) x = [] := by
      unfold VirtualTradeManager.exitRows
      rw [henabled]
    simp [hoff]

/-- Winter time, five hours behind UTC. -/
def winterTime : Zone := ⟨fun t => some (t + 18000), fun t => t - 18000⟩

/-- A long trade from 100 with its bracket, entered at midnight. -/
def enteredTrade : SignalRecord :=
  { signalId := "s1", status := .entered, own := { entryPrice := some (.fin 100) }, entryTime := some 0
    signal := some { direction := some "long", entryPrice := some (.fin 100), stopLoss := some (.fin 95)
                     takeProfit := some (.fin 110) } }

def tradeStore : Trackers := { store := { lines := [enteredTrade] }, breaker := none, executionAdapter := none }

def winterManager : VirtualTradeManager := { executionAdapter := none, zone := winterTime }

/-- A bar a minute after the entry, in UTC. -/
def minuteBar (high low : ℚ) : Bar := { timestamp := 18060, high := .fin high, low := .fin low }

theorem exits_agree_quiet :
    {row | row ∈ winterManager.exitRows sampleConfig (some [minuteBar 104 99]) (some (lastN 300 [enteredTrade])) tradeStore} =
      {row | row ∈ (({} : VirtualPositionTracker).updateVirtualTradeExits (some [minuteBar 104 99])
        (some (lastN 300 [enteredTrade])) tradeStore.store).rows} := by
  refine Set.ext fun row => (exits_agree_iff sampleConfig winterManager rfl tradeStore [minuteBar 104 99] [enteredTrade] ?_).2 ?_ row
  · intro r hr _ r' hr'
    obtain rfl := List.mem_singleton.1 hr
    have hstored : tradeStore.store.getSignalRecord "s1" = some enteredTrade := by decide +kernel
    obtain rfl := Option.some.inj (hstored.symm.trans hr')
    rfl
  · rintro - k ⟨-, -, r, hr, -, entry, hentry, b, hb, bar, hbar, -⟩
    have hmem : r ∈ lastN 300 [enteredTrade] := by
      rw [List.findRev?_eq_find?_reverse] at hr
      exact List.mem_reverse.1 (List.mem_of_find?_eq_some hr)
    obtain rfl : r = enteredTrade := List.mem_singleton.1 (mem_of_mem_lastN hmem)
    have hutc : winterManager.entryUtc enteredTrade = some (some 18000) := by decide +kernel
    obtain rfl := Option.some.inj (hutc.symm.trans hentry)
    have hbracket : ((enteredTrade.withSignal (signalDataMap (lastN 300 [enteredTrade]))).signal.getD {}).bracket =
        some (.fin 95, .fin 110) := by decide +kernel
    obtain rfl := Option.some.inj (hbracket.symm.trans hb)
    have hnone : [minuteBar 104 99].find? (Bar.exits ((enteredTrade.withSignal
        (signalDataMap (lastN 300 [enteredTrade]))).signal.getD {}).side (.fin 95) (.fin 110) (some 18000)) = none := by
      rw [List.find?_eq_none]
      decide +kernel
    cases hnone.symm.trans hbar

/-- The manager takes the profit of the trade, and the position tracker leaves it open. -/
theorem not_exits_agree : ¬ ∀ (cfg : ExecutionConfig) (vtm : VirtualTradeManager), vtm.processedExits = [] →
    ∀ (x : Trackers) (bars : List Bar) (lines : List SignalRecord),
      (∀ r ∈ lines, r.status = .entered → ∀ r' ∈ x.store.getSignalRecord r.signalId, r'.entryTime.isSome = true) →
      ∀ row, row ∈ vtm.exitRows cfg (some bars) (some (lastN 300 lines)) x ↔
        row ∈ (({ virtualPnlEnabled := vtm.virtualPnlEnabled, tiebreak := vtm.tiebreak } :
          VirtualPositionTracker).updateVirtualTradeExits (some bars) (some (lastN 300 lines)) x.store).rows := by
  intro h
  have hentry : ∀ r ∈ [enteredTrade], r.status = .entered →
      ∀ r' ∈ tradeStore.store.getSignalRecord r.signalId, r'.entryTime.isSome = true := by decide +kernel
  have hrow := (h sampleConfig winterManager rfl tradeStore [minuteBar 111 99] [enteredTrade] hentry ⟨"s1", 18060, 110, "take_profit"⟩).1
    (by decide +kernel)
  exact absurd hrow (by decide +kernel)

end PearlAlgo
