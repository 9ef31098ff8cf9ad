import PearlAlgo.MarketAgent.MetricsCache
import PearlAlgo.Storage.TradeDatabase

/-!
# An exit whose writes may fail (`market_agent/performance_tracker.py`)

`track_exit` counts the P&L in memory, and then makes up to four writes, each of which swallows its failure. An exit
time with a zone and an entry time are not subtracted: the call raises before it changes anything. The status of the
signal is what `_get_signal_record` reads; `trackExit_allOrNothing_iff` says when an exit is in all of the places that
show it or in none.
-/

namespace PearlAlgo
open Py

/-- The tracker with the rows of `performance.json`, where it can be read, and the table `trades`. -/
structure ExitTracker extends MetricsTracker where
  performance : Option (List Performance) := none
  trades : Dict String TradeRow := .empty
  maxRecords : Nat := 1000

/-- Which writes of `track_exit` work: the status event, the line of `signals.jsonl` or its rewrite,
`performance.json`, the trades table. -/
structure ExitWrites where
  event : Bool := true
  line : Bool := true
  performance : Bool := true
  trade : Bool := true

/-- The arguments of `track_exit`; an aware exit time has the clock of its own zone. -/
structure ExitCall where
  signalId : String
  exitPrice : Number
  exitReason : String
  exitTime : ℚ
  aware : Bool := false

inductive ExitResult
  | raised
  | returned (performance : Option Performance)

namespace ExitTracker

/-- `_save_performance`, where the write works. -/
def savePerformance (perf : Performance) (s : ExitTracker) : Option (List Performance) :=
  some (trimTo s.maxRecords (s.performance.getD [] ++ [perf]))

/-- The rest of `track_exit` from the aggregates on. -/
def recordExit (z : TradeTimes) (w : ExitWrites) (signal : SignalData) (perf : Performance) (s : ExitTracker) :
    ExitTracker :=
  let written := s.toMetricsTracker.recordExit z signal perf
  { s with
    runningAggregates := written.runningAggregates
    metricsCache := written.metricsCache
    events := if w.event then written.events else s.events
    signalsFile := if w.line then written.signalsFile else s.signalsFile
    performance := if w.performance then s.savePerformance perf else s.performance
    trades := if w.trade ∧ s.events.isSome then s.trades.set perf.signalId (perf.tradeRow signal) else s.trades }

def trackExit (z : TradeTimes) (w : ExitWrites) (c : ExitCall) (s : ExitTracker) : ExitResult × ExitTracker :=
  match s.exitOf c.signalId c.exitPrice c.exitReason c.exitTime with
  | none => (.returned none, s)
  | some (signal, perf) =>
    -- the hold duration is a difference of the two times
    if c.aware ∧ perf.holdDurationMinutes.isSome then (.raised, s)
    else (.returned (some perf), s.recordExit z w signal perf)

/-! ### All or nothing -/

/-- The exit is in every place that shows it. -/
structure Recorded (z : TradeTimes) (signal : SignalData) (perf : Performance) (s s' : ExitTracker) : Prop where
  status : ∃ r ∈ s'.store.getSignalRecord perf.signalId, r.status = .exited ∧ r.exit = (perf.change signal).exit
  events : s'.events = (s.toMetricsTracker.recordExit z signal perf).events
  signalsFile : s'.signalsFile = (s.toMetricsTracker.recordExit z signal perf).signalsFile
  runningAggregates : s'.runningAggregates = (s.toMetricsTracker.recordExit z signal perf).runningAggregates
  metricsCache : s'.metricsCache = (s.toMetricsTracker.recordExit z signal perf).metricsCache
  performance : s'.performance = s.savePerformance perf

/-- All the places are as they were. -/
structure Unchanged (s s' : ExitTracker) : Prop where
  events : s'.events = s.events
  signalsFile : s'.signalsFile = s.signalsFile
  runningAggregates : s'.runningAggregates = s.runningAggregates
  metricsCache : s'.metricsCache = s.metricsCache
  performance : s'.performance = s.performance

/-- The P&L of the exit is counted at most once. -/
structure CountedOnce (z : TradeTimes) (signal : SignalData) (perf : Performance) (s s' : ExitTracker) : Prop where
  runningAggregates : s'.runningAggregates = s.runningAggregates ∨
    s'.runningAggregates = (s.toMetricsTracker.recordExit z signal perf).runningAggregates
  metricsCache : s'.metricsCache = s.metricsCache ∨
    s'.metricsCache = (s.toMetricsTracker.recordExit z signal perf).metricsCache
  performance : s'.performance = s.performance ∨ s'.performance = s.savePerformance perf

/-- A call that raises or returns nothing changes nothing, one with a result records all or nothing, and with the same
call after it, whose writes fail in any way, the exit is counted at most once. -/
structure AllOrNothing (z : TradeTimes) (w : ExitWrites) (c : ExitCall) (s : ExitTracker) : Prop where
  raised : (s.trackExit z w c).1 = .raised → s.Unchanged (s.trackExit z w c).2
  none : (s.trackExit z w c).1 = .returned none → s.Unchanged (s.trackExit z w c).2
  some : ∀ perf, (s.trackExit z w c).1 = .returned (some perf) → ∃ r ∈ s.store.getSignalRecord c.signalId,
    (s.Recorded z r.data perf (s.trackExit z w c).2 ∨ s.Unchanged (s.trackExit z w c).2) ∧
      ∀ w', s.CountedOnce z r.data perf ((s.trackExit z w c).2.trackExit z w' c).2

/-- The call gets past its checks. -/
def Admits (c : ExitCall) (signal : SignalData) (perf : Performance) (s : ExitTracker) : Prop :=
  s.exitOf c.signalId c.exitPrice c.exitReason c.exitTime = some (signal, perf) ∧
    ¬ (c.aware = true ∧ perf.holdDurationMinutes.isSome = true)

/-- Every write that changes something works, and a rewrite reaches the only line of the signal. -/
structure Complete (z : TradeTimes) (w : ExitWrites) (signal : SignalData) (perf : Performance) (s : ExitTracker) :
    Prop where
  event : s.events.isSome = true → w.event = true
  line : w.line = true ∨ (s.toMetricsTracker.recordExit z signal perf).signalsFile = s.signalsFile
  onlyLine : s.events = none → (s.lines.countP fun r => r.signalId = perf.signalId) = 1
  performance : w.performance = true ∨ s.savePerformance perf = s.performance

/-- No write that changes something works, and there is nothing in memory to count the exit in. -/
structure Absent (z : TradeTimes) (w : ExitWrites) (signal : SignalData) (perf : Performance) (s : ExitTracker) :
    Prop where
  event : s.events.isSome = true → w.event = false
  line : w.line = false ∨ (s.toMetricsTracker.recordExit z signal perf).signalsFile = s.signalsFile
  runningAggregates : s.runningAggregates = none
  metricsCache : s.metricsCache = none
  performance : w.performance = false ∨ s.savePerformance perf = s.performance

end ExitTracker

/-! ### The status that is read after the writes -/

section status
variable {x : String} {lines : List SignalRecord} {r : SignalRecord}

/-- The last line of a signal tells its status, whatever was before it. -/
theorem scan_status (hmem : ∃ r ∈ lines, r.signalId = x) {b b' : Option SignalRecord} {u u' : SignalRecord}
    (hu : lines.foldl (SignalStore.scanLine x) b = some u) (hu' : lines.foldl (SignalStore.scanLine x) b' = some u') :
    u.status = u'.status := by
  induction lines using List.reverseRecOn generalizing u u' with
  | nil =>
    obtain ⟨r, hr, -⟩ := hmem
    cases hr
  | append_singleton lines r ih =>
    rw [List.foldl_append, List.foldl_cons, List.foldl_nil] at hu hu'
    by_cases hr : r.signalId = x
    · unfold SignalStore.scanLine at hu hu'
      rw [if_neg (not_not.2 hr)] at hu hu'
      split at hu
      next hchange =>
        rw [if_pos hchange] at hu'
        obtain ⟨v, -, rfl⟩ := Option.map_eq_some_iff.1 hu
        obtain ⟨v', -, rfl⟩ := Option.map_eq_some_iff.1 hu'
        rfl
      next hchange =>
        rw [if_neg hchange] at hu'
        rw [← Option.some.inj hu, ← Option.some.inj hu']
    · have hskip (b : Option SignalRecord) : SignalStore.scanLine x b r = b := if_pos hr
      rw [hskip] at hu hu'
      obtain ⟨r', hr', hid⟩ := hmem
      rcases List.mem_append.1 hr' with hr' | hr'
      · exact ih ⟨r', hr', hid⟩ hu hu'
      · obtain rfl := List.mem_singleton.1 hr'
        exact absurd hid hr

end status

namespace ExitTracker
variable {z : TradeTimes} {w : ExitWrites} {c : ExitCall} {signal : SignalData} {perf : Performance} {s s' : ExitTracker}

theorem Admits.exitOf_record (h : s.Admits c signal perf) : ∃ r ∈ s.store.getSignalRecord c.signalId,
    r.status ≠ .exited ∧ r.data = signal ∧ perf.signalId = c.signalId := by
  have hid : perf.signalId = c.signalId := MetricsTracker.exitOf_signalId h.1
  obtain ⟨r, hr, hopen⟩ := Option.bind_eq_some_iff.1 h.1
  split at hopen
  · cases hopen
  next hstatus =>
    obtain ⟨p, -, hp⟩ := Option.map_eq_some_iff.1 hopen
    exact ⟨r, hr, hstatus, congrArg Prod.fst hp, hid⟩

theorem Admits.trackExit (h : s.Admits c signal perf) (w : ExitWrites) :
    s.trackExit z w c = (.returned (some perf), s.recordExit z w signal perf) := by
  unfold ExitTracker.trackExit
  rw [h.1]
  exact if_neg h.2

/-- A call that does not get past its checks changes nothing and returns nothing. -/
theorem trackExit_of_not_admits (h : ∀ signal perf, ¬ s.Admits c signal perf) (w : ExitWrites) :
    (s.trackExit z w c).2 = s ∧ ∀ perf, (s.trackExit z w c).1 ≠ .returned (some perf) := by
  unfold ExitTracker.trackExit
  rcases he : s.exitOf c.signalId c.exitPrice c.exitReason c.exitTime with _ | ⟨signal, perf⟩
  · refine ⟨rfl, fun perf hperf => ?_⟩
    cases hperf
  · have hraises : c.aware = true ∧ perf.holdDurationMinutes.isSome = true := by
      by_contra hnot
      exact h signal perf ⟨he, hnot⟩
    dsimp only
    rw [if_pos hraises]
    refine ⟨rfl, fun perf' hperf => ?_⟩
    cases hperf

theorem Unchanged.refl (s : ExitTracker) : s.Unchanged s := ⟨rfl, rfl, rfl, rfl, rfl⟩

/-- Without SQLite the exit is written to the first line of its signal. -/
theorem Admits.lines_off (h : s.Admits c signal perf) (hevents : s.events = none) : ∃ before r after,
    s.signalsFile = some (before ++ r :: after) ∧ (∀ u ∈ before, u.signalId ≠ perf.signalId) ∧ r.signalId = perf.signalId ∧
      (s.toMetricsTracker.recordExit z signal perf).signalsFile =
        some (before ++ r.exited (perf.change signal) (z.strftime perf.exitTime) :: after) := by
  have hid : perf.signalId = c.signalId := MetricsTracker.exitOf_signalId h.1
  have hold := MetricsTracker.exitSite_old h.1 hevents
  rw [← hid] at hold
  have hwritten : (s.toMetricsTracker.recordExit z signal perf).signalsFile =
      s.toMetricsTracker.writeExit z (perf.change signal) perf.exitTime := rfl
  have hx : (perf.change signal).signalId = perf.signalId := rfl
  rw [hwritten]
  unfold MetricsTracker.writeExit MetricsTracker.exitSite
  unfold MetricsTracker.exitSite at hold
  rw [hevents] at hold ⊢
  rw [hx]
  dsimp only at hold ⊢
  rw [List.span_eq_takeWhile_dropWhile] at hold ⊢
  dsimp only at hold ⊢
  have hsplit : (s.lines.takeWhile fun r => decide (r.signalId ≠ perf.signalId)) ++
      (s.lines.dropWhile fun r => decide (r.signalId ≠ perf.signalId)) = s.lines := List.takeWhile_append_dropWhile
  have hbefore : ∀ u ∈ s.lines.takeWhile fun r => decide (r.signalId ≠ perf.signalId), u.signalId ≠ perf.signalId := by
    intro u hu
    simpa using List.mem_takeWhile_imp hu
  rcases hrest : s.lines.dropWhile fun r => decide (r.signalId ≠ perf.signalId) with _ | ⟨r, after⟩
  · rw [hrest] at hold
    cases hold
  · have hr : r.signalId = perf.signalId := by
      have hhead := List.head?_dropWhile_not (fun r : MetricsRecord => decide (r.signalId ≠ perf.signalId)) s.lines
      rw [hrest] at hhead
      simpa using hhead
    rw [hrest] at hsplit
    have hfile : s.signalsFile = some s.lines := by
      rcases hfile : s.signalsFile with _ | lines
      · have hnil : s.lines = [] := by
          unfold MetricsTracker.lines
          rw [hfile]
          rfl
        rw [hnil] at hrest
        cases hrest
      · unfold MetricsTracker.lines
        rw [hfile]
        rfl
    refine ⟨_, r, after, hfile.trans (congrArg some hsplit.symm), hbefore, hr, ?_⟩
    rw [hfile, if_pos (Or.inr hold), hrest]
    rfl

/-- Without SQLite the exit is read back exactly when the signal has one line. -/
theorem Admits.status_off (h : s.Admits c signal perf) (hevents : s.events = none) (hevents' : s'.events = none)
    (hfile : s'.signalsFile = (s.toMetricsTracker.recordExit z signal perf).signalsFile) :
    (∃ r ∈ s'.store.getSignalRecord perf.signalId, r.status = .exited ∧ r.exit = (perf.change signal).exit) ↔
      (s.lines.countP fun r => r.signalId = perf.signalId) = 1 := by
  obtain ⟨before, r, after, hlines, hbefore, hr, hwritten⟩ := h.lines_off hevents (z := z)
  obtain ⟨u, hu, hopen, -, hid⟩ := h.exitOf_record
  rw [hwritten] at hfile
  have hr' : (r.exited (perf.change signal) (z.strftime perf.exitTime)).signalId = perf.signalId := rfl
  have hscan (r' : MetricsRecord) : ((before ++ r' :: after).map MetricsRecord.toSignalRecord).foldl
      (SignalStore.scanLine perf.signalId) none = (after.map MetricsRecord.toSignalRecord).foldl
        (SignalStore.scanLine perf.signalId) (SignalStore.scanLine perf.signalId none r'.toSignalRecord) := by
    have hskip : ((before.map MetricsRecord.toSignalRecord).countP fun r => r.signalId = perf.signalId) = 0 := by
      rw [List.countP_map, List.countP_eq_zero]
      intro v hv
      simpa using hbefore v hv
    rw [List.map_append, List.foldl_append, SignalStore.scan_skip hskip, List.map_cons, List.foldl_cons]
  have hread : s.store.lines = (before ++ r :: after).map MetricsRecord.toSignalRecord := by
    show s.lines.map MetricsRecord.toSignalRecord = _
    rw [MetricsTracker.lines, hlines]
    rfl
  have hread' : s'.store.lines =
      (before ++ r.exited (perf.change signal) (z.strftime perf.exitTime) :: after).map MetricsRecord.toSignalRecord := by
    show s'.lines.map MetricsRecord.toSignalRecord = _
    rw [MetricsTracker.lines, hfile]
    rfl
  have hcount : (s.lines.countP fun r => r.signalId = perf.signalId) =
      (after.countP fun r => r.signalId = perf.signalId) + 1 := by
    have hzero : (before.countP fun r => r.signalId = perf.signalId) = 0 := by
      rw [List.countP_eq_zero]
      intro v hv
      simpa using hbefore v hv
    rw [MetricsTracker.lines, hlines, Option.getD_some, List.countP_append, hzero, List.countP_cons_of_pos (by simpa using hr)]
    omega
  rw [← hid, @SignalStore.getSignalRecord_off perf.signalId s.store hevents, SignalStore.lineRecord, hread, hscan] at hu
  rw [@SignalStore.getSignalRecord_off perf.signalId s'.store hevents', SignalStore.lineRecord, hread', hscan, hcount]
  obtain ⟨v, hv, rfl⟩ := Option.map_eq_some_iff.1 hu
  constructor
  · rintro ⟨u', hu', hexited, -⟩
    obtain ⟨v', hv', rfl⟩ := Option.map_eq_some_iff.1 hu'
    by_contra hmore
    have hmem : ∃ r ∈ after.map MetricsRecord.toSignalRecord, r.signalId = perf.signalId := by
      have hpos : 0 < after.countP fun r => r.signalId = perf.signalId := by omega
      obtain ⟨r, hr, hrid⟩ := List.countP_pos_iff.1 hpos
      exact ⟨_, List.mem_map_of_mem hr, by simpa using hrid⟩
    exact hopen ((scan_status hmem hv hv').trans hexited)
  · intro hone
    have hskip : ((after.map MetricsRecord.toSignalRecord).countP fun r => r.signalId = perf.signalId) = 0 := by
      rw [List.countP_map]
      exact Nat.succ_injective hone
    rw [SignalStore.scan_skip hskip] at hv ⊢
    have hbase : r.statusChange = false := by
      unfold SignalStore.scanLine at hv
      rw [if_neg (not_not.2 hr)] at hv
      split at hv
      · cases hv
      next hbase => exact Bool.eq_false_iff.2 hbase
    have hline : (r.exited (perf.change signal) (z.strftime perf.exitTime)).toSignalRecord.statusChange = false := hbase
    let written := r.exited (perf.change signal) (z.strftime perf.exitTime)
    refine ⟨{ written.toSignalRecord with statusChange := false }, ?_, rfl, rfl⟩
    unfold SignalStore.scanLine
    rw [if_neg (not_not.2 hr'), if_neg (Bool.eq_false_iff.1 hline)]
    rfl

/-- With SQLite the exit is read back once its event is written. -/
theorem Admits.status_on (h : s.events.isSome = true)
    (hevents : s'.events = (s.toMetricsTracker.recordExit z signal perf).events) :
    ∃ r ∈ s'.store.getSignalRecord perf.signalId, r.status = .exited ∧ r.exit = (perf.change signal).exit := by
  obtain ⟨evs, hevs⟩ := Option.isSome_iff_exists.1 h
  have hstore : s.store.events = some evs := hevs
  have hwritten : (s.toMetricsTracker.recordExit z signal perf).events =
      (s.store.updateSignalStatus (perf.change signal) none).events := rfl
  unfold SignalStore.updateSignalStatus at hwritten
  rw [hstore] at hwritten
  rw [hwritten] at hevents
  rw [@SignalStore.getSignalRecord_on perf.signalId s'.store _ hevents, findRev?_concat]
  generalize evs.findRev? (fun r => decide (r.signalId = (perf.change signal).signalId)) = current
  rcases current with _ | r
  · exact ⟨perf.change signal, by simp [Performance.change], rfl, rfl⟩
  · exact ⟨r.update (perf.change signal), by simp [Performance.change, SignalRecord.update], rfl, rfl⟩

/-! ### What the two sides come to -/

theorem events_recordExit (z : TradeTimes) (signal : SignalData) (perf : Performance) (s : ExitTracker) :
    (s.toMetricsTracker.recordExit z signal perf).events = s.events ↔ s.events = none := by
  have hwritten : (s.toMetricsTracker.recordExit z signal perf).events =
      (s.store.updateSignalStatus (perf.change signal) none).events := rfl
  rw [hwritten]
  unfold SignalStore.updateSignalStatus
  have hstore : s.store.events = s.events := rfl
  rw [hstore]
  rcases hevents : s.events with _ | evs
  · simp
  · simp

theorem runningAggregates_recordExit (z : TradeTimes) (signal : SignalData) (perf : Performance) (s : ExitTracker) :
    (s.toMetricsTracker.recordExit z signal perf).runningAggregates = s.runningAggregates ↔ s.runningAggregates = none := by
  show s.runningAggregates.map _ = s.runningAggregates ↔ _
  rcases s.runningAggregates with _ | a
  · simp
  · have hne : a.add perf.pnl perf.isWin ≠ a := by
      intro heq
      have htrades := congrArg Aggregates.totalTrades heq
      unfold Aggregates.add at htrades
      split at htrades
      · simp at htrades
      · simp at htrades
    simpa using hne

theorem metricsCache_recordExit (z : TradeTimes) (signal : SignalData) (perf : Performance) (s : ExitTracker) :
    (s.toMetricsTracker.recordExit z signal perf).metricsCache = s.metricsCache ↔ s.metricsCache = none := by
  show s.metricsCache.map _ = s.metricsCache ↔ _
  rcases s.metricsCache with _ | cached
  · simp
  · simp only [Option.map_some, Option.some.injEq, reduceCtorEq, iff_false]
    intro heq
    have hexited := congrArg (fun cached : CachedMetrics => cached.metrics.exitedSignals) heq
    simp [PerformanceMetrics.patch] at hexited

/-- The exit is recorded exactly when the writes that change something work and the status is read back. -/
theorem Admits.recorded_iff (h : s.Admits c signal perf) :
    s.Recorded z signal perf (s.recordExit z w signal perf) ↔ s.Complete z w signal perf := by
  have hoff' : s.events = none → (s.toMetricsTracker.recordExit z signal perf).events = none := fun hoff =>
    ((events_recordExit z signal perf s).2 hoff).trans hoff
  constructor
  · intro hr
    refine ⟨?_, ?_, ?_, ?_⟩
    · intro hon
      by_contra hfail
      have hsame := ite_eq_left_iff.1 hr.events hfail
      rw [(events_recordExit z signal perf s).1 hsame.symm] at hon
      cases hon
    · exact or_iff_not_imp_left.2 fun hfail => (ite_eq_left_iff.1 hr.signalsFile hfail).symm
    · intro hoff
      refine (h.status_off hoff ?_ hr.signalsFile).1 hr.status
      rw [hr.events]
      exact hoff' hoff
    · exact or_iff_not_imp_left.2 fun hfail => (ite_eq_left_iff.1 hr.performance hfail).symm
  · intro hc
    have hevents : (s.recordExit z w signal perf).events = (s.toMetricsTracker.recordExit z signal perf).events := by
      refine ite_eq_left_iff.2 fun hfail => ?_
      rcases hoff : s.events with _ | evs
      · exact (hoff' hoff).symm
      · exact absurd (hc.event (by rw [hoff]; rfl)) hfail
    have hfile : (s.recordExit z w signal perf).signalsFile = (s.toMetricsTracker.recordExit z signal perf).signalsFile :=
      ite_eq_left_iff.2 fun hfail => (hc.line.resolve_left hfail).symm
    refine ⟨?_, hevents, hfile, rfl, rfl, ?_⟩
    · rcases hoff : s.events with _ | evs
      · exact (h.status_off hoff (hevents.trans (hoff' hoff)) hfile).2 (hc.onlyLine hoff)
      · exact status_on (by rw [hoff]; rfl) hevents
    · exact ite_eq_left_iff.2 fun hfail => (hc.performance.resolve_left hfail).symm

/-- All stays as it was exactly when no write changes anything and nothing is kept in memory. -/
theorem unchanged_iff : s.Unchanged (s.recordExit z w signal perf) ↔ s.Absent z w signal perf := by
  have hagg := runningAggregates_recordExit z signal perf s
  have hcache := metricsCache_recordExit z signal perf s
  constructor
  · intro h
    refine ⟨?_, ?_, hagg.1 h.runningAggregates, hcache.1 h.metricsCache, ?_⟩
    · intro hon
      by_contra hworks
      have hsame := ite_eq_right_iff.1 h.events (Bool.not_eq_false _ ▸ hworks)
      rw [(events_recordExit z signal perf s).1 hsame] at hon
      cases hon
    · refine or_iff_not_imp_left.2 fun hworks => ite_eq_right_iff.1 h.signalsFile ?_
      simpa using hworks
    · refine or_iff_not_imp_left.2 fun hworks => ite_eq_right_iff.1 h.performance ?_
      simpa using hworks
  · intro h
    refine ⟨?_, ?_, hagg.2 h.runningAggregates, hcache.2 h.metricsCache, ?_⟩
    · refine ite_eq_right_iff.2 fun hworks => (events_recordExit z signal perf s).2 ?_
      rcases hoff : s.events with _ | evs
      · rfl
      · have hfails := h.event (by rw [hoff]; rfl)
        rw [hworks] at hfails
        cases hfails
    · refine ite_eq_right_iff.2 fun hworks => h.line.resolve_left ?_
      simpa using hworks
    · refine ite_eq_right_iff.2 fun hworks => h.performance.resolve_left ?_
      simpa using hworks

/-- What is recorded is not recorded again. -/
theorem Recorded.trackExit (h : s.Recorded z signal perf s') (hid : perf.signalId = c.signalId) (w : ExitWrites) :
    (s'.trackExit z w c).2 = s' := by
  obtain ⟨r, hr, hexited, -⟩ := h.status
  refine (trackExit_of_not_admits (fun signal perf hadmits => ?_) w).1
  obtain ⟨r', hr', hopen, -, -⟩ := hadmits.exitOf_record
  rw [← hid, Option.mem_def.1 hr] at hr'
  exact hopen (Option.some.inj hr' ▸ hexited)

/-- A call after which nothing has changed is made again as if for the first time. -/
theorem Unchanged.admits (h : s.Unchanged s') (hadmits : s.Admits c signal perf) : s'.Admits c signal perf := by
  have hstore : s'.store = s.store := by
    unfold MetricsTracker.store MetricsTracker.lines
    rw [h.signalsFile, h.events]
  refine ⟨?_, hadmits.2⟩
  unfold MetricsTracker.exitOf
  rw [hstore]
  exact hadmits.1

theorem Unchanged.countedOnce (h : s.Unchanged s') (hadmits : s.Admits c signal perf)
    (hagg : s.runningAggregates = none) (hcache : s.metricsCache = none) (hmax : s'.maxRecords = s.maxRecords) (w : ExitWrites) :
    s.CountedOnce z signal perf (s'.trackExit z w c).2 := by
  have hagg' : (s'.toMetricsTracker.recordExit z signal perf).runningAggregates = s'.runningAggregates :=
    (runningAggregates_recordExit z signal perf s').2 (h.runningAggregates.trans hagg)
  have hcache' : (s'.toMetricsTracker.recordExit z signal perf).metricsCache = s'.metricsCache :=
    (metricsCache_recordExit z signal perf s').2 (h.metricsCache.trans hcache)
  rw [(h.admits hadmits).trackExit]
  refine ⟨.inl (hagg'.trans h.runningAggregates), .inl (hcache'.trans h.metricsCache), ?_⟩
  · show (if w.performance then _ else _) = _ ∨ (if w.performance then _ else _) = _
    split
    · refine .inr ?_
      unfold savePerformance
      rw [h.performance, hmax]
    · exact .inl h.performance

end ExitTracker

/-- An exit is recorded in all places or in none, and counted once over a retry, exactly when all its writes work or
none does and nothing is kept in memory. -/
theorem trackExit_allOrNothing_iff (z : TradeTimes) (w : ExitWrites) (c : ExitCall) (s : ExitTracker) :
    s.AllOrNothing z w c ↔
      ∀ signal perf, s.Admits c signal perf → s.Complete z w signal perf ∨ s.Absent z w signal perf := by
  constructor
  · intro h signal perf hadmits
    have hcall := hadmits.trackExit (z := z) w
    obtain ⟨r, hr, hwhole, -⟩ := h.some perf (by rw [hcall])
    obtain ⟨r', hr', -, rfl, -⟩ := hadmits.exitOf_record
    obtain rfl := Option.some.inj (hr.symm.trans hr')
    rw [hcall] at hwhole
    exact hwhole.imp hadmits.recorded_iff.1 ExitTracker.unchanged_iff.1
  · intro h
    by_cases hany : ∃ signal perf, s.Admits c signal perf
    · obtain ⟨signal, perf, hadmits⟩ := hany
      have hcall := hadmits.trackExit (z := z) w
      refine ⟨by rw [hcall]; nofun, by rw [hcall]; nofun, fun perf' hperf' => ?_⟩
      rw [hcall] at hperf' ⊢
      injection hperf' with hperf'
      obtain rfl := Option.some.inj hperf'
      obtain ⟨r, hr, -, rfl, hid⟩ := hadmits.exitOf_record
      refine ⟨r, hr, ?_⟩
      rcases h r.data perf hadmits with hc | ha
      · have hrec := hadmits.recorded_iff.2 hc
        refine ⟨.inl hrec, fun w' => ?_⟩
        dsimp only
        rw [hrec.trackExit hid w']
        exact ⟨.inr hrec.runningAggregates, .inr hrec.metricsCache, .inr hrec.performance⟩
      · have hsame := ExitTracker.unchanged_iff.2 ha
        exact ⟨.inr hsame, fun w' => hsame.countedOnce hadmits ha.runningAggregates ha.metricsCache rfl w'⟩
    · have hnot : ∀ signal perf, ¬ s.Admits c signal perf := fun signal perf hadmits => hany ⟨signal, perf, hadmits⟩
      obtain ⟨hsame, hnone⟩ := ExitTracker.trackExit_of_not_admits hnot w (z := z)
      refine ⟨fun _ => ?_, fun _ => ?_, fun perf hperf => absurd hperf (hnone perf)⟩
      · rw [hsame]
        exact ExitTracker.Unchanged.refl s
      · rw [hsame]
        exact ExitTracker.Unchanged.refl s

/-- A tracker with SQLite on and one entered trade, whose aggregates have been read. -/
def enteredTracker : ExitTracker :=
  { now := 18120, events := some [longTrade "s1"], signalsFile := some [{ toSignalRecord := longTrade "s1" }]
    runningAggregates := some {} }

def takeProfitExit : ExitCall := { signalId := "s1", exitPrice := .fin 110, exitReason := "take_profit", exitTime := 60 }

/-- With a failed status event the exit is counted, and once more when the call is repeated. -/
theorem not_trackExit_allOrNothing : ¬ ∀ (z : TradeTimes) (w : ExitWrites) (c : ExitCall) (s : ExitTracker),
    s.AllOrNothing z w c := by
  intro h
  have hexit : (enteredTracker.exitOf "s1" (.fin 110) "take_profit" 60).isSome = true := by decide +kernel
  obtain ⟨⟨signal, perf⟩, he⟩ := Option.isSome_iff_exists.1 hexit
  have hadmits : enteredTracker.Admits takeProfitExit signal perf := ⟨he, fun haware => Bool.false_ne_true haware.1⟩
  have hresult := hadmits.trackExit (z := winterTimes) { event := false }
  obtain ⟨r, -, -, honce⟩ := (h winterTimes { event := false } takeProfitExit enteredTracker).some perf (by rw [hresult])
  have hcounted := (honce { event := false }).runningAggregates
  have htwice : (((enteredTracker.trackExit winterTimes { event := false } takeProfitExit).2.trackExit winterTimes
      { event := false } takeProfitExit).2.runningAggregates.map Aggregates.totalTrades) = some 2 := by decide +kernel
  rcases hcounted with hnone | hone
  · rw [hnone] at htwice
    cases htwice
  · rw [hone] at htwice
    have hadd : (({} : Aggregates).add perf.pnl perf.isWin).totalTrades = 2 := Option.some.inj htwice
    unfold Aggregates.add at hadd
    split at hadd
    · cases hadd
    · cases hadd

end PearlAlgo
