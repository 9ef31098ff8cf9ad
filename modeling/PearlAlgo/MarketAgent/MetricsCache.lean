import Mathlib.Algebra.BigOperators.Group.List.Basic
import Mathlib.Data.List.Induction
import Mathlib.Data.List.Sort
import Mathlib.Data.List.TakeWhile
import Mathlib.Data.NNRat.Defs
import PearlAlgo.Lts.Reach
import PearlAlgo.MarketAgent.VirtualExitRuns
import PearlAlgo.Py.Dict

/-!
# The metrics cache (`market_agent/performance_tracker.py`)

`get_performance_metrics` scans `signals.jsonl` and serves the result for 30 seconds; `track_exit` patches the cached
dictionary and the running aggregates, and then writes the exit. The clock stands for the wall clock and the monotonic
one. A file time is a text: `TradeTimes` writes and reads them. P&L is exact, the keys of an exit come together, and
writes succeed.
-/

namespace PearlAlgo
open Py Lts

/-- `strftime` of an exit time, the text of the current time, and `parse_trade_timestamp_to_utc`, which may raise. -/
structure TradeTimes where
  strftime : ℚ → String
  nowText : ℚ → String
  parse : String → Option ℚ

structure RecordTimes where
  exitTime : Option String := none
  entryTime : Option String := none
  timestamp : Option String := none
deriving DecidableEq

/-- A line of `signals.jsonl`; `isTest` and `signalTest` are `_is_test` of the record and of its signal. -/
structure MetricsRecord extends SignalRecord where
  times : RecordTimes := {}
  isTest : Bool := false
  signalTest : Bool := false
deriving DecidableEq

structure TypeMetrics where
  count : Nat := 0
  wins : Nat := 0
  losses : Nat := 0
  totalPnl : ℚ := 0
  winRate : ℚ := 0
  avgPnl : ℚ := 0
deriving DecidableEq

def TypeMetrics.add (m : TypeMetrics) (pnl : ℚ) (isWin : Bool) : TypeMetrics :=
  let count := m.count + 1
  let wins := if isWin then m.wins + 1 else m.wins
  let totalPnl := m.totalPnl + pnl
  { count, wins, totalPnl
    losses := if isWin then m.losses else m.losses + 1
    winRate := wins / count
    avgPnl := totalPnl / count }

structure RecentExit where
  signalId : String
  type : String
  direction : String
  pnl : ℚ
  isWin : Bool
  exitReason : String
  exitTime : Option String
deriving DecidableEq

/-- The result of `get_performance_metrics`; without an exit it has no `recent_exits`. -/
structure PerformanceMetrics where
  totalSignals : Nat
  exitedSignals : Nat := 0
  wins : Nat := 0
  losses : Nat := 0
  winRate : ℚ := 0
  totalPnl : ℚ := 0
  avgPnl : ℚ := 0
  avgHoldMinutes : ℚ := 0
  bySignalType : Dict String TypeMetrics := .empty
  recentExits : Option (List RecentExit) := none

/-- The running aggregates. -/
structure Aggregates where
  totalPnl : ℚ := 0
  totalTrades : Nat := 0
  wins : Nat := 0
  losses : Nat := 0
  totalWinPnl : ℚ := 0
  totalLossPnl : ℚ := 0
  maxWin : ℚ := 0
  maxLoss : ℚ := 0
deriving DecidableEq

/-- `_update_running_aggregates` -/
def Aggregates.add (a : Aggregates) (pnl : ℚ) (isWin : Bool) : Aggregates :=
  if isWin then
    { a with totalPnl := a.totalPnl + pnl, totalTrades := a.totalTrades + 1, wins := a.wins + 1
             totalWinPnl := a.totalWinPnl + pnl, maxWin := max a.maxWin pnl }
  else
    { a with totalPnl := a.totalPnl + pnl, totalTrades := a.totalTrades + 1, losses := a.losses + 1
             totalLossPnl := a.totalLossPnl + pnl, maxLoss := min a.maxLoss pnl }

namespace MetricsRecord

def pnl (r : MetricsRecord) : ℚ := (r.exit.map ExitData.pnl).getD 0

def isWin (r : MetricsRecord) : Bool := (r.exit.map ExitData.isWin).getD false

/-- The key of the record in `by_signal_type`. -/
def typeKey (r : MetricsRecord) : String :=
  (r.own.signalType.filter (· ≠ "")).getD ((r.signal.bind SignalData.type).getD "unknown")

/-- The text by which the exits are sorted. -/
def sortKey (r : MetricsRecord) : String := (r.times.exitTime <|> r.times.timestamp).getD ""

def recentExit (r : MetricsRecord) : RecentExit where
  signalId := r.signalId
  type := (r.signal.bind SignalData.type).getD "unknown"
  direction := (r.signal.bind SignalData.direction).getD "unknown"
  pnl := r.pnl
  isWin := r.isWin
  exitReason := (r.exit.map ExitData.exitReason).getD "unknown"
  exitTime := r.times.exitTime

def isExit (r : MetricsRecord) : Bool := r.status = .exited ∧ r.signalTest = false ∧ r.isTest = false

/-- The time of the record is not before the cutoff. -/
def inWindow (z : TradeTimes) (cutoff : ℚ) (r : MetricsRecord) : Bool :=
  let text := [r.times.exitTime, r.times.entryTime, r.times.timestamp].findSome? fun t => t.filter (· ≠ "")
  (text.bind z.parse).any (cutoff ≤ ·)

/-- What `track_exit` makes of the record of the signal; `signal_type` is set even to `None`. -/
def exited (change : SignalRecord) (text : String) (r : MetricsRecord) : MetricsRecord :=
  let record := r.toSignalRecord.update change
  { r with
    toSignalRecord := { record with own := { record.own with signalType := change.own.signalType } }
    times := { r.times with exitTime := some text } }

end MetricsRecord

/-- The patch of the cached metrics in `track_exit`. -/
def PerformanceMetrics.patch (signalType : String) (x : RecentExit) (c : PerformanceMetrics) : PerformanceMetrics :=
  let exitedSignals := c.exitedSignals + 1
  let wins := if x.isWin then c.wins + 1 else c.wins
  let totalPnl := c.totalPnl + x.pnl
  { c with
    exitedSignals, wins, totalPnl
    losses := if x.isWin then c.losses else c.losses + 1
    winRate := wins / exitedSignals
    avgPnl := totalPnl / exitedSignals
    bySignalType := c.bySignalType.set signalType (((c.bySignalType.get? signalType).getD {}).add x.pnl x.isWin)
    recentExits := c.recentExits.map fun l => (x :: l).take 10 }

def bySignalType (exits : List MetricsRecord) : Dict String TypeMetrics :=
  exits.foldl (fun d r => d.set r.typeKey (((d.get? r.typeKey).getD {}).add r.pnl r.isWin)) .empty

/-- The latest exits first; `sorted` is stable. -/
def sortedExits (exits : List MetricsRecord) : List MetricsRecord :=
  exits.insertionSort fun a b => b.sortKey ≤ a.sortKey

/-- The metrics of the exits in the window. -/
def metricsOf (totalSignals : Nat) (exits : List MetricsRecord) : PerformanceMetrics :=
  if exits = [] then { totalSignals }
  else
    let wins := exits.countP MetricsRecord.isWin
    let totalPnl := (exits.map MetricsRecord.pnl).sum
    let holdTimes := exits.filterMap fun r => r.exit.bind ExitData.holdDurationMinutes
    { totalSignals, wins, totalPnl
      exitedSignals := exits.length
      losses := exits.length - wins
      winRate := wins / exits.length
      avgPnl := totalPnl / exits.length
      avgHoldMinutes := if holdTimes = [] then 0 else holdTimes.sum / holdTimes.length
      bySignalType := bySignalType exits
      recentExits := some (((sortedExits exits).take 10).map MetricsRecord.recentExit) }

def METRICS_CACHE_TTL : ℚ := 30

structure CachedMetrics where
  metrics : PerformanceMetrics
  time : ℚ
  days : Int

/-- `events` holds the payloads of the event table when SQLite is on. -/
structure MetricsTracker where
  signalsFile : Option (List MetricsRecord) := none
  events : Option (List SignalRecord) := none
  runningAggregates : Option Aggregates := none
  metricsCache : Option CachedMetrics := none
  now : ℚ

namespace MetricsTracker

def lines (s : MetricsTracker) : List MetricsRecord := s.signalsFile.getD []

def store (s : MetricsTracker) : SignalStore := { lines := s.lines.map MetricsRecord.toSignalRecord, events := s.events }

/-! ### The calls -/

/-- `_initialize_running_aggregates` -/
def initializeRunningAggregates (s : MetricsTracker) : Aggregates :=
  (s.lines.filter MetricsRecord.isExit).foldl (fun a r => a.add r.pnl r.isWin) {}

def cutoff (days : Int) (s : MetricsTracker) : ℚ := s.now - days * 86400

/-- The full scan of `get_performance_metrics`. -/
def rescan (z : TradeTimes) (days : Int) (s : MetricsTracker) : PerformanceMetrics :=
  let signals := s.lines.filter (MetricsRecord.inWindow z (s.cutoff days))
  metricsOf signals.length (signals.filter MetricsRecord.isExit)

/-- The cache is served for its lookback. -/
def Fresh (c : CachedMetrics) (s : MetricsTracker) : Prop := s.now - c.time < METRICS_CACHE_TTL

instance (c : CachedMetrics) (s : MetricsTracker) : Decidable (s.Fresh c) := inferInstanceAs (Decidable (_ < _))

def getPerformanceMetrics (z : TradeTimes) (days : Int) (s : MetricsTracker) : PerformanceMetrics × MetricsTracker :=
  let s := { s with runningAggregates := some (s.runningAggregates.getD s.initializeRunningAggregates) }
  match s.metricsCache.filter fun c => s.Fresh c ∧ c.days = days with
  | some c => (c.metrics, s)
  | none =>
    let metrics := s.rescan z days
    (metrics, { s with metricsCache := some ⟨metrics, s.now, days⟩ })

/-- The lines before the place where `track_exit` writes the exit of a signal, the record there, and the lines after
it. With SQLite a line is appended. -/
def exitSite (signalId : String) (s : MetricsTracker) : List MetricsRecord × Option MetricsRecord × List MetricsRecord :=
  match s.events with
  | some _ => (s.lines, none, [])
  | none =>
    let (before, rest) := s.lines.span fun r => r.signalId ≠ signalId
    (before, rest.head?, rest.tail)

/-- The line that `track_exit` writes. -/
def exitLine (z : TradeTimes) (change : SignalRecord) (exitTime : ℚ) (old : Option MetricsRecord) (s : MetricsTracker) :
    MetricsRecord :=
  match old with
  | some r => r.exited change (z.strftime exitTime)
  | none =>
    { toSignalRecord := { change with statusChange := true }
      times := { exitTime := some (z.strftime exitTime), timestamp := some (z.nowText s.now) } }

/-- `_update_signal_status` in `track_exit` -/
def writeExit (z : TradeTimes) (change : SignalRecord) (exitTime : ℚ) (s : MetricsTracker) : Option (List MetricsRecord) :=
  let (before, old, after) := s.exitSite change.signalId
  if s.events.isSome ∨ old.isSome then s.signalsFile.map fun _ => before ++ s.exitLine z change exitTime old :: after
  else s.signalsFile

/-- The entry of the exit in the cached `recent_exits`. -/
def patchedExit (z : TradeTimes) (signal : SignalData) (perf : Performance) : RecentExit where
  signalId := perf.signalId
  type := signal.type.getD "unknown"
  direction := perf.direction
  pnl := perf.pnl
  isWin := perf.isWin
  exitReason := perf.exitReason
  exitTime := some (z.strftime perf.exitTime)

/-- `track_exit` from the performance record on. -/
def recordExit (z : TradeTimes) (signal : SignalData) (perf : Performance) (s : MetricsTracker) : MetricsTracker :=
  { s with
    runningAggregates := s.runningAggregates.map fun a => a.add perf.pnl perf.isWin
    metricsCache := s.metricsCache.map fun c =>
      { c with metrics := c.metrics.patch (signal.type.getD "unknown") (patchedExit z signal perf) }
    events := (s.store.updateSignalStatus (perf.change signal) none).events
    signalsFile := s.writeExit z (perf.change signal) perf.exitTime }

/-- The signal and the performance record of an exit that `track_exit` records. -/
def exitOf (signalId : String) (exitPrice : Number) (exitReason : String) (exitTime : ℚ) (s : MetricsTracker) :
    Option (SignalData × Performance) := do
  let r ← s.store.getSignalRecord signalId
  if r.status = .exited then none
  else (r.exitPerformance signalId exitPrice exitReason exitTime).map fun perf => (r.data, perf)

def trackExit (z : TradeTimes) (signalId : String) (exitPrice : Number) (exitReason : String) (exitTime : ℚ)
    (s : MetricsTracker) : MetricsTracker :=
  match s.exitOf signalId exitPrice exitReason exitTime with
  | some (signal, perf) => s.recordExit z signal perf
  | none => s

end MetricsTracker

inductive MetricsAct
  | trackExit (signalId : String) (exitPrice : Number) (exitReason : String) (exitTime : ℚ)
  /-- A record appended to the file, with an event where SQLite takes one. -/
  | append (r : MetricsRecord) (event : Option SignalRecord)
  | getPerformanceMetrics (days : Int)
  | wait (seconds : ℚ≥0)

def MetricsAct.apply (z : TradeTimes) (s : MetricsTracker) : MetricsAct → MetricsTracker
  | .trackExit signalId exitPrice exitReason exitTime => s.trackExit z signalId exitPrice exitReason exitTime
  | .append r event =>
    { s with signalsFile := some (s.lines ++ [r]), events := s.events.map fun evs => evs ++ event.toList }
  | .getPerformanceMetrics days => (s.getPerformanceMetrics z days).2
  | .wait seconds => { s with now := s.now + seconds }

/-! ### When the cache is a rescan -/

/-- The values of the metrics that `track_exit` keeps up to date. -/
structure PerformanceMetrics.Agrees (c m : PerformanceMetrics) : Prop where
  exitedSignals : c.exitedSignals = m.exitedSignals
  wins : c.wins = m.wins
  losses : c.losses = m.losses
  winRate : c.winRate = m.winRate
  totalPnl : c.totalPnl = m.totalPnl
  avgPnl : c.avgPnl = m.avgPnl
  bySignalType : ∀ k, c.bySignalType.get? k = m.bySignalType.get? k
  recentExits : c.recentExits = m.recentExits

namespace MetricsTracker

/-- What the cache serves is what a full scan gives, and the aggregates are those of a fresh start. -/
structure Accurate (z : TradeTimes) (s : MetricsTracker) : Prop where
  cache : ∀ c ∈ s.metricsCache, s.Fresh c → c.metrics.Agrees (s.rescan z c.days)
  aggregates : ∀ a ∈ s.runningAggregates, a = s.initializeRunningAggregates

/-- The exits that a rescan with the lookback counts. -/
def counts (z : TradeTimes) (days : Int) (s : MetricsTracker) (r : MetricsRecord) : Bool :=
  r.isExit && r.inWindow z (s.cutoff days)

/-- The exit is a new one for the scan of the whole file: the line is there, is no exit of a test and replaces none. -/
structure AddsExit (z : TradeTimes) (signal : SignalData) (perf : Performance) (s : MetricsTracker) : Prop where
  file : s.signalsFile.isSome = true
  old : ∀ r ∈ (s.exitSite perf.signalId).2.1, r.isExit = false
  line : (s.exitLine z (perf.change signal) perf.exitTime (s.exitSite perf.signalId).2.1).isExit = true

/-- The exit is a new one for a rescan with the lookback, which shows it as the patch does: it is in the window, with the
type and the direction of the patch, after all the other exits, of which there is one. -/
structure PatchesRescan (z : TradeTimes) (days : Int) (signal : SignalData) (perf : Performance) (s : MetricsTracker) :
    Prop where
  file : s.signalsFile.isSome = true
  old : ∀ r ∈ (s.exitSite perf.signalId).2.1, s.counts z days r = false
  line : s.counts z days (s.exitLine z (perf.change signal) perf.exitTime (s.exitSite perf.signalId).2.1) = true
  typeKey : (s.exitLine z (perf.change signal) perf.exitTime (s.exitSite perf.signalId).2.1).typeKey =
    signal.type.getD "unknown"
  shown : (s.exitLine z (perf.change signal) perf.exitTime (s.exitSite perf.signalId).2.1).recentExit =
    patchedExit z signal perf
  others : ∃ r ∈ s.lines, s.counts z days r = true
  before : ∀ r ∈ (s.exitSite perf.signalId).1, s.counts z days r = true →
    r.sortKey < (s.exitLine z (perf.change signal) perf.exitTime (s.exitSite perf.signalId).2.1).sortKey
  after : ∀ r ∈ (s.exitSite perf.signalId).2.2, s.counts z days r = true →
    r.sortKey ≤ (s.exitLine z (perf.change signal) perf.exitTime (s.exitSite perf.signalId).2.1).sortKey

/-- The step leaves the cache, where it is fresh, and the aggregates, where there are some, accurate. -/
def ActKeeps (z : TradeTimes) (s : MetricsTracker) : MetricsAct → Prop
  | .trackExit signalId exitPrice exitReason exitTime =>
    ∀ e ∈ s.exitOf signalId exitPrice exitReason exitTime,
      (∀ c ∈ s.metricsCache, s.Fresh c → s.PatchesRescan z c.days e.1 e.2) ∧
        (s.runningAggregates.isSome = true → s.AddsExit z e.1 e.2)
  | .append r _ =>
    (∀ c ∈ s.metricsCache, s.Fresh c → s.counts z c.days r = false) ∧ (s.runningAggregates.isSome = true → r.isExit = false)
  | .getPerformanceMetrics _ => True
  | .wait seconds =>
    let s' := { s with now := s.now + seconds }
    ∀ c ∈ s.metricsCache, s'.Fresh c → ∀ r ∈ s.lines, s'.counts z c.days r = s.counts z c.days r

end MetricsTracker

/-! ### The scan of one more exit -/

section scan
variable {before after exits : List MetricsRecord} {r : MetricsRecord}

theorem TypeMetrics.add_comm (m : TypeMetrics) (p p' : ℚ) (w w' : Bool) : (m.add p w).add p' w' = (m.add p' w').add p w := by
  rcases w with _ | _
  · rcases w' with _ | _
    · simp [TypeMetrics.add, add_right_comm]
    · simp [TypeMetrics.add, add_right_comm]
  · rcases w' with _ | _
    · simp [TypeMetrics.add, add_right_comm]
    · simp [TypeMetrics.add, add_right_comm]

theorem Aggregates.add_comm (a : Aggregates) (p p' : ℚ) (w w' : Bool) : (a.add p w).add p' w' = (a.add p' w').add p w := by
  rcases w with _ | _
  · rcases w' with _ | _
    · simp [Aggregates.add, add_right_comm, min_right_comm]
    · simp [Aggregates.add, add_right_comm]
  · rcases w' with _ | _
    · simp [Aggregates.add, add_right_comm]
    · simp [Aggregates.add, add_right_comm, max_right_comm]

instance : RightCommutative fun (m : TypeMetrics) (r : MetricsRecord) => m.add r.pnl r.isWin :=
  ⟨fun m r r' => m.add_comm r.pnl r'.pnl r.isWin r'.isWin⟩

instance : RightCommutative fun (a : Aggregates) (r : MetricsRecord) => a.add r.pnl r.isWin :=
  ⟨fun a r r' => a.add_comm r.pnl r'.pnl r.isWin r'.isWin⟩

/-- An order of the records does not matter for the fold: the record in the middle may come last. -/
theorem foldl_middle {β : Type} (f : β → MetricsRecord → β) [RightCommutative f] (b : β) :
    (before ++ r :: after).foldl f b = f ((before ++ after).foldl f b) r := by
  have hperm : (before ++ r :: after).Perm ((before ++ after) ++ [r]) :=
    List.perm_middle.trans (List.perm_append_singleton r _).symm
  rw [hperm.foldl_eq, List.foldl_append]
  rfl

/-- The entry of a type in the breakdown is that of its exits alone. -/
theorem bySignalType_get? (exits : List MetricsRecord) (k : String) :
    (bySignalType exits).get? k = if exits.any fun r => r.typeKey = k then
      some ((exits.filter fun r => r.typeKey = k).foldl (fun m r => m.add r.pnl r.isWin) {}) else none := by
  induction exits using List.reverseRecOn with
  | nil => rfl
  | append_singleton exits r ih =>
    unfold bySignalType at ih ⊢
    rw [List.foldl_append, List.foldl_cons, List.foldl_nil, Dict.get?_set, List.any_append, List.filter_append]
    by_cases hk : k = r.typeKey
    · subst hk
      have hnone : exits.any (fun r' => r'.typeKey = r.typeKey) = false → (exits.filter fun r' => r'.typeKey = r.typeKey) = [] := by
        intro hany
        refine List.filter_eq_nil_iff.2 fun r' hr' => ?_
        simpa using List.any_eq_false.1 hany r' hr'
      rw [if_pos rfl, ih, List.foldl_append]
      rcases hany : exits.any fun r' => r'.typeKey = r.typeKey with _ | _
      · simp [hnone hany]
      · simp
    · have hr : ¬ r.typeKey = k := fun h => hk h.symm
      rw [if_neg hk, ih]
      simp [hr]

theorem bySignalType_middle (k : String) :
    (bySignalType (before ++ r :: after)).get? k =
      ((bySignalType (before ++ after)).set r.typeKey
        ((((bySignalType (before ++ after)).get? r.typeKey).getD {}).add r.pnl r.isWin)).get? k := by
  rw [Dict.get?_set, bySignalType_get?, bySignalType_get?, bySignalType_get?]
  by_cases hk : k = r.typeKey
  · subst hk
    have hempty : ((before ++ after).any fun u => u.typeKey = r.typeKey) = false →
        ((before ++ after).filter fun u => u.typeKey = r.typeKey) = [] := by
      intro hany
      refine List.filter_eq_nil_iff.2 fun u hu => ?_
      simpa using List.any_eq_false.1 hany u hu
    have hfold := @foldl_middle (before.filter fun u => u.typeKey = r.typeKey) (after.filter fun u => u.typeKey = r.typeKey) r
      TypeMetrics (fun m r => m.add r.pnl r.isWin) _ {}
    rw [← List.filter_append] at hfold
    rw [if_pos rfl, if_pos (by simp), List.filter_append, List.filter_cons_of_pos (by simp), hfold]
    split
    · rfl
    next hany => rw [hempty (Bool.eq_false_iff.2 hany)]; rfl
  · have hr : ¬ r.typeKey = k := fun h => hk h.symm
    rw [if_neg hk]
    simp [hr]

theorem sortedExits_middle (hbefore : ∀ u ∈ before, u.sortKey < r.sortKey) (hafter : ∀ u ∈ after, u.sortKey ≤ r.sortKey) :
    sortedExits (before ++ r :: after) = r :: sortedExits (before ++ after) := by
  unfold sortedExits
  induction before with
  | nil => exact List.insertionSort_cons_of_forall_rel _ hafter
  | cons u before ih =>
    have hu : ¬ r.sortKey ≤ u.sortKey := fun h => h (hbefore u (List.mem_cons_self ..))
    rw [List.cons_append, List.insertionSort_cons, ih fun v hv => hbefore v (List.mem_cons_of_mem _ hv),
      List.orderedInsert_cons, if_neg hu]
    rfl

/-- The patch of the metrics with an exit gives the metrics with the exit. -/
theorem metricsOf_middle {total total' : Nat} {x : RecentExit} {signalType : String} {c : PerformanceMetrics}
    (hc : c.Agrees (metricsOf total (before ++ after))) (hothers : before ++ after ≠ [])
    (hkey : r.typeKey = signalType) (hshown : r.recentExit = x) (hbefore : ∀ u ∈ before, u.sortKey < r.sortKey)
    (hafter : ∀ u ∈ after, u.sortKey ≤ r.sortKey) :
    (c.patch signalType x).Agrees (metricsOf total' (before ++ r :: after)) := by
  subst hkey
  subst hshown
  have hne : before ++ r :: after ≠ [] := by simp
  have hlen : (before ++ r :: after).length = (before ++ after).length + 1 := by simp [Nat.add_assoc]
  have hwins : (before ++ r :: after).countP MetricsRecord.isWin =
      (before ++ after).countP MetricsRecord.isWin + if r.isWin then 1 else 0 := by
    rw [List.countP_append, List.countP_append, List.countP_cons]
    omega
  have hle : (before ++ after).countP MetricsRecord.isWin ≤ (before ++ after).length := List.countP_le_length
  have hsum : ((before ++ r :: after).map MetricsRecord.pnl).sum = ((before ++ after).map MetricsRecord.pnl).sum + r.pnl := by
    rw [List.map_append, List.map_append, List.map_cons, List.sum_append, List.sum_append, List.sum_cons]
    ring
  have hrecent : ((r.recentExit :: ((sortedExits (before ++ after)).take 10).map MetricsRecord.recentExit).take 10) =
      (((r :: sortedExits (before ++ after)).take 10).map MetricsRecord.recentExit) := by
    rw [← List.map_cons, ← List.map_take, List.take_succ_cons, List.take_succ_cons, List.take_take]
    rfl
  obtain ⟨hexited, hcwins, hclosses, -, hctotal, -, hctypes, hcrecent⟩ := hc
  unfold metricsOf at hexited hcwins hclosses hctotal hctypes hcrecent ⊢
  rw [if_neg hothers] at hexited hcwins hclosses hctotal hctypes hcrecent
  rw [if_neg hne]
  dsimp only at hexited hcwins hclosses hctotal hctypes hcrecent ⊢
  have hpwins : (if r.isWin then c.wins + 1 else c.wins) = (before ++ r :: after).countP MetricsRecord.isWin := by
    rw [hwins, hcwins]
    split
    · rfl
    · rfl
  refine ⟨?_, ?_, ?_, ?_, ?_, ?_, ?_, ?_⟩
  · show c.exitedSignals + 1 = _
    rw [hexited, hlen]
  · exact hpwins
  · show (if r.isWin then c.losses else c.losses + 1) =
      (before ++ r :: after).length - (before ++ r :: after).countP MetricsRecord.isWin
    rw [hlen, hwins, hclosses]
    split
    · omega
    · omega
  · show ((if r.isWin then c.wins + 1 else c.wins : Nat) : ℚ) / ((c.exitedSignals + 1 : Nat) : ℚ) = _
    rw [hpwins, hexited, hlen]
  · show c.totalPnl + r.pnl = _
    rw [hctotal, hsum]
  · show (c.totalPnl + r.pnl) / ((c.exitedSignals + 1 : Nat) : ℚ) = _
    rw [hctotal, hsum, hexited, hlen]
  · intro k
    show (c.bySignalType.set r.typeKey (((c.bySignalType.get? r.typeKey).getD {}).add r.pnl r.isWin)).get? k = _
    rw [bySignalType_middle, Dict.get?_set, Dict.get?_set, hctypes, hctypes]
  · show (c.recentExits.map fun l => (r.recentExit :: l).take 10) = _
    rw [hcrecent, sortedExits_middle hbefore hafter, Option.map_some, hrecent]

end scan

namespace MetricsTracker
variable {z : TradeTimes} {s : MetricsTracker} {signal : SignalData} {perf : Performance}

theorem rescan_eq (z : TradeTimes) (days : Int) (s : MetricsTracker) :
    ∃ total, s.rescan z days = metricsOf total (s.lines.filter (s.counts z days)) := by
  refine ⟨(s.lines.filter (MetricsRecord.inWindow z (s.cutoff days))).length, ?_⟩
  unfold rescan
  dsimp only
  rw [List.filter_filter]
  rfl

theorem exitSite_lines (signalId : String) (s : MetricsTracker) :
    s.lines = (s.exitSite signalId).1 ++ (s.exitSite signalId).2.1.toList ++ (s.exitSite signalId).2.2 := by
  unfold exitSite
  rcases s.events with _ | evs
  · dsimp only
    rw [List.span_eq_takeWhile_dropWhile]
    have hrest (rest : List MetricsRecord) : rest.head?.toList ++ rest.tail = rest := by
      rcases rest with _ | ⟨r, rest⟩
      · rfl
      · rfl
    rw [List.append_assoc, hrest]
    exact (List.takeWhile_append_dropWhile).symm
  · simp

/-- Without SQLite the signal of an exit has a line. -/
theorem exitSite_old {signalId reason : String} {price : Number} {time : ℚ} {e : SignalData × Performance}
    (h : s.exitOf signalId price reason time = some e) (hevents : s.events = none) :
    (s.exitSite signalId).2.1.isSome = true := by
  unfold exitOf at h
  rcases hrec : s.store.getSignalRecord signalId with _ | rec
  · rw [hrec] at h
    cases h
  · have hread : s.store.getSignalRecord signalId = s.store.lineRecord signalId :=
      SignalStore.getSignalRecord_off hevents
    rw [hread, SignalStore.lineRecord] at hrec
    unfold exitSite
    rw [hevents]
    dsimp only
    rw [List.span_eq_takeWhile_dropWhile]
    dsimp only
    rw [List.isSome_head?]
    intro hnone
    have hall := List.dropWhile_eq_nil_iff.1 hnone
    have hcount : ((s.lines.map MetricsRecord.toSignalRecord).countP fun r => r.signalId = signalId) = 0 := by
      rw [List.countP_eq_zero]
      intro r hr
      obtain ⟨r', hr', rfl⟩ := List.mem_map.1 hr
      simpa using hall r' hr'
    have hskip : s.store.lines.foldl (SignalStore.scanLine signalId) none = none := SignalStore.scan_skip hcount none
    rw [hskip] at hrec
    cases hrec

/-- The lines after an exit that the file takes. -/
theorem lines_recordExit {signalId reason : String} {price : Number} {time : ℚ}
    (h : s.exitOf signalId price reason time = some (signal, perf)) (hid : perf.signalId = signalId)
    (hfile : s.signalsFile.isSome = true) :
    (s.recordExit z signal perf).lines = (s.exitSite signalId).1 ++
      s.exitLine z (perf.change signal) perf.exitTime (s.exitSite signalId).2.1 :: (s.exitSite signalId).2.2 := by
  subst hid
  have hsite : s.events.isSome = true ∨ (s.exitSite perf.signalId).2.1.isSome = true := by
    rcases hevents : s.events with _ | evs
    · exact .inr (exitSite_old h hevents)
    · exact .inl rfl
  obtain ⟨lines, hlines⟩ := Option.isSome_iff_exists.1 hfile
  show (s.writeExit z (perf.change signal) perf.exitTime).getD [] = _
  unfold writeExit
  rw [hlines]
  exact congrArg (fun o : Option (List MetricsRecord) => o.getD []) (if_pos hsite)

theorem exitOf_signalId {signalId reason : String} {price : Number} {time : ℚ} {e : SignalData × Performance}
    (h : s.exitOf signalId price reason time = some e) : e.2.signalId = signalId := by
  unfold exitOf at h
  obtain ⟨r, -, h⟩ := Option.bind_eq_some_iff.1 h
  split at h
  · cases h
  · obtain ⟨perf, hperf, rfl⟩ := Option.map_eq_some_iff.1 h
    exact exitPerformance_signalId hperf

/-- The line of an exit has its P&L. -/
theorem exitLine_exit (s : MetricsTracker) (old : Option MetricsRecord) :
    (s.exitLine z (perf.change signal) perf.exitTime old).pnl = perf.pnl ∧
      (s.exitLine z (perf.change signal) perf.exitTime old).isWin = perf.isWin := by
  rcases old with _ | r
  · exact ⟨rfl, rfl⟩
  · exact ⟨rfl, rfl⟩

/-- The selected lines of the file around the place of an exit, when the line there is not selected before the exit and
is after it. -/
theorem filter_site {p : MetricsRecord → Bool} {before after : List MetricsRecord} {old : Option MetricsRecord}
    (hold : ∀ r ∈ old, p r = false) :
    (before ++ old.toList ++ after).filter p = before.filter p ++ after.filter p := by
  rcases old with _ | r
  · rw [Option.toList_none, List.append_nil, List.filter_append]
  · rw [Option.toList_some, List.filter_append, List.filter_append, List.filter_singleton, hold r rfl]
    rw [cond_false, List.append_nil]

theorem accurate_recordExit {signalId reason : String} {price : Number} {time : ℚ} (h : s.Accurate z)
    (he : s.exitOf signalId price reason time = some (signal, perf))
    (hcache : ∀ c ∈ s.metricsCache, s.Fresh c → s.PatchesRescan z c.days signal perf)
    (hagg : s.runningAggregates.isSome = true → s.AddsExit z signal perf) : (s.recordExit z signal perf).Accurate z := by
  have hid : perf.signalId = signalId := exitOf_signalId he
  have hsite := exitSite_lines perf.signalId s
  refine ⟨?_, ?_⟩
  · rintro c' hc' hfresh
    obtain ⟨c, hc, rfl⟩ := Option.map_eq_some_iff.1 hc'
    have hp := hcache c hc hfresh
    have hlines := lines_recordExit he hid hp.file (z := z)
    rw [← hid] at hlines
    obtain ⟨total, hrescan⟩ := rescan_eq z c.days s
    obtain ⟨total', hrescan'⟩ := rescan_eq z c.days (s.recordExit z signal perf)
    have hcounts : (s.recordExit z signal perf).counts z c.days = s.counts z c.days := rfl
    have hbefore := h.cache c hc hfresh
    rw [hrescan, hsite, filter_site hp.old] at hbefore
    show (c.metrics.patch (signal.type.getD "unknown") (patchedExit z signal perf)).Agrees _
    rw [hrescan', hcounts, hlines, List.filter_append, List.filter_cons_of_pos hp.line]
    refine metricsOf_middle hbefore ?_ hp.typeKey hp.shown ?_ ?_
    · obtain ⟨r, hr, hcount⟩ := hp.others
      intro hnil
      have hmem : r ∈ s.lines.filter (s.counts z c.days) := List.mem_filter.2 ⟨hr, hcount⟩
      rw [hsite, filter_site hp.old, hnil] at hmem
      cases hmem
    · intro u hu
      obtain ⟨hu, hcount⟩ := List.mem_filter.1 hu
      exact hp.before u hu hcount
    · intro u hu
      obtain ⟨hu, hcount⟩ := List.mem_filter.1 hu
      exact hp.after u hu hcount
  · intro a' ha'
    obtain ⟨a, ha, rfl⟩ := Option.map_eq_some_iff.1 ha'
    have hp := hagg (Option.isSome_iff_exists.2 ⟨a, ha⟩)
    have hlines := lines_recordExit he hid hp.file (z := z)
    rw [← hid] at hlines
    have hbefore := h.aggregates a ha
    unfold initializeRunningAggregates at hbefore ⊢
    rw [hsite, filter_site hp.old] at hbefore
    obtain ⟨hpnl, hwin⟩ := @exitLine_exit z signal perf s (s.exitSite perf.signalId).2.1
    rw [hlines, List.filter_append, List.filter_cons_of_pos hp.line, foldl_middle, ← hbefore, hpnl, hwin]

theorem agrees_metricsOf {c : PerformanceMetrics} {total total' : Nat} {exits : List MetricsRecord}
    (h : c.Agrees (metricsOf total exits)) : c.Agrees (metricsOf total' exits) := by
  unfold metricsOf at h ⊢
  split at h
  next hnil =>
    rw [if_pos hnil]
    exact ⟨h.1, h.2, h.3, h.4, h.5, h.6, h.7, h.8⟩
  next hne =>
    rw [if_neg hne]
    exact ⟨h.1, h.2, h.3, h.4, h.5, h.6, h.7, h.8⟩

/-- A cache agrees with every rescan that counts the same exits. -/
theorem agrees_rescan {c : PerformanceMetrics} {days : Int} {s' : MetricsTracker} (h : c.Agrees (s.rescan z days))
    (heq : s'.lines.filter (s'.counts z days) = s.lines.filter (s.counts z days)) : c.Agrees (s'.rescan z days) := by
  obtain ⟨total, hrescan⟩ := rescan_eq z days s
  obtain ⟨total', hrescan'⟩ := rescan_eq z days s'
  rw [hrescan] at h
  rw [hrescan', heq]
  exact agrees_metricsOf h

theorem accurate_apply {a : MetricsAct} (h : s.Accurate z) (ha : s.ActKeeps z a) : (a.apply z s).Accurate z := by
  rcases a with ⟨signalId, price, reason, time⟩ | ⟨r, event⟩ | days | seconds
  · show (s.trackExit z signalId price reason time).Accurate z
    unfold trackExit
    rcases he : s.exitOf signalId price reason time with _ | ⟨signal, perf⟩
    · exact h
    · exact accurate_recordExit h he (ha _ he).1 (ha _ he).2
  · refine ⟨?_, ?_⟩
    · intro c hc hfresh
      refine agrees_rescan (h.cache c hc hfresh) ?_
      have hnot : ¬ s.counts z c.days r = true := by
        rw [ha.1 c hc hfresh]
        exact Bool.false_ne_true
      show (s.lines ++ [r]).filter (s.counts z c.days) = _
      rw [List.filter_append, List.filter_cons_of_neg hnot, List.filter_nil, List.append_nil]
    · intro a ha'
      have hnot : ¬ r.isExit = true := by
        rw [ha.2 (Option.isSome_iff_exists.2 ⟨a, ha'⟩)]
        exact Bool.false_ne_true
      rw [h.aggregates a ha']
      show _ = ((s.lines ++ [r]).filter MetricsRecord.isExit).foldl _ _
      rw [List.filter_append, List.filter_cons_of_neg hnot, List.filter_nil, List.append_nil]
      rfl
  · have hagg : ∀ a ∈ some (s.runningAggregates.getD s.initializeRunningAggregates), a = s.initializeRunningAggregates := by
      intro a ha
      obtain rfl := Option.some.inj ha
      rcases hsome : s.runningAggregates with _ | a
      · rfl
      · exact h.aggregates a hsome
    show (s.getPerformanceMetrics z days).2.Accurate z
    unfold getPerformanceMetrics
    dsimp only
    split
    · exact ⟨h.cache, hagg⟩
    · refine ⟨?_, hagg⟩
      intro c hc _
      obtain rfl := Option.some.inj hc
      exact ⟨rfl, rfl, rfl, rfl, rfl, rfl, fun k => rfl, rfl⟩
  · refine ⟨?_, h.aggregates⟩
    intro c hc hfresh
    have hstill : s.Fresh c := by
      have hlater : s.now + seconds - c.time < METRICS_CACHE_TTL := hfresh
      have hpos : (0 : ℚ) ≤ seconds := seconds.2
      show s.now - c.time < METRICS_CACHE_TTL
      linarith
    exact agrees_rescan (h.cache c hc hstill) (List.filter_congr (ha c hc hfresh))

end MetricsTracker

/-- A run from a tracker without a cache, on any store, whose steps keep the cache leaves it and the aggregates
accurate. -/
theorem metrics_accurate (z : TradeTimes) {s : MetricsTracker} (hcache : s.metricsCache = none)
    (haggregates : s.runningAggregates = none) {acts : List MetricsAct}
    (h : Along (MetricsAct.apply z) (MetricsTracker.ActKeeps z) s acts) : (acts.foldl (MetricsAct.apply z) s).Accurate z := by
  have hstart : s.Accurate z := by
    refine ⟨?_, ?_⟩
    · intro c hc
      rw [hcache] at hc
      cases hc
    · intro a ha
      rw [haggregates] at ha
      cases ha
  exact h.invariant (fun s a hs ha => MetricsTracker.accurate_apply hs ha) hstart

/-- The first minutes of a winter day in New York, five hours behind UTC. -/
def winterTimes : TradeTimes where
  strftime t := if t = 60 then "1970-01-01T00:01:00" else "1970-01-01T00:00:00"
  nowText _ := "1970-01-01T00:02:00"
  parse text :=
    if text = "1970-01-01T00:00:00" then some 18000
    else if text = "1970-01-01T00:01:00" then some 18060 else none

def longTrade (signalId : String) : SignalRecord :=
  { signalId, status := .entered
    signal := some { type := some "sweep", direction := some "long", entryPrice := some (.fin 100) } }

/-- Two entered trades, of which the first has exited at midnight. -/
def twoTrades (events : Option (List SignalRecord)) : MetricsTracker :=
  { now := 18120, events
    signalsFile := some [
      { toSignalRecord :=
          { longTrade "s1" with
            status := .exited, own := { signalType := some "sweep" }
            exit := some { exitPrice := .fin 90, exitTime := 0, exitReason := "stop_loss", pnl := -20, isWin := false
                           holdDurationMinutes := none } }
        times := { exitTime := some "1970-01-01T00:00:00" } },
      { toSignalRecord := longTrade "s2" }] }

def secondExit : List MetricsAct := [.getPerformanceMetrics 7, .trackExit "s2" (.fin 110) "take_profit" 60]

/-- Without SQLite the exit is written to the record of its signal. -/
theorem metrics_accurate_second : (secondExit.foldl (MetricsAct.apply winterTimes) (twoTrades none)).Accurate winterTimes := by
  refine metrics_accurate winterTimes rfl rfl ⟨trivial, ?_, trivial⟩
  intro e he
  have hexit : ((MetricsAct.getPerformanceMetrics 7).apply winterTimes (twoTrades none)).exitOf "s2" (.fin 110) "take_profit" 60 =
      some ({ type := some "sweep", direction := some "long", entryPrice := some (.fin 100) },
        { signalId := "s2", signalType := some "sweep", direction := "long", entryPrice := 100, exitPrice := 110, pnl := 20
          isWin := true, exitReason := "take_profit", holdDurationMinutes := none, exitTime := 60 }) := by decide +kernel
  obtain rfl := Option.some.inj (hexit.symm.trans he)
  refine ⟨?_, fun _ => ⟨by decide +kernel, by decide +kernel, by decide +kernel⟩⟩
  intro c hc _
  obtain rfl := Option.some.inj hc
  exact ⟨by decide +kernel, by decide +kernel, by decide +kernel, by decide +kernel, by decide +kernel, by decide +kernel,
    by decide +kernel, by decide +kernel⟩

/-- With SQLite the exit is appended without its signal, and a rescan shows it with an unknown type and direction. -/
theorem not_metrics_accurate : ¬ ∀ (z : TradeTimes) (s : MetricsTracker) (acts : List MetricsAct), s.metricsCache = none →
    s.runningAggregates = none → (acts.foldl (MetricsAct.apply z) s).Accurate z := by
  intro h
  have hcache := (h winterTimes (twoTrades (some [longTrade "s2"])) secondExit rfl rfl).cache
  have hrecent : ∀ c ∈ (secondExit.foldl (MetricsAct.apply winterTimes) (twoTrades (some [longTrade "s2"]))).metricsCache,
      c.metrics.recentExits = ((secondExit.foldl (MetricsAct.apply winterTimes)
        (twoTrades (some [longTrade "s2"]))).rescan winterTimes c.days).recentExits := by
    intro c hc
    refine (hcache c hc ?_).recentExits
    revert c
    decide +kernel
  exact absurd hrecent (by decide +kernel)

end PearlAlgo
