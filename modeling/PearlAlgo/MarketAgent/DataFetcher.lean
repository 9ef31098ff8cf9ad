import Mathlib.Data.List.Induction
import Mathlib.Data.List.TakeWhile
import PearlAlgo.Py.NewYork

/-!
# Fetching market data (`market_agent/data_fetcher.py`)

One `fetch_latest_data` after the other, as the service loop calls it: base history through its cache, the buffer for the
strategies, the staleness guard, the latest bar, and the 5- and 15-minute frames. Instants are microseconds since the epoch.
The time in a bar is what its clock shows, which the guard reads as UTC.

`fetch_latest_data` catches whatever is raised inside, so the retries around it never happen. `frames`, `asks` and
`restarts` are written down for the theorems.
-/

namespace PearlAlgo.DataFetcher
open Py

/-- Where a frame has its timestamps: `IBKRProvider.fetch_historical` moves them into the index. -/
inductive Layout
  | indexed
  | column
deriving DecidableEq

structure Frame (β : Type) where
  layout : Layout
  rows : List (Int × β)
deriving DecidableEq

variable {β : Type}

namespace Frame

/-- `pd.DataFrame()` -/
def none : Frame β := ⟨.column, []⟩

def isEmpty (df : Frame β) : Bool := df.rows.isEmpty

/-- `df["timestamp"].max()`, for which the timestamps must be a column. -/
def newest (df : Frame β) : Option Int :=
  match df.layout with
  | .indexed => Option.none
  | .column => (df.rows.map Prod.fst).max?

end Frame

/-- Timestamps become a column, and the last rows are kept. -/
def normalizeToStrategyBuffer (df : Frame β) (bufferSize : Nat) : Frame β :=
  if df.isEmpty then df else ⟨.column, df.rows.drop (df.rows.length - bufferSize)⟩

def SECOND : Int := 1000000

structure FetcherConfig where
  bufferSize : Nat
  bufferSize5m : Nat
  bufferSize15m : Nat
  enableBaseCache : Bool
  baseRefreshSeconds : Int
  enableMtfCache : Bool
  mtfRefreshSeconds5m : Int
  mtfRefreshSeconds15m : Int

/-- The frame of 5 or of 15 minutes. `asks` are the times at which the provider was asked, with its answers. -/
structure Timeframe (β : Type) where
  lastRefresh : Option Int := none
  buffer : Option (Frame β) := none
  cacheHits : Nat := 0
  cacheMisses : Nat := 0
  asks : List (Int × Frame β) := []

/-- A soft restart: when it was triggered, and for which last bar. -/
structure Restart where
  time : Int
  bar : Int
deriving DecidableEq

/-- The base history that is kept. -/
structure BaseCache (β : Type) where
  lastRefresh : Option Int := none
  historicalCache : Option (Frame β) := none
  cacheHits : Nat := 0
  cacheMisses : Nat := 0
  requestCount : Nat := 0

/-- What the staleness guard goes by. -/
structure BarWatch (β : Type) where
  lastSuccessfulBarTs : Option Int := none
  staleBarRestartTriggered : Bool := false
  frames : List (Frame β) := []
  restarts : List Restart := []

structure Fetcher (β : Type) where
  base : BaseCache β := {}
  watch : BarWatch β := {}
  dataBuffer : Option (Frame β) := none
  m5 : Timeframe β := {}
  m15 : Timeframe β := {}

/-- What `get_latest_bar` gives: nothing, an exception, a bar with or without a time, or one whose time is not read. -/
inductive Provided (β : Type)
  | absent
  | raised
  | bar (timestamp : Option Int) (row : β)
  | unreadable (row : β)

/-- A cycle: when it began, when it came to the guard and to the latest bar, and what the provider answered; `none` is an
exception or a timeout. -/
structure CycleInput (β : Type) where
  endTime : Int
  guardTime : Int
  barTime : Int
  historical : Option (Frame β)
  provided : Provided β
  fiveMinutes : Option (Frame β)
  fifteenMinutes : Option (Frame β)

structure LatestBar (β : Type) where
  timestamp : Option Int
  row : β
  dataSource : String
  dataLevel : String

structure MarketData (β : Type) where
  df : Frame β
  latestBar : Option (LatestBar β)
  mtf : Option (Frame β × Frame β)

/-! ### Base history -/

namespace BaseCache

/-- The cached frame, while it is young enough. -/
def fresh? (c : FetcherConfig) (now : Int) (b : BaseCache β) : Option (Frame β) :=
  if c.enableBaseCache then
    match b.historicalCache, b.lastRefresh with
    | some df, some last => if !df.isEmpty && now - last < c.baseRefreshSeconds * SECOND then some df else none
    | _, _ => none
  else none

def fetchBaseHistoricalData (c : FetcherConfig) (now : Int) (historical : Option (Frame β)) (b : BaseCache β) :
    Option (Frame β) × BaseCache β :=
  match b.fresh? c now with
  | some df => (some df, { b with cacheHits := b.cacheHits + 1 })
  | none =>
    let b := { b with cacheMisses := b.cacheMisses + 1, requestCount := b.requestCount + 1 }
    match historical with
    | none => (none, b)
    | some df =>
      if !df.isEmpty && c.enableBaseCache then (some df, { b with lastRefresh := some now, historicalCache := some df })
      else (some df, b)

/-- The guard evicts what is kept. -/
def evictIf (fires : Bool) (b : BaseCache β) : BaseCache β :=
  if fires then { b with lastRefresh := none, historicalCache := none } else b

end BaseCache

/-! ### The staleness guard -/

namespace BarWatch

/-- The newest bar of a frame counts when it is newer than the last one that did. -/
def noteFrame (df : Frame β) (w : BarWatch β) : BarWatch β :=
  let w := { w with frames := w.frames ++ [df] }
  match df.newest with
  | none => w
  | some ts =>
    if w.lastSuccessfulBarTs.all (· < ts) then { w with lastSuccessfulBarTs := some ts, staleBarRestartTriggered := false }
    else w

end BarWatch

/-- On a weekday from 13:00 to 22:59, more than five minutes after the last bar. -/
def Stale (now bar : Int) : Prop :=
  300 * SECOND < now - bar ∧ NewYork.weekday (now / (86400 * SECOND)) < 5 ∧
    13 ≤ now % (86400 * SECOND) / (3600 * SECOND) ∧ now % (86400 * SECOND) / (3600 * SECOND) ≤ 22

instance (now bar : Int) : Decidable (Stale now bar) := inferInstanceAs (Decidable (_ ∧ _))

/-- Whether the guard fires: it evicts the cached history and has the agent restarted. -/
def BarWatch.stalenessGuard (now : Int) (w : BarWatch β) : Bool × BarWatch β :=
  match w.lastSuccessfulBarTs with
  | none => (false, w)
  | some bar =>
    if Stale now bar ∧ w.staleBarRestartTriggered = false then
      (true, { w with staleBarRestartTriggered := true, restarts := w.restarts ++ [⟨now, bar⟩] })
    else (false, w)

/-! ### The latest bar -/

def dataLevel (dataSource : String) : String :=
  if dataSource = "real-time" then "level1"
  else if dataSource = "historical" ∨ dataSource = "historical_fallback" then "historical"
  else if dataSource = "fallback" then "error"
  else "unknown"

/-- What the provider gives, or else the last row of the history. -/
def latestBar (now : Int) (provided : Provided β) (df : Frame β) : Option (LatestBar β) :=
  let fallback := df.rows.getLast?.map fun r =>
    (⟨some r.1, r.2, "historical_fallback", dataLevel "historical_fallback"⟩ : LatestBar β)
  match provided with
  | .absent | .raised => fallback
  | .bar none row => some ⟨none, row, "provider", dataLevel "provider"⟩
  | .bar (some ts) row =>
    let source := if now - ts < 30 * SECOND then "real-time" else "historical"
    some ⟨some ts, row, source, dataLevel source⟩
  | .unreadable row => some ⟨none, row, "fallback", dataLevel "fallback"⟩

/-! ### The 5- and 15-minute frames -/

namespace Timeframe

def expired (m : Timeframe β) (now ttl : Int) : Bool :=
  match m.lastRefresh with
  | none => true
  | some last => ttl * SECOND ≤ now - last

def needed (m : Timeframe β) (now ttl : Int) : Bool := m.expired now ttl || m.buffer.isNone

/-- An answer goes into the buffer unless it is empty. -/
def answered (m : Timeframe β) (now : Int) (bufferSize : Nat) (df : Frame β) : Timeframe β :=
  { m with
    buffer := if df.isEmpty then m.buffer else some (normalizeToStrategyBuffer df bufferSize)
    asks := m.asks ++ [(now, df)] }

def current (m : Timeframe β) : Frame β := m.buffer.getD Frame.none

/-- The cached variant. What `_fetch_multitimeframe_data_uncached` returns is the buffer, not the answer: where there is
a buffer, an empty answer counts as a refresh as well. -/
def refresh (m : Timeframe β) (now ttl : Int) (bufferSize : Nat) (answer : Option (Frame β)) : Timeframe β :=
  if m.needed now ttl then
    let m := { m with cacheMisses := m.cacheMisses + 1 }
    match answer with
    | none => m
    | some df =>
      let m := m.answered now bufferSize df
      if m.current.isEmpty then m else { m with lastRefresh := some now }
  else { m with cacheHits := m.cacheHits + 1 }

end Timeframe

/-- What a cycle returns of the two frames, and the frames. -/
def fetchMultitimeframeData (c : FetcherConfig) (i : CycleInput β) (m5 m15 : Timeframe β) :
    (Frame β × Frame β) × Timeframe β × Timeframe β :=
  if c.enableMtfCache then
    let m5 := m5.refresh i.endTime c.mtfRefreshSeconds5m c.bufferSize5m i.fiveMinutes
    let m15 := m15.refresh i.endTime c.mtfRefreshSeconds15m c.bufferSize15m i.fifteenMinutes
    ((m5.current, m15.current), m5, m15)
  else
    -- Both are fetched before either goes into its buffer.
    match i.fiveMinutes, i.fifteenMinutes with
    | some five, some fifteen =>
      let m5 := m5.answered i.endTime c.bufferSize5m five
      let m15 := m15.answered i.endTime c.bufferSize15m fifteen
      ((m5.current, m15.current), m5, m15)
    | _, _ => ((Frame.none, Frame.none), m5, m15)

/-! ### A cycle -/

def fetchLatestData (c : FetcherConfig) (i : CycleInput β) (s : Fetcher β) : MarketData β × Fetcher β :=
  let (fetched, base) := s.base.fetchBaseHistoricalData c i.endTime i.historical
  let df := fetched.getD Frame.none
  let dataBuffer := if df.isEmpty then s.dataBuffer else some (normalizeToStrategyBuffer df c.bufferSize)
  let (fires, watch) := (s.watch.noteFrame df).stalenessGuard i.guardTime
  let s := { s with base := base.evictIf fires, watch, dataBuffer }
  match latestBar i.barTime i.provided df with
  | none => (⟨Frame.none, none, none⟩, s)
  | some bar =>
    let buffer := s.dataBuffer.getD Frame.none
    let (mtf, m5, m15) := fetchMultitimeframeData c i s.m5 s.m15
    (⟨buffer, some bar, some mtf⟩, { s with dataBuffer := some buffer, m5, m15 })

/-- The fetcher after these cycles. -/
def run (c : FetcherConfig) (inputs : List (CycleInput β)) : Fetcher β :=
  inputs.foldl (fun s i => (fetchLatestData c i s).2) {}

/-! ### The guard over a run -/

theorem max?_concat (l : List Int) (a : Int) : (l ++ [a]).max? = some (l.max?.elim a (max · a)) := by
  cases l with
  | nil => rfl
  | cons x l =>
    rw [List.cons_append, List.max?_cons', List.max?_cons', List.foldl_append]
    rfl

theorem newest_concat (frames : List (Frame β)) (df : Frame β) :
    (frames ++ [df]).filterMap Frame.newest = frames.filterMap Frame.newest ++ df.newest.toList := by
  rw [List.filterMap_append, List.filterMap_cons]
  cases df.newest <;> rfl

/-- The last bar that counts is the newest in any frame, the guard fires for each bar at most once and only when that is
stale, and it stays set for as long as no newer bar comes. -/
structure GuardInv (w : BarWatch β) : Prop where
  newest : w.lastSuccessfulBarTs = (w.frames.filterMap Frame.newest).max?
  rising : (w.restarts.map Restart.bar).Pairwise (· < ·)
  stale : ∀ r ∈ w.restarts, Stale r.time r.bar
  below : ∀ r ∈ w.restarts, ∃ bar, w.lastSuccessfulBarTs = some bar ∧ r.bar ≤ bar
  unset : w.staleBarRestartTriggered = false → ∀ r ∈ w.restarts, ∀ bar, w.lastSuccessfulBarTs = some bar → r.bar < bar
  set : w.staleBarRestartTriggered = true → ∃ r ∈ w.restarts, w.lastSuccessfulBarTs = some r.bar

namespace GuardInv
variable {w : BarWatch β}

/-- A frame without a newer bar. -/
theorem skip (h : GuardInv w) {df : Frame β}
    (hnewest : ∀ ts, df.newest = some ts → ∃ bar, w.lastSuccessfulBarTs = some bar ∧ ts ≤ bar) :
    GuardInv { w with frames := w.frames ++ [df] } where
  newest := by
    dsimp only
    rw [newest_concat]
    rcases hts : df.newest with _ | ts
    · rw [Option.toList_none, List.append_nil]
      exact h.newest
    · obtain ⟨bar, hbar, hle⟩ := hnewest ts hts
      rw [Option.toList_some, max?_concat, ← h.newest, hbar]
      simp [hle]
  rising := h.rising
  stale := h.stale
  below := h.below
  unset := h.unset
  set := h.set

/-- A frame with a newer bar. -/
theorem advance (h : GuardInv w) {df : Frame β} {ts : Int} (hts : df.newest = some ts)
    (hnewer : ∀ bar, w.lastSuccessfulBarTs = some bar → bar < ts) : GuardInv { w with
      frames := w.frames ++ [df]
      lastSuccessfulBarTs := some ts
      staleBarRestartTriggered := false } where
  newest := by
    dsimp only
    rw [newest_concat, hts, Option.toList_some, max?_concat, ← h.newest]
    rcases hlast : w.lastSuccessfulBarTs with _ | bar
    · rfl
    · simp [(hnewer bar hlast).le]
  rising := h.rising
  stale := h.stale
  below r hr := by
    obtain ⟨bar, hbar, hle⟩ := h.below r hr
    exact ⟨ts, rfl, hle.trans (hnewer bar hbar).le⟩
  unset _ r hr bar hbar := by
    cases hbar
    obtain ⟨bar, hbar, hle⟩ := h.below r hr
    exact hle.trans_lt (hnewer bar hbar)
  set htrue := by cases htrue

theorem noteFrame (h : GuardInv w) (df : Frame β) : GuardInv (w.noteFrame df) := by
  unfold BarWatch.noteFrame
  dsimp only
  split
  next hnone => exact h.skip fun ts hts => absurd (hnone.symm.trans hts) (by simp)
  next ts hts =>
    split
    next hall =>
      refine h.advance hts fun bar hbar => ?_
      rw [hbar] at hall
      simpa using hall
    next hall =>
      refine h.skip fun ts' hts' => ?_
      rw [hts, Option.some.injEq] at hts'
      rcases hlast : w.lastSuccessfulBarTs with _ | bar
      · simp [hlast] at hall
      · rw [hlast] at hall
        exact ⟨bar, rfl, by simpa [hts'] using hall⟩

theorem stalenessGuard (h : GuardInv w) (now : Int) : GuardInv (w.stalenessGuard now).2 := by
  unfold BarWatch.stalenessGuard
  split
  · exact h
  next bar hlast =>
    split
    next hfires =>
      refine ⟨h.newest, ?_, fun r hr => ?_, fun r hr => ?_, fun hfalse => absurd hfalse (by simp), fun _ => ?_⟩
      · dsimp only
        rw [List.map_append, List.pairwise_append]
        refine ⟨h.rising, List.pairwise_singleton _ _, fun b hb b' hb' => ?_⟩
        obtain ⟨r, hr, rfl⟩ := List.mem_map.1 hb
        rw [List.mem_singleton.1 hb']
        exact h.unset hfires.2 r hr bar hlast
      · rcases List.mem_append.1 hr with hr | hr
        · exact h.stale r hr
        · rw [List.mem_singleton.1 hr]
          exact hfires.1
      · rcases List.mem_append.1 hr with hr | hr
        · exact h.below r hr
        · rw [List.mem_singleton.1 hr]
          exact ⟨bar, hlast, le_rfl⟩
      · exact ⟨⟨now, bar⟩, by simp, hlast⟩
    next => exact h

end GuardInv

theorem stalenessGuard_frame (now : Int) (w : BarWatch β) :
    (w.stalenessGuard now).2.lastSuccessfulBarTs = w.lastSuccessfulBarTs ∧
      (w.stalenessGuard now).2.frames = w.frames := by
  unfold BarWatch.stalenessGuard
  split
  · exact ⟨rfl, rfl⟩
  · split <;> exact ⟨rfl, rfl⟩

/-- A guard that is passed while the bar is stale leaves the trigger set. -/
theorem triggered_stalenessGuard {w : BarWatch β} {now bar : Int} (hlast : w.lastSuccessfulBarTs = some bar)
    (hstale : Stale now bar) : (w.stalenessGuard now).2.staleBarRestartTriggered = true := by
  simp only [BarWatch.stalenessGuard, hlast]
  by_cases htriggered : w.staleBarRestartTriggered = false
  · rw [if_pos ⟨hstale, htriggered⟩]
  · rw [if_neg fun h => htriggered h.2]
    exact (Bool.not_eq_false _).mp htriggered

theorem frames_noteFrame (df : Frame β) (w : BarWatch β) : (w.noteFrame df).frames = w.frames ++ [df] := by
  unfold BarWatch.noteFrame
  dsimp only
  split
  · rfl
  · split <;> rfl

section
variable {c : FetcherConfig} {i : CycleInput β} {s : Fetcher β}

theorem base_fetchLatestData (c : FetcherConfig) (i : CycleInput β) (s : Fetcher β) : ∃ fires,
    (fetchLatestData c i s).2.base = (s.base.fetchBaseHistoricalData c i.endTime i.historical).2.evictIf fires := by
  unfold fetchLatestData
  dsimp only
  split <;> exact ⟨_, rfl⟩

theorem watch_fetchLatestData (c : FetcherConfig) (i : CycleInput β) (s : Fetcher β) :
    (fetchLatestData c i s).2.watch = ((s.watch.noteFrame
      ((s.base.fetchBaseHistoricalData c i.endTime i.historical).1.getD Frame.none)).stalenessGuard i.guardTime).2 := by
  unfold fetchLatestData
  dsimp only
  split <;> rfl

theorem run_concat (c : FetcherConfig) (inputs : List (CycleInput β)) (i : CycleInput β) :
    run c (inputs ++ [i]) = (fetchLatestData c i (run c inputs)).2 := by
  rw [run, List.foldl_append]
  rfl

theorem guardInv_run (c : FetcherConfig) (inputs : List (CycleInput β)) : GuardInv (run c inputs).watch := by
  induction inputs using List.reverseRecOn with
  | nil => exact ⟨rfl, .nil, by simp [run], by simp [run], by simp [run], fun h => by cases h⟩
  | append_singleton inputs i ih =>
    rw [run_concat, watch_fetchLatestData]
    exact (ih.noteFrame _).stalenessGuard _

end

/-! ### The kept history over a run -/

/-- The history that is kept is an answer of the provider, with the time at which it was asked. -/
structure BaseInv (inputs : List (CycleInput β)) (b : BaseCache β) : Prop where
  cache : ∀ df, b.historicalCache = some df → ∃ j ∈ inputs, j.historical = some df ∧ b.lastRefresh = some j.endTime
  calls : b.cacheHits + b.cacheMisses = inputs.length
  requests : b.requestCount = b.cacheMisses

theorem fresh?_eq_some {c : FetcherConfig} {now : Int} {b : BaseCache β} {df : Frame β} (h : b.fresh? c now = some df) :
    c.enableBaseCache = true ∧ b.historicalCache = some df ∧
      ∃ last, b.lastRefresh = some last ∧ now - last < c.baseRefreshSeconds * SECOND := by
  unfold BaseCache.fresh? at h
  split at h
  next henabled =>
    split at h
    next df' last hcache hlast =>
      split at h
      next hfresh =>
        cases h
        rw [Bool.and_eq_true, decide_eq_true_eq] at hfresh
        exact ⟨henabled, hcache, last, hlast, hfresh.2⟩
      · cases h
    · cases h
  · cases h

/-- The history that a cycle starts from is what the provider answers now, or did within the time to live. -/
theorem BaseInv.served {inputs : List (CycleInput β)} {b : BaseCache β} (h : BaseInv inputs b) {c : FetcherConfig}
    {now : Int} {historical : Option (Frame β)} {df : Frame β}
    (hdf : (b.fetchBaseHistoricalData c now historical).1 = some df) :
    historical = some df ∨ c.enableBaseCache = true ∧
      ∃ j ∈ inputs, j.historical = some df ∧ now - j.endTime < c.baseRefreshSeconds * SECOND := by
  unfold BaseCache.fetchBaseHistoricalData at hdf
  split at hdf
  next df' hcached =>
    cases hdf
    obtain ⟨henabled, hcache, last, hlast, hfresh⟩ := fresh?_eq_some hcached
    obtain ⟨j, hj, hhistorical, hrefresh⟩ := h.cache df hcache
    rw [hlast, Option.some.injEq] at hrefresh
    exact .inr ⟨henabled, j, hj, hhistorical, hrefresh ▸ hfresh⟩
  next =>
    dsimp only at hdf
    split at hdf
    · cases hdf
    · split at hdf
      all_goals
        cases hdf
        exact .inl rfl

theorem BaseInv.fetch {inputs : List (CycleInput β)} {b : BaseCache β} (h : BaseInv inputs b) (c : FetcherConfig)
    (i : CycleInput β) : BaseInv (inputs ++ [i]) (b.fetchBaseHistoricalData c i.endTime i.historical).2 := by
  have hkept : ∀ df, b.historicalCache = some df →
      ∃ j ∈ inputs ++ [i], j.historical = some df ∧ b.lastRefresh = some j.endTime := by
    intro df hdf
    obtain ⟨j, hj, hj'⟩ := h.cache df hdf
    exact ⟨j, List.mem_append_left _ hj, hj'⟩
  have hcalls := h.calls
  have hrequests := h.requests
  unfold BaseCache.fetchBaseHistoricalData
  split
  · refine ⟨hkept, ?_, hrequests⟩
    simp only [List.length_append, List.length_singleton]
    omega
  · have hmissed : b.cacheHits + (b.cacheMisses + 1) = (inputs ++ [i]).length := by
      simp only [List.length_append, List.length_singleton]
      omega
    dsimp only
    split
    · exact ⟨hkept, hmissed, congrArg (· + 1) hrequests⟩
    next df hdf =>
      split
      · refine ⟨fun df' hdf' => ?_, hmissed, congrArg (· + 1) hrequests⟩
        cases hdf'
        exact ⟨i, by simp, hdf, rfl⟩
      · exact ⟨hkept, hmissed, congrArg (· + 1) hrequests⟩

theorem BaseInv.evictIf {inputs : List (CycleInput β)} {b : BaseCache β} (h : BaseInv inputs b) (fires : Bool) :
    BaseInv inputs (b.evictIf fires) := by
  unfold BaseCache.evictIf
  split
  · exact ⟨fun df hdf => absurd hdf (by simp), h.calls, h.requests⟩
  · exact h

theorem baseInv_run (c : FetcherConfig) (inputs : List (CycleInput β)) : BaseInv inputs (run c inputs).base := by
  induction inputs using List.reverseRecOn with
  | nil => exact ⟨fun df hdf => absurd hdf (by simp [run]), rfl, rfl⟩
  | append_singleton inputs i ih =>
    rw [run_concat]
    obtain ⟨fires, heq⟩ := base_fetchLatestData c i (run c inputs)
    rw [heq]
    exact (ih.fetch c i).evictIf fires

/-- Every frame that the guard saw is empty or an answer of the provider. -/
theorem frames_run (c : FetcherConfig) (inputs : List (CycleInput β)) : ∀ df ∈ (run c inputs).watch.frames,
    df = Frame.none ∨ ∃ j ∈ inputs, j.historical = some df := by
  induction inputs using List.reverseRecOn with
  | nil => exact fun df hdf => absurd hdf List.not_mem_nil
  | append_singleton inputs i ih =>
    intro df hdf
    rw [run_concat, watch_fetchLatestData, (stalenessGuard_frame _ _).2, frames_noteFrame] at hdf
    rcases List.mem_append.1 hdf with hdf | hdf
    · rcases ih df hdf with hdf | ⟨j, hj, hj'⟩
      · exact .inl hdf
      · exact .inr ⟨j, List.mem_append_left _ hj, hj'⟩
    · rw [List.mem_singleton.1 hdf]
      rcases hfetched : ((run c inputs).base.fetchBaseHistoricalData c i.endTime i.historical).1 with _ | df'
      · exact .inl rfl
      · rcases (baseInv_run c inputs).served hfetched with hdf' | ⟨-, j, hj, hj', -⟩
        · exact .inr ⟨i, by simp, hdf'⟩
        · exact .inr ⟨j, List.mem_append_left _ hj, hj'⟩

/-- Over any cycles, whatever the provider answers: the last bar that counts is the newest in the `timestamp` column of any
frame so far; the agent is restarted at most once for each such bar, and only when it is stale; a cycle that finds it stale
leaves it restarted for; and where all frames have their timestamps in the index, it is never restarted. -/
theorem staleness_guard (c : FetcherConfig) (inputs : List (CycleInput β)) :
    (run c inputs).watch.lastSuccessfulBarTs = ((run c inputs).watch.frames.filterMap Frame.newest).max? ∧
      ((run c inputs).watch.restarts.map Restart.bar).Pairwise (· < ·) ∧
      (∀ r ∈ (run c inputs).watch.restarts, Stale r.time r.bar) ∧
      (∀ i ∈ inputs.getLast?, ∀ bar, (run c inputs).watch.lastSuccessfulBarTs = some bar → Stale i.guardTime bar →
        ∃ r ∈ (run c inputs).watch.restarts, r.bar = bar) ∧
      ((∀ i ∈ inputs, ∀ df, i.historical = some df → df.layout = .indexed) → (run c inputs).watch.restarts = []) := by
  have hinv := guardInv_run c inputs
  refine ⟨hinv.newest, hinv.rising, hinv.stale, fun i hi bar hbar hstale => ?_, fun hindexed => ?_⟩
  · obtain ⟨inputs', rfl⟩ := List.getLast?_eq_some_iff.1 hi
    have htriggered : (run c (inputs' ++ [i])).watch.staleBarRestartTriggered = true := by
      rw [run_concat, watch_fetchLatestData] at hbar ⊢
      rw [(stalenessGuard_frame _ _).1] at hbar
      exact triggered_stalenessGuard hbar hstale
    obtain ⟨r, hr, hlast⟩ := hinv.set htriggered
    rw [hbar, Option.some.injEq] at hlast
    exact ⟨r, hr, hlast.symm⟩
  · have hnone : (run c inputs).watch.frames.filterMap Frame.newest = [] := by
      refine List.filterMap_eq_nil_iff.2 fun df hdf => ?_
      rcases frames_run c inputs df hdf with rfl | ⟨j, hj, hj'⟩
      · rfl
      · rw [Frame.newest, hindexed j hj df hj']
    refine List.eq_nil_iff_forall_not_mem.2 fun r hr => ?_
    obtain ⟨bar, hbar, -⟩ := hinv.below r hr
    rw [hinv.newest, hnone] at hbar
    cases hbar

/-- Five stale cycles of the same last bar, on a Wednesday from 15:00. -/
def staleCycles (layout : Layout) : List (CycleInput Unit) :=
  (List.range 5).map fun (k : Nat) =>
    let now : Int := (1736348400 + 30 * (k : Int)) * SECOND
    ⟨now, now, now, some ⟨layout, [(1736347800 * SECOND, ())]⟩, .absent, none, none⟩

def sampleConfig : FetcherConfig := ⟨100, 100, 100, true, 60, true, 300, 900⟩

-- The same bars trigger one restart as a column, and none in the index.
example : ((run sampleConfig (staleCycles .column)).watch.restarts.length,
    (run sampleConfig (staleCycles .indexed)).watch.restarts.length) = (1, 0) := by decide +kernel

/-! ### The 5- and 15-minute frames over a run -/

/-- The last answer that was not empty. -/
def lastFull (asks : List (Int × Frame β)) : Option (Frame β) :=
  ((asks.filter fun a => !a.2.isEmpty).getLast?).map Prod.snd

/-- The last time at which the provider answered, from the first answer on that was not empty; empty answers count. -/
def lastAnswered (asks : List (Int × Frame β)) : Option Int :=
  ((asks.dropWhile fun a => a.2.isEmpty).getLast?).map Prod.fst

theorem lastFull_concat (asks : List (Int × Frame β)) (now : Int) (df : Frame β) :
    lastFull (asks ++ [(now, df)]) = if df.isEmpty then lastFull asks else some df := by
  unfold lastFull
  rw [List.filter_append]
  split
  next hempty => simp [hempty]
  next hfull => simp [hfull]

theorem lastFull_eq_none {asks : List (Int × Frame β)} :
    lastFull asks = none ↔ asks.dropWhile (fun a => a.2.isEmpty) = [] := by
  rw [List.dropWhile_eq_nil_iff]
  simp [lastFull]

theorem lastAnswered_concat (asks : List (Int × Frame β)) (now : Int) (df : Frame β) :
    lastAnswered (asks ++ [(now, df)]) =
      if df.isEmpty = true ∧ (lastFull asks).isNone then lastAnswered asks else some now := by
  rcases hlast : lastFull asks with _ | full
  · have hall := lastFull_eq_none.1 hlast
    cases hdf : df.isEmpty <;> simp [lastAnswered, List.dropWhile_append, hall, hdf]
  · have hne : asks.dropWhile (fun a => a.2.isEmpty) ≠ [] := by
      rw [ne_eq, ← lastFull_eq_none, hlast]
      simp
    simp [lastAnswered, List.dropWhile_append, hne]

theorem isEmpty_lastFull {asks : List (Int × Frame β)} {df : Frame β} (h : lastFull asks = some df) :
    df.isEmpty = false := by
  obtain ⟨a, ha, rfl⟩ := Option.map_eq_some_iff.1 h
  have hmem := List.mem_of_getLast? ha
  simpa using (List.mem_filter.1 hmem).2

theorem isEmpty_normalize {bufferSize : Nat} (hsize : 0 < bufferSize) {df : Frame β} (h : df.isEmpty = false) :
    (normalizeToStrategyBuffer df bufferSize).isEmpty = false := by
  have hlength : 0 < df.rows.length := by
    rw [Frame.isEmpty, List.isEmpty_eq_false_iff] at h
    exact List.length_pos_iff.2 h
  rw [normalizeToStrategyBuffer, if_neg (by simp [h]), Frame.isEmpty, List.isEmpty_eq_false_iff, ← List.length_pos_iff,
    List.length_drop]
  omega

/-- The buffer has the last answer that was not empty, and the refresh is dated by the last answer of any kind. -/
structure FrameInv (bufferSize : Nat) (m : Timeframe β) : Prop where
  buffer : m.buffer = (lastFull m.asks).map (normalizeToStrategyBuffer · bufferSize)
  lastRefresh : m.lastRefresh = lastAnswered m.asks

namespace FrameInv
variable {bufferSize : Nat} {m : Timeframe β}

theorem answered_buffer (h : FrameInv bufferSize m) (now : Int) (df : Frame β) :
    (m.answered now bufferSize df).buffer =
      (lastFull (m.answered now bufferSize df).asks).map (normalizeToStrategyBuffer · bufferSize) := by
  unfold Timeframe.answered
  dsimp only
  rw [lastFull_concat, h.buffer]
  split <;> rfl

theorem refresh (h : FrameInv bufferSize m) (hsize : 0 < bufferSize) (now ttl : Int) (answer : Option (Frame β)) :
    FrameInv bufferSize (m.refresh now ttl bufferSize answer) := by
  unfold Timeframe.refresh
  split
  · dsimp only
    split
    · exact ⟨h.buffer, h.lastRefresh⟩
    next df =>
      have hmissed : FrameInv bufferSize { m with cacheMisses := m.cacheMisses + 1 } := ⟨h.buffer, h.lastRefresh⟩
      have hbuffer := hmissed.answered_buffer now df
      have hempty : ({ m with cacheMisses := m.cacheMisses + 1 }.answered now bufferSize df).current.isEmpty = true ↔
          df.isEmpty = true ∧ (lastFull m.asks).isNone = true := by
        rw [Timeframe.current, hbuffer, Timeframe.answered]
        dsimp only
        rw [lastFull_concat]
        rcases hlast : lastFull m.asks with _ | full
        · cases hdf : df.isEmpty
          · simp [isEmpty_normalize hsize hdf]
          · simp [Frame.none, Frame.isEmpty]
        · have hfull := isEmpty_normalize hsize (isEmpty_lastFull hlast)
          cases hdf : df.isEmpty
          · simp [isEmpty_normalize hsize hdf]
          · simp [hfull]
      split
      next hcurrent =>
        refine ⟨hbuffer, ?_⟩
        rw [Timeframe.answered]
        dsimp only
        rw [lastAnswered_concat, if_pos (hempty.1 hcurrent)]
        exact h.lastRefresh
      next hcurrent =>
        refine ⟨hbuffer, ?_⟩
        rw [Timeframe.answered]
        dsimp only
        rw [lastAnswered_concat, if_neg fun hh => hcurrent (hempty.2 hh)]
  · exact ⟨h.buffer, h.lastRefresh⟩

end FrameInv

theorem frameInv_run {c : FetcherConfig} (henabled : c.enableMtfCache = true) (h5 : 0 < c.bufferSize5m)
    (h15 : 0 < c.bufferSize15m) (inputs : List (CycleInput β)) :
    FrameInv c.bufferSize5m (run c inputs).m5 ∧ FrameInv c.bufferSize15m (run c inputs).m15 := by
  induction inputs using List.reverseRecOn with
  | nil => exact ⟨⟨rfl, rfl⟩, ⟨rfl, rfl⟩⟩
  | append_singleton inputs i ih =>
    rw [run_concat]
    unfold fetchLatestData
    dsimp only
    split
    · exact ih
    · simp only [fetchMultitimeframeData, henabled, if_true]
      exact ⟨ih.1.refresh h5 _ _ _, ih.2.refresh h15 _ _ _⟩

/-- Over any cycles with both caches, whatever the provider answers: the history that the next cycle starts from is its
own answer, or one that was asked for within the time to live; every cycle is a hit or a request; the 5- and 15-minute
frames are the last answers that were not empty; and their time to live counts from the last answer, an empty one
included. -/
theorem fetcher_caches (c : FetcherConfig) (inputs : List (CycleInput β)) :
    (∀ i : CycleInput β, ∀ df,
      ((run c inputs).base.fetchBaseHistoricalData c i.endTime i.historical).1 = some df → i.historical = some df ∨
        c.enableBaseCache = true ∧
          ∃ j ∈ inputs, j.historical = some df ∧ i.endTime - j.endTime < c.baseRefreshSeconds * SECOND) ∧
      (run c inputs).base.cacheHits + (run c inputs).base.requestCount = inputs.length ∧
      (c.enableMtfCache = true → 0 < c.bufferSize5m → 0 < c.bufferSize15m →
        FrameInv c.bufferSize5m (run c inputs).m5 ∧ FrameInv c.bufferSize15m (run c inputs).m15) := by
  have hbase := baseInv_run c inputs
  refine ⟨fun i df hdf => hbase.served hdf, ?_, fun henabled h5 h15 => frameInv_run henabled h5 h15 inputs⟩
  rw [hbase.requests]
  exact hbase.calls

end PearlAlgo.DataFetcher
