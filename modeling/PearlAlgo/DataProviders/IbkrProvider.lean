import PearlAlgo.Lts.Reach
import PearlAlgo.Py.Seq
import Mathlib.Data.Rat.Defs
import Mathlib.Logic.Function.Basic

/-!
# The IBKR provider's historical bars (`data_providers/ibkr/ibkr_provider.py`)

`fetch_historical` calls run in threads of a pool, so several are under way at once: a call is cut at its awaits.
A bar says what it is a bar of. `ofKind_iff` is about every run of calls.
-/

namespace PearlAlgo
open Py Lts

namespace IBKRProvider

/-! ### Timeframes -/

inductive BarSize
  | oneMin
  | fiveMins
  | fifteenMins
  | thirtyMins
  | oneHour
  | oneDay
  deriving DecidableEq

def BarSize.seconds : BarSize → Nat
  | .oneMin => 60
  | .fiveMins => 300
  | .fifteenMins => 900
  | .thirtyMins => 1800
  | .oneHour => 3600
  | .oneDay => 86400

def barSizeMap : List (String × BarSize) :=
  [("1m", .oneMin), ("5m", .fiveMins), ("15m", .fifteenMins), ("30m", .thirtyMins), ("1h", .oneHour), ("1d", .oneDay)]

/-- `timeframe.lower() if timeframe else "1d"` -/
def timeframeText : Option String → String
  | some text => if text = "" then "1d" else text.toLower
  | none => "1d"

/-- The bars that `GetHistoricalDataTask` asks the broker for. -/
def barSize (timeframe : Option String) : BarSize := (barSizeMap.lookup (timeframeText timeframe)).getD .oneDay

def unitSeconds : Char → Option Nat
  | 's' => some 1
  | 'm' => some 60
  | 'h' => some 3600
  | 'd' => some 86400
  | 'w' => some 604800
  | _ => none

/-- The length of the bars that a timeframe names: a number and a unit. -/
def namedSeconds (timeframe : Option String) : Option Nat :=
  match (timeframeText timeframe).toList.reverse with
  | [] => none
  | unit :: digits => (unitSeconds unit).bind fun n => (digitsValue 0 false digits.reverse).map fun k => k * n

/-- The timeframes of the map name the bars that they are mapped to. -/
theorem namedSeconds_of_lookup {timeframe : Option String} {size : BarSize}
    (h : barSizeMap.lookup (timeframeText timeframe) = some size) : namedSeconds timeframe = some size.seconds := by
  have hall : ∀ e ∈ barSizeMap, namedSeconds (some e.1) = some e.2.seconds ∧ timeframeText (some e.1) = e.1 := by
    decide +kernel
  obtain ⟨l₁, l₂, hmap, -⟩ := List.lookup_eq_some_iff.1 h
  have hmem : (timeframeText timeframe, size) ∈ barSizeMap := by simp [hmap]
  obtain ⟨hnamed, htext⟩ := hall _ hmem
  rw [← hnamed, namedSeconds, namedSeconds, htext]

/-! ### The circuit breaker -/

/-- A bar of the frames, with what it is a bar of. -/
structure Bar (Values : Type) where
  symbol : String
  size : BarSize
  date : Int
  values : Values
  deriving DecidableEq

inductive BreakerState
  | closed
  | opened
  | halfOpen
  deriving DecidableEq

/-- `ConnectionCircuitBreaker` without the cached quote. -/
structure Breaker (Values : Type) where
  consecutiveFailures : Nat := 0
  state : BreakerState := .closed
  openedAt : Rat := 0
  lastCachedDf : Option (List (Bar Values)) := none

variable {Values : Type}

namespace Breaker

def failureThreshold : Nat := 5
def recoverySeconds : Rat := 60

/-- The `state` property, at a reading of the monotonic clock. -/
def promote (now : Rat) (b : Breaker Values) : Breaker Values :=
  if b.state = .opened ∧ recoverySeconds ≤ now - b.openedAt then { b with state := .halfOpen } else b

def recordSuccess (b : Breaker Values) : Breaker Values := { b with consecutiveFailures := 0, state := .closed }

def recordFailure (now : Rat) (b : Breaker Values) : Breaker Values :=
  let b := { b with consecutiveFailures := b.consecutiveFailures + 1 }
  if failureThreshold ≤ b.consecutiveFailures ∧ b.state = .closed then { b with state := .opened, openedAt := now }
  else if b.state = .halfOpen then { b with state := .opened, openedAt := now }
  else b

def cacheDf (df : List (Bar Values)) (b : Breaker Values) : Breaker Values :=
  if df.isEmpty then b else { b with lastCachedDf := some df }

def getCachedDf (b : Breaker Values) : List (Bar Values) := b.lastCachedDf.getD []

@[simp] theorem lastCachedDf_promote (now : Rat) (b : Breaker Values) : (b.promote now).lastCachedDf = b.lastCachedDf := by
  unfold promote
  split <;> rfl

@[simp] theorem lastCachedDf_recordSuccess (b : Breaker Values) : b.recordSuccess.lastCachedDf = b.lastCachedDf := rfl

@[simp] theorem lastCachedDf_recordFailure (now : Rat) (b : Breaker Values) :
    (b.recordFailure now).lastCachedDf = b.lastCachedDf := by
  unfold recordFailure
  dsimp only
  split
  · rfl
  · split <;> rfl

end Breaker

/-! ### Calls -/

structure Request where
  symbol : String
  start : Option Int
  stop : Option Int
  timeframe : Option String
  deriving DecidableEq

/-- Where a call waits: for the connection, or for the broker's bars of its window. -/
inductive Phase
  | idle
  | validating (req : Request)
  | fetching (req : Request) (start stop : Int)
  deriving DecidableEq

/-- What comes back for a task: bars (date and values), bars that no frame can be made of, or an error's text. -/
inductive Answer (Values : Type)
  | bars (rows : List (Int × Values))
  | malformed (rows : List (Int × Values))
  | raised (error : String)

inductive LatestBar
  | data
  | nothing
  | failed

/-- `storedFor` is not in the source: the call whose frame is cached. -/
structure State (Values : Type) where
  breaker : Breaker Values
  calls : Nat → Phase
  storedFor : Option Request

def init : State Values where
  breaker := {}
  calls _ := .idle
  storedFor := none

/-- The stretches of the calls between their awaits. `get_latest_bar` shares the breaker. -/
inductive Act (Values : Type)
  | fetch (call : Nat) (req : Request) (now : Rat)
  | validated (call : Nat) (connected : Bool) (utc : Int) (now : Rat)
  | answered (call : Nat) (answer : Answer Values) (now : Rat)
  | latestBar (now : Rat)
  | latestBarEnds (result : LatestBar) (now : Rat)

/-- The texts of error 162. -/
def sessionConflict (error : String) : Bool :=
  isIn "162" error || isIn "tws session" error.toLower || isIn "different ip" error.toLower

/-- The bars of the task's contract, of the size that it asks for. -/
def taskBars (req : Request) (rows : List (Int × Values)) : List (Bar Values) :=
  rows.map fun (date, values) => { symbol := req.symbol, size := barSize req.timeframe, date, values }

/-- The frame that a call makes of the bars. -/
def frameOf (req : Request) (start stop : Int) (rows : List (Int × Values)) : List (Bar Values) :=
  (taskBars req rows).filter fun bar => start ≤ bar.date ∧ bar.date ≤ stop

/-- The end of `_fetch_historical_async`, after the broker's answer. -/
def finish (req : Request) (start stop : Int) (answer : Answer Values) (now : Rat) (s : State Values) :
    State Values × List (Bar Values) :=
  match answer with
  | .bars [] | .malformed [] => (s, [])
  | .bars rows =>
    let df := frameOf req start stop rows
    ({ s with
        breaker := s.breaker.recordSuccess.cacheDf df
        storedFor := if df.isEmpty then s.storedFor else some req }, df)
  | .malformed _ => ({ s with breaker := s.breaker.recordFailure now }, s.breaker.getCachedDf)
  | .raised error =>
    if sessionConflict error then (s, [])
    else ({ s with breaker := s.breaker.recordFailure now }, s.breaker.getCachedDf)

/-- A stretch of a call, and the frame where the call returns in it. -/
def step (s : State Values) : Act Values → State Values × Option (List (Bar Values))
  | .fetch call req now =>
    match s.calls call with
    | .idle =>
      let s := { s with breaker := s.breaker.promote now }
      if s.breaker.state = .opened then (s, some s.breaker.getCachedDf)
      else ({ s with calls := Function.update s.calls call (.validating req) }, none)
    | _ => (s, none)
  | .validated call connected utc now =>
    match s.calls call with
    | .validating req =>
      if connected then
        let start := req.start.getD (utc - 365 * 86400)
        let stop := req.stop.getD utc
        ({ s with calls := Function.update s.calls call (.fetching req start stop) }, none)
      else
        ({ s with breaker := s.breaker.recordFailure now, calls := Function.update s.calls call .idle },
          some s.breaker.getCachedDf)
    | _ => (s, none)
  | .answered call answer now =>
    match s.calls call with
    | .fetching req start stop =>
      let (s, df) := finish req start stop answer now s
      ({ s with calls := Function.update s.calls call .idle }, some df)
    | _ => (s, none)
  | .latestBar now => ({ s with breaker := s.breaker.promote now }, none)
  | .latestBarEnds .data _ => ({ s with breaker := s.breaker.recordSuccess }, none)
  | .latestBarEnds .nothing _ => (s, none)
  | .latestBarEnds .failed now => ({ s with breaker := s.breaker.recordFailure now }, none)

def next (s : State Values) (a : Act Values) : State Values := (step s a).1

/-! ### The kind of the bars -/

def requestOf (s : State Values) : Act Values → Option Request
  | .fetch _ req _ => some req
  | .validated call _ _ _ | .answered call _ _ =>
    match s.calls call with
    | .idle => none
    | .validating req | .fetching req _ _ => some req
  | _ => none

def Bar.OfKind (req : Request) (bar : Bar Values) : Prop :=
  bar.symbol = req.symbol ∧ namedSeconds req.timeframe = some bar.size.seconds

instance (req : Request) (bar : Bar Values) : Decidable (bar.OfKind req) := inferInstanceAs (Decidable (_ ∧ _))

/-- The frame of a call that returns is of the symbol and the timeframe of the call. -/
def ReturnsKind (s : State Values) (a : Act Values) : Prop :=
  ∀ df ∈ (step s a).2, ∀ req ∈ requestOf s a, ∀ bar ∈ df, bar.OfKind req

instance (s : State Values) (a : Act Values) : Decidable (ReturnsKind s a) :=
  inferInstanceAs (Decidable (∀ df ∈ (step s a).2, ∀ req ∈ requestOf s a, ∀ bar ∈ df, bar.OfKind req))

/-- Bars that were fetched for `stored` are what `req` asks for. -/
def Request.Matches (req stored : Request) : Prop :=
  stored.symbol = req.symbol ∧ namedSeconds req.timeframe = some (barSize stored.timeframe).seconds

instance (req stored : Request) : Decidable (req.Matches stored) := inferInstanceAs (Decidable (_ ∧ _))

/-- Whether the broker's answer makes the call fall back on the cache. -/
def Answer.fails : Answer Values → Bool
  | .bars _ => false
  | .malformed rows => !rows.isEmpty
  | .raised error => !sessionConflict error

/-- A call that falls back asks for what the last stored frame was fetched for, and the timeframe of a call with bars
in its window names the bars that it is mapped to. -/
def Matched (s : State Values) : Act Values → Prop
  | .fetch call req now =>
    s.calls call = .idle → (s.breaker.promote now).state = .opened → ∀ stored ∈ s.storedFor, req.Matches stored
  | .validated call connected _ _ =>
    match s.calls call with
    | .validating req => connected = false → ∀ stored ∈ s.storedFor, req.Matches stored
    | _ => True
  | .answered call answer _ =>
    match s.calls call with
    | .fetching req start stop =>
      if answer.fails then ∀ stored ∈ s.storedFor, req.Matches stored
      else
        match answer with
        | .bars rows => (∃ row ∈ rows, start ≤ row.1 ∧ row.1 ≤ stop) → req.Matches req
        | _ => True
    | _ => True
  | _ => True

/-! ### What is cached -/

/-- The cached frame has bars, and they are of the call that it was stored for. -/
structure Stored (s : State Values) : Prop where
  isSome : s.breaker.lastCachedDf.isSome = s.storedFor.isSome
  ne_nil : ∀ df ∈ s.breaker.lastCachedDf, df ≠ []
  bars : ∀ df ∈ s.breaker.lastCachedDf, ∀ req ∈ s.storedFor, ∀ bar ∈ df,
    bar.symbol = req.symbol ∧ bar.size = barSize req.timeframe

variable {s s' : State Values} {req : Request} {start stop : Int} {rows : List (Int × Values)} {answer : Answer Values}
  {bar : Bar Values} {now : Rat}

theorem Stored.congr (h : Stored s) (hdf : s'.breaker.lastCachedDf = s.breaker.lastCachedDf)
    (hfor : s'.storedFor = s.storedFor) : Stored s' := by
  obtain ⟨hsome, hne, hbars⟩ := h
  constructor
  · rw [hdf, hfor, hsome]
  · rwa [hdf]
  · rwa [hdf, hfor]

theorem stored_init : Stored (init : State Values) := by
  constructor <;> simp [init]

theorem mem_frameOf : bar ∈ frameOf req start stop rows ↔
    ∃ row ∈ rows, (start ≤ row.1 ∧ row.1 ≤ stop) ∧ bar = ⟨req.symbol, barSize req.timeframe, row.1, row.2⟩ := by
  simp only [frameOf, taskBars, List.mem_filter, List.mem_map, Bool.decide_and, Bool.and_eq_true, decide_eq_true_eq]
  constructor
  · rintro ⟨⟨row, hrow, rfl⟩, hwindow⟩
    exact ⟨row, hrow, hwindow, rfl⟩
  · rintro ⟨row, hrow, hwindow, rfl⟩
    exact ⟨⟨row, hrow, rfl⟩, hwindow⟩

theorem Stored.finish (h : Stored s) : Stored (finish req start stop answer now s).1 := by
  unfold IBKRProvider.finish
  split
  · exact h
  · exact h
  next rows _ =>
    dsimp only
    by_cases hempty : (frameOf req start stop rows).isEmpty
    · refine h.congr ?_ ?_ <;> simp [Breaker.cacheDf, hempty]
    · have hne : frameOf req start stop rows ≠ [] := by simpa using hempty
      constructor
      · simp [Breaker.cacheDf, hempty]
      · simpa [Breaker.cacheDf, hempty] using hne
      · intro df hdf req' hreq bar hbar
        simp only [Breaker.cacheDf, hempty, Option.mem_some_iff, Bool.false_eq_true, if_false] at hdf hreq
        subst hdf hreq
        obtain ⟨row, -, -, rfl⟩ := mem_frameOf.1 hbar
        exact ⟨rfl, rfl⟩
  · exact h.congr (by simp) rfl
  · split
    · exact h
    · exact h.congr (by simp) rfl

theorem Stored.next (h : Stored s) (a : Act Values) : Stored (next s a) := by
  unfold IBKRProvider.next step
  cases a with
  | fetch call req now =>
    dsimp only
    split
    · split <;> exact h.congr (by simp) rfl
    · exact h
  | validated call connected utc now =>
    dsimp only
    split
    · split
      · exact h.congr rfl rfl
      · exact h.congr (by simp) rfl
    · exact h
  | answered call answer now =>
    dsimp only
    split
    · exact h.finish.congr rfl rfl
    · exact h
  | latestBar now => exact h.congr (by simp) rfl
  | latestBarEnds result now =>
    cases result with
    | data => exact h.congr (by simp) rfl
    | nothing => exact h
    | failed => exact h.congr (by simp) rfl

/-- A fallback is right exactly if the cached frame was stored for a call that asked for the same. -/
theorem Stored.ofKind_getCachedDf_iff (h : Stored s) (req : Request) :
    (∀ bar ∈ s.breaker.getCachedDf, bar.OfKind req) ↔ ∀ stored ∈ s.storedFor, req.Matches stored := by
  obtain ⟨hsome, hne, hbars⟩ := h
  unfold Breaker.getCachedDf
  rcases hdf : s.breaker.lastCachedDf with _ | df
  · have hnone : s.storedFor = none := by simpa [hdf] using hsome.symm
    simp [hnone]
  · obtain ⟨stored, hstored⟩ : ∃ stored, s.storedFor = some stored := by
      rw [hdf] at hsome
      exact Option.isSome_iff_exists.1 hsome.symm
    have hkind : ∀ bar ∈ df, bar.symbol = stored.symbol ∧ bar.size = barSize stored.timeframe :=
      hbars df hdf stored hstored
    simp only [hstored, Option.getD_some, Option.mem_some_iff, forall_eq']
    constructor
    · intro hall
      obtain ⟨bar, hbar⟩ := List.exists_mem_of_ne_nil _ (hne df hdf)
      obtain ⟨hsymbol, hsize⟩ := hkind bar hbar
      obtain ⟨hsymbol', hnamed⟩ := hall bar hbar
      exact ⟨hsymbol ▸ hsymbol', hsize ▸ hnamed⟩
    · rintro ⟨hsymbol, hnamed⟩ bar hbar
      obtain ⟨hsymbol', hsize⟩ := hkind bar hbar
      exact ⟨hsymbol'.trans hsymbol, hsize ▸ hnamed⟩

theorem ofKind_frameOf_iff : (∀ bar ∈ frameOf req start stop rows, bar.OfKind req) ↔
    ((∃ row ∈ rows, start ≤ row.1 ∧ row.1 ≤ stop) → req.Matches req) := by
  simp only [mem_frameOf]
  constructor
  · rintro hall ⟨row, hrow, hwindow⟩
    exact hall _ ⟨row, hrow, hwindow, rfl⟩
  · rintro hmatches bar ⟨row, hrow, hwindow, rfl⟩
    exact hmatches ⟨row, hrow, hwindow⟩

theorem finish_snd (req : Request) (start stop : Int) (answer : Answer Values) (now : Rat) (s : State Values) :
    (finish req start stop answer now s).2 =
      if answer.fails then s.breaker.getCachedDf
      else
        match answer with
        | .bars rows => frameOf req start stop rows
        | _ => [] := by
  unfold finish
  rcases answer with (_ | _) | (_ | _) | error
  · rfl
  · rfl
  · rfl
  · rfl
  · dsimp only [Answer.fails]
    by_cases h : sessionConflict error <;> simp [h]

/-- A step returns bars of the right kind exactly if it meets the condition. -/
theorem returnsKind_iff_matched (h : Stored s) (a : Act Values) : ReturnsKind s a ↔ Matched s a := by
  unfold ReturnsKind
  cases a with
  | fetch call req now =>
    have hstored : Stored { s with breaker := s.breaker.promote now } := h.congr (by simp) rfl
    have hiff := hstored.ofKind_getCachedDf_iff req
    simp only [Matched, step, requestOf, Option.mem_some_iff, forall_eq']
    rcases hcall : s.calls call with _ | _ | _
    · by_cases hopen : (s.breaker.promote now).state = .opened
      · simpa [hopen] using hiff
      · simp [hopen]
    · simp
    · simp
  | validated call connected utc now =>
    simp only [Matched, step, requestOf]
    rcases hcall : s.calls call with _ | req | _
    · simp
    · cases connected with
      | false => simpa using h.ofKind_getCachedDf_iff req
      | true => simp
    · simp
  | answered call answer now =>
    simp only [Matched, step, requestOf]
    rcases hcall : s.calls call with _ | _ | ⟨req, start, stop⟩
    · simp
    · simp
    · simp only [finish_snd, Option.mem_some_iff, forall_eq']
      by_cases hfails : answer.fails
      · simpa [hfails] using h.ofKind_getCachedDf_iff req
      · rcases answer with rows | rows | error
        · simpa [hfails] using ofKind_frameOf_iff
        · simp [hfails]
        · simp [hfails]
  | latestBar now => simp [Matched, step]
  | latestBarEnds result now => cases result <;> simp [Matched, step]

/-- In a run of calls every frame is of the requested symbol and timeframe exactly if all its steps are matched. -/
theorem returnsKind_iff (acts : List (Act Values)) : Along next ReturnsKind init acts ↔ Along next Matched init acts := by
  have hany : Along next AnyStep (init : State Values) acts := Along.anyStep acts
  exact hany.congr (fun s a hs _ => hs.next a) (fun s a hs _ => returnsKind_iff_matched hs a) stored_init

/-- A minute's bars are asked for while the broker is away, after five-minute bars. -/
theorem not_returnsKind : ¬ ∀ acts : List (Act Unit), Along next ReturnsKind init acts := by
  intro hall
  have hrun := hall [.fetch 0 ⟨"MNQ", none, none, some "5m"⟩ 0, .validated 0 true 1000 0, .answered 0 (.bars [(300, ())]) 0,
    .fetch 1 ⟨"MNQ", none, none, some "1m"⟩ 1, .validated 1 false 1300 1]
  revert hrun
  decide +kernel

end IBKRProvider

end PearlAlgo
