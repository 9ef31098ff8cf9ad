import Mathlib.Algebra.Order.Floor.Ring
import Mathlib.Data.List.Forall2
import Mathlib.Data.List.Pairwise
import Mathlib.Data.Rat.Floor

/-!
# The replay harness (`scripts/ops/backtest_config.py`)

`simulate_exit` and the loop of `run_backtest` over the rows of the archive. A trade is resolved against the rows that
follow its bar as soon as it is admitted, and takes a slot until its exit. `F` are the prices, whatever their
arithmetic.
-/

namespace PearlAlgo

namespace ReplayHarness

structure Candle (F : Type) where
  time : Int
  open_ : F
  high : F
  low : F
  close : F
  volume : F

/-- What the loop reads of a signal; `trigger` is its `_extract_trigger`. -/
structure Signal (F : Type) where
  signalId : Option String
  trigger : String
  direction : Option String
  entryPrice : Option F
  stopLoss : Option F
  takeProfit : Option F
  confidence : Option F

structure Entry (F : Type) where
  signalId : String
  trigger : String
  direction : String
  entryTime : Int
  entryPrice : F
  stopLoss : F
  takeProfit : F
  confidence : F

inductive ExitReason
  | tp
  | sl
  | timeout
deriving DecidableEq

structure Exit (F : Type) where
  exitTime : Int
  exitPrice : F
  exitReason : ExitReason

/-- A closed `SimTrade`. -/
structure SimTrade (F : Type) where
  entry : Entry F
  exit : Exit F

/-- The arguments of `run_backtest` that the loop reads. -/
structure Params (F : Type) where
  tfMin : Nat
  tfMinPos : 0 < tfMin
  warmupBars : Nat
  maxHoldMinutes : Nat
  maxConcurrent : Nat
  slippagePoints : F

abbrev SignalFn (F : Type) := List (Candle F) → Int → Except String (List (Signal F))

variable {F : Type}

/-- The archive has one row for a time, and answers in the order of time. -/
def Ascending (rows : List (Candle F)) : Prop := rows.Pairwise fun a b => a.time < b.time

theorem split_at {rows : List (Candle F)} (h : Ascending rows) (time : Int) :
    ∃ past fut, rows = past ++ fut ∧ (∀ b ∈ past, b.time ≤ time) ∧ ∀ b ∈ fut, time < b.time := by
  induction rows with
  | nil => exact ⟨[], [], rfl, by simp, by simp⟩
  | cons bar rows ih =>
    obtain ⟨hbar, hrows⟩ := List.pairwise_cons.1 h
    by_cases hle : bar.time ≤ time
    · obtain ⟨past, fut, rfl, hpast, hfut⟩ := ih hrows
      exact ⟨bar :: past, fut, rfl, List.forall_mem_cons.2 ⟨hle, hpast⟩, hfut⟩
    · refine ⟨[], bar :: rows, rfl, by simp, List.forall_mem_cons.2 ⟨by omega, fun b hb => ?_⟩⟩
      have hlt := hbar b hb
      omega

theorem time_of_getElem? {rows : List (Candle F)} {i : Nat} {bar : Candle F} (h : Ascending rows)
    (hbar : rows[i]? = some bar) :
    (∀ b ∈ rows.take (i + 1), b.time ≤ bar.time) ∧ ∀ b ∈ rows.drop (i + 1), bar.time < b.time := by
  have htake : rows.take (i + 1) = rows.take i ++ [bar] := by
    rw [List.take_add_one, hbar]
    rfl
  unfold Ascending at h
  rw [← List.take_append_drop (i + 1) rows, htake, List.append_assoc, List.singleton_append, List.pairwise_append,
    List.pairwise_cons] at h
  obtain ⟨-, ⟨hlater, -⟩, hearlier⟩ := h
  refine ⟨fun b hb => ?_, hlater⟩
  rw [htake, List.mem_append, List.mem_singleton] at hb
  rcases hb with hb | rfl
  · exact (hearlier b hb bar List.mem_cons_self).le
  · exact le_rfl

/-! ### Books -/

structure Book (F : Type) where
  openTrades : List (SimTrade F)
  closedTrades : List (SimTrade F)

/-- The slots of the trades whose exit has passed are free again. -/
def freeSlots (time : Int) (book : Book F) : Book F :=
  { book with openTrades := book.openTrades.filter fun t => time < t.exit.exitTime }

/-- The same entry, and the same exit where one of them leaves by then. -/
def Alike (time : Int) (t t' : SimTrade F) : Prop :=
  t.entry = t'.entry ∧ (t.exit.exitTime ≤ time ∨ t'.exit.exitTime ≤ time → t.exit = t'.exit)

structure AlikeBooks (time : Int) (book book' : Book F) : Prop where
  openTrades : List.Forall₂ (Alike time) book.openTrades book'.openTrades
  closedTrades : List.Forall₂ (Alike time) book.closedTrades book'.closedTrades

theorem AlikeBooks.freeSlots {time now : Int} {book book' : Book F} (hnow : now ≤ time) (h : AlikeBooks time book book') :
    AlikeBooks time (freeSlots now book) (freeSlots now book') := by
  refine ⟨List.rel_filter (fun t t' halike => ?_) h.openTrades, h.closedTrades⟩
  simp only [decide_eq_true_eq]
  by_cases hexit : t.exit.exitTime ≤ time ∨ t'.exit.exitTime ≤ time
  · rw [halike.2 hexit]
  · omega

theorem map_entry_filter_congr {time : Int} {l l' : List (SimTrade F)} (h : List.Forall₂ (Alike time) l l') :
    (l.filter fun t => t.entry.entryTime ≤ time).map SimTrade.entry =
      (l'.filter fun t => t.entry.entryTime ≤ time).map SimTrade.entry := by
  induction h with
  | nil => rfl
  | @cons t t' l l' halike _ ih =>
    by_cases hentry : t.entry.entryTime ≤ time
    · simp [← halike.1, hentry, ih]
    · simp [← halike.1, hentry, ih]

theorem filter_exit_congr {time : Int} {l l' : List (SimTrade F)} (h : List.Forall₂ (Alike time) l l') :
    (l.filter fun t => t.exit.exitTime ≤ time) = l'.filter fun t => t.exit.exitTime ≤ time := by
  induction h with
  | nil => rfl
  | @cons t t' l l' halike _ ih =>
    obtain ⟨entry, exit⟩ := t
    obtain ⟨entry', exit'⟩ := t'
    obtain ⟨rfl, hexit⟩ : entry = entry' ∧ (exit.exitTime ≤ time ∨ exit'.exitTime ≤ time → exit = exit') := halike
    by_cases hleft : exit.exitTime ≤ time ∨ exit'.exitTime ≤ time
    · obtain rfl := hexit hleft
      simp only [List.filter_cons, ih]
    · obtain ⟨hlate, hlate'⟩ := not_or.1 hleft
      simp [hlate, hlate', ih]

/-! ### Exits -/

variable [Add F] [Sub F] [LE F] [DecidableLE F]

/-- The first touch of a bar: stop, target, then the deadline. -/
def touch (slippage : F) (maxHoldMinutes : Nat) (e : Entry F) (bar : Candle F) : Option (Exit F) :=
  if bar.time ≤ e.entryTime then none
  else if e.direction = "long" ∧ bar.low ≤ e.stopLoss then some ⟨bar.time, e.stopLoss - slippage, .sl⟩
  else if e.direction = "long" ∧ e.takeProfit ≤ bar.high then some ⟨bar.time, e.takeProfit - slippage, .tp⟩
  else if e.direction ≠ "long" ∧ e.stopLoss ≤ bar.high then some ⟨bar.time, e.stopLoss + slippage, .sl⟩
  else if e.direction ≠ "long" ∧ bar.low ≤ e.takeProfit then some ⟨bar.time, e.takeProfit + slippage, .tp⟩
  else if e.entryTime + maxHoldMinutes * 60 ≤ bar.time then some ⟨bar.time, bar.close, .timeout⟩
  else none

/-- `simulate_exit`; `none` where the trade stays open. -/
def simulateExit (slippage : F) (maxHoldMinutes : Nat) (e : Entry F) (future : List (Candle F)) : Option (Exit F) :=
  match future.findSome? (touch slippage maxHoldMinutes e) with
  | some exit => some exit
  | none => future.getLast?.map fun last => ⟨last.time, last.close, .timeout⟩

variable {past fut fut' : List (Candle F)} {bar : Candle F} {e : Entry F} {x : Exit F} {slippage : F} {maxHold : Nat}
  {time : Int}

theorem touch_time (h : touch slippage maxHold e bar = some x) : x.exitTime = bar.time := by
  unfold touch at h
  split_ifs at h <;> cases h <;> rfl

theorem exitTime_mem (h : simulateExit slippage maxHold e fut = some x) :
    ∃ bar ∈ fut, x.exitTime = bar.time := by
  unfold simulateExit at h
  split at h
  next exit hsome =>
    cases h
    obtain ⟨bar, hbar, htouch⟩ := List.exists_of_findSome?_eq_some hsome
    exact ⟨bar, hbar, touch_time htouch⟩
  · obtain ⟨last, hlast, ⟨⟩⟩ := Option.map_eq_some_iff.1 h
    exact ⟨last, List.mem_of_getLast? hlast, rfl⟩

theorem simulateExit_append_of_some
    (h : past.findSome? (touch slippage maxHold e) = some x) : simulateExit slippage maxHold e (past ++ fut) = some x := by
  simp [simulateExit, List.findSome?_append, h]

theorem simulateExit_append_of_none (h : past.findSome? (touch slippage maxHold e) = none)
    (hne : fut ≠ []) : simulateExit slippage maxHold e (past ++ fut) = simulateExit slippage maxHold e fut := by
  simp [simulateExit, List.findSome?_append, h, List.getLast?_append_of_ne_nil _ hne]

theorem exists_simulateExit (slippage : F) (maxHold : Nat) (e : Entry F) (hne : fut ≠ []) :
    ∃ x, simulateExit slippage maxHold e fut = some x := by
  unfold simulateExit
  split
  next exit _ => exact ⟨exit, rfl⟩
  · rw [List.getLast?_eq_getLast_of_ne_nil hne]
    exact ⟨_, rfl⟩

/-- Windows that differ only in later rows give the same exit, or later ones. -/
theorem simulateExit_alike (slippage : F) (maxHold : Nat) (e : Entry F) (hne : fut ≠ []) (hne' : fut' ≠ [])
    (hlate : ∀ b ∈ fut, time < b.time) (hlate' : ∀ b ∈ fut', time < b.time) :
    ∃ x x', simulateExit slippage maxHold e (past ++ fut) = some x ∧
      simulateExit slippage maxHold e (past ++ fut') = some x' ∧ (x.exitTime ≤ time ∨ x'.exitTime ≤ time → x = x') := by
  rcases htouch : past.findSome? (touch slippage maxHold e) with _ | x
  · obtain ⟨x, hx⟩ := exists_simulateExit slippage maxHold e hne
    obtain ⟨x', hx'⟩ := exists_simulateExit slippage maxHold e hne'
    refine ⟨x, x', (simulateExit_append_of_none htouch hne).trans hx, (simulateExit_append_of_none htouch hne').trans hx', ?_⟩
    obtain ⟨b, hb, hexit⟩ := exitTime_mem hx
    obtain ⟨b', hb', hexit'⟩ := exitTime_mem hx'
    have hb := hlate b hb
    have hb' := hlate' b' hb'
    omega
  · exact ⟨x, x, simulateExit_append_of_some htouch, simulateExit_append_of_some htouch, fun _ => rfl⟩

/-! ### The loop -/

variable [Zero F] [DecidableEq F]

def maxFwdBars (p : Params F) : Nat := p.maxHoldMinutes / p.tfMin + 2

/-- The trade's data at the entry; `none` without a stop or a target. -/
def entryOf (p : Params F) (i : Nat) (bar : Candle F) (closed : Nat) (sig : Signal F) : Option (Entry F) :=
  match sig.stopLoss, sig.takeProfit with
  | some stop, some take =>
    let price := match sig.entryPrice with
      | some price => if price = 0 then bar.close else price
      | none => bar.close
    let direction := match sig.direction with
      | some direction => if direction = "" then "long" else direction
      | none => "long"
    let signalId := match sig.signalId with
      | some signalId => if signalId = "" then s!"sim-{i}-{closed}" else signalId
      | none => s!"sim-{i}-{closed}"
    some {
      signalId, trigger := sig.trigger, direction, entryTime := bar.time
      entryPrice := if direction = "long" then price + p.slippagePoints else price - p.slippagePoints
      stopLoss := stop, takeProfit := take, confidence := sig.confidence.getD 0 }
  | _, _ => none

/-- The signals of a bar one after the other, until the slots are taken. -/
def admitSignals (p : Params F) (i : Nat) (bar : Candle F) (future : List (Candle F)) :
    List (Signal F) → Book F → Book F
  | [], book => book
  | sig :: sigs, book =>
    if p.maxConcurrent ≤ book.openTrades.length then book
    else
      match entryOf p i bar book.closedTrades.length sig with
      | none => admitSignals p i bar future sigs book
      | some entry =>
        match simulateExit p.slippagePoints p.maxHoldMinutes entry future with
        | none => admitSignals p i bar future sigs book
        | some exit =>
          admitSignals p i bar future sigs
            { openTrades := book.openTrades ++ [⟨entry, exit⟩], closedTrades := book.closedTrades ++ [⟨entry, exit⟩] }

inductive BacktestError
  | notEnoughCandles (available warmupBars : Nat)
  | signalsRaised (error : String) (candlesProcessed : Nat)

/-- The body of the loop. -/
def barStep (p : Params F) (sigFn : SignalFn F) (rows : List (Candle F)) (book : Book F) (i : Nat) :
    Except BacktestError (Book F) :=
  match rows[i]? with
  | none => .ok book
  | some bar =>
    match sigFn (rows.take (i + 1)) bar.time with
    | .error error => .error (.signalsRaised error i)
    | .ok sigs =>
      .ok (admitSignals p i bar ((rows.drop (i + 1)).take (maxFwdBars p)) sigs (freeSlots bar.time book))

/-- The trades that `run_backtest` records. -/
def runBacktest (p : Params F) (sigFn : SignalFn F) (rows : List (Candle F)) : Except BacktestError (List (SimTrade F)) :=
  if rows.length ≤ p.warmupBars then .error (.notEnoughCandles rows.length p.warmupBars)
  else
    ((List.range' p.warmupBars (rows.length - p.warmupBars)).foldlM (barStep p sigFn rows) ⟨[], []⟩).map
      Book.closedTrades

/-! ### The properties -/

def recorded (result : Except BacktestError (List (SimTrade F))) : List (SimTrade F) := result.toOption.getD []

/-- A signal function of the frame and the time that does not raise. -/
def pureFn (f : List (Candle F) → Int → List (Signal F)) : SignalFn F := fun frame time => .ok (f frame time)

/-- Trades up to a bar do not depend on the rows behind it. -/
def Causal (p : Params F) (f : List (Candle F) → Int → List (Signal F)) : Prop :=
  ∀ (rows rows' : List (Candle F)) (i : Nat) (bar : Candle F), Ascending rows → Ascending rows' →
    rows.take (i + 1) = rows'.take (i + 1) → i + 1 < rows.length → i + 1 < rows'.length → rows[i]? = some bar →
      let trades := recorded (runBacktest p (pureFn f) rows)
      let trades' := recorded (runBacktest p (pureFn f) rows')
      (trades.filter fun t => t.entry.entryTime ≤ bar.time).map SimTrade.entry =
          (trades'.filter fun t => t.entry.entryTime ≤ bar.time).map SimTrade.entry ∧
        (trades.filter fun t => t.exit.exitTime ≤ bar.time) = trades'.filter fun t => t.exit.exitTime ≤ bar.time

/-- From its entry until its exit. -/
def SimTrade.OpenAt (time : Rat) (t : SimTrade F) : Prop := t.entry.entryTime ≤ time ∧ time < t.exit.exitTime

instance (time : Rat) : DecidablePred (SimTrade.OpenAt (F := F) time) := fun _ => inferInstanceAs (Decidable (_ ∧ _))

def Capped (p : Params F) (f : List (Candle F) → Int → List (Signal F)) : Prop :=
  ∀ (rows : List (Candle F)) (time : Rat), Ascending rows →
    ((recorded (runBacktest p (pureFn f) rows)).filter fun t => t.OpenAt time).length ≤ p.maxConcurrent

/-! ### The loop without errors -/

def pureStep (p : Params F) (f : List (Candle F) → Int → List (Signal F)) (rows : List (Candle F)) (book : Book F)
    (i : Nat) : Book F :=
  match rows[i]? with
  | none => book
  | some bar =>
    admitSignals p i bar ((rows.drop (i + 1)).take (maxFwdBars p)) (f (rows.take (i + 1)) bar.time)
      (freeSlots bar.time book)

/-- The book before the bar with an index. -/
def loopTo (p : Params F) (f : List (Candle F) → Int → List (Signal F)) (rows : List (Candle F)) (n : Nat) : Book F :=
  (List.range n).foldl (fun book i => if i < p.warmupBars then book else pureStep p f rows book i) ⟨[], []⟩

variable {p : Params F} {f : List (Candle F) → Int → List (Signal F)} {rows : List (Candle F)} {i n : Nat}
  {book book' : Book F} {sigs : List (Signal F)}

theorem barStep_pureFn : barStep p (pureFn f) rows book i = .ok (pureStep p f rows book i) := by
  simp only [barStep, pureStep, pureFn]
  split <;> rfl

theorem loopTo_succ (n : Nat) : loopTo p f rows (n + 1) =
    if n < p.warmupBars then loopTo p f rows n else pureStep p f rows (loopTo p f rows n) n := by
  simp only [loopTo, List.range_succ, List.foldl_append, List.foldl_cons, List.foldl_nil]

theorem loopTo_of_le (h : n ≤ p.warmupBars) : loopTo p f rows n = ⟨[], []⟩ := by
  induction n with
  | zero => rfl
  | succ n ih => rw [loopTo_succ, if_pos (by omega), ih (by omega)]

theorem foldl_pureStep (n : Nat) :
    (List.range' p.warmupBars n).foldl (pureStep p f rows) ⟨[], []⟩ = loopTo p f rows (p.warmupBars + n) := by
  induction n with
  | zero => exact (loopTo_of_le le_rfl).symm
  | succ n ih =>
    rw [List.range'_1_concat, List.foldl_append, ih, ← Nat.add_assoc, loopTo_succ, if_neg (by omega)]
    rfl

theorem recorded_runBacktest : recorded (runBacktest p (pureFn f) rows) = (loopTo p f rows rows.length).closedTrades := by
  unfold runBacktest
  split
  next hle =>
    rw [loopTo_of_le hle]
    rfl
  next hlt =>
    have hpure : (fun book i => barStep p (pureFn f) rows book i) = fun book i => pure (pureStep p f rows book i) := by
      funext book i
      exact barStep_pureFn
    have hlength : p.warmupBars + (rows.length - p.warmupBars) = rows.length := by omega
    rw [show barStep p (pureFn f) rows = _ from hpure, List.foldlM_pure, foldl_pureStep, hlength]
    rfl

/-! ### What a bar adds -/

omit [LE F] [DecidableLE F] in
theorem entryOf_time {closed : Nat} {sig : Signal F} (h : entryOf p i bar closed sig = some e) : e.entryTime = bar.time := by
  unfold entryOf at h
  split at h
  · cases h
    rfl
  · cases h

/-- The signals of a bar add trades that enter at it and leave at one of the rows that follow, up to the cap. -/
theorem admitSignals_spec (p : Params F) (i : Nat) (bar : Candle F) (fut : List (Candle F)) (sigs : List (Signal F))
    (book : Book F) : ∃ new, (admitSignals p i bar fut sigs book).openTrades = book.openTrades ++ new ∧
      (admitSignals p i bar fut sigs book).closedTrades = book.closedTrades ++ new ∧
      (∀ t ∈ new, t.entry.entryTime = bar.time ∧ ∃ b ∈ fut, t.exit.exitTime = b.time) ∧
      (book.openTrades.length ≤ p.maxConcurrent →
        (admitSignals p i bar fut sigs book).openTrades.length ≤ p.maxConcurrent) := by
  induction sigs generalizing book with
  | nil => exact ⟨[], by simp [admitSignals]⟩
  | cons sig sigs ih =>
    unfold admitSignals
    split
    · exact ⟨[], by simp⟩
    next hfree =>
      split
      · exact ih book
      next entry hentry =>
        split
        · exact ih book
        next exit hexit =>
          obtain ⟨new, hopen, hclosed, hnew, hcap⟩ :=
            ih { openTrades := book.openTrades ++ [⟨entry, exit⟩], closedTrades := book.closedTrades ++ [⟨entry, exit⟩] }
          refine ⟨⟨entry, exit⟩ :: new, by simp [hopen], by simp [hclosed], ?_, fun _ => hcap ?_⟩
          · rintro t (_ | ⟨_, ht⟩)
            · exact ⟨entryOf_time hentry, exitTime_mem hexit⟩
            · exact hnew t ht
          · simp only [List.length_append, List.length_singleton]
            omega

/-- From some row on, trades enter and leave after the rows before it. -/
theorem closed_loopTo_late (p : Params F) (f : List (Candle F) → Int → List (Signal F))
    (hlate : ∀ b ∈ fut, time < b.time) (hn : past.length ≤ n) :
    ∃ new, (loopTo p f (past ++ fut) n).closedTrades = (loopTo p f (past ++ fut) past.length).closedTrades ++ new ∧
      ∀ t ∈ new, time < t.entry.entryTime ∧ time < t.exit.exitTime := by
  induction n, hn using Nat.le_induction with
  | base => exact ⟨[], by simp⟩
  | succ n hn ih =>
    obtain ⟨new, hclosed, hnew⟩ := ih
    rw [loopTo_succ]
    split
    · exact ⟨new, hclosed, hnew⟩
    · unfold pureStep
      split
      · exact ⟨new, hclosed, hnew⟩
      next bar hbar =>
        have hfuture : ∀ b ∈ ((past ++ fut).drop (n + 1)).take (maxFwdBars p), b ∈ fut := by
          intro b hb
          have hdrop := List.mem_of_mem_take hb
          rw [List.drop_append, List.drop_eq_nil_of_le (by omega), List.nil_append] at hdrop
          exact List.mem_of_mem_drop hdrop
        rw [List.getElem?_append_right hn] at hbar
        obtain ⟨added, -, hadded, htimes, -⟩ := admitSignals_spec p n bar
          (((past ++ fut).drop (n + 1)).take (maxFwdBars p)) (f ((past ++ fut).take (n + 1)) bar.time)
          (freeSlots bar.time (loopTo p f (past ++ fut) n))
        refine ⟨new ++ added, ?_, fun t ht => ?_⟩
        · rw [hadded, ← List.append_assoc, ← hclosed]
          rfl
        · rcases List.mem_append.1 ht with ht | ht
          · exact hnew t ht
          · obtain ⟨hentry, b, hb, hexit⟩ := htimes t ht
            rw [hentry, hexit]
            exact ⟨hlate bar (List.mem_of_getElem? hbar), hlate b (hfuture b hb)⟩

/-- The recorded trades: those of the first rows, and trades after them. -/
theorem recorded_append (p : Params F) (f : List (Candle F) → Int → List (Signal F)) (past : List (Candle F))
    (hlate : ∀ b ∈ fut, time < b.time) :
    ∃ new, recorded (runBacktest p (pureFn f) (past ++ fut)) =
        (loopTo p f (past ++ fut) past.length).closedTrades ++ new ∧
      ∀ t ∈ new, time < t.entry.entryTime ∧ time < t.exit.exitTime := by
  have hlength : past.length ≤ (past ++ fut).length := by simp
  rw [recorded_runBacktest]
  exact closed_loopTo_late p f hlate hlength

/-! ### The cap -/

/-- The open trades are within the cap, and of the recorded ones those that leave later are among them. -/
theorem slots_loopTo (p : Params F) (f : List (Candle F) → Int → List (Signal F)) (rows : List (Candle F)) (n : Nat) :
    (loopTo p f rows n).openTrades.length ≤ p.maxConcurrent ∧
    ∀ time : Int, (∀ b ∈ rows.take n, b.time ≤ time) →
      ((loopTo p f rows n).closedTrades.filter fun t => time < t.exit.exitTime).Sublist (loopTo p f rows n).openTrades := by
  induction n with
  | zero => exact ⟨Nat.zero_le _, fun time _ => List.Sublist.slnil⟩
  | succ n ih =>
    obtain ⟨hcap, hsub⟩ := ih
    have hmono : ∀ time : Int, (∀ b ∈ rows.take (n + 1), b.time ≤ time) → ∀ b ∈ rows.take n, b.time ≤ time :=
      fun time hall b hb => hall b (List.take_subset_take_left rows (Nat.le_succ n) hb)
    rw [loopTo_succ]
    split
    · exact ⟨hcap, fun time hall => hsub time (hmono time hall)⟩
    · unfold pureStep
      split
      · exact ⟨hcap, fun time hall => hsub time (hmono time hall)⟩
      next bar hbar =>
        obtain ⟨added, hopen, hclosed, -, hcapped⟩ := admitSignals_spec p n bar ((rows.drop (n + 1)).take (maxFwdBars p))
          (f (rows.take (n + 1)) bar.time) (freeSlots bar.time (loopTo p f rows n))
        refine ⟨hcapped ((List.length_filter_le _ _).trans hcap), fun time hall => ?_⟩
        have hbarTime : bar.time ≤ time := by
          refine hall bar ?_
          rw [List.take_add_one, hbar]
          exact List.mem_append_right _ (List.mem_singleton_self bar)
        have hkept : ((loopTo p f rows n).closedTrades.filter fun t => time < t.exit.exitTime).Sublist
            (freeSlots bar.time (loopTo p f rows n)).openTrades := by
          have hfiltered := (hsub time (hmono time hall)).filter fun t => bar.time < t.exit.exitTime
          rw [List.filter_filter] at hfiltered
          refine Eq.subst (motive := fun l => List.Sublist l _) (List.filter_congr fun t _ => ?_) hfiltered
          simp only [Bool.and_eq_decide, decide_eq_true_eq, decide_eq_decide]
          constructor
          · exact fun h => h.2
          · exact fun h => ⟨by omega, h⟩
        rw [hopen, hclosed, List.filter_append]
        exact hkept.append List.filter_sublist

theorem capped (p : Params F) (f : List (Candle F) → Int → List (Signal F)) : Capped p f := by
  intro rows time hascending
  obtain ⟨past, fut, rfl, hpast, hfut⟩ := split_at hascending ⌊time⌋
  have hopenAt : ∀ t : SimTrade F, t.OpenAt time ↔ t.entry.entryTime ≤ ⌊time⌋ ∧ ⌊time⌋ < t.exit.exitTime := by
    intro t
    rw [SimTrade.OpenAt, Int.le_floor, Int.floor_lt]
  obtain ⟨new, hrecorded, hnew⟩ := recorded_append p f past hfut
  obtain ⟨hcap, hsub⟩ := slots_loopTo p f (past ++ fut) past.length
  have hnone : new.filter (fun t => t.OpenAt time) = [] := by
    rw [List.filter_eq_nil_iff]
    intro t ht hopen
    have hlate := (hnew t ht).1
    have hentered := ((hopenAt t).1 (of_decide_eq_true hopen)).1
    omega
  have hlater := hsub ⌊time⌋ (by simpa using hpast)
  rw [hrecorded, List.filter_append, hnone, List.append_nil]
  calc ((loopTo p f (past ++ fut) past.length).closedTrades.filter fun t => t.OpenAt time).length
      ≤ ((loopTo p f (past ++ fut) past.length).closedTrades.filter fun t => ⌊time⌋ < t.exit.exitTime).length := by
        refine (List.monotone_filter_right _ fun t ht => ?_).length_le
        exact decide_eq_true ((hopenAt t).1 (of_decide_eq_true ht)).2
    _ ≤ (loopTo p f (past ++ fut) past.length).openTrades.length := hlater.length_le
    _ ≤ p.maxConcurrent := hcap

/-! ### Two archives -/

theorem AlikeBooks.admitSignals {window window' : List (Candle F)} (hwindow : ∀ e, ∃ x x',
      simulateExit p.slippagePoints p.maxHoldMinutes e window = some x ∧
      simulateExit p.slippagePoints p.maxHoldMinutes e window' = some x' ∧
      (x.exitTime ≤ time ∨ x'.exitTime ≤ time → x = x')) (h : AlikeBooks time book book') :
    AlikeBooks time (admitSignals p i bar window sigs book) (admitSignals p i bar window' sigs book') := by
  induction sigs generalizing book book' with
  | nil => exact h
  | cons sig sigs ih =>
    unfold ReplayHarness.admitSignals
    rw [← h.openTrades.length_eq, ← h.closedTrades.length_eq]
    split
    · exact h
    · rcases entryOf p i bar book.closedTrades.length sig with _ | entry
      · exact ih h
      · obtain ⟨x, x', hx, hx', halike⟩ := hwindow entry
        simp only [hx, hx']
        have hnew : List.Forall₂ (Alike time) [⟨entry, x⟩] [⟨entry, x'⟩] := .cons ⟨rfl, halike⟩ .nil
        exact ih ⟨List.rel_append h.openTrades hnew, List.rel_append h.closedTrades hnew⟩

/-- Up to the rows that the archives share, the books are alike. -/
theorem alike_loopTo (p : Params F) (f : List (Candle F) → Int → List (Signal F)) (hne : fut ≠ []) (hne' : fut' ≠ [])
    (hpast : ∀ b ∈ past, b.time ≤ time) (hlate : ∀ b ∈ fut, time < b.time) (hlate' : ∀ b ∈ fut', time < b.time)
    (hn : n ≤ past.length) : AlikeBooks time (loopTo p f (past ++ fut) n) (loopTo p f (past ++ fut') n) := by
  induction n with
  | zero => exact ⟨.nil, .nil⟩
  | succ n ih =>
    have halike := ih (by omega)
    rw [loopTo_succ, loopTo_succ]
    split
    · exact halike
    · have hbar : past[n]? = some past[n] := List.getElem?_eq_getElem hn
      unfold pureStep
      rw [List.getElem?_append_left hn, List.getElem?_append_left hn, hbar, List.take_append_of_le_length hn,
        List.take_append_of_le_length hn, List.drop_append_of_le_length hn, List.drop_append_of_le_length hn]
      refine (halike.freeSlots (hpast _ (List.getElem_mem hn))).admitSignals fun e => ?_
      rw [List.take_append, List.take_append]
      -- Either the window ends within the shared rows, or it has later rows on both sides.
      by_cases hwindow : maxFwdBars p ≤ (past.drop (n + 1)).length
      · have hzero : maxFwdBars p - (past.drop (n + 1)).length = 0 := by omega
        have hne : (past.drop (n + 1)).take (maxFwdBars p) ≠ [] := by
          have hpos : 2 ≤ maxFwdBars p := Nat.le_add_left _ _
          rw [← List.length_pos_iff, List.length_take]
          omega
        rw [hzero, List.take_zero, List.take_zero, List.append_nil]
        obtain ⟨x, hx⟩ := exists_simulateExit p.slippagePoints p.maxHoldMinutes e hne
        exact ⟨x, x, hx, hx, fun _ => rfl⟩
      · have hpos : 0 < maxFwdBars p - (past.drop (n + 1)).length := by omega
        have htake : ∀ l : List (Candle F), l ≠ [] → l.take (maxFwdBars p - (past.drop (n + 1)).length) ≠ [] := by
          intro l hl
          have hl := List.length_pos_iff.2 hl
          rw [← List.length_pos_iff, List.length_take]
          omega
        exact simulateExit_alike _ _ e (htake fut hne) (htake fut' hne') (fun b hb => hlate b (List.mem_of_mem_take hb))
          fun b hb => hlate' b (List.mem_of_mem_take hb)

/-- Up to the last of the first rows, only the trades of these rows count. -/
theorem filter_recorded_append (p : Params F) (f : List (Candle F) → Int → List (Signal F)) (past : List (Candle F))
    (hlate : ∀ b ∈ fut, time < b.time) :
    ((recorded (runBacktest p (pureFn f) (past ++ fut))).filter fun t => t.entry.entryTime ≤ time) =
        ((loopTo p f (past ++ fut) past.length).closedTrades.filter fun t => t.entry.entryTime ≤ time) ∧
      ((recorded (runBacktest p (pureFn f) (past ++ fut))).filter fun t => t.exit.exitTime ≤ time) =
        (loopTo p f (past ++ fut) past.length).closedTrades.filter fun t => t.exit.exitTime ≤ time := by
  obtain ⟨new, hrecorded, hnew⟩ := recorded_append p f past hlate
  have hentries : new.filter (fun t => t.entry.entryTime ≤ time) = [] := by
    rw [List.filter_eq_nil_iff]
    intro t ht hle
    have hlt := (hnew t ht).1
    simp only [decide_eq_true_eq] at hle
    omega
  have hexits : new.filter (fun t => t.exit.exitTime ≤ time) = [] := by
    rw [List.filter_eq_nil_iff]
    intro t ht hle
    have hlt := (hnew t ht).2
    simp only [decide_eq_true_eq] at hle
    omega
  rw [hrecorded, List.filter_append, List.filter_append, hentries, hexits, List.append_nil, List.append_nil]
  exact ⟨rfl, rfl⟩

theorem causal (p : Params F) (f : List (Candle F) → Int → List (Signal F)) : Causal p f := by
  intro rows rows' i bar hascending hascending' hagree hlt hlt' hbar
  have hbar' : rows'[i]? = some bar := by
    rw [← List.getElem?_take_of_lt (Nat.lt_succ_self i), ← hagree, List.getElem?_take_of_lt (Nat.lt_succ_self i), hbar]
  obtain ⟨hpast, hlate⟩ := time_of_getElem? hascending hbar
  obtain ⟨-, hlate'⟩ := time_of_getElem? hascending' hbar'
  have hne : rows.drop (i + 1) ≠ [] := by
    rw [← List.length_pos_iff, List.length_drop]
    omega
  have hne' : rows'.drop (i + 1) ≠ [] := by
    rw [← List.length_pos_iff, List.length_drop]
    omega
  have hsplit : rows = rows.take (i + 1) ++ rows.drop (i + 1) := (List.take_append_drop _ _).symm
  have hsplit' : rows' = rows.take (i + 1) ++ rows'.drop (i + 1) := by rw [hagree, List.take_append_drop]
  have halike := (alike_loopTo p f hne hne' hpast hlate hlate' le_rfl).closedTrades
  obtain ⟨hentries, hexits⟩ := filter_recorded_append p f (rows.take (i + 1)) hlate
  obtain ⟨hentries', hexits'⟩ := filter_recorded_append p f (rows.take (i + 1)) hlate'
  rw [← hsplit] at hentries hexits
  rw [← hsplit'] at hentries' hexits'
  rw [← hsplit, ← hsplit'] at halike
  dsimp only
  rw [hentries, hexits, hentries', hexits']
  exact ⟨map_entry_filter_congr halike, filter_exit_congr halike⟩

/-- Of two archives that agree up to a row, the replay records the same up to that row, and never has more trades open
than it may. -/
theorem causal_and_capped (p : Params F) (f : List (Candle F) → Int → List (Signal F)) : Causal p f ∧ Capped p f :=
  ⟨causal p f, capped p f⟩

def sampleParams : Params Int where
  tfMin := 5
  tfMinPos := by omega
  warmupBars := 0
  maxHoldMinutes := 30
  maxConcurrent := 1
  slippagePoints := 1

def sampleRows : List (Candle Int) :=
  [⟨300, 100, 101, 99, 100, 10⟩, ⟨600, 100, 102, 99, 101, 10⟩, ⟨900, 101, 112, 101, 110, 10⟩, ⟨1200, 110, 111, 90, 91, 10⟩]

/-- A buy at each bar: one that reaches its target, then one that is stopped. -/
example : (recorded (runBacktest sampleParams
    (pureFn fun _ _ => [⟨none, "ema_cross", none, none, some 95, some 110, none⟩]) sampleRows)).map
      (fun t => (t.entry.signalId, t.entry.entryPrice, t.exit.exitTime, t.exit.exitPrice)) =
    [("sim-0-0", 101, 900, 109), ("sim-2-1", 111, 1200, 94)] := by decide +kernel

end ReplayHarness

end PearlAlgo
