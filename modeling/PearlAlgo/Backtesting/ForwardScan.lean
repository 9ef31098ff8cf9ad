import PearlAlgo.Backtesting.ReplayHarness
import Mathlib.Data.List.Chain

/-!
# The bounded forward scan (`run_backtest` of `scripts/ops/backtest_config.py`)

A trade is resolved on the next `max_hold_minutes // tf + 2` rows. Where rows are a timeframe apart or more, that is as
good as all of them (`simulateExit_window`): the last of these rows is past the deadline.
-/

namespace PearlAlgo.ReplayHarness

variable {F : Type}

/-- Rows that follow each other are at least so many minutes apart. -/
def Spaced (tfMin : Nat) (rows : List (Candle F)) : Prop :=
  rows.IsChain fun a b => a.time + (tfMin : Int) * 60 ≤ b.time

/-- The rows after the entry of a trade. -/
def rowsAfter (e : Entry F) (rows : List (Candle F)) : List (Candle F) := rows.filter fun b => e.entryTime < b.time

def Entry.deadline (maxHoldMinutes : Nat) (e : Entry F) : Int := e.entryTime + maxHoldMinutes * 60

section Exits
variable [Add F] [Sub F] [LE F] [DecidableLE F]

def Entry.HitsStop (e : Entry F) (bar : Candle F) : Prop :=
  if e.direction = "long" then bar.low ≤ e.stopLoss else e.stopLoss ≤ bar.high

def Entry.HitsTarget (e : Entry F) (bar : Candle F) : Prop :=
  if e.direction = "long" then e.takeProfit ≤ bar.high else bar.low ≤ e.takeProfit

/-- A fill at a price, which slips away from the entry. -/
def Entry.fill (slippage : F) (e : Entry F) (price : F) : F :=
  if e.direction = "long" then price - slippage else price + slippage

/-- The exit at a bar: its stop before its target, and its close where neither is touched and the time is up. -/
inductive ExitsAt (slippage : F) (maxHoldMinutes : Nat) (e : Entry F) (bar : Candle F) : Exit F → Prop
  | stop (h : e.HitsStop bar) : ExitsAt slippage maxHoldMinutes e bar ⟨bar.time, e.fill slippage e.stopLoss, .sl⟩
  | target (hs : ¬ e.HitsStop bar) (h : e.HitsTarget bar) :
    ExitsAt slippage maxHoldMinutes e bar ⟨bar.time, e.fill slippage e.takeProfit, .tp⟩
  | timeout (hs : ¬ e.HitsStop bar) (ht : ¬ e.HitsTarget bar) (h : e.deadline maxHoldMinutes ≤ bar.time) :
    ExitsAt slippage maxHoldMinutes e bar ⟨bar.time, bar.close, .timeout⟩

/-- The exit is at the first of the rows that touches the stop or the target, or is at or after the deadline. -/
def FirstExit (slippage : F) (maxHoldMinutes : Nat) (e : Entry F) (rows : List (Candle F)) (x : Exit F) : Prop :=
  ∃ past bar fut, rows = past ++ bar :: fut ∧ ExitsAt slippage maxHoldMinutes e bar x ∧
    ∀ b ∈ past, ¬ e.HitsStop b ∧ ¬ e.HitsTarget b ∧ b.time < e.deadline maxHoldMinutes

variable {e : Entry F} {bar : Candle F} {x : Exit F} {slippage : F} {maxHold : Nat} {rows : List (Candle F)}

theorem touch_of_exitsAt (hlater : e.entryTime < bar.time) (h : ExitsAt slippage maxHold e bar x) :
    touch slippage maxHold e bar = some x := by
  unfold touch
  rw [if_neg (by omega)]
  by_cases hlong : e.direction = "long"
  · cases h with
    | stop h => simp_all [Entry.HitsStop, Entry.fill]
    | target hs h => simp_all [Entry.HitsStop, Entry.HitsTarget, Entry.fill]
    | timeout hs ht h => simp_all [Entry.HitsStop, Entry.HitsTarget, Entry.deadline]
  · cases h with
    | stop h => simp_all [Entry.HitsStop, Entry.fill]
    | target hs h => simp_all [Entry.HitsStop, Entry.HitsTarget, Entry.fill]
    | timeout hs ht h => simp_all [Entry.HitsStop, Entry.HitsTarget, Entry.deadline]

omit [DecidableLE F] in
theorem exists_exitsAt_or (slippage : F) (maxHold : Nat) (e : Entry F) (bar : Candle F) :
    (∃ x, ExitsAt slippage maxHold e bar x) ∨
      ¬ e.HitsStop bar ∧ ¬ e.HitsTarget bar ∧ bar.time < e.deadline maxHold := by
  by_cases hs : e.HitsStop bar
  · exact .inl ⟨_, .stop hs⟩
  · by_cases ht : e.HitsTarget bar
    · exact .inl ⟨_, .target hs ht⟩
    · by_cases hd : e.deadline maxHold ≤ bar.time
      · exact .inl ⟨_, .timeout hs ht hd⟩
      · exact .inr ⟨hs, ht, not_le.1 hd⟩

theorem touch_of_not (h : ¬ e.HitsStop bar ∧ ¬ e.HitsTarget bar ∧ bar.time < e.deadline maxHold) :
    touch slippage maxHold e bar = none := by
  obtain ⟨hs, ht, hd⟩ := h
  have hopen : ¬ e.entryTime + (maxHold : Int) * 60 ≤ bar.time := not_le.2 hd
  unfold touch
  by_cases hlong : e.direction = "long" <;> simp_all [Entry.HitsStop, Entry.HitsTarget]

/-- Of a row after the entry the loop finds the exit at it. -/
theorem touch_spec (slippage : F) (hlater : e.entryTime < bar.time) :
    (∃ x, touch slippage maxHold e bar = some x ∧ ExitsAt slippage maxHold e bar x) ∨
      touch slippage maxHold e bar = none ∧
        ¬ e.HitsStop bar ∧ ¬ e.HitsTarget bar ∧ bar.time < e.deadline maxHold := by
  rcases exists_exitsAt_or slippage maxHold e bar with ⟨x, hx⟩ | hnot
  · exact .inl ⟨x, touch_of_exitsAt hlater hx, hx⟩
  · exact .inr ⟨touch_of_not hnot, hnot⟩

/-- What the loop finds in the rows after the entry is the first exit. -/
theorem firstExit_of_findSome? (hlater : ∀ b ∈ rows, e.entryTime < b.time)
    (h : rows.findSome? (touch slippage maxHold e) = some x) : FirstExit slippage maxHold e rows x := by
  obtain ⟨past, bar, fut, rfl, hx, hpast⟩ := List.findSome?_eq_some_iff.1 h
  refine ⟨past, bar, fut, rfl, ?_, fun b hb => ?_⟩
  · rcases touch_spec slippage (hlater bar (by simp)) with ⟨x', hx', hexit⟩ | ⟨hnone, -⟩
    · rw [hx] at hx'
      exact Option.some.inj hx' ▸ hexit
    · rw [hx] at hnone
      cases hnone
  · rcases touch_spec slippage (hlater b (by simp [hb])) with ⟨x', hx', -⟩ | ⟨-, hnot⟩
    · rw [hpast b hb] at hx'
      cases hx'
    · exact hnot

/-- The loop finds an exit where a row is at or after the deadline. -/
theorem exists_findSome? (slippage : F) (hlater : ∀ b ∈ rows, e.entryTime < b.time)
    (hlate : ∃ b ∈ rows, e.deadline maxHold ≤ b.time) :
    ∃ x, rows.findSome? (touch slippage maxHold e) = some x := by
  obtain ⟨b, hb, hdeadline⟩ := hlate
  refine Option.isSome_iff_exists.1 (List.findSome?_isSome_iff.2 ⟨b, hb, ?_⟩)
  rcases touch_spec slippage (hlater b hb) with ⟨x, hx, -⟩ | ⟨-, -, -, hlt⟩
  · rw [hx]
    rfl
  · omega

end Exits

/-! ### The window -/

section Window
variable {rows : List (Candle F)} {bar : Candle F} {e : Entry F} {tfMin maxHold : Nat}

theorem Spaced.time_le (h : Spaced tfMin rows) {i k : Nat} {a b : Candle F} (ha : rows[i]? = some a)
    (hb : rows[i + k]? = some b) : a.time + k * (tfMin * 60) ≤ b.time := by
  induction k generalizing b with
  | zero =>
    cases ha.symm.trans hb
    simp
  | succ k ih =>
    obtain ⟨hlt, rfl⟩ := List.getElem?_eq_some_iff.1 hb
    have hle := ih (List.getElem?_eq_getElem (by omega : i + k < rows.length))
    have hstep : rows[i + k].time + (tfMin : Int) * 60 ≤ rows[i + (k + 1)].time := List.isChain_iff_getElem.1 h (i + k) hlt
    push_cast
    linarith

/-- The window has a row at or after the deadline, unless it has all rows. -/
theorem window_late_or (hpos : 0 < tfMin) (hspaced : Spaced tfMin rows) (hlater : ∀ b ∈ rows, e.entryTime < b.time) :
    (∃ b ∈ rows.take (maxHold / tfMin + 2), e.deadline maxHold ≤ b.time) ∨ rows.length ≤ maxHold / tfMin + 2 := by
  have hdiv : maxHold < tfMin * (maxHold / tfMin + 1) := Nat.lt_mul_div_succ maxHold hpos
  generalize maxHold / tfMin = n at hdiv
  by_cases hlen : rows.length ≤ n + 2
  · exact .inr hlen
  · have hfirst : rows[0]? = some rows[0] := List.getElem?_eq_getElem (by omega)
    have hlast : rows[0 + (n + 1)]? = some rows[0 + (n + 1)] := List.getElem?_eq_getElem (by omega)
    have hentry := hlater _ (List.mem_of_getElem? hfirst)
    have hspan := hspaced.time_le hfirst hlast
    refine .inl ⟨rows[0 + (n + 1)], List.mem_take_iff_getElem.2 ⟨0 + (n + 1), by omega, rfl⟩, ?_⟩
    have hminutes : (maxHold : Int) < tfMin * (n + 1) := by exact_mod_cast hdiv
    unfold Entry.deadline
    push_cast at hspan
    linarith

/-- The rows after the entry at a row of the archive are those that follow it. -/
theorem drop_eq_rowsAfter (h : Ascending rows) {i : Nat} (hbar : rows[i]? = some bar) (he : e.entryTime = bar.time) :
    rows.drop (i + 1) = rowsAfter e rows := by
  obtain ⟨hearlier, hlater⟩ := time_of_getElem? h hbar
  have hnone : (rows.take (i + 1)).filter (fun b => e.entryTime < b.time) = [] := by
    rw [List.filter_eq_nil_iff]
    intro b hb
    have hle := hearlier b hb
    simp only [decide_eq_true_eq]
    omega
  have hall : (rows.drop (i + 1)).filter (fun b => e.entryTime < b.time) = rows.drop (i + 1) := by
    rw [List.filter_eq_self]
    intro b hb
    have hlt := hlater b hb
    simp only [decide_eq_true_eq]
    omega
  unfold rowsAfter
  conv_rhs => rw [← List.take_append_drop (i + 1) rows, List.filter_append, hnone, hall, List.nil_append]

theorem spaced_rowsAfter (h : Spaced tfMin rows) (hasc : Ascending rows) (e : Entry F) :
    Spaced tfMin (rowsAfter e rows) := by
  obtain ⟨past, fut, rfl, hpast, hfut⟩ := split_at hasc e.entryTime
  have heq : rowsAfter e (past ++ fut) = fut := by
    unfold rowsAfter
    rw [List.filter_append, List.filter_eq_nil_iff.2, List.filter_eq_self.2, List.nil_append]
    · simpa using hfut
    · simpa using hpast
  rw [heq]
  exact h.right_of_append

variable [Add F] [Sub F] [LE F] [DecidableLE F]

/-- The scan of the window finds what that of all rows finds. -/
theorem simulateExit_take (slippage : F) (hpos : 0 < tfMin) (hspaced : Spaced tfMin rows)
    (hlater : ∀ b ∈ rows, e.entryTime < b.time) :
    simulateExit slippage maxHold e (rows.take (maxHold / tfMin + 2)) = simulateExit slippage maxHold e rows := by
  rcases window_late_or hpos hspaced hlater with hlate | hlen
  · obtain ⟨x, hx⟩ := exists_findSome? slippage (fun b hb => hlater b (List.mem_of_mem_take hb)) hlate
    have hall : simulateExit slippage maxHold e (rows.take (maxHold / tfMin + 2) ++ rows.drop (maxHold / tfMin + 2)) = some x :=
      simulateExit_append_of_some hx
    rw [List.take_append_drop] at hall
    rw [hall]
    unfold simulateExit
    rw [hx]
  · rw [List.take_of_length_le hlen]

/-- On the next `max_hold_minutes // tf + 2` rows after its entry a trade has the exit that it has on all of them, which is
at the first row that touches its stop or its target or that is at or after the deadline. -/
theorem simulateExit_window (p : Params F) (slippage : F) (e : Entry F) (rows : List (Candle F)) (hasc : Ascending rows)
    (hspaced : Spaced p.tfMin rows) (hlate : ∃ b ∈ rowsAfter e rows, e.deadline p.maxHoldMinutes ≤ b.time) :
    simulateExit slippage p.maxHoldMinutes e ((rowsAfter e rows).take (maxFwdBars p)) =
        simulateExit slippage p.maxHoldMinutes e (rowsAfter e rows) ∧
      (∃ x, simulateExit slippage p.maxHoldMinutes e (rowsAfter e rows) = some x ∧
        FirstExit slippage p.maxHoldMinutes e (rowsAfter e rows) x) ∧
      ∀ i bar, rows[i]? = some bar → e.entryTime = bar.time → rows.drop (i + 1) = rowsAfter e rows := by
  have hlater : ∀ b ∈ rowsAfter e rows, e.entryTime < b.time := by
    intro b hb
    exact of_decide_eq_true (List.mem_filter.1 hb).2
  refine ⟨simulateExit_take slippage p.tfMinPos (spaced_rowsAfter hspaced hasc e) hlater, ?_, fun i bar => drop_eq_rowsAfter hasc⟩
  obtain ⟨x, hx⟩ := exists_findSome? slippage hlater hlate
  refine ⟨x, ?_, firstExit_of_findSome? hlater hx⟩
  unfold simulateExit
  rw [hx]

end Window

/-! Rows of five minutes with one of them missing, and a long of ten minutes that times out at the last one. -/

def flatRow (time : Int) : Candle ℚ := { time, open_ := 100, high := 101, low := 99, close := 100, volume := 10 }

def flatLong : Entry ℚ where
  signalId := "sim-0-0"
  trigger := "pine"
  direction := "long"
  entryTime := 0
  entryPrice := 100
  stopLoss := 90
  takeProfit := 110
  confidence := 1/2

def gapRows : List (Candle ℚ) :=
  [flatRow 0, flatRow 300, flatRow 900, flatRow 1200]

def gapParams : Params ℚ where
  tfMin := 5
  tfMinPos := Nat.succ_pos 4
  warmupBars := 0
  maxHoldMinutes := 10
  maxConcurrent := 1
  slippagePoints := 1/4

theorem simulateExit_window_gap :
    simulateExit (1/4) 10 flatLong ((rowsAfter flatLong gapRows).take (maxFwdBars gapParams)) =
      simulateExit (1/4) 10 flatLong (rowsAfter flatLong gapRows) :=
  (simulateExit_window gapParams (1/4) flatLong gapRows (by simp [Ascending, gapRows, flatRow])
    (by simp [Spaced, gapRows, flatRow, gapParams])
    ⟨flatRow 900, by simp [rowsAfter, gapRows, flatRow, flatLong], by simp [Entry.deadline, flatRow, flatLong, gapParams]⟩).1

end PearlAlgo.ReplayHarness
