import PearlAlgo.Backtesting.ReplayHarness
import PearlAlgo.Equity.Drawdown
import PearlAlgo.Py.Dict
import Mathlib.Algebra.Order.Ring.Rat
import Mathlib.Tactic.IntervalCases
import Mathlib.Tactic.Linarith
import Mathlib.Tactic.NormNum

/-!
# Three maximum drawdowns

`compute_metrics` (`scripts/backtesting/backtest_engine.py`) takes it from cumulative columns, `_compute_drawdown`
(`api/metrics.py`) and `Scorecard.record` (`scripts/ops/backtest_config.py`) from a running peak. The columns begin after
the first trade, so a fall from the start is not in them, and the percentage divides by the peak of the whole run. `F`
are the amounts, in exact arithmetic.
-/

namespace PearlAlgo

open Equity ReplayHarness

variable {F : Type} [Field F] [LinearOrder F]

/-! ### The backtest's columns -/

namespace BacktestMetrics

/-- `Series.cumsum` -/
def cumsum (column : List F) : List F := (column.scanl (· + ·) 0).tail

/-- `Series.cummax` -/
def cummax : List F → List F
  | [] => []
  | first :: column => column.scanl max first

/-- `max_drawdown` of `compute_metrics`, which without trades returns before. -/
def maxDrawdown (pnlDollars : List F) : Option F :=
  let cumulative := cumsum pnlDollars
  let runningMax := cummax cumulative
  let drawdown := List.zipWith (fun c m => c - m) cumulative runningMax
  drawdown.min?

end BacktestMetrics

/-! ### The API's loop -/

namespace RiskMetrics

structure DrawdownLoop (F : Type) where
  cumulative : F
  peak : F
  maxDd : F
  peakIdx : ℕ
  ddStartIdx : ℕ
  maxDdStartIdx : ℕ
  maxDdEndIdx : ℕ
  peakEquity : F

def DrawdownLoop.init (base : F) : DrawdownLoop F :=
  { cumulative := 0, peak := 0, maxDd := 0, peakIdx := 0, ddStartIdx := 0, maxDdStartIdx := 0, maxDdEndIdx := 0
    peakEquity := base }

/-- `if cumulative > peak` -/
def DrawdownLoop.risen (s : DrawdownLoop F) (i : ℕ) : DrawdownLoop F :=
  if s.peak < s.cumulative then { s with peak := s.cumulative, peakIdx := i, ddStartIdx := i } else s

/-- `if dd > max_dd` -/
def DrawdownLoop.fallen (s : DrawdownLoop F) (i : ℕ) : DrawdownLoop F :=
  let dd := s.peak - s.cumulative
  if s.maxDd < dd then { s with maxDd := dd, maxDdStartIdx := s.ddStartIdx, maxDdEndIdx := i } else s

def DrawdownLoop.next (base : F) (s : DrawdownLoop F) (pnl : F) (i : ℕ) : DrawdownLoop F :=
  let cumulative := s.cumulative + pnl
  let equity := base + cumulative
  let s := { s with cumulative, peakEquity := if s.peakEquity < equity then equity else s.peakEquity }
  (s.risen i).fallen i

structure Drawdown (F : Type) where
  maxDd : F
  maxDdPct : F
  durationSeconds : Option ℤ

/-- What `_compute_drawdown` reads of a trade: `exit_time`. -/
structure ExitStamp where
  exitTime : Option String

section
variable (parse : String → Option ℚ)

/-- `_parse_exit_time`, where `parse` is `parse_trade_timestamp` in seconds, `none` where it raises. -/
def parseExitTime (trades : List ExitStamp) (idx : ℕ) : Option ℚ :=
  match trades[idx]? with
  | none => none
  | some trade =>
    let ts := trade.exitTime.getD ""
    if ts = "" then none else parse ts

/-- `int(x)` -/
def truncate (x : ℚ) : ℤ := x.num.tdiv x.den

/-- `_compute_drawdown` -/
def computeDrawdown (pnls : List F) (trades : Option (List ExitStamp)) (startBalance : Option F) : Drawdown F :=
  let base := match startBalance with
    | some balance => if 0 < balance then balance else 0
    | none => 0
  let s := pnls.zipIdx.foldl (fun s (pnl, i) => s.next base pnl i) (DrawdownLoop.init base)
  let maxDdPct :=
    if 0 < s.peakEquity then s.maxDd / s.peakEquity * 100
    else if 0 < s.peak then s.maxDd / s.peak * 100
    else 0
  let trades := trades.getD []
  let durationSeconds :=
    if trades ≠ [] ∧ 0 < s.maxDd then
      match parseExitTime parse trades s.maxDdStartIdx, parseExitTime parse trades s.maxDdEndIdx with
      | some startTime, some endTime => some (truncate (endTime - startTime))
      | _, _ => none
    else none
  { maxDd := s.maxDd, maxDdPct, durationSeconds }

end

end RiskMetrics

/-! ### The replay's scorecard -/

namespace ReplayHarness

/-- `pnl_points` of a closed trade -/
def SimTrade.pnlPoints (trade : SimTrade F) : F :=
  if trade.entry.direction = "long" then trade.exit.exitPrice - trade.entry.entryPrice
  else trade.entry.entryPrice - trade.exit.exitPrice

structure TriggerStats (F : Type) where
  entries : ℕ
  wins : ℕ
  losses : ℕ
  totalPoints : F

structure Scorecard (F : Type) where
  entries : ℕ
  wins : ℕ
  losses : ℕ
  timeouts : ℕ
  totalPoints : F
  grossWinPoints : F
  grossLossPoints : F
  maxWinPoints : F
  maxLossPoints : F
  peakEquity : F
  maxDrawdownPoints : F
  byTrigger : Py.Dict String (TriggerStats F)
  holdMinutesDistribution : Py.Dict String ℕ

namespace Scorecard

def empty : Scorecard F :=
  { entries := 0, wins := 0, losses := 0, timeouts := 0, totalPoints := 0, grossWinPoints := 0, grossLossPoints := 0
    maxWinPoints := 0, maxLossPoints := 0, peakEquity := 0, maxDrawdownPoints := 0, byTrigger := .empty
    holdMinutesDistribution := .empty }

/-- `_bucket`, which does not read the minutes of a bar. -/
def bucket (minutes : ℤ) : String :=
  if minutes ≤ 5 then "<=5m"
  else if minutes ≤ 15 then "5-15m"
  else if minutes ≤ 30 then "15-30m"
  else if minutes ≤ 60 then "30-60m"
  else if minutes ≤ 120 then "60-120m"
  else if minutes ≤ 240 then "120-240m"
  else ">240m"

def countWin (sc : Scorecard F) (pnl : F) : Scorecard F :=
  { sc with wins := sc.wins + 1, grossWinPoints := sc.grossWinPoints + pnl, maxWinPoints := max sc.maxWinPoints pnl }

def countLoss (sc : Scorecard F) (pnl : F) : Scorecard F :=
  { sc with losses := sc.losses + 1, grossLossPoints := sc.grossLossPoints + pnl
            maxLossPoints := min sc.maxLossPoints pnl }

/-- The counters by the reason of the exit. -/
def countExit (sc : Scorecard F) (reason : ExitReason) (pnl : F) : Scorecard F :=
  match reason with
  | .tp => sc.countWin pnl
  | .sl => sc.countLoss pnl
  | .timeout =>
    let sc := { sc with timeouts := sc.timeouts + 1 }
    if 0 ≤ pnl then sc.countWin pnl else sc.countLoss pnl

def countTrigger (sc : Scorecard F) (trigger : String) (pnl : F) : Scorecard F :=
  let stats := (sc.byTrigger.get? trigger).getD { entries := 0, wins := 0, losses := 0, totalPoints := 0 }
  let stats := { stats with entries := stats.entries + 1, totalPoints := stats.totalPoints + pnl }
  let stats :=
    if 0 < pnl then { stats with wins := stats.wins + 1 }
    else if pnl < 0 then { stats with losses := stats.losses + 1 }
    else stats
  { sc with byTrigger := sc.byTrigger.set trigger stats }

def countHold (sc : Scorecard F) (trade : SimTrade F) : Scorecard F :=
  let durationMin := max 1 ((trade.exit.exitTime - trade.entry.entryTime) / 60)
  let key := bucket durationMin
  { sc with holdMinutesDistribution :=
      sc.holdMinutesDistribution.set key ((sc.holdMinutesDistribution.get? key).getD 0 + 1) }

def trackDrawdown (sc : Scorecard F) : Scorecard F :=
  let peakEquity := max sc.peakEquity sc.totalPoints
  let drawdown := peakEquity - sc.totalPoints
  { sc with peakEquity, maxDrawdownPoints := max sc.maxDrawdownPoints drawdown }

/-- `record` of a closed trade: the card, and the net points that it returns. -/
def record (sc : Scorecard F) (trade : SimTrade F) (commissionPoints : F) : Scorecard F × F :=
  let pnl := trade.pnlPoints - commissionPoints
  let sc := { sc with entries := sc.entries + 1, totalPoints := sc.totalPoints + pnl }
  let sc := (sc.countExit trade.exit.exitReason pnl).trackDrawdown
  ((sc.countTrigger trade.entry.trigger pnl).countHold trade, pnl)

/-- The card of a replay after its trades, each without commission. -/
def ofTrades (trades : List (SimTrade F)) : Scorecard F :=
  trades.foldl (fun sc trade => (sc.record trade 0).1) empty

end Scorecard

end ReplayHarness

/-! ### What each of them computes -/

section Loops
variable {pnls : List F} {d p : F}

namespace BacktestMetrics

omit [LinearOrder F] in
theorem getElem?_cumsum (pnls : List F) (k : ℕ) :
    (cumsum pnls)[k]? = if k < pnls.length then some (equity pnls (k + 1)) else none := by
  simp [cumsum, List.getElem?_tail, List.getElem?_scanl, equity, Nat.succ_le_iff, List.sum_eq_foldl]

omit [LinearOrder F] in
@[simp] theorem length_cumsum (pnls : List F) : (cumsum pnls).length = pnls.length := by simp [cumsum]

omit [Field F] in
@[simp] theorem length_cummax (column : List F) : (cummax column).length = column.length := by
  cases column <;> simp [cummax]

omit [Field F] in
theorem getElem?_cummax {column : List F} {e : ℕ → F} (h : ∀ k < column.length, column[k]? = some (e (k + 1))) :
    ∀ k < column.length, ∃ p, (cummax column)[k]? = some p ∧ IsPeak e 1 (k + 1) p := by
  cases column with
  | nil => simp
  | cons first column =>
    intro k hk
    induction k with
    | zero =>
      have h0 := h 0 hk
      simp only [List.getElem?_cons_zero, Option.some.injEq] at h0
      exact ⟨first, by simp [cummax], h0 ▸ isPeak_self e 1⟩
    | succ k ih =>
      obtain ⟨p, hp, hpeak⟩ := ih (by omega)
      have hk1 := h (k + 1) hk
      rw [List.getElem?_cons_succ] at hk1
      refine ⟨max p (e (k + 2)), ?_, hpeak.succ⟩
      simp only [cummax] at hp ⊢
      simp [List.getElem?_succ_scanl, hp, hk1]

/-- The row of the columns after a trade. -/
theorem getElem?_drawdown {k : ℕ} (hk : k < pnls.length) :
    ∃ p, IsPeak (equity pnls) 1 (k + 1) p ∧
      (List.zipWith (fun c m => c - m) (cumsum pnls) (cummax (cumsum pnls)))[k]? = some (equity pnls (k + 1) - p) := by
  have hcum : ∀ k < (cumsum pnls).length, (cumsum pnls)[k]? = some (equity pnls (k + 1)) := by
    intro k hk
    rw [length_cumsum] at hk
    rw [getElem?_cumsum, if_pos hk]
  have hlen : k < (cumsum pnls).length := by simpa using hk
  obtain ⟨p, hp, hpeak⟩ := getElem?_cummax hcum k hlen
  exact ⟨p, hpeak, by simp [List.getElem?_zipWith, hp, hcum k hlen]⟩

variable [IsStrictOrderedRing F]

theorem maxDrawdown_eq (hd : IsMaxDrawdown (equity pnls) 1 pnls.length d) : maxDrawdown pnls = some (-d) := by
  simp only [maxDrawdown]
  rw [List.min?_eq_some_iff]
  refine ⟨?_, ?_⟩
  · obtain ⟨k, hk1, hkn, hk⟩ := hd.exists_peak_sub
    obtain ⟨p, hpeak, hget⟩ := getElem?_drawdown (show k - 1 < pnls.length by omega)
    rw [Nat.sub_add_cancel hk1] at hpeak hget
    rw [← hk p hpeak, neg_sub]
    exact List.mem_of_getElem? hget
  · intro x hx
    obtain ⟨k, hget⟩ := List.getElem?_of_mem hx
    have hlen := (List.getElem?_eq_some_iff.1 hget).1
    simp only [List.length_zipWith, length_cumsum, length_cummax, min_self] at hlen
    obtain ⟨p, hpeak, hget'⟩ := getElem?_drawdown hlen
    have hfall := hd.peak_sub_le hpeak hlen
    rw [hget, Option.some.injEq] at hget'
    subst hget'
    linarith

end BacktestMetrics

namespace RiskMetrics

variable {base pnl : F} {s : DrawdownLoop F} {i : ℕ}

omit [Field F] in
@[simp] theorem DrawdownLoop.risen_cumulative : (s.risen i).cumulative = s.cumulative := by
  unfold risen
  split <;> rfl

omit [Field F] in
@[simp] theorem DrawdownLoop.risen_maxDd : (s.risen i).maxDd = s.maxDd := by
  unfold risen
  split <;> rfl

omit [Field F] in
@[simp] theorem DrawdownLoop.risen_peakEquity : (s.risen i).peakEquity = s.peakEquity := by
  unfold risen
  split <;> rfl

omit [Field F] in
@[simp] theorem DrawdownLoop.risen_peak : (s.risen i).peak = max s.peak s.cumulative := by
  rw [risen, max_def_lt]
  split <;> rfl

@[simp] theorem DrawdownLoop.fallen_cumulative : (s.fallen i).cumulative = s.cumulative := by
  simp only [fallen]
  split <;> rfl

@[simp] theorem DrawdownLoop.fallen_peak : (s.fallen i).peak = s.peak := by
  simp only [fallen]
  split <;> rfl

@[simp] theorem DrawdownLoop.fallen_peakEquity : (s.fallen i).peakEquity = s.peakEquity := by
  simp only [fallen]
  split <;> rfl

@[simp] theorem DrawdownLoop.fallen_maxDd : (s.fallen i).maxDd = max s.maxDd (s.peak - s.cumulative) := by
  simp only [fallen, max_def_lt]
  split <;> rfl

@[simp] theorem DrawdownLoop.next_cumulative : (s.next base pnl i).cumulative = s.cumulative + pnl := by
  simp [next]

@[simp] theorem DrawdownLoop.next_peak : (s.next base pnl i).peak = max s.peak (s.cumulative + pnl) := by
  simp [next]

@[simp] theorem DrawdownLoop.next_peakEquity :
    (s.next base pnl i).peakEquity = max s.peakEquity (base + (s.cumulative + pnl)) := by
  simp [next, max_def_lt]

@[simp] theorem DrawdownLoop.next_maxDd : (s.next base pnl i).maxDd =
    max s.maxDd (max s.peak (s.cumulative + pnl) - (s.cumulative + pnl)) := by
  simp [next]

variable [IsStrictOrderedRing F]

/-- After some trades the loop holds the peak and the largest fall from the start, and the peak of the account. -/
structure DrawdownLoop.Tracks (pnls : List F) (base : F) (k : ℕ) (s : DrawdownLoop F) : Prop where
  cumulative : s.cumulative = equity pnls k
  peak : IsPeak (equity pnls) 0 k s.peak
  maxDd : IsMaxDrawdown (equity pnls) 0 k s.maxDd
  peakEquity : s.peakEquity = base + s.peak

theorem DrawdownLoop.Tracks.next {k : ℕ} (h : s.Tracks pnls base k) (hpnl : pnls[k]? = some pnl) :
    (s.next base pnl i).Tracks pnls base (k + 1) := by
  have hcum : s.cumulative + pnl = equity pnls (k + 1) := by rw [equity_succ hpnl, h.cumulative]
  have hpeak : IsPeak (equity pnls) 0 (k + 1) (max s.peak (equity pnls (k + 1))) := h.peak.succ
  refine ⟨?_, ?_, ?_, ?_⟩
  · simpa using hcum
  · simpa [hcum] using hpeak
  · simpa [hcum] using h.maxDd.succ hpeak
  · simp [h.peakEquity, max_add_add_left]

theorem tracks_foldl (pnls : List F) (base : F) :
    (pnls.zipIdx.foldl (fun s (pnl, i) => s.next base pnl i) (DrawdownLoop.init base)).Tracks pnls base pnls.length := by
  have hinit : (DrawdownLoop.init base).Tracks pnls base 0 :=
    ⟨by simp [DrawdownLoop.init], by simpa [DrawdownLoop.init] using isPeak_self (equity pnls) 0,
      isMaxDrawdown_self _ _, by simp [DrawdownLoop.init]⟩
  have hrun := foldl_prefix (P := DrawdownLoop.Tracks pnls base) (l := pnls.zipIdx)
    (f := fun s (x : F × ℕ) => s.next base x.1 x.2) hinit ?_
  · simpa using hrun
  · intro k s x hx h
    rw [List.getElem?_zipIdx, Option.map_eq_some_iff] at hx
    obtain ⟨pnl, hpnl, rfl⟩ := hx
    exact h.next hpnl

end RiskMetrics

namespace ReplayHarness.Scorecard

variable {sc : Scorecard F} {trade : SimTrade F} {commissionPoints pnl : F} {reason : ExitReason}

@[simp] theorem countExit_totalPoints : (sc.countExit reason pnl).totalPoints = sc.totalPoints := by
  cases reason <;> simp only [countExit] <;> first | rfl | split <;> rfl

@[simp] theorem countExit_peakEquity : (sc.countExit reason pnl).peakEquity = sc.peakEquity := by
  cases reason <;> simp only [countExit] <;> first | rfl | split <;> rfl

@[simp] theorem countExit_maxDrawdownPoints :
    (sc.countExit reason pnl).maxDrawdownPoints = sc.maxDrawdownPoints := by
  cases reason <;> simp only [countExit] <;> first | rfl | split <;> rfl

@[simp] theorem record_totalPoints :
    (sc.record trade commissionPoints).1.totalPoints = sc.totalPoints + (trade.pnlPoints - commissionPoints) := by
  simp [record, countHold, countTrigger, trackDrawdown]

@[simp] theorem record_peakEquity : (sc.record trade commissionPoints).1.peakEquity =
    max sc.peakEquity (sc.totalPoints + (trade.pnlPoints - commissionPoints)) := by
  simp [record, countHold, countTrigger, trackDrawdown]

@[simp] theorem record_maxDrawdownPoints : (sc.record trade commissionPoints).1.maxDrawdownPoints =
    max sc.maxDrawdownPoints ((sc.record trade commissionPoints).1.peakEquity -
      (sc.record trade commissionPoints).1.totalPoints) := by
  simp [record, countHold, countTrigger, trackDrawdown]

variable [IsStrictOrderedRing F]

structure Tracks (pnls : List F) (k : ℕ) (sc : Scorecard F) : Prop where
  totalPoints : sc.totalPoints = equity pnls k
  peakEquity : IsPeak (equity pnls) 0 k sc.peakEquity
  maxDrawdownPoints : IsMaxDrawdown (equity pnls) 0 k sc.maxDrawdownPoints

theorem Tracks.record {k : ℕ} (h : sc.Tracks pnls k) (hpnl : pnls[k]? = some trade.pnlPoints) :
    (sc.record trade 0).1.Tracks pnls (k + 1) := by
  have htotal : (sc.record trade 0).1.totalPoints = equity pnls (k + 1) := by
    simp [equity_succ hpnl, h.totalPoints]
  have hpeak : IsPeak (equity pnls) 0 (k + 1) (sc.record trade 0).1.peakEquity := by
    have hmax := h.peakEquity.succ
    rwa [← htotal, record_totalPoints, ← record_peakEquity] at hmax
  refine ⟨htotal, hpeak, ?_⟩
  rw [record_maxDrawdownPoints, htotal]
  exact h.maxDrawdownPoints.succ hpeak

theorem tracks_ofTrades (trades : List (SimTrade F)) :
    (ofTrades trades).Tracks (trades.map SimTrade.pnlPoints) trades.length := by
  have hinit : (empty : Scorecard F).Tracks (trades.map SimTrade.pnlPoints) 0 :=
    ⟨by simp [empty], by simpa [empty] using isPeak_self (equity (trades.map SimTrade.pnlPoints)) 0,
      isMaxDrawdown_self _ _⟩
  refine foldl_prefix hinit ?_
  intro k sc trade hk h
  exact h.record (by simp [hk])

end ReplayHarness.Scorecard

/-! ### When they agree -/

open BacktestMetrics RiskMetrics

variable [IsStrictOrderedRing F]

/-- The three report the largest fall from the start on, and the percentage is over the peak that it falls from. -/
def DrawdownsAgree (parse : String → Option ℚ) (pnls : List F) (trades : Option (List ExitStamp))
    (startBalance : Option F) : Prop :=
  ∃ d, IsMaxDrawdown (equity pnls) 0 pnls.length d ∧
    maxDrawdown pnls = some (-d) ∧
    (computeDrawdown parse pnls trades startBalance).maxDd = d ∧
    (∀ sims : List (SimTrade F), sims.map SimTrade.pnlPoints = pnls → (Scorecard.ofTrades sims).maxDrawdownPoints = d) ∧
    ∀ balance, startBalance = some balance → 0 < balance →
      ∃ i j, i ≤ j ∧ j ≤ pnls.length ∧ equity pnls i - equity pnls j = d ∧
        IsPeak (equity pnls) 0 j (equity pnls i) ∧
        (computeDrawdown parse pnls trades startBalance).maxDdPct = d / (balance + equity pnls i) * 100

/-- No fall from the start is deeper than every fall between two trades. -/
def StartFallCovered (pnls : List F) : Prop :=
  ∀ j ≤ pnls.length, ∃ i k, 1 ≤ i ∧ i ≤ k ∧ k ≤ pnls.length ∧ -equity pnls j ≤ equity pnls i - equity pnls k

/-- Some deepest fall starts where the account is at its highest of all. -/
def DeepestFromTop (pnls : List F) : Prop :=
  ∃ i j, i ≤ j ∧ j ≤ pnls.length ∧ (∀ k ≤ pnls.length, equity pnls k ≤ equity pnls i) ∧
    ∀ i' j', i' ≤ j' → j' ≤ pnls.length → equity pnls i' - equity pnls j' ≤ equity pnls i - equity pnls j

omit [IsStrictOrderedRing F] in
theorem startFallCovered_iff (hd : IsMaxDrawdown (equity pnls) 1 pnls.length d) :
    StartFallCovered pnls ↔ IsMaxDrawdown (equity pnls) 0 pnls.length d := by
  rw [IsMaxDrawdown.from_start_iff hd]
  constructor
  · intro hcov j _ hj
    obtain ⟨i, k, hi, hik, hk, hle⟩ := hcov j hj
    rw [equity_zero, zero_sub]
    exact hle.trans (hd.le hi hik hk)
  · intro hstart j hj
    obtain ⟨i, k, hi, hik, hk, rfl⟩ := hd.1
    have hle := hstart j (Nat.zero_le j) hj
    rw [equity_zero, zero_sub] at hle
    exact ⟨i, k, hi, hik, hk, hle⟩

omit [IsStrictOrderedRing F] in
theorem deepestFromTop_iff (hd : IsMaxDrawdown (equity pnls) 0 pnls.length d)
    (hp : IsPeak (equity pnls) 0 pnls.length p) : DeepestFromTop pnls ↔
      ∃ i j, i ≤ j ∧ j ≤ pnls.length ∧ equity pnls i - equity pnls j = d ∧ equity pnls i = p := by
  constructor
  · rintro ⟨i, j, hij, hj, htop, hdeep⟩
    refine ⟨i, j, hij, hj, ?_, ?_⟩
    · obtain ⟨i', j', -, hij', hj', rfl⟩ := hd.1
      exact le_antisymm (hd.le (Nat.zero_le i) hij hj) (hdeep i' j' hij' hj')
    · obtain ⟨k, ⟨-, hk⟩, rfl⟩ := hp.1
      exact le_antisymm (hp.le (Nat.zero_le i) (hij.trans hj)) (htop k hk)
  · rintro ⟨i, j, hij, hj, rfl, rfl⟩
    exact ⟨i, j, hij, hj, fun k hk => hp.le (Nat.zero_le k) hk, fun i' j' hij' hj' => hd.le (Nat.zero_le i') hij' hj'⟩

theorem computeDrawdown_maxDd (parse : String → Option ℚ) (trades : Option (List ExitStamp)) (startBalance : Option F)
    (hd : IsMaxDrawdown (equity pnls) 0 pnls.length d) : (computeDrawdown parse pnls trades startBalance).maxDd = d :=
  (tracks_foldl pnls _).maxDd.unique hd

/-- With a positive balance the percentage is over the highest value of the account in the whole run. -/
theorem computeDrawdown_maxDdPct (parse : String → Option ℚ) (trades : Option (List ExitStamp)) {balance : F}
    (hbalance : 0 < balance) (hd : IsMaxDrawdown (equity pnls) 0 pnls.length d)
    (hp : IsPeak (equity pnls) 0 pnls.length p) :
    (computeDrawdown parse pnls trades (some balance)).maxDdPct = d / (balance + p) * 100 := by
  have h := tracks_foldl pnls balance
  have hpeak := h.peak.unique hp
  have hdd := h.maxDd.unique hd
  have hpos : 0 ≤ p := by simpa using hp.le le_rfl (Nat.zero_le _)
  simp only [computeDrawdown, if_pos hbalance, h.peakEquity, hpeak, hdd]
  rw [if_pos (by linarith)]

/-- The percentage is over a peak that a deepest fall starts from exactly if that is the highest value of all. -/
theorem maxDdPct_iff (parse : String → Option ℚ) (trades : Option (List ExitStamp)) {balance : F}
    (hbalance : 0 < balance) (hd : IsMaxDrawdown (equity pnls) 0 pnls.length d) :
    (∃ i j, i ≤ j ∧ j ≤ pnls.length ∧ equity pnls i - equity pnls j = d ∧ IsPeak (equity pnls) 0 j (equity pnls i) ∧
      (computeDrawdown parse pnls trades (some balance)).maxDdPct = d / (balance + equity pnls i) * 100) ↔
    DeepestFromTop pnls := by
  obtain ⟨p, -, hp, -⟩ := exists_isPeak_isMaxDrawdown (equity pnls) (Nat.zero_le pnls.length)
  rw [deepestFromTop_iff hd hp, computeDrawdown_maxDdPct parse trades hbalance hd hp]
  constructor
  · rintro ⟨i, j, hij, hj, hfall, hpeak, hpct⟩
    rcases (hd.nonneg (Nat.zero_le _)).eq_or_lt with rfl | hpos
    · -- without a fall the top itself will do
      obtain ⟨k, ⟨-, hk⟩, hkp⟩ := hp.1
      exact ⟨k, k, le_rfl, hk, sub_self _, hkp⟩
    · have hp0 : 0 ≤ p := by simpa using hp.le le_rfl (Nat.zero_le _)
      have hi0 : 0 ≤ equity pnls i := by simpa using hpeak.le le_rfl (Nat.zero_le _)
      have hdiv : d / (balance + p) = d / (balance + equity pnls i) := by linarith
      have hne : balance + p ≠ 0 := by linarith
      have hne' : balance + equity pnls i ≠ 0 := by linarith
      rw [div_eq_div_iff hne hne', mul_right_inj' hpos.ne'] at hdiv
      exact ⟨i, j, hij, hj, hfall, by linarith⟩
  · rintro ⟨i, j, hij, hj, rfl, rfl⟩
    exact ⟨i, j, hij, hj, rfl, hd.isPeak (Nat.zero_le i) hij hj, rfl⟩

theorem drawdownsAgree_iff (parse : String → Option ℚ) (pnls : List F) (trades : Option (List ExitStamp))
    (startBalance : Option F) (hne : pnls ≠ []) : DrawdownsAgree parse pnls trades startBalance ↔
      StartFallCovered pnls ∧ ((∃ balance, startBalance = some balance ∧ 0 < balance) → DeepestFromTop pnls) := by
  have hlen : 1 ≤ pnls.length := List.length_pos_iff.2 hne
  obtain ⟨-, d₁, -, hd₁⟩ := exists_isPeak_isMaxDrawdown (equity pnls) hlen
  have hback := maxDrawdown_eq hd₁
  constructor
  · rintro ⟨d, hd, hbt, -, -, hpct⟩
    have heq : d₁ = d := by
      rw [hback, Option.some.injEq, neg_inj] at hbt
      exact hbt
    refine ⟨(startFallCovered_iff hd₁).2 (heq ▸ hd), ?_⟩
    rintro ⟨balance, rfl, hbalance⟩
    exact (maxDdPct_iff parse trades hbalance hd).1 (hpct balance rfl hbalance)
  · rintro ⟨hcov, htop⟩
    have hd := (startFallCovered_iff hd₁).1 hcov
    refine ⟨d₁, hd, hback, computeDrawdown_maxDd parse trades startBalance hd, ?_, ?_⟩
    · rintro sims rfl
      have htracks := (Scorecard.tracks_ofTrades sims).maxDrawdownPoints
      rw [← List.length_map (f := SimTrade.pnlPoints)] at htracks
      exact htracks.unique hd
    · rintro balance rfl hbalance
      exact (maxDdPct_iff parse trades hbalance hd).2 (htop ⟨balance, rfl, hbalance⟩)

/-- A win and a smaller loss. -/
theorem drawdownsAgree_iff_fall : DrawdownsAgree (fun _ => none) [(100 : ℚ), -50] none (some 1000) := by
  refine (drawdownsAgree_iff (fun _ => none) [(100 : ℚ), -50] none (some 1000) (by simp)).2 ⟨?_, ?_⟩
  · intro j hj
    refine ⟨1, 1, le_rfl, le_rfl, by simp, ?_⟩
    simp only [List.length_cons, List.length_nil] at hj
    interval_cases j <;> norm_num [equity]
  · intro _
    refine ⟨1, 2, by simp, by simp, ?_, ?_⟩
    · intro k hk
      simp only [List.length_cons, List.length_nil] at hk
      interval_cases k <;> norm_num [equity]
    · intro i j hij hj
      simp only [List.length_cons, List.length_nil] at hj
      interval_cases j <;> interval_cases i <;> norm_num [equity]

/-- The backtest does not see a fall from the start, and the percentage is over a peak that comes after the fall. -/
theorem not_drawdownsAgree :
    (maxDrawdown [(-100 : ℚ)] = some 0 ∧ ¬ DrawdownsAgree (fun _ => none) [(-100 : ℚ)] none none) ∧
      (computeDrawdown (fun _ => none) [(100 : ℚ), -50, 1000] none (some 1000)).maxDdPct = 50 / 2050 * 100 ∧
      ¬ DrawdownsAgree (fun _ => none) [(100 : ℚ), -50, 1000] none (some 1000) := by
  have hzero : maxDrawdown [(-100 : ℚ)] = some 0 := by decide +kernel
  refine ⟨⟨hzero, ?_⟩, by decide +kernel, ?_⟩
  · rintro ⟨d, hd, hbt, -⟩
    have hfall := hd.le (i := 0) (j := 1) le_rfl (by simp) (by simp)
    rw [hzero, Option.some.injEq] at hbt
    norm_num [equity] at hfall
    linarith
  · rintro ⟨d, hd, -, -, -, hpct⟩
    obtain ⟨i, j, hij, hj, htop, hdeep⟩ := (maxDdPct_iff (fun _ => none) none (by norm_num) hd).1 (hpct 1000 rfl (by norm_num))
    have h3 := htop 3 (by simp)
    have h12 := hdeep 1 2 (by simp) (by simp)
    simp only [List.length_cons, List.length_nil] at hj
    revert h3 h12
    interval_cases j <;> interval_cases i <;> norm_num [equity]

end Loops

end PearlAlgo
