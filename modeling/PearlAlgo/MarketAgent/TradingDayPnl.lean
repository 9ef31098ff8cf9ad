import Mathlib.Algebra.BigOperators.Group.List.Basic
import PearlAlgo.MarketAgent.CircuitBreaker
import PearlAlgo.Py.IsoFormat
import PearlAlgo.Tradovate.FillsToTrades

/-!
# The P&L of the trading day (`trading_circuit_breaker.py`, `api/tradovate_helpers.py`)

`hydrate_daily_pnl` takes the trades whose entry text is at least the UTC text of 18:00 Eastern,
`summarize_paired_trades_for_period` those whose exit is at 18:00 Eastern or later. `dailyPnl_agree_iff` says when the
sums agree.
-/

namespace PearlAlgo
open Py TradingCircuitBreaker

/-- What the two consumers read of a paired trade; the exit time is `none` where it is absent or cannot be parsed. -/
structure PairedTrade where
  entryTime : Option String
  exitTime : Option NaiveDatetime
  pnl : ℚ
  cents : WholeCents pnl

/-- 18:00 Eastern of a date, as an aware datetime: in daylight time or not. -/
structure DayStart where
  date : Date
  edt : Bool
deriving DecidableEq

namespace DayStart

def eastern (s : DayStart) : NaiveDatetime where
  date := s.date
  hour := 18
  minute := 0
  second := 0
  microsecond := 0
  hourRange := by omega
  minuteRange := by omega
  secondRange := by omega
  microsecondRange := by omega

def utc (s : DayStart) : NaiveDatetime :=
  { s.eastern with hour := if s.edt then 22 else 23, hourRange := by split <;> omega }

end DayStart

/-- `get_trading_day_start`, where `edt` says which dates have daylight time at 18:00. -/
def getTradingDayStart (edt : Date → Bool) (nowEt : NaiveDatetime) : Option DayStart :=
  (if nowEt.hour < 18 then nowEt.date.yesterday else some nowEt.date).map fun date => ⟨date, edt date⟩

/-- The realized P&L in `hydrate_daily_pnl`. -/
def realizedPnlSince (start : DayStart) (trades : List PairedTrade) : ℚ :=
  ((trades.filter fun t => start.utc.isoformatUtc ≤ t.entryTime.getD "").map PairedTrade.pnl).sum

structure PeriodStats where
  pnl : ℚ
  trades : Nat
  wins : Nat
  losses : Nat
  winRate : ℚ
deriving DecidableEq

def PairedTrade.exitsIn (start : NaiveDatetime) (stop : Option NaiveDatetime) (t : PairedTrade) : Bool :=
  match t.exitTime with
  | none => false
  | some exitTime => !decide (exitTime < start) && stop.all fun stop => exitTime < stop

/-- `summarize_paired_trades_for_period`, with the boundaries in Eastern time. -/
def summarizePairedTradesForPeriod (trades : List PairedTrade) (start : NaiveDatetime)
    (stop : Option NaiveDatetime := none) (commissionPerTrade : ℚ := 0) : PeriodStats :=
  let filtered := trades.filter (PairedTrade.exitsIn start stop)
  let total := filtered.length
  let wins := filtered.countP fun t => 0 < t.pnl
  { pnl := roundCents ((filtered.map PairedTrade.pnl).sum - total * commissionPerTrade), trades := total, wins,
    losses := total - wins, winRate := if 0 < total then roundTenths (wins / total * 100) else 0 }

/-! ### The trades that only one of them counts -/

namespace PairedTrade

theorem tradeOf_wholeCents (lot : FillLeg) (matchQty : Nat) (fill : FillLeg) :
    WholeCents (tradeOf lot matchQty fill).pnl := by
  have hround (x : ℚ) : WholeCents (roundCents x) := ⟨roundHalfEven (x * 100), by simp [roundCents]⟩
  simp only [tradeOf]
  split
  · exact hround _
  · exact hround _

/-- A match of the pairing, where `parse` is `parse_trade_timestamp`. -/
def ofMatch (parse : String → Option NaiveDatetime) (lot : FillLeg) (matchQty : Nat) (fill : FillLeg) : PairedTrade where
  entryTime := (tradeOf lot matchQty fill).entryTime
  exitTime := (tradeOf lot matchQty fill).exitTime.bind parse
  pnl := (tradeOf lot matchQty fill).pnl
  cents := tradeOf_wholeCents lot matchQty fill

/-- `hydrate_daily_pnl` counts the trade. -/
def enteredSince (start : DayStart) (t : PairedTrade) : Bool := start.utc.isoformatUtc ≤ t.entryTime.getD ""

/-- The summary from the start of the trading day counts the trade. -/
def exitedSince (start : DayStart) (t : PairedTrade) : Bool :=
  t.exitTime.any fun exitTime => !decide (exitTime < start.eastern)

/-- A naive entry counts from 22:00 or 23:00 on, the hour of the UTC clock, where the exit counts from 18:00 on. -/
theorem enteredSince_isoformat {start : DayStart} {t : PairedTrade} {entry : NaiveDatetime}
    (h : t.entryTime = some entry.isoformat) : t.enteredSince start = true ↔ start.utc < entry := by
  rw [enteredSince, h, decide_eq_true_iff]
  exact NaiveDatetime.isoformatUtc_le_isoformat rfl

end PairedTrade

/-- The sum over what one predicate takes, by what the other one takes of it. -/
theorem sum_filter_split (trades : List PairedTrade) (p q : PairedTrade → Bool) :
    ((trades.filter p).map PairedTrade.pnl).sum =
      ((trades.filter fun t => p t && q t).map PairedTrade.pnl).sum +
        ((trades.filter fun t => p t && !q t).map PairedTrade.pnl).sum := by
  induction trades with
  | nil => simp
  | cons t trades ih =>
    rcases hp : p t
    · simpa [hp] using ih
    · rcases hq : q t
      · simp [hp, hq, ih]
        ring
      · simp [hp, hq, ih]
        ring

theorem summary_pnl (trades : List PairedTrade) (start : DayStart) :
    (summarizePairedTradesForPeriod trades start.eastern).pnl =
      ((trades.filter (PairedTrade.exitedSince start)).map PairedTrade.pnl).sum := by
  have hfilter : trades.filter (PairedTrade.exitsIn start.eastern none) =
      trades.filter (PairedTrade.exitedSince start) := by
    congr 1
    funext t
    unfold PairedTrade.exitsIn PairedTrade.exitedSince
    rcases t.exitTime with _ | exitTime
    · rfl
    · simp
  have hcents : WholeCents ((trades.filter (PairedTrade.exitedSince start)).map PairedTrade.pnl).sum := by
    refine .sum fun x hx => ?_
    obtain ⟨t, -, rfl⟩ := List.mem_map.1 hx
    exact t.cents
  rw [summarizePairedTradesForPeriod, hfilter, mul_zero, sub_zero]
  exact hcents.roundCents

theorem hydrateDailyPnl_dailyPnl (cfg : TradingCircuitBreakerConfig) (clock : Clock) (cb : TradingCircuitBreaker)
    (pnl : ℚ) : (cb.hydrateDailyPnl cfg clock (some pnl)).dailyPnl = pnl := by
  simp only [hydrateDailyPnl]
  split
  · rfl
  · rfl

/-- `hydrate_daily_pnl` with the paired trades of the state directory. An overflow of the start is caught. -/
def hydrateFromTrades (cfg : TradingCircuitBreakerConfig) (clock : Clock) (edt : Date → Bool) (nowEt : NaiveDatetime)
    (trades : List PairedTrade) (cb : TradingCircuitBreaker) : TradingCircuitBreaker :=
  cb.hydrateDailyPnl cfg clock ((getTradingDayStart edt nowEt).map (realizedPnlSince · trades))

/-- The summary of the trading day. -/
def tradingDayStats (edt : Date → Bool) (nowEt : NaiveDatetime) (trades : List PairedTrade) : Option PeriodStats :=
  (getTradingDayStart edt nowEt).map fun start => summarizePairedTradesForPeriod trades start.eastern

/-- The two agree when the trades that only the entry test counts bring as much as those that only the exit test
counts. -/
theorem dailyPnl_agree_iff (cfg : TradingCircuitBreakerConfig) (clock : Clock) (edt : Date → Bool)
    (nowEt : NaiveDatetime) (trades : List PairedTrade) (cb : TradingCircuitBreaker) :
    (∀ stats ∈ tradingDayStats edt nowEt trades,
        (hydrateFromTrades cfg clock edt nowEt trades cb).dailyPnl = stats.pnl) ↔
      ∀ start ∈ getTradingDayStart edt nowEt,
        ((trades.filter fun t => t.enteredSince start && !t.exitedSince start).map PairedTrade.pnl).sum =
          ((trades.filter fun t => t.exitedSince start && !t.enteredSince start).map PairedTrade.pnl).sum := by
  unfold tradingDayStats hydrateFromTrades
  rcases getTradingDayStart edt nowEt with _ | start
  · simp
  have hrealized := sum_filter_split trades (PairedTrade.enteredSince start) (PairedTrade.exitedSince start)
  have hperiod := sum_filter_split trades (PairedTrade.exitedSince start) (PairedTrade.enteredSince start)
  have hcommon : (trades.filter fun t => t.enteredSince start && t.exitedSince start) =
      trades.filter fun t => t.exitedSince start && t.enteredSince start :=
    List.filter_congr fun t _ => Bool.and_comm _ _
  simp only [Option.map_some, Option.mem_def, Option.some.injEq, forall_eq']
  rw [hydrateDailyPnl_dailyPnl, summary_pnl, hperiod, ← hcommon]
  show ((trades.filter (PairedTrade.enteredSince start)).map PairedTrade.pnl).sum = _ ↔ _
  rw [hrealized, add_left_cancel_iff]

/-- A winter day, and a trade of its evening: entered at 19:00, closed at 20:00 with a profit. -/
def eveningTrade : PairedTrade where
  entryTime := some "2026-01-28T19:00:00"
  exitTime := some ⟨⟨2026, 1, 28, by decide, by decide, by decide⟩, 20, 0, 0, 0, by decide, by decide, by decide, by decide⟩
  pnl := 100
  cents := ⟨10000, by norm_num⟩

theorem eveningTrade_missed : ¬ ∀ (cfg : TradingCircuitBreakerConfig) (clock : Clock) (edt : Date → Bool)
    (nowEt : NaiveDatetime) (trades : List PairedTrade) (cb : TradingCircuitBreaker),
    ∀ stats ∈ tradingDayStats edt nowEt trades,
      (hydrateFromTrades cfg clock edt nowEt trades cb).dailyPnl = stats.pnl := by
  intro h
  have hnow := h {} ⟨0, 0, 0⟩ (fun _ => false)
    ⟨⟨2026, 1, 28, by decide, by decide, by decide⟩, 21, 0, 0, 0, by decide, by decide, by decide, by decide⟩
    [eveningTrade] {} _ rfl
  revert hnow
  decide +kernel

end PearlAlgo
