import Mathlib.Algebra.Order.Field.Basic
import Mathlib.Algebra.Order.Ring.Rat
import PearlAlgo.Py.IsoFormat
import PearlAlgo.Py.NewYork
import PearlAlgo.Py.Ordinal
import PearlAlgo.Py.Seq

/-!
# The intraday strategies (`validation/strategies/signal_fns.py`)

Each strategy gets the bars up to the decision bar and returns a list of at most one signal for it. Times are seconds since
the epoch, prices are exact.
-/

namespace PearlAlgo.SignalFns

open Py

structure Bar where
  time : Int
  opening : ℚ
  high : ℚ
  low : ℚ
  close : ℚ
  volume : ℚ
deriving DecidableEq

inductive Direction
  | long
  | short
deriving DecidableEq

structure Signal where
  direction : Direction
  entryPrice : ℚ
  stopLoss : ℚ
  takeProfit : ℚ
  confidence : ℚ := 1/2
  entryTrigger : String
  /-- The time in `signal_id`, which is the trigger and the time. -/
  ts : Int
deriving DecidableEq

/-! ### Indicators -/

/-- `ewm(alpha=alpha, adjust=False).mean()` -/
def ewm (alpha : ℚ) : List ℚ → List ℚ
  | [] => []
  | x :: xs => xs.scanl (fun acc y => (1 - alpha) * acc + alpha * y) x

/-- `_ema` -/
def ema (n : Nat) (xs : List ℚ) : List ℚ := ewm (2 / (n + 1)) xs

/-- The true range of a bar after another one. -/
def trueRange (prev bar : Bar) : ℚ :=
  max (bar.high - bar.low) (max |bar.high - prev.close| |bar.low - prev.close|)

/-- The first bar has no bar before it. -/
def trueRanges : List Bar → List ℚ
  | [] => []
  | bar :: bars => (bar.high - bar.low) :: List.zipWith trueRange (bar :: bars) bars

/-- `_wilder_atr` -/
def wilderAtr (n : Nat) (df : List Bar) : List ℚ := ewm (1 / n) (trueRanges df)

/-! ### Sessions -/

section
variable (z : NewYork)

def RTH_OPEN : Int := 9 * 3600 + 30 * 60

def RTH_CLOSE : Int := 16 * 3600

def SESSION_LOOKBACK : Nat := 120

def HOLD_SENTINEL : ℚ := 1/2

/-- `_RTH_OPEN <= d.time() < _RTH_CLOSE` -/
def InRthHours (ts : Int) : Prop := RTH_OPEN ≤ z.second ts ∧ z.second ts < RTH_CLOSE

instance (ts : Int) : Decidable (InRthHours z ts) := inferInstanceAs (Decidable (_ ∧ _))

/-- `_in_rth` -/
def InRth (ts : Int) : Prop := NewYork.weekday (z.day ts) < 5 ∧ InRthHours z ts

instance (ts : Int) : Decidable (InRth z ts) := inferInstanceAs (Decidable (_ ∧ _))

/-- `_rth_session_mask`, for one bar -/
def InSession (lastTs ts : Int) : Prop := z.day ts = z.day lastTs ∧ InRthHours z ts

instance (lastTs ts : Int) : Decidable (InSession z lastTs ts) := inferInstanceAs (Decidable (_ ∧ _))

/-! ### What the strategies share -/

structure Base where
  ts : Int
  close : ℚ
  atr : ℚ

/-- `_base` -/
def base (atrLen : Nat) (df : List Bar) : Option Base := do
  if df.length < max (atrLen + 2) 25 then none
  let last ← df.getLast?
  if ¬ InRth z last.time then none
  let atr ← (wilderAtr atrLen df).getLast?
  if atr ≤ 0 then none
  some { ts := last.time, close := last.close, atr }

/-- `_hold_signal` -/
def holdSignal (direction : Direction) (c : ℚ) (trigger : String) (ts : Int) : Signal :=
  match direction with
  | .long =>
    { direction := .long, entryPrice := c, stopLoss := c * (1 - HOLD_SENTINEL), takeProfit := c * (1 + HOLD_SENTINEL),
      entryTrigger := trigger, ts }
  | .short =>
    { direction := .short, entryPrice := c, stopLoss := c * (1 + HOLD_SENTINEL), takeProfit := c * (1 - HOLD_SENTINEL),
      entryTrigger := trigger, ts }

/-- The last bar and the one before it. -/
def lastTwo (df : List Bar) : Option (Bar × Bar) := do
  let cur ← df.getLast?
  let prev ← df.dropLast.getLast?
  some (prev, cur)

/-! ### Opening drive -/

/-- The instant at which the drive of the session of `ts` ends. -/
def cutoffTs (driveMinutes : Int) (ts : Int) : Int := z.instant (z.day ts * 86400 + RTH_OPEN) + driveMinutes * 60

/-- `_opening_drive_core` -/
def openingDriveCore (driveMinutes : Int) (atrLen : Nat) (trigger : String) (df : List Bar) : List Signal :=
  match lastTwo df with
  | none => []
  | some (prev, cur) =>
    let curMin := z.second cur.time / 60
    let cutoffMin := RTH_OPEN / 60 + driveMinutes
    if 5 ≤ NewYork.weekday (z.day cur.time) ∨ ¬ (cutoffMin ≤ curMin ∧ curMin < cutoffMin + 30) then []
    else
      match base z atrLen df with
      | none => []
      | some ctx =>
        let sess := (lastN SESSION_LOOKBACK df).filter fun b => InSession z cur.time b.time
        let cutoff := cutoffTs z driveMinutes cur.time
        match sess with
        | first :: _ :: _ =>
          if ¬ (prev.time < cutoff ∧ cutoff ≤ cur.time) then []
          else if ¬ InSession z cur.time prev.time then []
          else
            let drive := ctx.close - first.opening
            if drive = 0 then []
            else [holdSignal (if 0 < drive then .long else .short) ctx.close trigger cur.time]
        | _ => []

def openingDriveSignals (df : List Bar) : List Signal := openingDriveCore z 15 14 "opening_drive" df

def openingDrive5Signals (df : List Bar) : List Signal := openingDriveCore z 5 14 "opening_drive_5" df

/-! ### Time of day -/

/-- The first bar of a session is in its first half hour, and the bar before it is not in the session. -/
def IsFirstOfSession (prev cur : Bar) : Prop :=
  NewYork.weekday (z.day cur.time) < 5 ∧ (RTH_OPEN ≤ z.second cur.time ∧ z.second cur.time < 10 * 3600) ∧
    ¬ InSession z cur.time prev.time

instance (prev cur : Bar) : Decidable (IsFirstOfSession z prev cur) := inferInstanceAs (Decidable (_ ∧ _ ∧ _))

def todRthLongSignals (df : List Bar) : List Signal :=
  match lastTwo df with
  | none => []
  | some (prev, cur) =>
    match base z 14 df with
    | none => []
    | some ctx => if IsFirstOfSession z prev cur then [holdSignal .long ctx.close "tod_rth_long" ctx.ts] else []

def ENTRY_HOUR : Int := 18

def overnightSeasonalitySignals (df : List Bar) : List Signal :=
  if df.length < 3 then []
  else
    match lastTwo df with
    | none => []
    | some (prev, last) =>
      if z.second last.time < ENTRY_HOUR * 3600 then []
      else if z.day prev.time ≠ z.day last.time ∨ z.second prev.time < ENTRY_HOUR * 3600 then
        [holdSignal .short last.close "overnight_seasonality" last.time]
      else []

/-! ### Gaps -/

/-- The day of the zone's clock of a date. -/
def dayOf (d : Date) : Int := d.toordinal - 719163

def ROLL_EXCLUDED_DATES : List Int :=
  [dayOf ((dateOfFields 2025 12 22).get (by decide)), dayOf ((dateOfFields 2026 3 23).get (by decide))]

def GAP_FLOOR_PTS : ℚ := 5

def SMALL_CEIL : ℚ := 30/100

def LARGE_FLOOR : ℚ := 70/100

def ATR_DAYS : Nat := 14

def PRIOR_CLOSE_LOOKBACK : Nat := 1000

/-- The high, the low and the close of a date. -/
structure DailyBar where
  day : Int
  high : ℚ
  low : ℚ
  close : ℚ

/-- The days in the order in which they first come up. -/
def addToDays (days : List DailyBar) (day : Int) (b : Bar) : List DailyBar :=
  if days.any fun r => r.day = day then
    days.map fun r => if r.day = day then { r with high := max r.high b.high, low := min r.low b.low, close := b.close } else r
  else days ++ [{ day, high := b.high, low := b.low, close := b.close }]

/-- The bars up to the first one of today. -/
def dailyBars (today : Int) (df : List Bar) : List DailyBar :=
  (df.takeWhile fun b => z.day b.time < today).foldl (fun days b => addToDays days (z.day b.time) b) []

def dailyTr (prev r : DailyBar) : ℚ := max (r.high - r.low) (max |r.high - prev.close| |r.low - prev.close|)

/-- Wilder's average of true ranges: the mean of the first `n`, smoothed with the rest. -/
def smoothed (n : Nat) (trs : List ℚ) : ℚ :=
  (trs.drop n).foldl (fun atr tr => (atr * (n - 1) + tr) / n) ((trs.take n).sum / n)

/-- `_daily_atr` -/
def dailyAtr (today : Int) (df : List Bar) : Option ℚ :=
  let daily := (dailyBars z today df).tail
  if daily.length < ATR_DAYS + 1 then none
  else some (smoothed ATR_DAYS (List.zipWith dailyTr daily daily.tail))

structure GapContext where
  ts : Int
  close : ℚ
  gap : ℚ
  priorClose : ℚ
  atrD : Option ℚ

/-- The close of the last bar of regular hours of another date, among so many before the decision bar. -/
def priorClose? (today : Int) (df : List Bar) : Option ℚ :=
  ((df.dropLast.reverse.take PRIOR_CLOSE_LOOKBACK).find? fun b => z.day b.time ≠ today ∧ InRth z b.time).map Bar.close

/-- `_gap_context` -/
def gapContext (df : List Bar) : Option GapContext := do
  let (prev, cur) ← lastTwo df
  if ¬ IsFirstOfSession z prev cur then none
  if z.day cur.time ∈ ROLL_EXCLUDED_DATES then none
  let prior ← priorClose? z (z.day cur.time) df
  some { ts := cur.time, close := cur.close, gap := cur.opening - prior, priorClose := prior,
         atrD := dailyAtr z (z.day cur.time) df }

/-- `_gap_fade_signal` -/
def gapFadeSignal (ctx : GapContext) (trigger : String) : List Signal :=
  let target := ctx.priorClose
  let preFilled := (0 < ctx.gap ∧ ctx.close ≤ target) ∨ (ctx.gap < 0 ∧ target ≤ ctx.close)
  let remaining := |target - ctx.close|
  if preFilled ∨ remaining < GAP_FLOOR_PTS then []
  else if ctx.gap < 0 then
    [{ direction := .long, entryPrice := ctx.close, stopLoss := ctx.close - remaining, takeProfit := target,
       entryTrigger := trigger, ts := ctx.ts }]
  else
    [{ direction := .short, entryPrice := ctx.close, stopLoss := ctx.close + remaining, takeProfit := target,
       entryTrigger := trigger, ts := ctx.ts }]

def gapFadeSmallSignals (df : List Bar) : List Signal :=
  match gapContext z df with
  | none => []
  | some ctx =>
    match ctx.atrD with
    | none => []
    | some atrD =>
      if GAP_FLOOR_PTS ≤ |ctx.gap| ∧ |ctx.gap| ≤ SMALL_CEIL * atrD then gapFadeSignal ctx "gap_fade_small" else []

def gapFadeAllSignals (df : List Bar) : List Signal :=
  match gapContext z df with
  | none => []
  | some ctx => if |ctx.gap| < GAP_FLOOR_PTS then [] else gapFadeSignal ctx "gap_fade_all"

def gapContinueLargeSignals (df : List Bar) : List Signal :=
  match gapContext z df with
  | none => []
  | some ctx =>
    match ctx.atrD with
    | none => []
    | some atrD =>
      if |ctx.gap| < LARGE_FLOOR * atrD then []
      else [holdSignal (if 0 < ctx.gap then .long else .short) ctx.close "gap_continue_large" ctx.ts]

end

end PearlAlgo.SignalFns
