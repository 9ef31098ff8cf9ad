import Mathlib.Analysis.Real.Sqrt
import Mathlib.Data.Rat.Floor
import PearlAlgo.PositionSide
import PearlAlgo.Py.Seq

/-!
# Indicators (`trading_bots/signal_generator.py`)

The indicators that the signal generator computes from a data frame, each at the last bar. Prices and volumes are
rational; a series is read only at its last two rows, so `bfill` matters at the row before the last alone. A band is
compared with a price through the square of its width (`stdLe_iff`).
-/

namespace PearlAlgo.SignalGenerator
open Py

/-- A row of a data frame; `opening` is the `open` column. -/
structure Ohlcv where
  opening : ℚ
  high : ℚ
  low : ℚ
  close : ℚ
  volume : ℚ
deriving Inhabited

/-- A data frame with the required columns, and whether it has a `timestamp` column. -/
structure Frame where
  bars : List Ohlcv
  timestamped : Bool := true

namespace Frame
variable (df : Frame)

def closes : List ℚ := df.bars.map Ohlcv.close

/-- `df.iloc[-1]` -/
def last : Ohlcv := df.bars.getLastD default

/-- `df.iloc[-2]` -/
def previous : Ohlcv := df.bars.dropLast.getLastD default

def dropLast : Frame := { df with bars := df.bars.dropLast }

end Frame

def mean (xs : List ℚ) : ℚ := xs.sum / xs.length

/-- `series.rolling(n).mean().iloc[-1]`, `none` for `nan` -/
def rollingMean (n : Nat) (xs : List ℚ) : Option ℚ :=
  if n = 0 ∨ xs.length < n then none else some (mean (lastN n xs))

def safeDiv (numerator denominator default : ℚ) : ℚ :=
  if |denominator| < 1/10^10 then default else numerator / denominator

def safePct (numerator denominator default : ℚ) : ℚ :=
  let result := safeDiv numerator denominator default
  if result ≠ default then result * 100 else default

def trueRange (prev bar : Ohlcv) : ℚ :=
  max (max (bar.high - bar.low) |bar.high - prev.close|) |bar.low - prev.close|

/-- The first bar has no close before it. -/
def trueRanges : List Ohlcv → List ℚ
  | [] => []
  | bar :: bars => (bar.high - bar.low) :: List.zipWith trueRange (bar :: bars) bars

def calculateAtr (df : Frame) (period : Nat) : Option ℚ := rollingMean period (trueRanges df.bars)

/-- `ewm(span=period, adjust=False).mean()` -/
def ewm (period : Nat) : List ℚ → ℚ
  | [] => 0
  | x :: xs => xs.foldl (fun y x => y * (1 - 2 / (period + 1)) + x * (2 / (period + 1))) x

def calculateEma (df : Frame) (period : Nat) : ℚ := ewm period df.closes

/-- `ewm(span=period).mean()`, with the weights normalised -/
def ewmAdjusted (period : Nat) (xs : List ℚ) : ℚ :=
  let decay : ℚ := 1 - 2 / (period + 1)
  let sums := xs.foldl (fun (s : ℚ × ℚ) x => (x + decay * s.1, 1 + decay * s.2)) (0, 0)
  sums.1 / sums.2

/-- The last row of `calculate_vwap`, `none` for `nan`. -/
def calculateVwap (df : Frame) : Option ℚ :=
  let volume := (df.bars.map Ohlcv.volume).sum
  if volume = 0 then none
  else some ((df.bars.map fun b => (b.high + b.low + b.close) / 3 * b.volume).sum / volume)

/-- The row of `calculate_vwap` before the last, filled backwards. -/
def previousVwap (df : Frame) : Option ℚ := calculateVwap df.dropLast <|> calculateVwap df

/-- The square of `df["close"].rolling(20).std()` at the last bar -/
def closeVariance (df : Frame) : ℚ :=
  let xs := lastN 20 df.closes
  (xs.map fun x => (x - mean xs) ^ 2).sum / (xs.length - 1)

/-- `k * std ≤ d` -/
def StdLe (k variance d : ℚ) : Prop := 0 ≤ d ∧ k ^ 2 * variance ≤ d ^ 2

def StdLt (k variance d : ℚ) : Prop := 0 < d ∧ k ^ 2 * variance < d ^ 2

instance StdLe.decidable (k variance d : ℚ) : Decidable (StdLe k variance d) :=
  inferInstanceAs (Decidable (0 ≤ d ∧ k ^ 2 * variance ≤ d ^ 2))

instance StdLt.decidable (k variance d : ℚ) : Decidable (StdLt k variance d) :=
  inferInstanceAs (Decidable (0 < d ∧ k ^ 2 * variance < d ^ 2))

theorem stdLe_iff {k variance d : ℚ} (hk : 0 ≤ k) : StdLe k variance d ↔ (k : ℝ) * √(variance : ℝ) ≤ d := by
  have hk : (0 : ℝ) ≤ k := by exact_mod_cast hk
  rw [← Real.sqrt_sq hk, ← Real.sqrt_mul (sq_nonneg _), Real.sqrt_le_iff]
  unfold StdLe
  norm_cast

theorem stdLt_iff {k variance d : ℚ} (hk : 0 ≤ k) : StdLt k variance d ↔ (k : ℝ) * √(variance : ℝ) < d := by
  have hk : (0 : ℝ) ≤ k := by exact_mod_cast hk
  rw [← Real.sqrt_sq hk, ← Real.sqrt_mul (sq_nonneg _)]
  unfold StdLt
  constructor
  · rintro ⟨hd, h⟩
    rw [Real.sqrt_lt' (by exact_mod_cast hd)]
    exact_mod_cast h
  · intro h
    have hd : (0 : ℝ) < d := (Real.sqrt_nonneg _).trans_lt h
    rw [Real.sqrt_lt' hd] at h
    exact ⟨by exact_mod_cast hd, by exact_mod_cast h⟩

def closeChanges (df : Frame) : List ℚ := List.zipWith (fun a b => b - a) df.closes df.closes.tail

/-- The relative strength index of the last 14 changes, `none` for `nan`. -/
def rsi (df : Frame) : Option ℚ :=
  (rollingMean 14 ((closeChanges df).map fun d => max d 0)).bind fun gain =>
    (rollingMean 14 ((closeChanges df).map fun d => max (-d) 0)).map fun loss =>
      let rs := if loss ≠ 0 then gain / loss else 100
      100 - 100 / (1 + rs)

def checkVolumeConfirmation (df : Frame) (length : Nat) : Bool :=
  (rollingMean length (df.bars.map Ohlcv.volume)).any fun average => average < df.last.volume

def detectVwapCross (side : PositionSide) (df : Frame) : Bool :=
  (previousVwap df).any fun before => (calculateVwap df).any fun now =>
    side.le df.previous.close before ∧ side.lt now df.last.close

inductive Regime
  | trendingUp
  | trendingDown
  | ranging
  | volatile
  | unknown
deriving DecidableEq

inductive Recommendation
  | fullSize
  | reducedSize
  | avoid
deriving DecidableEq

structure MarketRegime where
  regime : Regime
  confidence : ℚ
  trendStrength : ℚ
  volatilityRatio : ℚ
  recommendation : Recommendation
  adxValue : ℚ := 0

/-- Wilder's smoothing: the mean of the first `n` values, then `s * (1 - alpha) + x * alpha`. -/
def wilder (alpha : ℚ) (n : Nat) (xs : List ℚ) : List ℚ :=
  (xs.drop n).scanl (fun s x => s * (1 - alpha) + x * alpha) (mean (xs.take n))

def plusDm (prev bar : Ohlcv) : ℚ :=
  if prev.low - bar.low < bar.high - prev.high ∧ 0 < bar.high - prev.high then bar.high - prev.high else 0

def minusDm (prev bar : Ohlcv) : ℚ :=
  if bar.high - prev.high < prev.low - bar.low ∧ 0 < prev.low - bar.low then prev.low - bar.low else 0

def dx (atr : ℚ) (di : ℚ × ℚ) : ℚ :=
  if 0 < atr then
    let pdi := 100 * di.1 / atr
    let mdi := 100 * di.2 / atr
    if 0 < pdi + mdi then 100 * |pdi - mdi| / (pdi + mdi) else 0
  else 0

def calculateAdx (df : Frame) (period : Nat) : ℚ :=
  if df.bars.length < period + 1 then 0
  else
    let smoothed (f : Ohlcv → Ohlcv → ℚ) := wilder (1 / period) period (List.zipWith f df.bars df.bars.tail)
    let dxs := List.zipWith dx (smoothed trueRange) (List.zip (smoothed plusDm) (smoothed minusDm))
    if 2 * period < df.bars.length then (wilder (1 / period) (period + 1) dxs).getLastD 0 else 0

/-- How far the averages and the close are in the order of a trend to one side. -/
def alignment (side : PositionSide) (fast slow long close : ℚ) : ℚ :=
  (if side.lt slow fast then 33/100 else 0) + (if side.lt long slow then 33/100 else 0) +
    (if side.lt fast close then 34/100 else 0)

def detectMarketRegime (df : Frame) (lookback : Nat) : MarketRegime :=
  if df.bars.length < lookback then
    { regime := .unknown, confidence := 0, trendStrength := 0, volatilityRatio := 1, recommendation := .avoid }
  else
    let recent : Frame := { df with bars := lastN lookback df.bars }
    let fast := calculateEma recent 9
    let slow := calculateEma recent 21
    let long := calculateEma recent 50
    let close := recent.last.close
    let net := alignment .long fast slow long close - alignment .short fast slow long close
    let emaSpread := safePct |fast - slow| close 0
    let ranges := recent.bars.map fun b => b.high - b.low
    let volatilityRatio := safeDiv (recent.last.high - recent.last.low) (mean (lastN 20 ranges)) 1
    let adxValue := calculateAdx df 14
    if 6/10 ≤ |net| then
      let confidence := min 1 (|net| + emaSpread * (1/10))
      { regime := if 0 < net then .trendingUp else .trendingDown, confidence, trendStrength := |net|, volatilityRatio,
        recommendation := if 7/10 < confidence then .fullSize else .reducedSize, adxValue }
    else if 2 < volatilityRatio then
      { regime := .volatile, confidence := min 1 (volatilityRatio / 3), trendStrength := |net|, volatilityRatio,
        recommendation := if 25/10 < volatilityRatio then .avoid else .reducedSize, adxValue }
    else
      { regime := .ranging, confidence := 1 - |net|, trendStrength := |net|, volatilityRatio,
        recommendation := if 7/10 < 1 - |net| then .avoid else .reducedSize, adxValue }

end PearlAlgo.SignalGenerator
