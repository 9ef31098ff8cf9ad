import Mathlib.Tactic.Ring
import PearlAlgo.Api.VolumeProfile

/-!
# The indicators of a chart (`api/indicator_service.py`)

`calculate_indicators`: the moving averages, the volume-weighted price, the bands of the average true range and the relative
strength, each value with the time of its candle, and the zones of support and resistance. The Bollinger bands, which need
a square root, are left out.
-/

namespace PearlAlgo.IndicatorService
open Py

structure AtrBand where
  time : Int
  upper : ℚ
  lower : ℚ
  atr : ℚ
deriving DecidableEq

structure SrPower where
  resistance : ℚ
  support : ℚ
  buyPower : Nat
  sellPower : Nat
deriving DecidableEq

structure Indicators where
  ema9 : List (Int × ℚ) := []
  ema21 : List (Int × ℚ) := []
  vwap : List (Int × ℚ) := []
  atrBands : List AtrBand := []
  volumeProfile : Option VolumeProfile := none
  srPower : Option SrPower := none
  rsi : List (Int × ℚ) := []
deriving DecidableEq

/-- The loop over the values from place `i` on: nothing before place `period - 1`, the seed there, and then `next` of the
value before and the one at hand. -/
def smoothed (period : Nat) (next : ℚ → ℚ → ℚ) : Nat → ℚ → List ℚ → List (Option ℚ)
  | _, _, [] => []
  | i, s, v :: rest =>
    if i + 1 < period then none :: smoothed period next (i + 1) s rest
    else if i + 1 = period then some s :: smoothed period next (i + 1) s rest
    else some (next s v) :: smoothed period next (i + 1) (next s v) rest

def average (data : List ℚ) (period : Nat) : ℚ := (data.take period).sum / period

def ema (data : List ℚ) (period : Nat) : List (Option ℚ) :=
  let multiplier : ℚ := 2 / (period + 1)
  smoothed period (fun s v => (v - s) * multiplier + s) 0
    (if period ≤ data.length then average data period else data.headD 0) data

def trueRange (previous : Option Candle) (c : Candle) : ℚ :=
  match previous with
  | none => c.high - c.low
  | some p => max (max (c.high - c.low) |c.high - p.close|) |c.low - p.close|

def trueRanges : Option Candle → List Candle → List ℚ
  | _, [] => []
  | previous, c :: rest => trueRange previous c :: trueRanges (some c) rest

def atr (candles : List Candle) (period : Nat) : List (Option ℚ) :=
  let ranges := trueRanges none candles
  smoothed period (fun a tr => (a * (period - 1) + tr) / period) 0 (average ranges period) ranges

namespace Candle

def typicalPrice (c : Candle) : ℚ := (c.high + c.low + c.close) / 3

end Candle

/-- The volume-weighted price from here on, after so much price times volume and so much volume. -/
def vwapFrom : ℚ → ℚ → List Candle → List ℚ
  | _, _, [] => []
  | cumVolPrice, cumVol, c :: rest =>
    let cumVolPrice := cumVolPrice + c.typicalPrice * c.volume
    let cumVol := cumVol + c.volume
    (if 0 < cumVol then cumVolPrice / cumVol else c.typicalPrice) :: vwapFrom cumVolPrice cumVol rest

def rsiVal (avgGain avgLoss : ℚ) : ℚ :=
  let rs := if avgLoss = 0 then 100 else avgGain / avgLoss
  100 - 100 / (1 + rs)

/-- The strength after each further change. -/
def rsiFrom (period : Nat) : ℚ → ℚ → List ℚ → List ℚ
  | _, _, [] => []
  | avgGain, avgLoss, delta :: rest =>
    let avgGain := (avgGain * (period - 1) + max delta 0) / period
    let avgLoss := (avgLoss * (period - 1) + max (-delta) 0) / period
    rsiVal avgGain avgLoss :: rsiFrom period avgGain avgLoss rest

def deltas (closes : List ℚ) : List ℚ := List.zipWith (fun next close => next - close) closes.tail closes

def rsi (closes : List ℚ) (period : Nat) : List ℚ :=
  if period < closes.length then
    let avgGain := average ((deltas closes).map fun d => max d 0) period
    let avgLoss := average ((deltas closes).map fun d => max (-d) 0) period
    rsiVal avgGain avgLoss :: rsiFrom period avgGain avgLoss ((deltas closes).drop period)
  else []

/-- Each value that there is, with the time of its candle. -/
def timed (candles : List Candle) (values : List (Option ℚ)) : List (Int × ℚ) :=
  (candles.zip values).filterMap fun cv => cv.2.map fun v => (cv.1.time, roundCents v)

def atrBand (c : Candle) (value : ℚ) : AtrBand where
  time := c.time
  upper := roundCents (c.typicalPrice + 2 * value)
  lower := roundCents (c.typicalPrice - 2 * value)
  atr := roundCents value

/-- `candles[-sr_length:]` -/
def lookback (candles : List Candle) : List Candle := candles.drop (candles.length - min 130 candles.length)

/-- The width of the zones, of the true ranges of all the candles but the first. -/
def zoneWidth (candles : List Candle) : ℚ :=
  let atrPeriod := min 14 (candles.length - 1)
  let trs := (trueRanges none candles).tail
  if 0 < atrPeriod then (trs.drop (trs.length - atrPeriod)).sum / atrPeriod * (1 / 2)
  else (maxPrice (lookback candles) - minPrice (lookback candles)) * (2 / 100)

def srPower (candles : List Candle) : Option SrPower :=
  if 20 ≤ min 130 candles.length then
    some
      { resistance := roundCents (maxPrice (lookback candles) + zoneWidth candles)
        support := roundCents (minPrice (lookback candles) - zoneWidth candles)
        buyPower := (lookback candles).countP fun c => c.open_ < c.close
        sellPower := (lookback candles).countP fun c => c.close < c.open_ }
  else none

def calculateIndicators (candles : List Candle) : Indicators :=
  if candles = [] then {}
  else
    { ema9 := timed candles (ema (candles.map Candle.close) 9)
      ema21 := timed candles (ema (candles.map Candle.close) 21)
      vwap := timed candles ((vwapFrom 0 0 candles).map some)
      atrBands := (candles.zip (atr candles 14)).filterMap fun cv => cv.2.map (atrBand cv.1)
      volumeProfile := calculateVolumeProfile candles 50 (7 / 10)
      srPower := srPower candles
      rsi := ((candles.drop 14).zip (rsi (candles.map Candle.close) 14)).map fun cv => (cv.1.time, roundCents cv.2) }

/-! ### Where the values lie, and whose they are -/

theorem roundCents_mono {x y : ℚ} (h : x ≤ y) : roundCents x ≤ roundCents y := by
  have hround : roundHalfEven (x * 100) ≤ roundHalfEven (y * 100) := roundHalfEven_mono (by linarith)
  have hcast : (roundHalfEven (x * 100) : ℚ) ≤ roundHalfEven (y * 100) := by exact_mod_cast hround
  exact div_le_div_of_nonneg_right hcast (by norm_num)

theorem roundCents_intCast (n : Int) : roundCents n = n := by
  have h : ((n : ℚ) * 100) = ((n * 100 : Int) : ℚ) := by push_cast; ring
  rw [roundCents, h, roundHalfEven_intCast]
  push_cast
  ring

section
variable {period : Nat} {next : ℚ → ℚ → ℚ} {lo hi : ℚ}

/-- What smoothing keeps of the values and the seed holds of all that it gives. -/
theorem mem_smoothed {P : ℚ → Prop} {data : List ℚ} (hnext : ∀ s v, P s → v ∈ data → P (next s v)) {i : Nat} {s : ℚ}
    (hs : P s) : ∀ v, some v ∈ smoothed period next i s data → P v := by
  induction data generalizing i s with
  | nil => simp [smoothed]
  | cons x rest ih =>
    have hrest : ∀ s v, P s → v ∈ rest → P (next s v) := fun s v hs hv => hnext s v hs (List.mem_cons_of_mem _ hv)
    intro v hv
    rw [smoothed] at hv
    split at hv
    · rcases List.mem_cons.1 hv with hv | hv
      · cases hv
      · exact ih hrest hs v hv
    · split at hv
      · rcases List.mem_cons.1 hv with hv | hv
        · cases hv
          exact hs
        · exact ih hrest hs v hv
      · have hstep := hnext s x hs List.mem_cons_self
        rcases List.mem_cons.1 hv with hv | hv
        · cases hv
          exact hstep
        · exact ih hrest hstep v hv

/-- From place `period - 1` on there is a value at every place. -/
theorem times_smoothed (candles : List Candle) (i : Nat) (s : ℚ) (data : List ℚ) (hlen : data.length = candles.length) :
    (timed candles (smoothed period next i s data)).map Prod.fst = (candles.drop (period - 1 - i)).map Candle.time := by
  induction candles generalizing i s data with
  | nil => simp [timed]
  | cons c candles ih =>
    cases data with
    | nil => cases hlen
    | cons v rest =>
      have hrest : rest.length = candles.length := by simpa using hlen
      rw [smoothed]
      split
      next hlt =>
        have hdrop : (c :: candles).drop (period - 1 - i) = candles.drop (period - 1 - (i + 1)) := by
          rw [show period - 1 - i = (period - 1 - (i + 1)) + 1 by omega, List.drop_succ_cons]
        rw [hdrop, ← ih (i + 1) s rest hrest]
        rfl
      next hge =>
        have hdrop : (c :: candles).drop (period - 1 - i) = c :: candles.drop (period - 1 - (i + 1)) := by
          rw [show period - 1 - i = 0 by omega, show period - 1 - (i + 1) = 0 by omega, List.drop_zero, List.drop_zero]
        rw [hdrop, List.map_cons]
        split
        · rw [← ih (i + 1) s rest hrest]
          rfl
        · rw [← ih (i + 1) (next s v) rest hrest]
          rfl

theorem average_mem {data : List ℚ} (h : ∀ v ∈ data, lo ≤ v ∧ v ≤ hi) (hperiod : 0 < period) (hle : period ≤ data.length) :
    lo ≤ average data period ∧ average data period ≤ hi := by
  have hpos : (0 : ℚ) < period := by exact_mod_cast hperiod
  have hlen : (data.take period).length = period := List.length_take_of_le hle
  have hlow : (data.take period).length • lo ≤ (data.take period).sum :=
    List.card_nsmul_le_sum _ _ fun v hv => (h v (List.mem_of_mem_take hv)).1
  have hhigh : (data.take period).sum ≤ (data.take period).length • hi :=
    List.sum_le_card_nsmul _ _ fun v hv => (h v (List.mem_of_mem_take hv)).2
  rw [hlen, nsmul_eq_mul] at hlow hhigh
  rw [average]
  exact ⟨(le_div_iff₀ hpos).2 (by linarith), (div_le_iff₀ hpos).2 (by linarith)⟩

/-- A moving average stays where the values are. -/
theorem ema_mem {data : List ℚ} (h : ∀ v ∈ data, lo ≤ v ∧ v ≤ hi) (hperiod : 0 < period) :
    ∀ v, some v ∈ ema data period → lo ≤ v ∧ v ≤ hi := by
  intro v hv
  have hne : data ≠ [] := by
    rintro rfl
    simp [ema, smoothed] at hv
  refine mem_smoothed (P := fun v => lo ≤ v ∧ v ≤ hi) (fun s x hs hx => ?_) ?_ v hv
  · have hx := h x hx
    have hone : (1 : ℚ) ≤ period := by exact_mod_cast hperiod
    have hm : (2 : ℚ) / (period + 1) ≤ 1 := (div_le_one (by linarith)).2 (by linarith)
    have hpos : (0 : ℚ) ≤ 2 / (period + 1) := by positivity
    constructor
    · nlinarith
    · nlinarith
  · split
    next hle => exact average_mem h hperiod hle
    next hle =>
      obtain ⟨x, rest, rfl⟩ := List.exists_cons_of_ne_nil hne
      exact h x List.mem_cons_self

/-- What is asked of the candles: a close between the low and the high, and a volume that is not negative. -/
def Candle.Closed (c : Candle) : Prop := c.low ≤ c.close ∧ c.close ≤ c.high ∧ 0 ≤ c.volume

instance (c : Candle) : Decidable c.Closed := inferInstanceAs (Decidable (_ ∧ _ ∧ _))

/-- The candles are closed and between two prices. -/
structure Between (lo hi : ℚ) (candles : List Candle) : Prop where
  closed : ∀ c ∈ candles, c.Closed
  low : ∀ c ∈ candles, lo ≤ c.low
  high : ∀ c ∈ candles, c.high ≤ hi

namespace Between
variable {candles : List Candle} {c : Candle}

theorem tail (h : Between lo hi (c :: candles)) : Between lo hi candles where
  closed d hd := h.closed d (List.mem_cons_of_mem _ hd)
  low d hd := h.low d (List.mem_cons_of_mem _ hd)
  high d hd := h.high d (List.mem_cons_of_mem _ hd)

theorem close_mem (h : Between lo hi candles) : ∀ v ∈ candles.map Candle.close, lo ≤ v ∧ v ≤ hi := by
  intro v hv
  obtain ⟨c, hc, rfl⟩ := List.mem_map.1 hv
  have := h.closed c hc
  exact ⟨(h.low c hc).trans this.1, this.2.1.trans (h.high c hc)⟩

theorem typicalPrice_mem (h : Between lo hi candles) (hc : c ∈ candles) : lo ≤ c.typicalPrice ∧ c.typicalPrice ≤ hi := by
  obtain ⟨hlc, hch, -⟩ := h.closed c hc
  have hlow := h.low c hc
  have hhigh := h.high c hc
  unfold Candle.typicalPrice
  constructor <;> linarith

theorem vwap_mem (h : Between lo hi candles) {cumVolPrice cumVol : ℚ} (hvol : 0 ≤ cumVol)
    (hlow : lo * cumVol ≤ cumVolPrice) (hhigh : cumVolPrice ≤ hi * cumVol) :
    ∀ v ∈ vwapFrom cumVolPrice cumVol candles, lo ≤ v ∧ v ≤ hi := by
  induction candles generalizing cumVolPrice cumVol with
  | nil => simp [vwapFrom]
  | cons c candles ih =>
    obtain ⟨htlow, hthigh⟩ := h.typicalPrice_mem List.mem_cons_self
    have hvolume := (h.closed c List.mem_cons_self).2.2
    have hlow' : lo * (cumVol + c.volume) ≤ cumVolPrice + c.typicalPrice * c.volume := by nlinarith
    have hhigh' : cumVolPrice + c.typicalPrice * c.volume ≤ hi * (cumVol + c.volume) := by nlinarith
    intro v hv
    rw [vwapFrom] at hv
    rcases List.mem_cons.1 hv with rfl | hv
    · split
      next hpos => exact ⟨(le_div_iff₀ hpos).2 hlow', (div_le_iff₀ hpos).2 hhigh'⟩
      · exact ⟨htlow, hthigh⟩
    · exact ih h.tail (add_nonneg hvol hvolume) hlow' hhigh' v hv

theorem trueRange_mem (h : Between lo hi candles) (hc : c ∈ candles) {previous : Option Candle}
    (hprevious : ∀ p, previous = some p → lo ≤ p.close ∧ p.close ≤ hi) :
    0 ≤ trueRange previous c ∧ trueRange previous c ≤ hi - lo := by
  obtain ⟨hlc, hch, -⟩ := h.closed c hc
  have hlow := h.low c hc
  have hhigh := h.high c hc
  cases previous with
  | none =>
    rw [trueRange]
    constructor <;> linarith
  | some p =>
    obtain ⟨hplow, hphigh⟩ := hprevious p rfl
    rw [trueRange]
    refine ⟨le_max_of_le_right (abs_nonneg _), max_le (max_le (by linarith) ?_) ?_⟩
    · exact abs_le.2 ⟨by linarith, by linarith⟩
    · exact abs_le.2 ⟨by linarith, by linarith⟩

theorem trueRanges_mem (h : Between lo hi candles) {previous : Option Candle}
    (hprevious : ∀ p, previous = some p → lo ≤ p.close ∧ p.close ≤ hi) :
    ∀ v ∈ trueRanges previous candles, 0 ≤ v ∧ v ≤ hi - lo := by
  induction candles generalizing previous with
  | nil => simp [trueRanges]
  | cons c candles ih =>
    intro v hv
    rw [trueRanges] at hv
    rcases List.mem_cons.1 hv with rfl | hv
    · exact h.trueRange_mem List.mem_cons_self hprevious
    · refine ih h.tail (fun p hp => ?_) v hv
      cases hp
      exact h.close_mem _ (List.mem_map_of_mem List.mem_cons_self)

end Between

theorem length_trueRanges (previous : Option Candle) (candles : List Candle) :
    (trueRanges previous candles).length = candles.length := by
  induction candles generalizing previous with
  | nil => rfl
  | cons c candles ih => rw [trueRanges, List.length_cons, ih, List.length_cons]

theorem Between.atr_mem {candles : List Candle} (h : Between lo hi candles) (hperiod : 0 < period) :
    ∀ v, some v ∈ atr candles period → 0 ≤ v ∧ v ≤ hi - lo := by
  have hranges : ∀ v ∈ trueRanges none candles, 0 ≤ v ∧ v ≤ hi - lo := h.trueRanges_mem (by simp)
  have hpos : (0 : ℚ) < period := by exact_mod_cast hperiod
  have hone : (1 : ℚ) ≤ period := by exact_mod_cast hperiod
  intro v hv
  have hne : candles ≠ [] := by
    rintro rfl
    simp [atr, trueRanges, smoothed] at hv
  obtain ⟨c, hc⟩ := List.exists_mem_of_ne_nil candles hne
  have hwide : 0 ≤ hi - lo := by
    have hclose := h.close_mem _ (List.mem_map_of_mem hc)
    linarith
  refine mem_smoothed (P := fun v => 0 ≤ v ∧ v ≤ hi - lo) (fun s x hs hx => ?_) ?_ v hv
  · have hx := hranges x hx
    constructor
    · exact div_nonneg (by nlinarith) hpos.le
    · rw [div_le_iff₀ hpos]
      nlinarith
  · have htake : ∀ x ∈ (trueRanges none candles).take period, 0 ≤ x ∧ x ≤ hi - lo := fun x hx =>
      hranges x (List.mem_of_mem_take hx)
    have hsum : ((trueRanges none candles).take period).sum ≤ ((trueRanges none candles).take period).length • (hi - lo) :=
      List.sum_le_card_nsmul _ _ fun x hx => (htake x hx).2
    have hcount : (((trueRanges none candles).take period).length : ℚ) ≤ period := by
      exact_mod_cast List.length_take_le _ _
    rw [nsmul_eq_mul] at hsum
    rw [average]
    refine ⟨div_nonneg (List.sum_nonneg fun x hx => (htake x hx).1) hpos.le, (div_le_iff₀ hpos).2 ?_⟩
    nlinarith

/-- The zones lie outside all that the candles of the lookback reach, and no candle counts for both sides. -/
theorem Between.srPower_mem {candles : List Candle} (h : Between lo hi candles) {sr : SrPower}
    (hsr : srPower candles = some sr) :
    (∀ c ∈ lookback candles, sr.support ≤ roundCents c.low ∧ roundCents c.high ≤ sr.resistance) ∧
      sr.buyPower + sr.sellPower ≤ (lookback candles).length := by
  unfold srPower at hsr
  split at hsr
  next hlong =>
    have hcount : 0 < min 14 (candles.length - 1) := by omega
    have hwidth : 0 ≤ zoneWidth candles := by
      rw [zoneWidth, if_pos hcount]
      have hranges : ∀ v ∈ trueRanges none candles, 0 ≤ v ∧ v ≤ hi - lo := h.trueRanges_mem (by simp)
      have hsum := List.sum_nonneg (l := (trueRanges none candles).tail.drop
        ((trueRanges none candles).tail.length - min 14 (candles.length - 1))) fun x hx =>
          (hranges x (List.mem_of_mem_tail (List.mem_of_mem_drop hx))).1
      positivity
    cases hsr
    refine ⟨fun c hc => ⟨roundCents_mono ?_, roundCents_mono ?_⟩, ?_⟩
    · linarith [minPrice_le hc]
    · linarith [le_maxPrice hc]
    · induction lookback candles with
      | nil => simp
      | cons c rest ih =>
        simp only [List.countP_cons, List.length_cons, decide_eq_true_eq]
        have hdisjoint : ¬(c.open_ < c.close ∧ c.close < c.open_) := fun hboth => lt_asymm hboth.1 hboth.2
        split <;> split <;> grind
  · cases hsr

/-- The strength is a percentage. -/
theorem rsiVal_mem {avgGain avgLoss : ℚ} (hgain : 0 ≤ avgGain) (hloss : 0 ≤ avgLoss) :
    0 ≤ rsiVal avgGain avgLoss ∧ rsiVal avgGain avgLoss ≤ 100 := by
  have hrs : 0 ≤ if avgLoss = 0 then 100 else avgGain / avgLoss := by
    split
    · norm_num
    · exact div_nonneg hgain hloss
  unfold rsiVal
  dsimp only
  have hden : 0 < 1 + if avgLoss = 0 then 100 else avgGain / avgLoss := by linarith
  have hle : 100 / (1 + if avgLoss = 0 then 100 else avgGain / avgLoss) ≤ 100 := by
    rw [div_le_iff₀ hden]
    linarith
  have hge : 0 ≤ 100 / (1 + if avgLoss = 0 then 100 else avgGain / avgLoss) := div_nonneg (by norm_num) hden.le
  constructor <;> linarith

theorem rsiFrom_mem (hperiod : 0 < period) {avgGain avgLoss : ℚ} (hgain : 0 ≤ avgGain) (hloss : 0 ≤ avgLoss)
    (changes : List ℚ) : ∀ v ∈ rsiFrom period avgGain avgLoss changes, 0 ≤ v ∧ v ≤ 100 := by
  have hone : (1 : ℚ) ≤ period := by exact_mod_cast hperiod
  induction changes generalizing avgGain avgLoss with
  | nil => simp [rsiFrom]
  | cons delta changes ih =>
    have hgain' : 0 ≤ (avgGain * (period - 1) + max delta 0) / period := by
      have := le_max_right delta 0
      exact div_nonneg (by nlinarith) (by linarith)
    have hloss' : 0 ≤ (avgLoss * (period - 1) + max (-delta) 0) / period := by
      have := le_max_right (-delta) 0
      exact div_nonneg (by nlinarith) (by linarith)
    intro v hv
    rw [rsiFrom] at hv
    rcases List.mem_cons.1 hv with rfl | hv
    · exact rsiVal_mem hgain' hloss'
    · exact ih hgain' hloss' v hv

theorem rsi_mem (hperiod : 0 < period) (closes : List ℚ) : ∀ v ∈ rsi closes period, 0 ≤ v ∧ v ≤ 100 := by
  have haverage (f : ℚ → ℚ) (hf : ∀ d, 0 ≤ f d) : 0 ≤ average ((deltas closes).map f) period := by
    refine div_nonneg (List.sum_nonneg fun x hx => ?_) (Nat.cast_nonneg _)
    obtain ⟨d, -, rfl⟩ := List.mem_map.1 (List.mem_of_mem_take hx)
    exact hf d
  have hgain := haverage (fun d => max d 0) fun d => le_max_right _ _
  have hloss := haverage (fun d => max (-d) 0) fun d => le_max_right _ _
  unfold rsi
  split
  · intro v hv
    rcases List.mem_cons.1 hv with rfl | hv
    · exact rsiVal_mem hgain hloss
    · exact rsiFrom_mem hperiod hgain hloss _ v hv
  · simp

theorem length_rsiFrom (avgGain avgLoss : ℚ) (changes : List ℚ) :
    (rsiFrom period avgGain avgLoss changes).length = changes.length := by
  induction changes generalizing avgGain avgLoss with
  | nil => rfl
  | cons delta changes ih => rw [rsiFrom, List.length_cons, ih, List.length_cons]

theorem length_rsi (closes : List ℚ) : (rsi closes period).length = closes.length - period := by
  unfold rsi
  split
  · rw [List.length_cons, length_rsiFrom, List.length_drop, deltas, List.length_zipWith, List.length_tail]
    omega
  · rw [List.length_nil]
    omega

end

/-! ### All of them -/

section
variable {candles : List Candle} {lo hi : ℚ}

theorem mem_timed {values : List (Option ℚ)} {p : Int × ℚ} (h : p ∈ timed candles values) :
    ∃ v, some v ∈ values ∧ p.2 = roundCents v := by
  obtain ⟨⟨c, value⟩, hmem, hp⟩ := List.mem_filterMap.1 h
  obtain ⟨v, rfl, rfl⟩ := Option.map_eq_some_iff.1 hp
  exact ⟨v, (List.of_mem_zip hmem).2, rfl⟩

theorem timed_mem {values : List (Option ℚ)} (h : ∀ v, some v ∈ values → lo ≤ v ∧ v ≤ hi) :
    ∀ p ∈ timed candles values, roundCents lo ≤ p.2 ∧ p.2 ≤ roundCents hi := by
  intro p hp
  obtain ⟨v, hv, hvalue⟩ := mem_timed hp
  rw [hvalue]
  exact ⟨roundCents_mono (h v hv).1, roundCents_mono (h v hv).2⟩

theorem length_vwapFrom (cumVolPrice cumVol : ℚ) : (vwapFrom cumVolPrice cumVol candles).length = candles.length := by
  induction candles generalizing cumVolPrice cumVol with
  | nil => rfl
  | cons c candles ih => rw [vwapFrom, List.length_cons, ih, List.length_cons]

theorem times_some (values : List ℚ) (h : values.length = candles.length) :
    (timed candles (values.map some)).map Prod.fst = candles.map Candle.time := by
  induction candles generalizing values with
  | nil => simp [timed]
  | cons c candles ih =>
    cases values with
    | nil => cases h
    | cons v values =>
      rw [List.map_cons (f := Candle.time), ← ih values (by simpa using h)]
      rfl

/-- The bands have the times of the values that they are made of. -/
theorem times_atrBands (values : List (Option ℚ)) :
    ((candles.zip values).filterMap fun cv => cv.2.map (atrBand cv.1)).map AtrBand.time =
      (timed candles values).map Prod.fst := by
  rw [timed, List.map_filterMap, List.map_filterMap]
  refine List.filterMap_congr fun cv _ => ?_
  cases cv.2 <;> rfl

/-- Every value belongs to its candle: the averages begin at the ninth and the twenty-first, the bands at the fourteenth, the
strength at the fifteenth. -/
theorem times_indicators (candles : List Candle) :
    (calculateIndicators candles).ema9.map Prod.fst = (candles.drop 8).map Candle.time ∧
      (calculateIndicators candles).ema21.map Prod.fst = (candles.drop 20).map Candle.time ∧
      (calculateIndicators candles).vwap.map Prod.fst = candles.map Candle.time ∧
      (calculateIndicators candles).atrBands.map AtrBand.time = (candles.drop 13).map Candle.time ∧
      (calculateIndicators candles).rsi.map Prod.fst = (candles.drop 14).map Candle.time := by
  unfold calculateIndicators
  split
  next hne =>
    rw [hne]
    exact ⟨rfl, rfl, rfl, rfl, rfl⟩
  · refine ⟨times_smoothed candles 0 _ _ (List.length_map _), times_smoothed candles 0 _ _ (List.length_map _), ?_, ?_, ?_⟩
    · exact times_some _ (length_vwapFrom 0 0)
    · exact (times_atrBands _).trans (times_smoothed candles 0 _ _ (length_trueRanges none candles))
    · rw [List.map_map]
      have hlen : (candles.drop 14).length ≤ (rsi (candles.map Candle.close) 14).length := by
        rw [length_rsi, List.length_drop, List.length_map]
      have hzip := List.map_fst_zip hlen
      rw [← hzip, List.map_map, hzip]
      rfl

/-- For candles between two prices: the moving averages and the volume-weighted price are between them too, the true range is
at most their distance, the zones lie outside the prices of the lookback, and the strength is a percentage. -/
theorem indicator_bounds (h : Between lo hi candles) :
    (∀ p ∈ (calculateIndicators candles).ema9 ++ (calculateIndicators candles).ema21 ++ (calculateIndicators candles).vwap,
      roundCents lo ≤ p.2 ∧ p.2 ≤ roundCents hi) ∧
    (∀ b ∈ (calculateIndicators candles).atrBands, b.lower ≤ b.upper ∧ 0 ≤ b.atr ∧ b.atr ≤ roundCents (hi - lo)) ∧
    (∀ sr, (calculateIndicators candles).srPower = some sr →
      (∀ c ∈ lookback candles, sr.support ≤ roundCents c.low ∧ roundCents c.high ≤ sr.resistance) ∧
        sr.buyPower + sr.sellPower ≤ (lookback candles).length) ∧
    ∀ p ∈ (calculateIndicators candles).rsi, 0 ≤ p.2 ∧ p.2 ≤ 100 := by
  have hzero : roundCents 0 = 0 := roundCents_intCast 0
  unfold calculateIndicators
  split
  · simp
  · refine ⟨fun p hp => ?_, fun b hb => ?_, fun sr hsr => h.srPower_mem hsr, fun p hp => ?_⟩
    · rcases List.mem_append.1 hp with hp | hp
      · rcases List.mem_append.1 hp with hp | hp
        · exact timed_mem (ema_mem h.close_mem (by norm_num)) p hp
        · exact timed_mem (ema_mem h.close_mem (by norm_num)) p hp
      · refine timed_mem (fun v hv => ?_) p hp
        obtain ⟨w, hw, heq⟩ := List.mem_map.1 hv
        cases heq
        exact h.vwap_mem le_rfl (by simp) (by simp) v hw
    · obtain ⟨⟨c, value⟩, hmem, hb⟩ := List.mem_filterMap.1 hb
      obtain ⟨v, rfl, rfl⟩ := Option.map_eq_some_iff.1 hb
      obtain ⟨hlow, hhigh⟩ := h.atr_mem (by norm_num) v (List.of_mem_zip hmem).2
      refine ⟨roundCents_mono (by linarith), ?_, roundCents_mono hhigh⟩
      rw [← hzero]
      exact roundCents_mono hlow
    · obtain ⟨⟨c, v⟩, hmem, rfl⟩ := List.mem_map.1 hp
      obtain ⟨hlow, hhigh⟩ := rsi_mem (by norm_num) _ v (List.of_mem_zip hmem).2
      have hhundred : roundCents 100 = 100 := roundCents_intCast 100
      rw [← hzero, ← hhundred]
      exact ⟨roundCents_mono hlow, roundCents_mono hhigh⟩

/-- Sixteen candles that climb and fall back. -/
def sampleChart : List Candle :=
  (List.range 16).map fun (i : Nat) =>
    ⟨60 * i, 100 + (i % 5 : Nat), 102 + (i % 5 : Nat), 99 + (i % 5 : Nat), 100 + (i % 5 : Nat) + (i * 2 % 5 : Nat) / 4, 10⟩

theorem indicator_bounds_sampleChart :
    ((calculateIndicators sampleChart).rsi.length = 2 ∧ (calculateIndicators sampleChart).ema9.length = 8) ∧
      ∀ p ∈ (calculateIndicators sampleChart).rsi, 0 ≤ p.2 ∧ p.2 ≤ 100 :=
  ⟨by decide +kernel, (@indicator_bounds sampleChart 99 106
    ⟨by decide +kernel, by decide +kernel, by decide +kernel⟩).2.2.2⟩

end

end PearlAlgo.IndicatorService
