import Mathlib.Data.List.GetD
import Mathlib.Data.Rat.Floor
import Mathlib.Algebra.Order.Floor.Ring
import Mathlib.Tactic.Linarith
import Mathlib.Tactic.NormNum
import PearlAlgo.Py.Sweep

/-!
# The exposure of an incident report (`analytics/incident_analysis.py`)

`compute_exposure` counts the positions that were open at once, and adds up what they risked, by sweeping over the entries
and the exits in the order of their times. At one time the exits come first.
-/

namespace PearlAlgo.IncidentAnalysis
open Py

variable {τ : Type} [LinearOrder τ]

/-- What `compute_exposure` reads of a closed trade. -/
structure IncidentTradeRecord (τ : Type) where
  exitTime : τ
  entryTime : Option τ
  entryPrice : ℚ
  positionSize : ℚ
  tickValue : ℚ
  stopLoss : Option ℚ

structure StopPointsStats where
  count : Nat
  min : Option ℚ
  max : Option ℚ
  avg : Option ℚ
  p50 : Option ℚ
  p90 : Option ℚ
deriving DecidableEq

structure Exposure where
  maxConcurrentPositions : Int
  maxStopRiskDollars : ℚ
  stopPointsStats : StopPointsStats
  riskEventPoints : Nat
deriving DecidableEq

/-- Between the values next to the rank `k` in the sorted list. -/
def interpolated (values : List ℚ) (k : ℚ) : ℚ :=
  let f := ⌊k⌋.toNat
  let c := ⌈k⌉.toNat
  if f = c then values.getD f 0 else values.getD f 0 * (c - k) + values.getD c 0 * (k - f)

def percentile (values : List ℚ) (pct : ℚ) : Option ℚ :=
  if values = [] then none
  else if pct ≤ 0 then values.min?
  else if 1 ≤ pct then values.max?
  else some (interpolated (sortedBy id values) ((values.length - 1) * pct))

namespace IncidentTradeRecord

/-- The entry and the exit of a trade that has both, each with its amount. -/
def events {α : Type} [Neg α] (t : IncidentTradeRecord τ) (amount : α) : List (τ × α) :=
  match t.entryTime with
  | none => []
  | some entry => [(entry, amount), (t.exitTime, -amount)]

def stopPts (t : IncidentTradeRecord τ) : Option ℚ :=
  match t.stopLoss with
  | none => none
  | some stop => if 0 < t.entryPrice then some |t.entryPrice - stop| else none

def riskDollars (t : IncidentTradeRecord τ) (stopPts : ℚ) : ℚ := stopPts * t.tickValue * t.positionSize

end IncidentTradeRecord

def intervals (trades : List (IncidentTradeRecord τ)) : List (τ × Int) := trades.flatMap fun t => t.events 1

def riskEvents (trades : List (IncidentTradeRecord τ)) : List (τ × ℚ) :=
  trades.flatMap fun t =>
    match t.stopPts with
    | none => []
    | some pts => t.events (t.riskDollars pts)

/-- The loop over the sorted events, with the largest total so far. -/
def foldEvents {α : Type} [AddCommGroup α] [LinearOrder α] (events : List (τ × α)) : α :=
  ((sortedEvents events).foldl (fun s e => (s.1 + e.2, max s.2 (s.1 + e.2))) ((0, 0) : α × α)).2

def stopPointsStats (stopPoints : List ℚ) : StopPointsStats where
  count := stopPoints.length
  min := stopPoints.min?
  max := stopPoints.max?
  avg := if stopPoints = [] then none else some (stopPoints.sum / stopPoints.length)
  p50 := percentile stopPoints (1 / 2)
  p90 := percentile stopPoints (9 / 10)

def computeExposure (trades : List (IncidentTradeRecord τ)) : Exposure where
  maxConcurrentPositions := if intervals trades = [] then 0 else foldEvents (intervals trades)
  maxStopRiskDollars := if riskEvents trades = [] then 0 else foldEvents (riskEvents trades)
  stopPointsStats := stopPointsStats (trades.filterMap fun t => t.stopPts)
  riskEventPoints := (riskEvents trades).length

/-! ### The positions that are open at once -/

/-- The trade is open at `t`: it is no more at its exit. -/
def IncidentTradeRecord.Open (t : τ) (trade : IncidentTradeRecord τ) : Prop :=
  ∃ entry, trade.entryTime = some entry ∧ entry ≤ t ∧ t < trade.exitTime

instance (t : τ) (trade : IncidentTradeRecord τ) : Decidable (trade.Open t) :=
  match h : trade.entryTime with
  | none => .isFalse (by simp [IncidentTradeRecord.Open, h])
  | some entry => decidable_of_iff (entry ≤ t ∧ t < trade.exitTime) (by simp [IncidentTradeRecord.Open, h])

/-- What the trade risks between its entry and its stop; nothing where that is not known. -/
def IncidentTradeRecord.stopRisk (trade : IncidentTradeRecord τ) : ℚ := trade.stopPts.elim 0 trade.riskDollars

section
variable {α : Type} [AddCommGroup α]

theorem level_append (l l' : List (τ × α)) (t : τ) : level (l ++ l') t = level l t + level l' t := by
  simp [level]

/-- A trade that exits no earlier than it enters counts while it is open. -/
theorem level_events {trade : IncidentTradeRecord τ} (h : ∀ entry, trade.entryTime = some entry → entry ≤ trade.exitTime)
    (amount : α) (t : τ) : level (trade.events amount) t = if trade.Open t then amount else 0 := by
  cases hentry : trade.entryTime with
  | none => simp [IncidentTradeRecord.events, IncidentTradeRecord.Open, hentry, level]
  | some entry =>
    have hle := h entry hentry
    have hopen : trade.Open t ↔ entry ≤ t ∧ t < trade.exitTime := by simp [IncidentTradeRecord.Open, hentry]
    simp only [IncidentTradeRecord.events, hentry, level, hopen]
    by_cases hin : entry ≤ t
    · by_cases hout : trade.exitTime ≤ t
      · simp [hin, hout, not_lt.2 hout]
      · simp [hin, hout, not_le.1 hout]
    · have hout : ¬ trade.exitTime ≤ t := fun hexit => hin (hle.trans hexit)
      simp [hin, hout]

/-- At any time the events of such trades add up to the amounts of the open ones. -/
theorem level_flatMap {trades : List (IncidentTradeRecord τ)} {events : IncidentTradeRecord τ → List (τ × α)}
    {amount : IncidentTradeRecord τ → α} {t : τ}
    (h : ∀ trade ∈ trades, level (events trade) t = if trade.Open t then amount trade else 0) :
    level (trades.flatMap events) t = ((trades.filter fun trade => trade.Open t).map amount).sum := by
  induction trades with
  | nil => rfl
  | cons trade trades ih =>
    rw [List.flatMap_cons, level_append, h trade List.mem_cons_self, ih fun t ht => h t (List.mem_cons_of_mem _ ht)]
    by_cases hopen : trade.Open t
    · rw [if_pos hopen, List.filter_cons_of_pos (by simpa using hopen), List.map_cons, List.sum_cons]
    · rw [if_neg hopen, List.filter_cons_of_neg (by simpa using hopen), zero_add]

end

theorem foldEvents_eq {α : Type} [AddCommGroup α] [LinearOrder α] (events : List (τ × α)) :
    (if events = [] then 0 else foldEvents events) = Py.peak ((sortedEvents events).map Prod.snd) := by
  split
  next h =>
    rw [h]
    rfl
  · rw [Py.peak, List.foldl_map]
    rfl

/-- Where no trade exits before it enters: `max_concurrent_positions` is the largest number of positions open at one time,
and `max_stop_risk_dollars` the largest amount that the positions open at one time risk. -/
theorem exposure_isGreatest {trades : List (IncidentTradeRecord τ)}
    (h : ∀ trade ∈ trades, ∀ entry, trade.entryTime = some entry → entry ≤ trade.exitTime) :
    IsGreatest (insert 0 (Set.range fun t => ((trades.filter fun trade => trade.Open t).length : Int)))
        (computeExposure trades).maxConcurrentPositions ∧
      IsGreatest (insert 0 (Set.range fun t => ((trades.filter fun trade => trade.Open t).map (·.stopRisk)).sum))
        (computeExposure trades).maxStopRiskDollars := by
  constructor
  · have hlevel : level (intervals trades) = fun t => ((trades.filter fun trade => trade.Open t).length : Int) := by
      funext t
      rw [intervals, level_flatMap fun trade ht => level_events (h trade ht) 1 t]
      simp
    have hpeak : (computeExposure trades).maxConcurrentPositions =
        Py.peak ((sortedEvents (intervals trades)).map Prod.snd) := foldEvents_eq _
    rw [← hlevel, hpeak]
    exact peak_isGreatest _
  · have hlevel : level (riskEvents trades) =
        fun t => ((trades.filter fun trade => trade.Open t).map (·.stopRisk)).sum := by
      funext t
      refine level_flatMap fun trade ht => ?_
      cases hpts : trade.stopPts with
      | none => simp [level, IncidentTradeRecord.stopRisk, hpts]
      | some pts =>
        rw [IncidentTradeRecord.stopRisk, hpts]
        exact level_events (h trade ht) _ t
    have hpeak : (computeExposure trades).maxStopRiskDollars =
        Py.peak ((sortedEvents (riskEvents trades)).map Prod.snd) := foldEvents_eq _
    rw [← hlevel, hpeak]
    exact peak_isGreatest _

/-- Two trades, the second entered when the first exits, and a third that overlaps both. -/
def sampleTrades : List (IncidentTradeRecord Nat) :=
  [⟨10, some 0, 100, 1, 2, some 90⟩, ⟨20, some 10, 100, 1, 2, some 120⟩, ⟨15, some 5, 100, 3, 2, none⟩]

theorem exposure_isGreatest_sampleTrades :
    (computeExposure sampleTrades).maxConcurrentPositions = 2 ∧ (computeExposure sampleTrades).maxStopRiskDollars = 40 ∧
      IsGreatest (insert 0 (Set.range fun t => ((sampleTrades.filter fun trade => trade.Open t).length : Int))) 2 := by
  have hwf : ∀ trade ∈ sampleTrades, ∀ entry, trade.entryTime = some entry → entry ≤ trade.exitTime := by
    simp [sampleTrades]
  have hcount : (computeExposure sampleTrades).maxConcurrentPositions = 2 := by decide +kernel
  have hrisk : (computeExposure sampleTrades).maxStopRiskDollars = 40 := by decide +kernel
  refine ⟨hcount, hrisk, ?_⟩
  rw [← hcount]
  exact (exposure_isGreatest hwf).1

/-! ### The percentiles of the stop distances -/

section
variable {values : List ℚ}

theorem getD_mono (h : values.Pairwise (· ≤ ·)) {i j : Nat} (hij : i ≤ j) (hj : j < values.length) :
    values.getD i 0 ≤ values.getD j 0 := by
  rw [List.getD_eq_getElem _ _ (hij.trans_lt hj), List.getD_eq_getElem _ _ hj]
  rcases hij.lt_or_eq with hlt | rfl
  · exact List.pairwise_iff_getElem.1 h i j _ hj hlt
  · exact le_rfl

/-- Between two ranks the interpolation is a line. -/
theorem interpolated_between {k : ℚ} {f : Nat} (hlt : (f : ℚ) < k) (hle : k < f + 1) :
    interpolated values k = values.getD f 0 * (f + 1 - k) + values.getD (f + 1) 0 * (k - f) := by
  have hfloor : ⌊k⌋ = f := Int.floor_eq_iff.2 ⟨by exact_mod_cast hlt.le, by exact_mod_cast hle⟩
  have hceil : ⌈k⌉ = f + 1 := Int.ceil_eq_iff.2 ⟨by push_cast; linarith, by push_cast; linarith⟩
  have hc : (⌈k⌉).toNat = f + 1 := by omega
  simp [interpolated, hfloor, hc]

theorem interpolated_at (f : Nat) : interpolated values f = values.getD f 0 := by
  simp [interpolated]

/-- A rank is a whole number or between two. -/
theorem rank_cases {k : ℚ} (hk : 0 ≤ k) : (∃ f : Nat, k = f) ∨ ∃ f : Nat, (f : ℚ) < k ∧ k < f + 1 := by
  have hfloor : ((⌊k⌋.toNat : Nat) : ℚ) = (⌊k⌋ : ℚ) := by
    have := Int.toNat_of_nonneg (Int.floor_nonneg.2 hk)
    exact_mod_cast this
  rcases (Int.floor_le k).lt_or_eq with hlt | heq
  · exact .inr ⟨⌊k⌋.toNat, hfloor ▸ hlt, hfloor ▸ Int.lt_floor_add_one k⟩
  · exact .inl ⟨⌊k⌋.toNat, by rw [hfloor, heq]⟩

/-- The interpolation is between the values at any two ranks around it. -/
theorem interpolated_mem {k : ℚ} {i j : Nat} (h : values.Pairwise (· ≤ ·)) (hi : (i : ℚ) ≤ k) (hj : k ≤ j)
    (hlen : j < values.length) : values.getD i 0 ≤ interpolated values k ∧ interpolated values k ≤ values.getD j 0 := by
  have hk : 0 ≤ k := (Nat.cast_nonneg i).trans hi
  rcases rank_cases hk with ⟨f, rfl⟩ | ⟨f, hlt, hgt⟩
  · have hif : i ≤ f := by exact_mod_cast hi
    have hfj : f ≤ j := by exact_mod_cast hj
    rw [interpolated_at]
    exact ⟨getD_mono h hif (hfj.trans_lt hlen), getD_mono h hfj hlen⟩
  · have hif : i ≤ f := by
      have : (i : ℚ) < f + 1 := hi.trans_lt hgt
      exact_mod_cast Nat.lt_succ_iff.1 (by exact_mod_cast this)
    have hfj : f + 1 ≤ j := by
      have : (f : ℚ) < j := hlt.trans_le hj
      exact_mod_cast this
    rw [interpolated_between hlt hgt]
    have hstep := getD_mono h (Nat.le_succ f) (hfj.trans_lt hlen)
    have hlow := getD_mono h hif ((Nat.le_succ f).trans_lt (hfj.trans_lt hlen))
    have hhigh := getD_mono h hfj hlen
    constructor
    · nlinarith
    · nlinarith

theorem interpolated_mono {k k' : ℚ} {n : Nat} (h : values.Pairwise (· ≤ ·)) (hk : 0 ≤ k) (hle : k ≤ k') (hn : k' ≤ n)
    (hlen : n < values.length) : interpolated values k ≤ interpolated values k' := by
  rcases rank_cases (hk.trans hle) with ⟨f', rfl⟩ | ⟨f', hlt', hgt'⟩
  · have hf' : f' ≤ n := by exact_mod_cast hn
    rw [interpolated_at]
    have hzero : ((0 : Nat) : ℚ) ≤ k := by exact_mod_cast hk
    exact (interpolated_mem h hzero hle (hf'.trans_lt hlen)).2
  · have hf' : f' + 1 ≤ n := by
      have : (f' : ℚ) < n := hlt'.trans_le hn
      exact_mod_cast this
    rcases le_or_gt k f' with hbelow | habove
    · -- a rank lies between the two
      have hzero : ((0 : Nat) : ℚ) ≤ k := by exact_mod_cast hk
      have hlow := (interpolated_mem h hzero hbelow ((Nat.le_succ f').trans_lt (hf'.trans_lt hlen))).2
      have hhigh := (interpolated_mem h hlt'.le (j := f' + 1) (by exact_mod_cast hgt'.le) (hf'.trans_lt hlen)).1
      exact hlow.trans hhigh
    · rw [interpolated_between habove (hle.trans_lt hgt'), interpolated_between hlt' hgt']
      have hstep := getD_mono h (Nat.le_succ f') (hf'.trans_lt hlen)
      nlinarith

end

/-- The rank that `_percentile` interpolates at. -/
def rankOf (values : List ℚ) (pct : ℚ) : ℚ := (values.length - 1 : Nat) * max 0 (min 1 pct)

theorem percentile_eq {values : List ℚ} (hne : values ≠ []) (pct : ℚ) :
    percentile values pct = some (interpolated (sortedBy id values) (rankOf values pct)) := by
  have hlen : 0 < values.length := List.length_pos_iff.2 hne
  have hsorted : (sortedBy id values).Pairwise (· ≤ ·) := @pairwise_sortedBy _ _ _ id values
  have hmem (i : Nat) (hi : i < values.length) : (sortedBy id values).getD i 0 ∈ values := by
    have hi : i < (sortedBy id values).length := by rwa [length_sortedBy]
    rw [List.getD_eq_getElem _ _ hi]
    exact mem_sortedBy.1 (List.getElem_mem hi)
  have hindex {v : ℚ} (hv : v ∈ values) : ∃ i < values.length, v = (sortedBy id values).getD i 0 := by
    have hv : v ∈ sortedBy id values := mem_sortedBy.2 hv
    obtain ⟨i, hi, rfl⟩ := List.getElem_of_mem hv
    exact ⟨i, by simpa using hi, by rw [List.getD_eq_getElem _ _ hi]⟩
  rw [percentile, if_neg hne]
  split
  next hlow =>
    have hrank : rankOf values pct = (0 : Nat) := by
      rw [rankOf, max_eq_left ((min_le_right 1 pct).trans hlow)]
      simp
    rw [hrank, interpolated_at, List.min?_eq_some_iff]
    refine ⟨hmem 0 hlen, fun v hv => ?_⟩
    obtain ⟨i, hi, rfl⟩ := hindex hv
    exact getD_mono hsorted (Nat.zero_le i) (by simpa using hi)
  next hlow =>
    split
    next hhigh =>
      have hrank : rankOf values pct = (values.length - 1 : Nat) := by
        rw [rankOf, min_eq_left hhigh, max_eq_right zero_le_one, mul_one]
      rw [hrank, interpolated_at, List.max?_eq_some_iff]
      refine ⟨hmem _ (by omega), fun v hv => ?_⟩
      obtain ⟨i, hi, rfl⟩ := hindex hv
      exact getD_mono hsorted (by omega) (by simpa using Nat.sub_lt hlen one_pos)
    next hhigh =>
      have hrank : rankOf values pct = (values.length - 1) * pct := by
        rw [rankOf, min_eq_right (not_le.1 hhigh).le, max_eq_right (not_le.1 hlow).le, Nat.cast_pred hlen]
      rw [hrank]

/-- `_percentile` never falls as the percentage grows; from 0 down it is the smallest value and from 1 up the largest,
so that the stop distances of a report have `min <= p50 <= p90 <= max`. -/
theorem percentile_mono (values : List ℚ) {pct pct' x y : ℚ} (hle : pct ≤ pct') (hx : percentile values pct = some x)
    (hy : percentile values pct' = some y) : x ≤ y := by
  have hne : values ≠ [] := by
    rintro rfl
    cases hx
  rw [percentile_eq hne] at hx hy
  cases hx
  cases hy
  have hlen : 0 < values.length := List.length_pos_iff.2 hne
  have hscale : (0 : ℚ) ≤ (values.length - 1 : Nat) := Nat.cast_nonneg _
  refine interpolated_mono (n := values.length - 1) (@pairwise_sortedBy _ _ _ id values) ?_ ?_ ?_ ?_
  · exact mul_nonneg hscale (le_max_left _ _)
  · exact mul_le_mul_of_nonneg_left (max_le_max_left 0 (min_le_min_left 1 hle)) hscale
  · exact mul_le_of_le_one_right hscale (max_le zero_le_one (min_le_left 1 pct'))
  · rw [length_sortedBy]
    omega

theorem percentile_mono_sample : percentile [4, 1, 2] (1 / 2) = some 2 ∧ (2 : ℚ) ≤ 18 / 5 := by
  have hlow : percentile [4, 1, 2] (1 / 2) = some 2 := by decide +kernel
  have hhigh : percentile [4, 1, 2] (9 / 10) = some (18 / 5) := by decide +kernel
  exact ⟨hlow, percentile_mono _ (by norm_num) hlow hhigh⟩

end PearlAlgo.IncidentAnalysis
