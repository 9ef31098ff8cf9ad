import Mathlib.Algebra.Order.BigOperators.Group.List
import Mathlib.Data.List.GetD
import Mathlib.Tactic.Linarith
import Mathlib.Tactic.NormNum
import Mathlib.Tactic.Positivity
import PearlAlgo.Py.Round
import PearlAlgo.Py.Seq
import PearlAlgo.Py.While

/-!
# The volume profile (`api/indicator_service.py`)

`calculate_volume_profile` spreads the volume of each candle over price levels, takes the level with the largest volume,
and widens the value area around it, level by level and to the side with the larger volume, until it holds the target.
-/

namespace PearlAlgo.IndicatorService
open Py

structure Candle where
  time : Int
  open_ : ℚ
  high : ℚ
  low : ℚ
  close : ℚ
  volume : ℚ := 1000
deriving DecidableEq

structure ProfileLevel where
  price : ℚ
  volume : Int
  buyVolume : Int
  sellVolume : Int
deriving DecidableEq

structure VolumeProfile where
  levels : List ProfileLevel
  poc : ℚ
  vah : ℚ
  val : ℚ
deriving DecidableEq

def maxPrice (candles : List Candle) : ℚ := ((candles.map Candle.high).max?).getD 0

def minPrice (candles : List Candle) : ℚ := ((candles.map Candle.low).min?).getD 0

def priceRange (candles : List Candle) : ℚ := maxPrice candles - minPrice candles

def levelHeight (candles : List Candle) (numLevels : Nat) : ℚ := priceRange candles / numLevels

/-- The keys of `levels`: two levels that round to one price are one. -/
def levelPrices (candles : List Candle) (numLevels : Nat) : List ℚ :=
  (List.range numLevels).foldl (fun prices (i : Nat) =>
    let price := roundCents (minPrice candles + levelHeight candles numLevels * i + levelHeight candles numLevels / 2)
    if price ∈ prices then prices else prices ++ [price]) []

namespace Candle

/-- What a candle adds to a level that it reaches. -/
def levelVol (c : Candle) (height : ℚ) (numLevels : Nat) : ℚ :=
  if 0 < c.high - c.low then c.volume / ((c.high - c.low) / height) else c.volume / numLevels

def reaches (c : Candle) (price : ℚ) : Bool := c.low ≤ price && price ≤ c.high

/-- `is_bullish` -/
def bullish (c : Candle) : Bool := c.open_ ≤ c.close

end Candle

section
variable (candles : List Candle) (numLevels : Nat)

/-- The sum of what the candles add to the level, each times its share. -/
def levelSum (share : Candle → ℚ) (price : ℚ) : ℚ :=
  ((candles.filter fun c => c.reaches price).map fun c =>
    c.levelVol (levelHeight candles numLevels) numLevels * share c).sum

def volumeAt (price : ℚ) : ℚ := levelSum candles numLevels (fun _ => 1) price

def buyVolumeAt (price : ℚ) : ℚ := levelSum candles numLevels (fun c => if c.bullish then 6 / 10 else 4 / 10) price

def sellVolumeAt (price : ℚ) : ℚ := levelSum candles numLevels (fun c => if c.bullish then 4 / 10 else 6 / 10) price

/-- The price and the volume of the point of control. -/
def pointOfControl : ℚ × ℚ :=
  (levelPrices candles numLevels).foldl (fun best price =>
    if best.2 < volumeAt candles numLevels price then (price, volumeAt candles numLevels price) else best)
    (minPrice candles, 0)

end

/-! ### The loop of the value area -/

structure Area where
  vahIndex : Nat
  valIndex : Nat
  cumVolume : ℚ
  stopped : Bool := false
deriving DecidableEq

section
variable (vols : List ℚ)

def upperVol (a : Area) : ℚ := if a.vahIndex + 1 < vols.length then vols.getD (a.vahIndex + 1) 0 else 0

def lowerVol (a : Area) : ℚ := if 0 < a.valIndex then vols.getD (a.valIndex - 1) 0 else 0

def widen (a : Area) : Area :=
  if lowerVol vols a ≤ upperVol vols a ∧ a.vahIndex + 1 < vols.length then
    { a with vahIndex := a.vahIndex + 1, cumVolume := a.cumVolume + vols.getD (a.vahIndex + 1) 0 }
  else if 0 < a.valIndex then
    { a with valIndex := a.valIndex - 1, cumVolume := a.cumVolume + vols.getD (a.valIndex - 1) 0 }
  else { a with stopped := true }

def below (target : ℚ) (a : Area) : Bool := !a.stopped && a.cumVolume < target

/-- The `while` loop: each round widens the area or ends it. -/
def valueArea (target : ℚ) (a : Area) : Area := (whileLoop (below target) (widen vols) (vols.length + 2) a).getD a

end

section
variable (candles : List Candle) (numLevels : Nat)

def sortedPrices : List ℚ := sortedBy id (levelPrices candles numLevels)

def totalVolume : ℚ := ((levelPrices candles numLevels).map (volumeAt candles numLevels)).sum

def pocIndex : Nat :=
  if (pointOfControl candles numLevels).1 ∈ sortedPrices candles numLevels then
    (sortedPrices candles numLevels).idxOf (pointOfControl candles numLevels).1
  else (sortedPrices candles numLevels).length / 2

/-- The area that the loop begins with. -/
def startArea : Area where
  vahIndex := pocIndex candles numLevels
  valIndex := pocIndex candles numLevels
  cumVolume :=
    if (pointOfControl candles numLevels).1 ∈ levelPrices candles numLevels then
      volumeAt candles numLevels (pointOfControl candles numLevels).1
    else 0

def profileArea (valueAreaPct : ℚ) : Area :=
  valueArea ((sortedPrices candles numLevels).map (volumeAt candles numLevels))
    (totalVolume candles numLevels * valueAreaPct) (startArea candles numLevels)

def profileLevels : List ProfileLevel :=
  sortedBy ProfileLevel.price
    (((levelPrices candles numLevels).filter fun p => 0 < volumeAt candles numLevels p).map fun p =>
      { price := p
        volume := roundHalfEven (volumeAt candles numLevels p)
        buyVolume := roundHalfEven (buyVolumeAt candles numLevels p)
        sellVolume := roundHalfEven (sellVolumeAt candles numLevels p) })

end

def calculateVolumeProfile (candles : List Candle) (numLevels : Nat) (valueAreaPct : ℚ) : Option VolumeProfile :=
  if candles = [] then none
  else if priceRange candles = 0 then none
  else
    let prices := sortedPrices candles numLevels
    let area := profileArea candles numLevels valueAreaPct
    some
      { levels := profileLevels candles numLevels
        poc := roundCents (pointOfControl candles numLevels).1
        vah := roundCents (if area.vahIndex < prices.length then prices.getD area.vahIndex 0 else maxPrice candles)
        val := roundCents (prices.getD area.valIndex 0) }

/-! ### What the value area holds -/

section
variable {vols : List ℚ} {target : ℚ} {a : Area} {start : Nat}

/-- The volume of the levels from `lo` to `hi`. -/
def windowSum (vols : List ℚ) (lo hi : Nat) : ℚ := ((vols.take (hi + 1)).drop lo).sum

theorem windowSum_self {i : Nat} (h : i < vols.length) : windowSum vols i i = vols.getD i 0 := by
  rw [windowSum, List.take_add_one, List.getElem?_eq_getElem h, Option.toList_some,
    List.drop_append_of_le_length (by simp; omega), List.drop_of_length_le (by simp), List.getD_eq_getElem _ _ h]
  simp

theorem windowSum_up {lo hi : Nat} (hle : lo ≤ hi + 1) (h : hi + 1 < vols.length) :
    windowSum vols lo (hi + 1) = windowSum vols lo hi + vols.getD (hi + 1) 0 := by
  rw [windowSum, List.take_add_one, List.getElem?_eq_getElem h, Option.toList_some,
    List.drop_append_of_le_length (by simp; omega), List.sum_append, List.sum_singleton, List.getD_eq_getElem _ _ h]
  rfl

theorem windowSum_down {lo hi : Nat} (hle : lo ≤ hi) (h : hi < vols.length) :
    windowSum vols lo hi = vols.getD lo 0 + windowSum vols (lo + 1) hi := by
  have hlt : lo < (vols.take (hi + 1)).length := by simp; omega
  rw [windowSum, List.drop_eq_getElem_cons hlt, List.sum_cons, List.getElem_take, List.getD_eq_getElem _ _ (by omega)]
  rfl

theorem windowSum_all (h : vols ≠ []) : windowSum vols 0 (vols.length - 1) = vols.sum := by
  have hlen : 0 < vols.length := List.length_pos_iff.2 h
  rw [windowSum, Nat.sub_add_cancel hlen, List.take_length, List.drop_zero]

/-- The area is around the start, its volume is counted, and without the level that came last it is below the target. -/
structure AreaInv (vols : List ℚ) (target : ℚ) (start : Nat) (a : Area) : Prop where
  val : a.valIndex ≤ start
  vah : start ≤ a.vahIndex
  bound : a.vahIndex < vols.length
  cum : a.cumVolume = windowSum vols a.valIndex a.vahIndex
  needed : a.vahIndex = a.valIndex ∨ windowSum vols a.valIndex (a.vahIndex - 1) < target ∨
    windowSum vols (a.valIndex + 1) a.vahIndex < target
  stopped : a.stopped = true → a.valIndex = 0 ∧ a.vahIndex + 1 = vols.length

theorem AreaInv.widen (hvols : ∀ v ∈ vols, 0 ≤ v) (h : AreaInv vols target start a) (htest : below target a = true) :
    AreaInv vols target start (widen vols a) := by
  have hval := h.val
  have hvah := h.vah
  have hcum := h.cum
  have hbelow : a.stopped = false ∧ a.cumVolume < target := by simpa [below] using htest
  unfold IndicatorService.widen
  split
  next hup =>
    refine ⟨hval, hvah.trans (Nat.le_succ _), hup.2, ?_, .inr (.inl ?_), fun hst => ?_⟩
    · have hstep : windowSum vols a.valIndex (a.vahIndex + 1) = _ := windowSum_up (by omega) hup.2
      rw [hcum, ← hstep]
    · simpa [← hcum] using hbelow.2
    · exact absurd hst (by simp [hbelow.1])
  next hup =>
    split
    next hdown =>
      refine ⟨(Nat.sub_le _ _).trans hval, hvah, h.bound, ?_, .inr (.inr ?_), fun hst => ?_⟩
      · have hstep : windowSum vols (a.valIndex - 1) a.vahIndex = _ := windowSum_down (by omega) h.bound
        rw [Nat.sub_add_cancel hdown] at hstep
        change a.cumVolume + _ = _
        rw [hstep, hcum, add_comm]
      · change windowSum vols (a.valIndex - 1 + 1) a.vahIndex < target
        rw [Nat.sub_add_cancel hdown, ← hcum]
        exact hbelow.2
      · exact absurd hst (by simp [hbelow.1])
    next hdown =>
      refine ⟨hval, hvah, h.bound, hcum, h.needed, fun _ => ?_⟩
      change a.valIndex = 0 ∧ a.vahIndex + 1 = vols.length
      refine ⟨by omega, ?_⟩
      -- a level above would have been taken: at the lower end there is none below
      by_contra hmore
      have hroom : a.vahIndex + 1 < vols.length := by have := h.bound; omega
      refine hup ⟨?_, hroom⟩
      rw [lowerVol, if_neg hdown, upperVol, if_pos hroom, List.getD_eq_getElem _ _ hroom]
      exact hvols _ (List.getElem_mem _)

/-- Without its highest or without its lowest level the area would not reach the target, unless it is a single level. -/
theorem AreaInv.tight (h : AreaInv vols target start a) :
    a.valIndex = a.vahIndex ∨ windowSum vols a.valIndex a.vahIndex - vols.getD a.vahIndex 0 < target ∨
      windowSum vols a.valIndex a.vahIndex - vols.getD a.valIndex 0 < target := by
  have hle := h.val.trans h.vah
  rcases hle.lt_or_eq with hlt | heq
  · refine .inr ?_
    rcases h.needed with heq | hup | hdown
    · omega
    · obtain ⟨k, hk⟩ : ∃ k, a.vahIndex = k + 1 := Nat.exists_eq_add_one.2 (by omega)
      have hstep : windowSum vols a.valIndex (k + 1) = _ := windowSum_up (by omega) (hk ▸ h.bound)
      rw [hk, Nat.add_sub_cancel] at hup
      rw [hk]
      exact .inl (by linarith)
    · have hstep := windowSum_down hle h.bound
      exact .inr (by linarith)
  · exact .inl heq

/-- The loop ends, with the target reached. -/
theorem valueArea_spec (hvols : ∀ v ∈ vols, 0 ≤ v) (h : AreaInv vols target start a) (htarget : target ≤ vols.sum) :
    AreaInv vols target start (valueArea vols target a) ∧ target ≤ (valueArea vols target a).cumVolume := by
  have hstart : start < vols.length := h.vah.trans_lt h.bound
  -- what can still be taken
  obtain ⟨b, hb⟩ : ∃ b, whileLoop (below target) (widen vols) (vols.length + 2) a = some b := by
    refine whileLoop_ends (m := fun a => (vols.length - (a.vahIndex + 1)) + (a.valIndex + if a.stopped then 0 else 1))
      (fun s hs => ?_) ?_
    · have hgoes : s.stopped = false := by
        simp [below] at hs
        exact hs.1
      unfold widen
      split
      · simp [hgoes]
        omega
      · split
        · simp [hgoes]
          omega
        · simp [hgoes]
    · have := h.val
      have := h.vah
      have := h.bound
      split <;> omega
  have hval : valueArea vols target a = b := by rw [valueArea, hb, Option.getD_some]
  obtain ⟨hinv, hend⟩ := whileLoop_invariant (fun s hs htest => AreaInv.widen hvols hs htest) hb h
  rw [hval]
  refine ⟨hinv, ?_⟩
  cases hstopped : b.stopped with
  | false => simpa [below, hstopped] using hend
  | true =>
    obtain ⟨hlo, hhi⟩ := hinv.stopped hstopped
    have hne : vols ≠ [] := List.length_pos_iff.1 (by omega)
    rw [hinv.cum, hlo, show b.vahIndex = vols.length - 1 by omega, windowSum_all hne]
    exact htarget

end

/-! ### The levels -/

section
variable {candles : List Candle} {numLevels : Nat}

/-- A key is added once. -/
theorem foldl_keys (price : Nat → ℚ) (l : List Nat) (keys : List ℚ) (h : keys.Nodup) :
    (l.foldl (fun keys i => if price i ∈ keys then keys else keys ++ [price i]) keys).Nodup ∧
      ∀ p, p ∈ l.foldl (fun keys i => if price i ∈ keys then keys else keys ++ [price i]) keys ↔
        p ∈ keys ∨ ∃ i ∈ l, price i = p := by
  induction l generalizing keys with
  | nil => exact ⟨h, by simp⟩
  | cons i l ih =>
    rw [List.foldl_cons]
    split
    next hmem =>
      obtain ⟨hnodup, hiff⟩ := ih keys h
      refine ⟨hnodup, fun p => (hiff p).trans ?_⟩
      simp only [List.mem_cons, exists_eq_or_imp]
      constructor
      · rintro (hp | hp)
        · exact .inl hp
        · exact .inr (.inr hp)
      · rintro (hp | rfl | hp)
        · exact .inl hp
        · exact .inl hmem
        · exact .inr hp
    next hmem =>
      obtain ⟨hnodup, hiff⟩ := ih (keys ++ [price i]) (List.nodup_append.2 ⟨h, List.nodup_singleton _, by
        rintro a ha b hb rfl
        exact hmem (List.mem_singleton.1 hb ▸ ha)⟩)
      refine ⟨hnodup, fun p => (hiff p).trans ?_⟩
      simp [or_assoc, eq_comm]

theorem nodup_levelPrices : (levelPrices candles numLevels).Nodup := (foldl_keys _ _ [] List.nodup_nil).1

theorem roundCents_roundCents (x : ℚ) : roundCents (roundCents x) = roundCents x := by
  rw [roundCents, roundCents, div_mul_cancel₀ _ (by norm_num), roundHalfEven_intCast]

theorem roundCents_of_mem {p : ℚ} (h : p ∈ levelPrices candles numLevels) : roundCents p = p := by
  rcases ((foldl_keys _ _ [] List.nodup_nil).2 p).1 h with hp | ⟨i, -, rfl⟩
  · cases hp
  · exact roundCents_roundCents _

theorem levelPrices_ne_nil (h : 0 < numLevels) : levelPrices candles numLevels ≠ [] :=
  List.ne_nil_of_mem (((foldl_keys _ _ [] List.nodup_nil).2 _).2 (.inr ⟨0, List.mem_range.2 h, rfl⟩))

/-- What is asked of the candles: a low that is no higher than the high, and a volume that is not negative. -/
def Candle.Sound (c : Candle) : Prop := c.low ≤ c.high ∧ 0 ≤ c.volume

instance (c : Candle) : Decidable c.Sound := inferInstanceAs (Decidable (_ ∧ _))

theorem le_maxPrice {c : Candle} (hc : c ∈ candles) : c.high ≤ maxPrice candles := by
  have hmem := List.mem_map_of_mem (f := Candle.high) hc
  cases hmax : (candles.map Candle.high).max? with
  | none => simp [List.max?_eq_none_iff.1 hmax] at hmem
  | some hi =>
    rw [maxPrice, hmax]
    exact (List.max?_eq_some_iff.1 hmax).2 _ hmem

theorem minPrice_le {c : Candle} (hc : c ∈ candles) : minPrice candles ≤ c.low := by
  have hmem := List.mem_map_of_mem (f := Candle.low) hc
  cases hmin : (candles.map Candle.low).min? with
  | none => simp [List.min?_eq_none_iff.1 hmin] at hmem
  | some lo =>
    rw [minPrice, hmin]
    exact (List.min?_eq_some_iff.1 hmin).2 _ hmem

theorem priceRange_nonneg (hne : candles ≠ []) (h : ∀ c ∈ candles, c.Sound) : 0 ≤ priceRange candles := by
  obtain ⟨c, hc⟩ := List.exists_mem_of_ne_nil candles hne
  exact sub_nonneg.2 ((minPrice_le hc).trans ((h c hc).1.trans (le_maxPrice hc)))

theorem volumeAt_nonneg (hne : candles ≠ []) (h : ∀ c ∈ candles, c.Sound) (p : ℚ) : 0 ≤ volumeAt candles numLevels p := by
  have hheight : 0 ≤ levelHeight candles numLevels := div_nonneg (priceRange_nonneg hne h) (Nat.cast_nonneg _)
  refine List.sum_nonneg fun v hv => ?_
  obtain ⟨c, hc, rfl⟩ := List.mem_map.1 hv
  have hvolume := (h c (List.mem_filter.1 hc).1).2
  rw [mul_one, Candle.levelVol]
  split
  next hrange => positivity
  · positivity

/-- The shares of buyers and sellers add up. -/
theorem buyVolumeAt_add_sellVolumeAt (p : ℚ) :
    buyVolumeAt candles numLevels p + sellVolumeAt candles numLevels p = volumeAt candles numLevels p := by
  unfold buyVolumeAt sellVolumeAt volumeAt levelSum
  rw [← List.sum_map_add]
  refine congrArg List.sum (List.map_congr_left fun c _ => ?_)
  rw [← mul_add]
  cases hbullish : c.bullish
  · norm_num [hbullish]
  · norm_num [hbullish]

/-- The best of the prices, or the start where no volume is above it. -/
theorem foldl_best (volume : ℚ → ℚ) (l : List ℚ) (best : ℚ × ℚ) :
    let result := l.foldl (fun best p => if best.2 < volume p then (p, volume p) else best) best
    best.2 ≤ result.2 ∧ (∀ p ∈ l, volume p ≤ result.2) ∧ (result = best ∨ result.1 ∈ l ∧ result.2 = volume result.1) := by
  induction l generalizing best with
  | nil => exact ⟨le_rfl, by simp, .inl rfl⟩
  | cons p l ih =>
    rw [List.foldl_cons]
    split
    next hlt =>
      obtain ⟨hle, hall, hwhere⟩ := ih (p, volume p)
      refine ⟨hlt.le.trans hle, fun q hq => ?_, .inr ?_⟩
      · rcases List.mem_cons.1 hq with rfl | hq
        · exact hle
        · exact hall q hq
      · rcases hwhere with heq | ⟨hmem, hvolume⟩
        · rw [heq]
          exact ⟨List.mem_cons_self, rfl⟩
        · exact ⟨List.mem_cons_of_mem _ hmem, hvolume⟩
    next hlt =>
      obtain ⟨hle, hall, hwhere⟩ := ih best
      refine ⟨hle, fun q hq => ?_, ?_⟩
      · rcases List.mem_cons.1 hq with rfl | hq
        · exact (not_lt.1 hlt).trans hle
        · exact hall q hq
      · exact hwhere.imp_right fun hmem => ⟨List.mem_cons_of_mem _ hmem.1, hmem.2⟩

/-- Where any level has volume, the point of control is the level with the largest. -/
theorem pointOfControl_spec (hpos : ∃ p ∈ levelPrices candles numLevels, 0 < volumeAt candles numLevels p) :
    (pointOfControl candles numLevels).1 ∈ levelPrices candles numLevels ∧ ∀ p ∈ levelPrices candles numLevels,
      volumeAt candles numLevels p ≤ volumeAt candles numLevels (pointOfControl candles numLevels).1 := by
  obtain ⟨-, hall, hwhere⟩ := foldl_best (volumeAt candles numLevels) (levelPrices candles numLevels) (minPrice candles, 0)
  obtain ⟨p, hp, hvolume⟩ := hpos
  rcases hwhere with heq | ⟨hmem, hbest⟩
  · have := hall p hp
    rw [heq] at this
    exact absurd hvolume (not_lt.2 this)
  · refine ⟨hmem, fun q hq => (hall q hq).trans hbest.le⟩

end

/-! ### The profile -/

/-- In a list that rises the elements from place `i` to place `j` are those between the two. -/
theorem filter_between {ps : List ℚ} (h : ps.Pairwise (· < ·)) {i j : Nat} (hij : i ≤ j) (hj : j < ps.length) :
    ps.filter (fun p => ps.getD i 0 ≤ p ∧ p ≤ ps.getD j 0) = (ps.take (j + 1)).drop i := by
  have hlt {m n : Nat} (hm : m < ps.length) (hn : n < ps.length) (hmn : m < n) : ps[m] < ps[n] :=
    List.pairwise_iff_getElem.1 h m n hm hn hmn
  have hle {m n : Nat} (hm : m < ps.length) (hn : n < ps.length) (hmn : m ≤ n) : ps[m] ≤ ps[n] := by
    rcases hmn.lt_or_eq with hmn | rfl
    · exact (hlt hm hn hmn).le
    · exact le_rfl
  have hi : i < ps.length := hij.trans_lt hj
  rw [List.getD_eq_getElem _ _ hi, List.getD_eq_getElem _ _ hj]
  have hsplit : ps = ps.take i ++ ((ps.take (j + 1)).drop i ++ ps.drop (j + 1)) := by
    have htake : ps.take i = (ps.take (j + 1)).take i := by rw [List.take_take, min_eq_left (by omega)]
    rw [htake, ← List.append_assoc, List.take_append_drop, List.take_append_drop]
  have hbefore : (ps.take i).filter (fun p => ps[i] ≤ p ∧ p ≤ ps[j]) = [] := by
    rw [List.filter_eq_nil_iff]
    intro p hp
    obtain ⟨m, hm, rfl⟩ := List.mem_take_iff_getElem.1 hp
    have := hlt (m := m) (n := i) (by omega) hi (by omega)
    simp [not_le.2 this]
  have hafter : (ps.drop (j + 1)).filter (fun p => ps[i] ≤ p ∧ p ≤ ps[j]) = [] := by
    rw [List.filter_eq_nil_iff]
    intro p hp
    obtain ⟨m, hm, rfl⟩ := List.mem_drop_iff_getElem.1 hp
    have := hlt (m := j) (n := j + 1 + m) hj (by omega) (by omega)
    simp [not_le.2 this]
  have hmid : ((ps.take (j + 1)).drop i).filter (fun p => ps[i] ≤ p ∧ p ≤ ps[j]) = (ps.take (j + 1)).drop i := by
    rw [List.filter_eq_self]
    intro p hp
    obtain ⟨m, hm, rfl⟩ := List.mem_drop_iff_getElem.1 hp
    rw [List.length_take] at hm
    rw [List.getElem_take]
    simp [hle (m := i) (n := i + m) hi (by omega) (by omega), hle (m := i + m) (n := j) (by omega) hj (by omega)]
  have hfilter := congrArg (List.filter fun p => ps[i] ≤ p ∧ p ≤ ps[j]) hsplit
  rw [List.filter_append, List.filter_append, hbefore, hafter, hmid, List.nil_append, List.append_nil] at hfilter
  exact hfilter

theorem pairwise_lt_sortedBy {ps : List ℚ} (h : ps.Nodup) : (sortedBy id ps).Pairwise (· < ·) := by
  have hnodup : (sortedBy id ps).Nodup := (List.perm_insertionSort _ ps).nodup_iff.2 h
  have hle : (sortedBy id ps).Pairwise (· ≤ ·) := @pairwise_sortedBy _ _ _ id ps
  exact (hle.and hnodup).imp fun hp => lt_of_le_of_ne hp.1 hp.2

/-- The volume of the levels in the value area. -/
def areaVolume (candles : List Candle) (numLevels : Nat) (vp : VolumeProfile) : ℚ :=
  (((levelPrices candles numLevels).filter fun p => vp.val ≤ p ∧ p ≤ vp.vah).map (volumeAt candles numLevels)).sum

section
variable {candles : List Candle} {numLevels : Nat}

theorem perm_sortedPrices : (sortedPrices candles numLevels).Perm (levelPrices candles numLevels) :=
  List.perm_insertionSort _ _

theorem getD_le_getD {i j : Nat} (hij : i ≤ j) (hj : j < (sortedPrices candles numLevels).length) :
    (sortedPrices candles numLevels).getD i 0 ≤ (sortedPrices candles numLevels).getD j 0 := by
  rw [List.getD_eq_getElem _ _ (hij.trans_lt hj), List.getD_eq_getElem _ _ hj]
  rcases hij.lt_or_eq with hlt | rfl
  · exact (List.pairwise_iff_getElem.1 (pairwise_lt_sortedBy nodup_levelPrices) i j _ hj hlt).le
  · exact le_rfl

/-- The levels between two prices are a window of the sorted ones. -/
theorem sum_between {i j : Nat} (hij : i ≤ j) (hj : j < (sortedPrices candles numLevels).length) :
    (((levelPrices candles numLevels).filter fun p => (sortedPrices candles numLevels).getD i 0 ≤ p ∧
      p ≤ (sortedPrices candles numLevels).getD j 0).map (volumeAt candles numLevels)).sum =
        windowSum ((sortedPrices candles numLevels).map (volumeAt candles numLevels)) i j := by
  rw [← ((perm_sortedPrices.filter _).map _).sum_eq, sortedPrices,
    filter_between (pairwise_lt_sortedBy nodup_levelPrices) hij hj, windowSum, List.map_drop, List.map_take]

theorem getD_pocIndex (h : (pointOfControl candles numLevels).1 ∈ levelPrices candles numLevels) :
    pocIndex candles numLevels < (sortedPrices candles numLevels).length ∧
      (sortedPrices candles numLevels).getD (pocIndex candles numLevels) 0 = (pointOfControl candles numLevels).1 := by
  have hmem := perm_sortedPrices.mem_iff.2 h
  have hlt := List.idxOf_lt_length_of_mem hmem
  rw [pocIndex, if_pos hmem, List.getD_eq_getElem _ _ hlt, List.getElem_idxOf]
  exact ⟨hlt, rfl⟩

/-- The loop begins at the point of control. -/
theorem areaInv_start (hne : candles ≠ []) (h : ∀ c ∈ candles, c.Sound) (hlevels : 0 < numLevels) (target : ℚ) :
    AreaInv ((sortedPrices candles numLevels).map (volumeAt candles numLevels)) target (pocIndex candles numLevels)
      (startArea candles numLevels) := by
  have hlen : 0 < (sortedPrices candles numLevels).length := by
    rw [perm_sortedPrices.length_eq]
    exact List.length_pos_iff.2 (levelPrices_ne_nil hlevels)
  have hmem : (pointOfControl candles numLevels).1 ∈ sortedPrices candles numLevels ↔ _ := perm_sortedPrices.mem_iff
  have hstart : pocIndex candles numLevels < (sortedPrices candles numLevels).length := by
    unfold pocIndex
    split
    next hpoc => exact List.idxOf_lt_length_of_mem hpoc
    · omega
  refine ⟨le_rfl, le_rfl, by rw [List.length_map]; exact hstart, ?_, .inl rfl, fun hst => by cases hst⟩
  rw [startArea, windowSum_self (by simpa using hstart), List.getD_eq_getElem _ _ (by simpa using hstart), List.getElem_map]
  by_cases hpoc : (pointOfControl candles numLevels).1 ∈ sortedPrices candles numLevels
  · have hindex := (getD_pocIndex (hmem.1 hpoc)).2
    rw [List.getD_eq_getElem _ _ hstart] at hindex
    rw [if_pos (hmem.1 hpoc), hindex]
  · -- no level has volume
    rw [if_neg fun hin => hpoc (hmem.2 hin)]
    refine le_antisymm (volumeAt_nonneg hne h _) (not_lt.1 fun hpos => hpoc (hmem.2 ?_))
    exact (pointOfControl_spec ⟨_, perm_sortedPrices.mem_iff.1 (List.getElem_mem hstart), hpos⟩).1

theorem sum_volumes :
    ((sortedPrices candles numLevels).map (volumeAt candles numLevels)).sum = totalVolume candles numLevels :=
  (perm_sortedPrices.map _).sum_eq

theorem getD_volumes {i : Nat} (hi : i < (sortedPrices candles numLevels).length) :
    ((sortedPrices candles numLevels).map (volumeAt candles numLevels)).getD i 0 =
      volumeAt candles numLevels ((sortedPrices candles numLevels).getD i 0) := by
  rw [List.getD_eq_getElem _ _ (by simpa using hi), List.getD_eq_getElem _ _ hi, List.getElem_map]

theorem profileArea_spec {pct : ℚ} (hne : candles ≠ []) (h : ∀ c ∈ candles, c.Sound) (hlevels : 0 < numLevels)
    (hpct : pct ≤ 1) :
    AreaInv ((sortedPrices candles numLevels).map (volumeAt candles numLevels)) (totalVolume candles numLevels * pct)
      (pocIndex candles numLevels) (profileArea candles numLevels pct) ∧
      totalVolume candles numLevels * pct ≤ (profileArea candles numLevels pct).cumVolume := by
  have hvols : ∀ v ∈ (sortedPrices candles numLevels).map (volumeAt candles numLevels), 0 ≤ v := by
    intro v hv
    obtain ⟨p, -, rfl⟩ := List.mem_map.1 hv
    exact volumeAt_nonneg hne h p
  refine valueArea_spec hvols (areaInv_start hne h hlevels _) ?_
  rw [sum_volumes]
  exact mul_le_of_le_one_right (sum_volumes ▸ List.sum_nonneg hvols) hpct

/-- The ends of the value area are levels, which are rounded already. -/
theorem calculateVolumeProfile_eq {pct : ℚ} (hne : candles ≠ []) (hrange : priceRange candles ≠ 0)
    (hle : (profileArea candles numLevels pct).valIndex ≤ (profileArea candles numLevels pct).vahIndex)
    (hhi : (profileArea candles numLevels pct).vahIndex < (sortedPrices candles numLevels).length) :
    calculateVolumeProfile candles numLevels pct = some
      { levels := profileLevels candles numLevels
        poc := roundCents (pointOfControl candles numLevels).1
        vah := (sortedPrices candles numLevels).getD (profileArea candles numLevels pct).vahIndex 0
        val := (sortedPrices candles numLevels).getD (profileArea candles numLevels pct).valIndex 0 } := by
  have hmem {i : Nat} (hi : i < (sortedPrices candles numLevels).length) :
      (sortedPrices candles numLevels).getD i 0 ∈ levelPrices candles numLevels := by
    rw [List.getD_eq_getElem _ _ hi]
    exact perm_sortedPrices.mem_iff.1 (List.getElem_mem hi)
  rw [calculateVolumeProfile, if_neg hne, if_neg hrange]
  dsimp only
  rw [if_pos hhi, roundCents_of_mem (hmem hhi), roundCents_of_mem (hmem (hle.trans_lt hhi))]

/-- Where there is volume, a level has some. -/
theorem exists_volume_pos (hne : candles ≠ []) (h : ∀ c ∈ candles, c.Sound) (htotal : 0 < totalVolume candles numLevels) :
    ∃ p ∈ levelPrices candles numLevels, 0 < volumeAt candles numLevels p := by
  by_contra hnone
  refine htotal.ne' (List.sum_eq_zero fun v hv => ?_)
  obtain ⟨p, hp, rfl⟩ := List.mem_map.1 hv
  exact le_antisymm (not_lt.1 fun hpos => hnone ⟨p, hp, hpos⟩) (volumeAt_nonneg hne h p)

/-- For candles with a low no higher than the high and no negative volume, and a range of prices: the value area holds
the share of the volume that it should, and without its highest or without its lowest level it would not, unless it is the
point of control alone; the point of control is a level in it with the largest volume, where there is volume at all. -/
theorem volume_profile {pct : ℚ} (hne : candles ≠ []) (h : ∀ c ∈ candles, c.Sound) (hrange : priceRange candles ≠ 0)
    (hlevels : 0 < numLevels) (hpct : pct ≤ 1) :
    ∃ vp, calculateVolumeProfile candles numLevels pct = some vp ∧
      totalVolume candles numLevels * pct ≤ areaVolume candles numLevels vp ∧
      (vp.val = vp.vah ∨
        areaVolume candles numLevels vp - volumeAt candles numLevels vp.vah < totalVolume candles numLevels * pct ∨
        areaVolume candles numLevels vp - volumeAt candles numLevels vp.val < totalVolume candles numLevels * pct) ∧
      (0 < totalVolume candles numLevels →
        vp.poc ∈ levelPrices candles numLevels ∧ vp.val ≤ vp.poc ∧ vp.poc ≤ vp.vah ∧
          ∀ p ∈ levelPrices candles numLevels, volumeAt candles numLevels p ≤ volumeAt candles numLevels vp.poc) := by
  obtain ⟨harea, hreached⟩ := profileArea_spec hne h hlevels hpct
  have hhi : (profileArea candles numLevels pct).vahIndex < (sortedPrices candles numLevels).length := by
    simpa using harea.bound
  have hle := harea.val.trans harea.vah
  refine ⟨_, calculateVolumeProfile_eq hne hrange hle hhi, ?_, ?_, fun htotal => ?_⟩
  · rw [areaVolume, sum_between hle hhi, ← harea.cum]
    exact hreached
  · rw [areaVolume, sum_between hle hhi]
    dsimp only
    rw [← getD_volumes hhi, ← getD_volumes (hle.trans_lt hhi)]
    exact harea.tight.imp_left fun heq => by rw [heq]
  · obtain ⟨hpoc, hlargest⟩ := pointOfControl_spec (exists_volume_pos hne h htotal)
    obtain ⟨hindex, hat⟩ := getD_pocIndex hpoc
    dsimp only
    rw [roundCents_of_mem hpoc]
    refine ⟨hpoc, ?_, ?_, hlargest⟩
    · rw [← hat]
      exact getD_le_getD harea.val hindex
    · rw [← hat]
      exact getD_le_getD harea.vah hhi

/-- Three candles over four levels. -/
def sampleCandles : List Candle := [⟨0, 1, 2, 0, 2, 100⟩, ⟨60, 2, 4, 1, 1, 300⟩, ⟨120, 1, 2, 1, 1, 0⟩]

theorem volume_profile_sampleCandles :
    (calculateVolumeProfile sampleCandles 4 (7 / 10)).map (fun vp => (vp.val, vp.poc, vp.vah)) =
        some (3 / 2, 3 / 2, 7 / 2) ∧
      ∃ vp, calculateVolumeProfile sampleCandles 4 (7 / 10) = some vp ∧
        totalVolume sampleCandles 4 * (7 / 10) ≤ areaVolume sampleCandles 4 vp := by
  have hsound : ∀ c ∈ sampleCandles, c.Sound := by decide +kernel
  have hrange : priceRange sampleCandles ≠ 0 := by decide +kernel
  obtain ⟨vp, hvp, hshare, -⟩ :=
    @volume_profile sampleCandles 4 (7 / 10) (by simp [sampleCandles]) hsound hrange (by simp) (by norm_num)
  exact ⟨by decide +kernel, vp, hvp, hshare⟩

end

end PearlAlgo.IndicatorService
