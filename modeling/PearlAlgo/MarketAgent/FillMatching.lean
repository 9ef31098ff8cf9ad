import PearlAlgo.ExecutionBase
import PearlAlgo.Py.Datetime
import Mathlib.Algebra.Order.Floor.Ring
import Mathlib.Data.Rat.Floor

/-!
# The fill of a signal (`market_agent/performance_tracker.py`)

`_match_fill_to_signal` takes `Z` and `+00:00` out of the entry time and of the time of a fill, and compares what is left.
The entry time is what the clock in New York shows and that of the fill is UTC, so the fills that pass are hours away
from the entry: `fillMatched_iff` says that a right answer is always that there is none.
-/

namespace PearlAlgo
open Py

/-- What a text of a time comes to. -/
inductive FillStamp
  /-- No offset, `Z`, or `+00:00`: without these, what a clock shows. -/
  | clock (t : ℚ)
  /-- Another offset, which stays: an instant. -/
  | offset (t : ℚ)
  /-- `fromisoformat` raises on what is left. The text may still have an instant. -/
  | unreadable (t : Option ℚ)
deriving DecidableEq

namespace FillStamp

/-- `fromisoformat(text.replace("Z", "").replace("+00:00", ""))` -/
def stripped : FillStamp → Except PyErr PyDatetime
  | clock t => .ok (.naive t)
  | offset t => .ok (.aware t)
  | unreadable _ => .error .valueError

/-- The instant that the text of a fill denotes; without an offset it is UTC. -/
def trueTime : FillStamp → Option ℚ
  | clock t => some t
  | offset t => some t
  | unreadable t => t

end FillStamp

/-- What the matching reads of an element of the fills file. -/
structure LoggedFill where
  action : Option String
  /-- `float(fill["price"])` -/
  price : Field Number
  /-- `none` when there is no text. -/
  timestamp : Option FillStamp
deriving DecidableEq

namespace FillMatching

def signalAction (direction : String) : String := if direction = "long" then "Buy" else "Sell"

/-- `abs((sig_dt - fill_dt).total_seconds()) <= 60`, false where this raises. -/
def timesClose (entryTime fillTime : FillStamp) : Bool :=
  match (do (← entryTime.stripped).sub (← fillTime.stripped) : Except PyErr ℚ) with
  | .ok seconds => |seconds| ≤ 60
  | .error _ => false

/-- The body of the loop: whether the fill is a candidate, and `none` where it raises. -/
def isCandidate (direction : String) (entryPrice : ℚ) (entryTime : FillStamp) (fill : LoggedFill) : Option Bool :=
  if fill.action.getD "" ≠ signalAction direction then some false
  else
    match fill.price.getD (.fin 0) with
    | .error .type | .error .value => some false
    | .error _ => none
    | .ok fillPrice =>
      if .fin 2 < (fillPrice.sub (.fin entryPrice)).abs then some false
      else
        match fill.timestamp with
        | none => some false
        | some fillTime => some (timesClose entryTime fillTime)

/-- The loop over the elements; one that is no object raises. -/
def candidates (direction : String) (entryPrice : ℚ) (entryTime : FillStamp) :
    List (Option LoggedFill) → Option (List LoggedFill)
  | [] => some []
  | none :: _ => none
  | some fill :: fills =>
    match isCandidate direction entryPrice entryTime fill with
    | none => none
    | some true => (candidates direction entryPrice entryTime fills).map (fill :: ·)
    | some false => candidates direction entryPrice entryTime fills

/-- `_match_fill_to_signal`, where the content of the file is `none` when it is no list. -/
def matchFillToSignal (content : Option (List (Option LoggedFill))) (direction : String) (entryPrice : ℚ)
    (entryTime : FillStamp) : Option LoggedFill :=
  match content with
  | none => none
  | some fills =>
    match candidates direction entryPrice entryTime fills with
    | none => none
    | some found => found.head?

/-! ### What the clocks say -/

/-- The `entry_time` of `track_entry`: the seconds that New York's clock shows. -/
def entryStamp (newYork : ℚ → ℚ) (entry : ℚ) : FillStamp := .clock ⌊newYork entry⌋

/-- New York is at least four hours behind UTC. -/
def BehindUtc (newYork : ℚ → ℚ) : Prop := ∀ t, newYork t + 14400 ≤ t

/-- A fill of the signal: its action, a price within two points, and a time within a minute of the entry. -/
def IsFillOf (direction : String) (entryPrice entry : ℚ) (fill : LoggedFill) : Prop :=
  fill.action = some (signalAction direction) ∧ (∃ price, fill.price = some (.ok (.fin price)) ∧ |price - entryPrice| ≤ 2) ∧
    ∃ stamp time, fill.timestamp = some stamp ∧ stamp.trueTime = some time ∧ |time - entry| ≤ 60

/-- Where the file has a fill of the signal, the answer is one, and it is never anything else. -/
def FillMatched (newYork : ℚ → ℚ) (content : Option (List (Option LoggedFill))) (direction : String)
    (entryPrice entry : ℚ) : Prop :=
  let answer := matchFillToSignal content direction entryPrice (entryStamp newYork entry)
  ((∃ fill, some fill ∈ content.getD [] ∧ IsFillOf direction entryPrice entry fill) →
      ∃ fill, answer = some fill ∧ IsFillOf direction entryPrice entry fill) ∧
    ∀ fill, answer = some fill → IsFillOf direction entryPrice entry fill

/-- The element raises before the answer: no object, or a price that overflows. -/
def Raises (direction : String) : Option LoggedFill → Prop
  | none => True
  | some fill => fill.action.getD "" = signalAction direction ∧
      ∃ e, fill.price = some (.error e) ∧ e ≠ .type ∧ e ≠ .value

/-- A fill that passes for one of the signal: UTC's clock at the fill is where New York's was at the entry. -/
def Passes (newYork : ℚ → ℚ) (direction : String) (entryPrice entry : ℚ) (fill : LoggedFill) : Prop :=
  fill.action.getD "" = signalAction direction ∧
    (∃ price, fill.price.getD (.fin 0) = .ok price ∧ ¬ .fin 2 < (price.sub (.fin entryPrice)).abs) ∧
    ∃ t, fill.timestamp = some (.clock t) ∧ |(⌊newYork entry⌋ : ℚ) - t| ≤ 60

variable {newYork : ℚ → ℚ} {direction : String} {entryPrice entry : ℚ} {fill : LoggedFill}
  {fills : List (Option LoggedFill)} {found : List LoggedFill}

theorem timesClose_entryStamp_iff {stamp : FillStamp} : timesClose (entryStamp newYork entry) stamp = true ↔
    ∃ t, stamp = .clock t ∧ |(⌊newYork entry⌋ : ℚ) - t| ≤ 60 := by
  cases stamp with
  | clock t => simp [timesClose, entryStamp, FillStamp.stripped, PyDatetime.sub, bind, Except.bind]
  | offset t => simp [timesClose, entryStamp, FillStamp.stripped, PyDatetime.sub, bind, Except.bind]
  | unreadable t => simp [timesClose, entryStamp, FillStamp.stripped, bind, Except.bind]

theorem isCandidate_eq_none_iff {entryTime : FillStamp} :
    isCandidate direction entryPrice entryTime fill = none ↔ Raises direction (some fill) := by
  unfold isCandidate
  simp only [Raises]
  split
  next haction => simp [haction]
  next haction =>
    rw [not_not] at haction
    generalize fill.price = price
    rcases price with _ | e | x
    · simp only [Field.getD, Option.getD_none]
      split <;> [simp; (split <;> simp)]
    · cases e <;> simp [Field.getD, haction]
    · simp only [Field.getD, Option.getD_some]
      split <;> [simp; (split <;> simp)]

theorem isCandidate_eq_true_iff :
    isCandidate direction entryPrice (entryStamp newYork entry) fill = some true ↔
      Passes newYork direction entryPrice entry fill := by
  unfold isCandidate Passes
  split
  next haction => simp [haction]
  next haction =>
    rw [not_not] at haction
    split
    next hprice => simp [hprice]
    next hprice => simp [hprice]
    next e _ _ hprice => simp [hprice]
    next price hprice =>
      simp only [hprice, haction, true_and, Except.ok.injEq, exists_eq_left']
      split
      next hfar => simp [hfar]
      next hnear =>
        rcases hstamp : fill.timestamp with _ | stamp
        · simp
        · simp [hnear, timesClose_entryStamp_iff]

/-- The loop raises on one of its elements, or finds the fills that pass. -/
theorem candidates_spec (newYork : ℚ → ℚ) (direction : String) (entryPrice entry : ℚ) (fills : List (Option LoggedFill)) :
    match candidates direction entryPrice (entryStamp newYork entry) fills with
    | none => ∃ fill ∈ fills, Raises direction fill
    | some found => (∀ fill ∈ fills, ¬ Raises direction fill) ∧
        ∀ fill, fill ∈ found ↔ some fill ∈ fills ∧ Passes newYork direction entryPrice entry fill := by
  induction fills with
  | nil => simp [candidates]
  | cons row fills ih =>
    cases row with
    | none => simp [candidates, Raises]
    | some fill =>
      have hraises := @isCandidate_eq_none_iff direction entryPrice fill (entryStamp newYork entry)
      have hpasses := @isCandidate_eq_true_iff newYork direction entryPrice entry fill
      simp only [candidates]
      rcases hcandidate : isCandidate direction entryPrice (entryStamp newYork entry) fill with _ | found
      · exact ⟨some fill, List.mem_cons_self, hraises.1 hcandidate⟩
      · rw [hcandidate] at hraises hpasses
        have hnot : ¬ Raises direction (some fill) := fun h => by simpa using hraises.2 h
        rcases hrest : candidates direction entryPrice (entryStamp newYork entry) fills with _ | rest
        · rw [hrest] at ih
          obtain ⟨bad, hbad, hbadRaises⟩ := ih
          cases found <;> exact ⟨bad, List.mem_cons_of_mem _ hbad, hbadRaises⟩
        · rw [hrest] at ih
          obtain ⟨hclean, hmem⟩ := ih
          cases found with
          | false =>
            have hfails : ¬ Passes newYork direction entryPrice entry fill := fun h => by simpa using hpasses.2 h
            refine ⟨List.forall_mem_cons.2 ⟨hnot, hclean⟩, ?_⟩
            intro g
            rw [hmem g, List.mem_cons, Option.some.injEq]
            refine ⟨fun h => ⟨.inr h.1, h.2⟩, ?_⟩
            rintro ⟨rfl | hg, hpass⟩
            · exact absurd hpass hfails
            · exact ⟨hg, hpass⟩
          | true =>
            refine ⟨List.forall_mem_cons.2 ⟨hnot, hclean⟩, ?_⟩
            intro g
            simp only [List.mem_cons, hmem g, Option.some.injEq]
            refine ⟨?_, ?_⟩
            · rintro (rfl | ⟨hg, hpass⟩)
              · exact ⟨.inl rfl, hpasses.1 rfl⟩
              · exact ⟨.inr hg, hpass⟩
            · rintro ⟨rfl | hg, hpass⟩
              · exact .inl rfl
              · exact .inr ⟨hg, hpass⟩

theorem matchFillToSignal_eq_none_iff {content : Option (List (Option LoggedFill))} :
    matchFillToSignal content direction entryPrice (entryStamp newYork entry) = none ↔
      (∃ row ∈ content.getD [], Raises direction row) ∨
        ∀ fill, some fill ∈ content.getD [] → ¬ Passes newYork direction entryPrice entry fill := by
  cases content with
  | none => simp [matchFillToSignal]
  | some fills =>
    have hspec := candidates_spec newYork direction entryPrice entry fills
    simp only [matchFillToSignal, Option.getD_some]
    rcases hfound : candidates direction entryPrice (entryStamp newYork entry) fills with _ | found
    · rw [hfound] at hspec
      simp [hspec]
    · rw [hfound] at hspec
      obtain ⟨hclean, hmem⟩ := hspec
      have hnot : ¬ ∃ row ∈ fills, Raises direction row := by
        rintro ⟨row, hrow, hraises⟩
        exact hclean row hrow hraises
      simp only [List.head?_eq_none_iff, hnot, false_or, List.eq_nil_iff_forall_not_mem, hmem, not_and]

theorem passes_of_matchFillToSignal {content : Option (List (Option LoggedFill))}
    (h : matchFillToSignal content direction entryPrice (entryStamp newYork entry) = some fill) :
    Passes newYork direction entryPrice entry fill := by
  cases content with
  | none => cases h
  | some fills =>
    have hspec := candidates_spec newYork direction entryPrice entry fills
    simp only [matchFillToSignal] at h
    split at h
    · cases h
    next found hfound =>
      rw [hfound] at hspec
      exact ((hspec.2 fill).1 (List.mem_of_head? h)).2

/-- Within a minute on the clocks is hours away. -/
theorem not_isFillOf_of_passes (hzone : BehindUtc newYork) (h : Passes newYork direction entryPrice entry fill) :
    ¬ IsFillOf direction entryPrice entry fill := by
  obtain ⟨-, -, t, hstamp, hclock⟩ := h
  rintro ⟨-, -, stamp, time, hstamp', htime, hclose⟩
  rw [hstamp, Option.some.injEq] at hstamp'
  subst hstamp'
  obtain rfl := Option.some.inj htime
  have hbehind := hzone entry
  have hfloor : (⌊newYork entry⌋ : ℚ) ≤ newYork entry := Int.floor_le _
  have hlow := (abs_le.1 hclock).1
  have hhigh := (abs_le.1 hclose).1
  linarith

/-- The answer is right exactly if there is no fill of the signal, and none whose UTC clock is where New York's was. -/
theorem fillMatched_iff (newYork : ℚ → ℚ) (content : Option (List (Option LoggedFill))) (direction : String)
    (entryPrice entry : ℚ) (hzone : BehindUtc newYork) : FillMatched newYork content direction entryPrice entry ↔
      (∀ fill, some fill ∈ content.getD [] → ¬ IsFillOf direction entryPrice entry fill) ∧
        ((∃ row ∈ content.getD [], Raises direction row) ∨
          ∀ fill, some fill ∈ content.getD [] → ¬ Passes newYork direction entryPrice entry fill) := by
  rw [← matchFillToSignal_eq_none_iff]
  constructor
  · rintro ⟨hcomplete, hsound⟩
    have hnone : matchFillToSignal content direction entryPrice (entryStamp newYork entry) = none := by
      rcases hanswer : matchFillToSignal content direction entryPrice (entryStamp newYork entry) with _ | fill
      · rfl
      · exact absurd (hsound fill hanswer) (not_isFillOf_of_passes hzone (passes_of_matchFillToSignal hanswer))
    refine ⟨?_, hnone⟩
    intro fill hfill hof
    obtain ⟨answer, hanswer, -⟩ := hcomplete ⟨fill, hfill, hof⟩
    rw [hnone] at hanswer
    cases hanswer
  · rintro ⟨hnofill, hnone⟩
    refine ⟨?_, ?_⟩
    · rintro ⟨fill, hfill, hof⟩
      exact absurd hof (hnofill fill hfill)
    · intro fill hanswer
      rw [hnone] at hanswer
      cases hanswer

/-- New York in summer. -/
def summer (t : ℚ) : ℚ := t - 14400

theorem summer_behindUtc : BehindUtc summer := by
  intro t
  simp [summer]

def buyAt (t : ℚ) : LoggedFill :=
  { action := some "Buy", price := some (.ok (.fin 20000)), timestamp := some (.clock t) }

/-- An entry at 14:00 UTC, and a fill of the day before. -/
theorem fillMatched_iff_none : FillMatched summer (some [some (buyAt (-36000))]) "long" 20000 50400 := by
  refine (fillMatched_iff summer _ "long" 20000 50400 summer_behindUtc).2 ⟨?_, Or.inr ?_⟩
  · intro fill hfill
    rw [Option.getD_some, List.mem_singleton, Option.some.injEq] at hfill
    subst hfill
    rintro ⟨-, -, stamp, time, hstamp, htime, hclose⟩
    cases hstamp
    cases htime
    norm_num at hclose
  · intro fill hfill
    rw [Option.getD_some, List.mem_singleton, Option.some.injEq] at hfill
    subst hfill
    rintro ⟨-, -, t, hstamp, hclock⟩
    cases hstamp
    norm_num [summer] at hclock

/-- An entry at 14:00 UTC: its own fill, five seconds later, is not found, and one of 10:00 UTC is. -/
theorem fill_of_another_hour :
    (matchFillToSignal (some [some (buyAt 50405)]) "long" 20000 (entryStamp summer 50400)).isNone = true ∧
      ¬ FillMatched summer (some [some (buyAt 50405)]) "long" 20000 50400 ∧
      matchFillToSignal (some [some (buyAt 36005)]) "long" 20000 (entryStamp summer 50400) = some (buyAt 36005) ∧
      ¬ FillMatched summer (some [some (buyAt 36005)]) "long" 20000 50400 := by
  have hlost : (matchFillToSignal (some [some (buyAt 50405)]) "long" 20000 (entryStamp summer 50400)).isNone = true := by
    decide +kernel
  have hother : matchFillToSignal (some [some (buyAt 36005)]) "long" 20000 (entryStamp summer 50400) =
      some (buyAt 36005) := by decide +kernel
  refine ⟨hlost, ?_, hother, ?_⟩
  · rintro ⟨hcomplete, -⟩
    obtain ⟨fill, hanswer, -⟩ := hcomplete ⟨buyAt 50405, List.mem_singleton_self _, rfl,
      ⟨20000, rfl, by norm_num⟩, .clock 50405, 50405, rfl, rfl, by norm_num⟩
    rw [hanswer] at hlost
    cases hlost
  · rintro ⟨-, hsound⟩
    obtain ⟨-, -, stamp, time, hstamp, htime, hclose⟩ := hsound _ hother
    cases hstamp
    cases htime
    norm_num at hclose

end FillMatching

end PearlAlgo
