import PearlAlgo.TradingBots.VwapSide

/-!
# Tracking the opening range breakout (`_update_orb_range` and `_check_orb_signal` of `trading_bots/signal_generator.py`)

Runs of `generate_signals` with breakout entries enabled. `OrbStepOk` is what a call asks: a window that ends before ten,
rows that can be read within it, a breakout that passes the filters. `orbTracked_run` says that then no call raises, that
the range of a day is the one of the market once it is defined, and that the count of a day is that of its breakouts.
-/

namespace PearlAlgo.SignalGenerator
open Py

structure OrbCall where
  df : Frame
  df5m : Option Frame := none
  now : EtTime
  env : Environment := {}

/-! ### The state by days -/

namespace OrbState

/-- The state after the reset on a new day. -/
def forDay (orb : OrbState) (date : Int) : OrbState := if orb.date = some date then orb else { date := some date }

def definedOn (orb : OrbState) (date : Int) : Bool := (orb.forDay date).orbDefined

def tradesOn (orb : OrbState) (date : Int) : Nat := (orb.forDay date).tradesToday

/-- The high and the low of the state are those of these bars. -/
structure Spans (bars : List Ohlcv) (orb : OrbState) : Prop where
  high : orb.orbHigh = (bars.map Ohlcv.high).max?
  low : orb.orbLow = (bars.map Ohlcv.low).min?

end OrbState

section Window
variable (params : StrategyParams)

/-- `[9:30, 9:30 + orb_range_minutes]` -/
def orbInWindow (now : EtTime) : Prop :=
  microsAt 9 30 ≤ now.micros ∧ now.micros ≤ microsAt 9 (30 + params.orbRangeMinutes)

instance (now : EtTime) : Decidable (orbInWindow params now) := instDecidableAnd

def orbPastWindow (now : EtTime) : Prop := microsAt 9 (30 + params.orbRangeMinutes) < now.micros

instance (now : EtTime) : Decidable (orbPastWindow params now) := Nat.decLt ..

/-- The bars of a day's window in the market. -/
def windowBars (market : List (EtTime × Ohlcv)) (date : Int) : List Ohlcv :=
  (market.filter fun e => e.1.date = date ∧ orbInWindow params e.1).map Prod.snd

end Window

/-! ### Runs -/

section Runs
variable (config : Config) (params : StrategyParams) (market : List (EtTime × Ohlcv)) (calls : List OrbCall)

def OrbCall.run (c : OrbCall) (orb : OrbState) : OrbState × Option (List Signal) :=
  generateSignals config c.df c.df5m c.now c.env orb

/-- The indicators of a call that gets as far as the candidates. -/
def OrbCall.ready (c : OrbCall) : Option IndicatorResult := readyIndicators config params c.df c.df5m c.env

/-- The state before call `i`. -/
def orbBefore (i : Nat) : OrbState := (calls.take i).foldl (fun orb c => (c.run config orb).1) {}

/-- How many breakouts call `i` returns. -/
def breakouts (i : Nat) (c : OrbCall) : Nat :=
  ((c.run config (orbBefore config calls i)).2.getD []).countP fun s => s.entryTrigger = .orbBreakout

/-- How many breakouts the first calls return for a day. -/
def breakoutsOn (date : Int) : Nat → Nat
  | 0 => 0
  | n + 1 => breakoutsOn date n + match calls[n]? with
    | some c => if c.now.date = date then breakouts config calls n c else 0
    | none => 0

/-- No call raises, a range is that of its day once it is defined, a day has as many breakouts as are allowed at most, and
its count goes up by those that are returned. -/
structure OrbTracked : Prop where
  answers : ∀ i, ∀ c : OrbCall, calls[i]? = some c → (c.run config (orbBefore config calls i)).2.isSome
  range : ∀ i date, (orbBefore config calls i).definedOn date →
    (orbBefore config calls i).Spans (windowBars params market date)
  limit : ∀ n date, breakoutsOn config calls date n ≤ params.orbMaxTradesPerDay
  counted : ∀ i, ∀ c : OrbCall, calls[i]? = some c → (orbBefore config calls (i + 1)).tradesOn c.now.date =
    (orbBefore config calls i).tradesOn c.now.date + breakouts config calls i c

/-- The rows that the last call of a day within the window has shown. -/
def shownBefore (i : Nat) (date : Int) : Option (List Ohlcv) :=
  ((calls.take i).filter fun c =>
    c.now.date = date ∧ orbInWindow params c.now ∧ (c.ready config params).isSome).getLast?.map fun c =>
      lastN params.orbRangeMinutes c.df.bars

/-- What a call asks: the minutes of the window are fewer than thirty, and the days do not go back; within the window the
frame has no times, or the range is defined already; a call that could define the range follows one that has shown the
high and the low of the window; and a breakout passes the filters at the end. -/
structure OrbStepOk (i : Nat) (c : OrbCall) : Prop where
  minutes : (c.ready config params).isSome → params.orbRangeMinutes < 30
  order : ∀ j, ∀ c' : OrbCall, j < i → calls[j]? = some c' → c'.now.date ≤ c.now.date
  untimed : (c.ready config params).isSome → orbInWindow params c.now →
    ¬ (orbBefore config calls i).definedOn c.now.date → ¬ c.df.timestamped
  shown : (c.ready config params).isSome → orbPastWindow params c.now →
    ¬ (orbBefore config calls i).definedOn c.now.date →
    ∀ rows, shownBefore config params calls i c.now.date = some rows →
      (rows.map Ohlcv.high).max? = ((windowBars params market c.now.date).map Ohlcv.high).max? ∧
        (rows.map Ohlcv.low).min? = ((windowBars params market c.now.date).map Ohlcv.low).min?
  kept : ∀ ind, c.ready config params = some ind →
    ∀ b ∈ orbEntry params c.df ind c.now (trackOrb c.df c.now (orbBefore config calls i) params).1,
      b.Passes config (regimeMultiplier ind.regime.recommendation)

end Runs

/-! ### One update of the range -/

section Update
variable {params : StrategyParams} {df : Frame} {now : EtTime} {orb : OrbState}

theorem rangeEnd_of_lt (h : params.orbRangeMinutes < 30) :
    rangeEnd params.orbRangeMinutes = some (microsAt 9 (30 + params.orbRangeMinutes)) :=
  if_pos ⟨by omega, by omega⟩

theorem rangeEnd_eq_none (h : 30 ≤ params.orbRangeMinutes) : rangeEnd params.orbRangeMinutes = none :=
  if_neg fun hlt => by
    have hminutes : 30 + params.orbRangeMinutes < 60 := hlt.2
    omega

@[simp] theorem forDay_date (orb : OrbState) (date : Int) : (orb.forDay date).date = some date := by
  unfold OrbState.forDay
  split
  · assumption
  · rfl

/-- Within the window, while the range is not defined. -/
theorem updateOrbRange_building (h : params.orbRangeMinutes < 30) (hin : orbInWindow params now)
    (hopen : ¬ orb.definedOn now.date) :
    updateOrbRange orb df now params =
      if df.timestamped then (orb.forDay now.date, none)
      else
        let rows := lastN params.orbRangeMinutes df.bars
        let orb' := { orb.forDay now.date with
          orbHigh := (rows.map Ohlcv.high).max? <|> (orb.forDay now.date).orbHigh
          orbLow := (rows.map Ohlcv.low).min? <|> (orb.forDay now.date).orbLow }
        (orb', some (orb'.orbHigh, orb'.orbLow, orb'.orbDefined)) := by
  unfold updateOrbRange
  rw [rangeEnd_of_lt h]
  dsimp only
  rw [if_neg (not_lt.2 hin.1)]
  exact if_pos ⟨hin.2, hopen⟩

/-- Outside of the window, or with a range that is defined, the bars are not looked at. -/
theorem updateOrbRange_resting (h : params.orbRangeMinutes < 30) (hrest : orbInWindow params now → orb.definedOn now.date) :
    ∃ range, updateOrbRange orb df now params = ({ orb.forDay now.date with
      orbDefined := (orb.forDay now.date).orbDefined ||
        (decide (orbPastWindow params now) && (orb.forDay now.date).orbHigh.isSome) }, some range) := by
  unfold updateOrbRange
  rw [rangeEnd_of_lt h]
  dsimp only
  split
  next hbefore =>
    have hpast : ¬ orbPastWindow params now := by
      unfold orbPastWindow microsAt at *
      omega
    refine ⟨_, Prod.ext ?_ rfl⟩
    dsimp only
    rw [decide_eq_false hpast, Bool.false_and, Bool.or_false]
    rfl
  next hbefore =>
    rw [if_neg]
    · exact ⟨_, rfl⟩
    · rintro ⟨hle, hopen⟩
      exact hopen (hrest ⟨not_lt.1 hbefore, hle⟩)

/-- What an update that does not raise makes of the state. -/
structure OrbUpdated (params : StrategyParams) (df : Frame) (now : EtTime) (orb t : OrbState) : Prop where
  date : t.date = some now.date
  trades : t.tradesToday = orb.tradesOn now.date
  building : orbInWindow params now → ¬ orb.definedOn now.date →
    ¬ t.orbDefined ∧ t.Spans (lastN params.orbRangeMinutes df.bars)
  resting : (orbInWindow params now → orb.definedOn now.date) →
    t.orbHigh = (orb.forDay now.date).orbHigh ∧ t.orbLow = (orb.forDay now.date).orbLow ∧
      (t.orbDefined ↔ orb.definedOn now.date ∨ orbPastWindow params now ∧ (orb.forDay now.date).orbHigh.isSome)

theorem orbRangeMinutes_pos (params : StrategyParams) : 0 < params.orbRangeMinutes := by
  have hbound := params.valid { value := params.orbRangeMinutes, ge := 5 } (by simp [StrategyFields.bounds])
  have hfive : (5 : ℚ) ≤ params.orbRangeMinutes := hbound.1
  have hnat : 5 ≤ params.orbRangeMinutes := by exact_mod_cast hfive
  omega

/-- An update raises exactly where it would read the times of a frame. -/
theorem updateOrbRange_none_iff (h : params.orbRangeMinutes < 30) :
    (updateOrbRange orb df now params).2 = none ↔
      orbInWindow params now ∧ ¬ orb.definedOn now.date ∧ df.timestamped := by
  by_cases hbuild : orbInWindow params now ∧ ¬ orb.definedOn now.date
  · rw [updateOrbRange_building h hbuild.1 hbuild.2]
    split
    next htimes => exact iff_of_true rfl ⟨hbuild.1, hbuild.2, htimes⟩
    next htimes => exact iff_of_false (by simp) fun hnone => htimes hnone.2.2
  · obtain ⟨range, heq⟩ := @updateOrbRange_resting params df now orb h (not_and_not_right.1 hbuild)
    rw [heq]
    exact iff_of_false (by simp) fun hnone => hbuild ⟨hnone.1, hnone.2.1⟩

theorem updateOrbRange_updated (h : params.orbRangeMinutes < 30) (hbars : df.bars ≠ [])
    (hsome : (updateOrbRange orb df now params).2 ≠ none) :
    OrbUpdated params df now orb (updateOrbRange orb df now params).1 := by
  by_cases hbuild : orbInWindow params now ∧ ¬ orb.definedOn now.date
  · have htimes : ¬ df.timestamped := fun htimes => hsome ((updateOrbRange_none_iff h).2 ⟨hbuild.1, hbuild.2, htimes⟩)
    have hrows := lastN_ne_nil (orbRangeMinutes_pos params) hbars
    rw [updateOrbRange_building h hbuild.1 hbuild.2, if_neg htimes]
    refine ⟨forDay_date .., rfl, fun _ _ => ⟨hbuild.2, ?_, ?_⟩, fun hrest => absurd (hrest hbuild.1) hbuild.2⟩
    · exact Option.orElse_eq_or.trans (Option.or_of_isSome (List.isSome_max?_of_ne_nil (by simpa using hrows)))
    · exact Option.orElse_eq_or.trans (Option.or_of_isSome (List.isSome_min?_of_ne_nil (by simpa using hrows)))
  · have hrest : orbInWindow params now → orb.definedOn now.date := not_and_not_right.1 hbuild
    obtain ⟨range, heq⟩ := @updateOrbRange_resting params df now orb h hrest
    rw [heq]
    refine ⟨forDay_date .., rfl, fun hin hopen => absurd ⟨hin, hopen⟩ hbuild, fun _ => ⟨rfl, rfl, ?_⟩⟩
    dsimp only
    rw [Bool.or_eq_true, Bool.and_eq_true, decide_eq_true_iff]
    rfl

/-- An update after the window leaves an updated state as it is. -/
theorem updateOrbRange_again {t : OrbState} (h : params.orbRangeMinutes < 30) (hpast : orbPastWindow params now)
    (ht : OrbUpdated params df now orb t) : ∃ range, updateOrbRange t df now params = (t, some range) := by
  have hnot : ¬ orbInWindow params now := fun hin => not_lt.2 hin.2 hpast
  have hday : t.forDay now.date = t := if_pos ht.date
  obtain ⟨range, heq⟩ := @updateOrbRange_resting params df now t h fun hin => absurd hin hnot
  refine ⟨range, heq.trans (Prod.ext ?_ rfl)⟩
  obtain ⟨hhigh, -, hdefined⟩ := ht.resting fun hin => absurd hin hnot
  have hsame : (t.orbDefined || (decide (orbPastWindow params now) && t.orbHigh.isSome)) = t.orbDefined := by
    rw [Bool.or_eq_left_iff_imp]
    intro hlock
    rw [hhigh] at hlock
    exact hdefined.2 (.inr ⟨hpast, (Bool.and_eq_true_iff.1 hlock).2⟩)
  rw [hday]
  dsimp only
  rw [hsame]

section Open
variable {ind : IndicatorResult} {t : OrbState} {range : Option (Option ℚ × Option ℚ × Bool)} {side : PositionSide}
  {high low : ℚ}

theorem checkOrbSignal_none (hopen : orbWindowOpen params now) (heq : updateOrbRange t df now params = (t, range))
    (hsetup : orbSetup ind params t range = none) : checkOrbSignal ind params t df now = (t, none) := by
  unfold checkOrbSignal
  simp only [if_pos hopen, heq, hsetup]

theorem checkOrbSignal_some (hopen : orbWindowOpen params now) (heq : updateOrbRange t df now params = (t, range))
    (hsetup : orbSetup ind params t range = some (side, high, low)) : checkOrbSignal ind params t df now =
      ({ t with tradesToday := t.tradesToday + 1 }, some (orbSignal ind params side high low)) := by
  unfold checkOrbSignal
  simp only [if_pos hopen, heq, hsetup]

end Open

theorem orbPastWindow_of_open (h : params.orbRangeMinutes < 30) (hopen : orbWindowOpen params now) :
    orbPastWindow params now := by
  obtain ⟨last, hlast, hlt⟩ := (Option.any_eq_true _ _).1 (Bool.and_eq_true_iff.1 hopen).2
  have hlast' : last = microsAt 9 (30 + params.orbRangeMinutes) := Option.some.inj (hlast.symm.trans (rangeEnd_of_lt h))
  have hlt' : last < now.micros := (of_decide_eq_true hlt).1
  unfold orbPastWindow
  rwa [← hlast']

/-- The check counts the breakout that it finds, and finds none on a day that has all of them. -/
theorem checkOrbSignal_counts {t : OrbState} (ind : IndicatorResult) (h : params.orbRangeMinutes < 30)
    (ht : OrbUpdated params df now orb t) :
    (checkOrbSignal ind params t df now).1 =
        { t with tradesToday := t.tradesToday + (checkOrbSignal ind params t df now).2.toList.length } ∧
      ((checkOrbSignal ind params t df now).2.isSome → t.tradesToday < params.orbMaxTradesPerDay) := by
  by_cases hopen : orbWindowOpen params now
  · obtain ⟨range, heq⟩ := updateOrbRange_again h (orbPastWindow_of_open h hopen) ht
    rcases hsetup : orbSetup ind params t (some range) with _ | ⟨side, high, low⟩
    · rw [checkOrbSignal_none hopen heq hsetup]
      exact ⟨rfl, fun hsome => by cases hsome⟩
    · rw [checkOrbSignal_some hopen heq hsetup]
      refine ⟨rfl, fun _ => ?_⟩
      unfold orbSetup at hsetup
      split at hsetup
      · split at hsetup
        · cases hsetup
        next hlt => exact not_le.1 hlt
      · cases hsetup
  · have hclosed : checkOrbSignal ind params t df now = (t, none) := if_neg hopen
    rw [hclosed]
    exact ⟨rfl, fun hsome => by cases hsome⟩

end Update

/-! ### One call -/

section Call
variable {config : Config} {params : StrategyParams} {df : Frame} {df5m : Option Frame} {env : Environment} {now : EtTime}
  {ind : IndicatorResult} {orb : OrbState} {side : PositionSide} {multiplier : ℚ} {s : Signal}

theorem orbTrigger (h : (checkOrbSignal ind params orb df now).2 = some s) : s.entryTrigger = .orbBreakout := by
  unfold checkOrbSignal at h
  split at h
  · dsimp only at h
    split at h
    · cases h
    · cases h
      rfl
  · cases h

theorem vwap2sdTrigger (h : checkVwap2sdSignal df ind params now = some s) : s.entryTrigger = .vwap2sdReversion := by
  obtain ⟨⟨_, _, _⟩, -, rfl⟩ := Option.map_eq_some_iff.1 h
  rfl

theorem smcTrigger {smc : SmcTables} (h : checkSmcSignal df ind params now smc = some s) :
    ∃ type, s.entryTrigger = .smc type := by
  obtain ⟨⟨fvg, boosts⟩, -, h⟩ := Option.bind_eq_some_iff.1 h
  dsimp only at h
  split at h
  · split at h
    · cases h
    · cases h
      exact ⟨_, rfl⟩
  · cases h

theorem coreTrigger {l : List Signal} (h : directionalCandidate config params df df5m env ind side = some l) (hs : s ∈ l) :
    s.entryTrigger ≠ .orbBreakout := by
  unfold directionalCandidate at h
  dsimp only at h
  split at h
  · obtain ⟨⟨trigger, base⟩, hscore, rfl⟩ := Option.map_eq_some_iff.1 h
    rw [(scoredCandidate_eq_some (Option.mem_toList.1 hs)).2.1]
    unfold initializeDirectionalScore at hscore
    split_ifs at hscore <;> cases hscore <;> simp
  · cases h
    cases hs

theorem finalFilters_append (l l' : List Signal) :
    finalFilters config multiplier (l ++ l') = finalFilters config multiplier l ++ finalFilters config multiplier l' := by
  unfold finalFilters
  rw [List.map_append, List.filter_append, List.filter_append]

theorem countP_finalFilters_zero {l : List Signal} (h : ∀ s ∈ l, s.entryTrigger ≠ .orbBreakout) :
    (finalFilters config multiplier l).countP (fun s => s.entryTrigger = .orbBreakout) = 0 := by
  rw [List.countP_eq_zero, forall_finalFilters]
  intro s hs _ horb
  exact h s hs (of_decide_eq_true horb)

/-- Of a breakout that passes the filters one is returned. -/
theorem countP_finalFilters_orb (h : ∀ b ∈ orbEntry params df ind now orb, b.Passes config multiplier) :
    (finalFilters config multiplier (checkOrbSignal ind params orb df now).2.toList).countP
      (fun s => s.entryTrigger = .orbBreakout) = (checkOrbSignal ind params orb df now).2.toList.length := by
  rw [← checkOrbSignal_bracket] at h
  rcases hs : (checkOrbSignal ind params orb df now).2 with _ | s
  · rfl
  · obtain ⟨hconf, hprices⟩ := Signal.passes_iff.1 (h s.bracket (by rw [hs]; rfl))
    have htrigger : (s.adjusted multiplier).entryTrigger = .orbBreakout := (orbTrigger hs : s.entryTrigger = _)
    unfold finalFilters
    simp [hconf, hprices, htrigger]

/-- A call that gets as far as the candidates: the update of the range comes first, without a guard. -/
theorem generateSignals_ready (hload : config.loadStrategyParams = some params) (horb : params.allowOrbEntries)
    (hready : readyIndicators config params df df5m env = some ind) :
    ((updateOrbRange orb df now params).2 = none → (generateSignals config df df5m now env orb).2 = none) ∧
      ((updateOrbRange orb df now params).2 ≠ none →
        (generateSignals config df df5m now env orb).1 =
            (checkOrbSignal ind params (updateOrbRange orb df now params).1 df now).1 ∧
          ∃ core, (∀ s ∈ core, s.entryTrigger ≠ .orbBreakout) ∧ (generateSignals config df df5m now env orb).2 =
            some (finalFilters config (regimeMultiplier ind.regime.recommendation)
              (core ++ siblingSignals params df ind now (updateOrbRange orb df now params).1 env.smc))) := by
  obtain ⟨long, hlong⟩ := Option.isSome_iff_exists.1 (directionalCandidate_isSome config params df df5m env ind .long)
  obtain ⟨short, hshort⟩ := Option.isSome_iff_exists.1 (directionalCandidate_isSome config params df df5m env ind .short)
  have heq : generateSignals config df df5m now env orb =
      if (updateOrbRange orb df now params).2.isNone then ((updateOrbRange orb df now params).1, none)
      else ((checkOrbSignal ind params (updateOrbRange orb df now params).1 df now).1,
        some (finalFilters config (regimeMultiplier ind.regime.recommendation)
          (long ++ short ++ siblingSignals params df ind now (updateOrbRange orb df now params).1 env.smc))) := by
    unfold generateSignals siblingSignals
    simp only [hload, hready, hlong, hshort, if_pos horb, List.append_assoc]
  rw [heq]
  constructor
  · intro hnone
    rw [if_pos (by rw [hnone]; rfl)]
  · intro hsome
    rw [if_neg (by simpa using hsome)]
    refine ⟨rfl, long ++ short, ?_, rfl⟩
    intro s hs
    rcases List.mem_append.1 hs with hs | hs
    · exact coreTrigger hlong hs
    · exact coreTrigger hshort hs

/-- What a call that gets as far as the candidates does, where its update does not raise and its breakout passes. -/
theorem generateSignals_orb (hload : config.loadStrategyParams = some params) (horb : params.allowOrbEntries)
    (hready : readyIndicators config params df df5m env = some ind) (hm : params.orbRangeMinutes < 30)
    (hsome : (updateOrbRange orb df now params).2 ≠ none)
    (hkept : ∀ b ∈ orbEntry params df ind now (updateOrbRange orb df now params).1,
      b.Passes config (regimeMultiplier ind.regime.recommendation)) :
    ∃ t signals k, OrbUpdated params df now orb t ∧
      generateSignals config df df5m now env orb = ({ t with tradesToday := t.tradesToday + k }, some signals) ∧
      signals.countP (fun s => s.entryTrigger = .orbBreakout) = k ∧
      t.tradesToday + k ≤ max t.tradesToday params.orbMaxTradesPerDay := by
  have hbars : df.bars ≠ [] := by
    unfold readyIndicators at hready
    split at hready
    · cases hready
    next hlong =>
      have hlen : ¬ df.bars.length < max (max params.emaSlow config.volumeMaLength) 20 := (not_or.1 hlong).1
      rintro hnil
      rw [hnil] at hlen
      simp at hlen
  have ht := updateOrbRange_updated hm hbars hsome
  obtain ⟨hcounts, hlimit⟩ := checkOrbSignal_counts ind hm ht
  obtain ⟨hstate, core, hcore, hsignals⟩ := (generateSignals_ready hload horb hready).2 hsome
  generalize (updateOrbRange orb df now params).1 = t at *
  refine ⟨t, _, (checkOrbSignal ind params t df now).2.toList.length, ht, Prod.ext (hstate.trans hcounts) hsignals, ?_, ?_⟩
  · unfold siblingSignals
    rw [finalFilters_append, finalFilters_append, finalFilters_append, List.countP_append, List.countP_append,
      List.countP_append, countP_finalFilters_zero hcore, countP_finalFilters_orb hkept, countP_finalFilters_zero,
      countP_finalFilters_zero]
    · omega
    · intro s hs
      obtain ⟨type, htype⟩ := smcTrigger (Option.mem_toList.1 hs)
      rw [htype]
      simp
    · intro s hs
      rw [vwap2sdTrigger (Option.mem_toList.1 hs)]
      simp
  · rcases hs : (checkOrbSignal ind params t df now).2 with _ | s
    · exact le_max_left ..
    · have hlt := hlimit (by rw [hs]; rfl)
      exact le_max_of_le_right (Nat.succ_le_of_lt hlt)

end Call

/-! ### The invariant of a run -/

section Invariant
variable {config : Config} {params : StrategyParams} {market : List (EtTime × Ohlcv)} {calls : List OrbCall} {n : Nat}
  {c : OrbCall} {date : Int}

theorem orbBefore_succ (h : calls[n]? = some c) :
    orbBefore config calls (n + 1) = (c.run config (orbBefore config calls n)).1 := by
  unfold orbBefore
  rw [List.take_add_one, h, List.foldl_append]
  rfl

theorem breakoutsOn_succ (h : calls[n]? = some c) : breakoutsOn config calls date (n + 1) =
    breakoutsOn config calls date n + if c.now.date = date then breakouts config calls n c else 0 := by
  rw [breakoutsOn, h]

theorem shownBefore_succ (h : calls[n]? = some c) : shownBefore config params calls (n + 1) date =
    if c.now.date = date ∧ orbInWindow params c.now ∧ (c.ready config params).isSome then
      some (lastN params.orbRangeMinutes c.df.bars)
    else shownBefore config params calls n date := by
  unfold shownBefore
  rw [List.take_add_one, h, List.filter_append]
  show Option.map _ ((_ ++ [c].filter _).getLast?) = _
  by_cases hc : c.now.date = date ∧ orbInWindow params c.now ∧ (c.ready config params).isSome
  · rw [if_pos hc, List.filter_cons_of_pos (by simpa using hc), List.filter_nil, List.getLast?_concat]
    rfl
  · rw [if_neg hc, List.filter_cons_of_neg (by simpa using hc), List.filter_nil, List.append_nil]

/-- A call that does not get as far as the candidates leaves the state alone. -/
theorem run_unready (hload : config.loadStrategyParams = some params) (h : c.ready config params = none) (orb : OrbState) :
    c.run config orb = (orb, some []) := by
  have hready : readyIndicators config params c.df c.df5m c.env = none := h
  unfold OrbCall.run generateSignals
  simp only [hload, hready]

theorem breakouts_unready (hload : config.loadStrategyParams = some params) (h : c.ready config params = none) :
    breakouts config calls n c = 0 := by
  unfold breakouts
  rw [run_unready hload h]
  rfl

/-- No call of the day has got as far as the candidates. -/
def Fresh (config : Config) (params : StrategyParams) (calls : List OrbCall) (n : Nat) (date : Int) : Prop :=
  ∀ j, ∀ c : OrbCall, j < n → calls[j]? = some c → c.now.date = date → c.ready config params = none

theorem Fresh.shown (h : Fresh config params calls n date) : shownBefore config params calls n date = none := by
  unfold shownBefore
  rw [Option.map_eq_none_iff, List.getLast?_eq_none_iff, List.filter_eq_nil_iff]
  intro c hc hshown
  obtain ⟨hdate, -, hready⟩ := of_decide_eq_true hshown
  obtain ⟨j, hj⟩ := List.mem_iff_getElem?.1 hc
  have hlt : j < n := by
    have hlen := (List.getElem?_eq_some_iff.1 hj).1
    rw [List.length_take] at hlen
    omega
  rw [List.getElem?_take_of_lt hlt] at hj
  rw [h j c hlt hj hdate] at hready
  cases hready

theorem Fresh.breakouts (hload : config.loadStrategyParams = some params) (h : Fresh config params calls n date) :
    breakoutsOn config calls date n = 0 := by
  induction n with
  | zero => rfl
  | succ n ih =>
    have hrest : Fresh config params calls n date := fun j c hj => h j c (Nat.lt_succ_of_lt hj)
    rcases hc : calls[n]? with _ | c
    · rw [breakoutsOn, hc, ih hrest]
      rfl
    · rw [breakoutsOn_succ hc, ih hrest, Nat.zero_add]
      split
      next hdate => exact breakouts_unready hload (h n c (Nat.lt_succ_self n) hc hdate)
      next => rfl

/-- The invariant: the day of the state is that of the latest call, its range is right once it is defined and until then
that of the rows last shown, and its count is that of its breakouts. -/
structure OrbInv (config : Config) (params : StrategyParams) (market : List (EtTime × Ohlcv)) (calls : List OrbCall)
    (n : Nat) : Prop where
  seen : ∀ d, (orbBefore config calls n).date = some d →
    ∃ j, ∃ c : OrbCall, j < n ∧ calls[j]? = some c ∧ c.now.date = d
  latest : ∀ j, ∀ c : OrbCall, j < n → calls[j]? = some c → (c.ready config params).isSome →
    ∃ d, (orbBefore config calls n).date = some d ∧ c.now.date ≤ d
  range : ∀ d, (orbBefore config calls n).definedOn d → (orbBefore config calls n).Spans (windowBars params market d)
  building : ∀ d, (orbBefore config calls n).date = some d → ¬ (orbBefore config calls n).orbDefined →
    (orbBefore config calls n).Spans ((shownBefore config params calls n d).getD [])
  total : ∀ d, (orbBefore config calls n).date = some d →
    breakoutsOn config calls d n = (orbBefore config calls n).tradesToday
  limit : ∀ d, breakoutsOn config calls d n ≤ params.orbMaxTradesPerDay

theorem OrbInv.zero : OrbInv config params market calls 0 where
  seen := fun d h => by cases h
  latest := fun j c hj => absurd hj (Nat.not_lt_zero j)
  range := fun d h => by cases h
  building := fun d h => by cases h
  total := fun d h => by cases h
  limit := fun d => Nat.zero_le _

theorem OrbInv.fresh (h : OrbInv config params market calls n)
    (horder : ∀ j, ∀ c' : OrbCall, j < n → calls[j]? = some c' → c'.now.date ≤ c.now.date)
    (hdate : (orbBefore config calls n).date ≠ some c.now.date) : Fresh config params calls n c.now.date := by
  intro j c' hj hc' hsame
  by_contra hready
  obtain ⟨d, hd, hle⟩ := h.latest j c' hj hc' (Option.isSome_iff_ne_none.2 hready)
  obtain ⟨i, c'', hi, hc'', hd''⟩ := h.seen d hd
  have hle' := horder i c'' hi hc''
  have heq : d = c.now.date := by omega
  exact hdate (heq ▸ hd)

/-- The invariant stays where nothing changes that it speaks of. -/
theorem OrbInv.same (h : OrbInv config params market calls n)
    (hstate : orbBefore config calls (n + 1) = orbBefore config calls n)
    (hcount : ∀ d, breakoutsOn config calls d (n + 1) = breakoutsOn config calls d n)
    (hshown : ∀ d, shownBefore config params calls (n + 1) d = shownBefore config params calls n d)
    (hready : ∀ c : OrbCall, calls[n]? = some c → c.ready config params = none) :
    OrbInv config params market calls (n + 1) := by
  refine ⟨fun d hd => ?_, fun j c hj hc hready' => ?_, ?_, fun d => ?_, fun d => ?_, fun d => ?_⟩
  · rw [hstate] at hd
    obtain ⟨j, c, hj, hc, hdate⟩ := h.seen d hd
    exact ⟨j, c, Nat.lt_succ_of_lt hj, hc, hdate⟩
  · rw [hstate]
    rcases Nat.lt_succ_iff_lt_or_eq.1 hj with hj | rfl
    · exact h.latest j c hj hc hready'
    · rw [hready c hc] at hready'
      cases hready'
  · rw [hstate]
    exact h.range
  · rw [hstate, hshown]
    exact h.building d
  · rw [hstate, hcount]
    exact h.total d
  · rw [hcount]
    exact h.limit d

/-- A call that does not get as far as the candidates keeps the invariant. -/
theorem OrbInv.unready (h : OrbInv config params market calls n) (hload : config.loadStrategyParams = some params)
    (hc : calls[n]? = some c) (hready : c.ready config params = none) : OrbInv config params market calls (n + 1) := by
  refine h.same ?_ (fun d => ?_) (fun d => ?_) fun c' hc' => ?_
  · rw [orbBefore_succ hc, run_unready hload hready]
  · rw [breakoutsOn_succ hc, breakouts_unready hload hready, ite_self, Nat.add_zero]
  · rw [shownBefore_succ hc, hready, if_neg (by simp)]
  · rw [Option.some.inj (hc'.symm.trans hc), hready]

/-- After the last call nothing happens. -/
theorem OrbInv.over (h : OrbInv config params market calls n) (hc : calls[n]? = none) :
    OrbInv config params market calls (n + 1) := by
  have hlen : calls.length ≤ n := List.getElem?_eq_none_iff.1 hc
  have htake : calls.take (n + 1) = calls.take n := by
    rw [List.take_of_length_le hlen, List.take_of_length_le (Nat.le_succ_of_le hlen)]
  refine h.same ?_ (fun d => ?_) (fun d => ?_) fun c hsome => ?_
  · unfold orbBefore
    rw [htake]
  · rw [breakoutsOn, hc]
    rfl
  · unfold shownBefore
    rw [htake]
  · rw [hc] at hsome
    cases hsome

/-- What a call finds of its own day. -/
theorem OrbInv.day (h : OrbInv config params market calls n) (hload : config.loadStrategyParams = some params)
    (horder : ∀ j, ∀ c' : OrbCall, j < n → calls[j]? = some c' → c'.now.date ≤ c.now.date) :
    breakoutsOn config calls c.now.date n = (orbBefore config calls n).tradesOn c.now.date ∧
      (¬ (orbBefore config calls n).definedOn c.now.date →
        ((orbBefore config calls n).forDay c.now.date).Spans
          ((shownBefore config params calls n c.now.date).getD [])) := by
  unfold OrbState.definedOn OrbState.tradesOn OrbState.forDay
  by_cases hdate : (orbBefore config calls n).date = some c.now.date
  · rw [if_pos hdate]
    exact ⟨h.total _ hdate, h.building _ hdate⟩
  · rw [if_neg hdate, (h.fresh horder hdate).shown, (h.fresh horder hdate).breakouts hload]
    exact ⟨rfl, fun _ => ⟨rfl, rfl⟩⟩

theorem forDay_of_definedOn {orb : OrbState} (h : orb.definedOn date) : orb.date = some date ∧ orb.orbDefined := by
  unfold OrbState.definedOn OrbState.forDay at h
  split at h
  next hdate => exact ⟨hdate, h⟩
  next => cases h

/-- What a call that gets as far as the candidates does, on the state before it. -/
theorem run_ready {ind : IndicatorResult} (hload : config.loadStrategyParams = some params) (horb : params.allowOrbEntries)
    (hok : OrbStepOk config params market calls n c) (hready : c.ready config params = some ind) :
    ∃ t signals, OrbUpdated params c.df c.now (orbBefore config calls n) t ∧
      c.run config (orbBefore config calls n) =
        ({ t with tradesToday := t.tradesToday + breakouts config calls n c }, some signals) ∧
      t.tradesToday + breakouts config calls n c ≤ max t.tradesToday params.orbMaxTradesPerDay := by
  have hsome : (c.ready config params).isSome := by rw [hready]; rfl
  have hm := hok.minutes hsome
  have hupdate : (updateOrbRange (orbBefore config calls n) c.df c.now params).2 ≠ none := by
    rw [Ne, updateOrbRange_none_iff hm]
    rintro ⟨hin, hopen, htimes⟩
    exact hok.untimed hsome hin hopen htimes
  have hkept := hok.kept ind hready
  rw [show trackOrb c.df c.now (orbBefore config calls n) params = _ from if_pos horb] at hkept
  obtain ⟨t, signals, k, ht, hrun, hcount, hlimit⟩ := @generateSignals_orb config params c.df c.df5m c.env c.now ind
    (orbBefore config calls n) hload horb hready hm hupdate hkept
  have hk : breakouts config calls n c = k := by
    unfold breakouts OrbCall.run
    rw [hrun]
    exact hcount
  rw [hk]
  exact ⟨t, signals, ht, hrun, hlimit⟩

/-- A range that a call has defined is that of its day: one that was defined is right, and one that it defines is what the
window has shown. -/
theorem OrbInv.spans_of_defined {t : OrbState} (h : OrbInv config params market calls n)
    (hload : config.loadStrategyParams = some params) (hok : OrbStepOk config params market calls n c)
    (hready : (c.ready config params).isSome) (ht : OrbUpdated params c.df c.now (orbBefore config calls n) t)
    (hdef : t.orbDefined) : t.Spans (windowBars params market c.now.date) := by
  have hrest : orbInWindow params c.now → (orbBefore config calls n).definedOn c.now.date := by
    intro hin
    by_contra hopen
    exact (ht.building hin hopen).1 hdef
  obtain ⟨hhigh, hlow, hiff⟩ := ht.resting hrest
  by_cases hbefore : (orbBefore config calls n).definedOn c.now.date
  · obtain ⟨hhigh', hlow'⟩ := h.range _ hbefore
    rw [show (orbBefore config calls n).forDay c.now.date = _ from if_pos (forDay_of_definedOn hbefore).1] at hhigh hlow
    exact ⟨hhigh.trans hhigh', hlow.trans hlow'⟩
  · obtain ⟨hpast, hlocked⟩ := (hiff.1 hdef).resolve_left hbefore
    obtain ⟨hhigh', hlow'⟩ := (h.day hload hok.order).2 hbefore
    rcases hrows : shownBefore config params calls n c.now.date with _ | rows
    · rw [hhigh', hrows] at hlocked
      cases hlocked
    · obtain ⟨hhigh'', hlow''⟩ := hok.shown hready hpast hbefore rows hrows
      rw [hrows] at hhigh' hlow'
      exact ⟨(hhigh.trans hhigh').trans hhigh'', (hlow.trans hlow').trans hlow''⟩

/-- A range that is not defined after a call is that of the rows last shown. -/
theorem OrbInv.spans_of_open {t : OrbState} (h : OrbInv config params market calls n)
    (hload : config.loadStrategyParams = some params) (hc : calls[n]? = some c)
    (hok : OrbStepOk config params market calls n c) (hready : (c.ready config params).isSome)
    (ht : OrbUpdated params c.df c.now (orbBefore config calls n) t) (hopen : ¬ t.orbDefined) :
    t.Spans ((shownBefore config params calls (n + 1) c.now.date).getD []) := by
  rw [shownBefore_succ hc]
  by_cases hbuild : orbInWindow params c.now ∧ ¬ (orbBefore config calls n).definedOn c.now.date
  · obtain ⟨hhigh, hlow⟩ := (ht.building hbuild.1 hbuild.2).2
    rw [if_pos ⟨rfl, hbuild.1, hready⟩]
    exact ⟨hhigh, hlow⟩
  · have hrest : orbInWindow params c.now → (orbBefore config calls n).definedOn c.now.date :=
      not_and_not_right.1 hbuild
    obtain ⟨hhigh, hlow, hiff⟩ := ht.resting hrest
    have hbefore : ¬ (orbBefore config calls n).definedOn c.now.date := fun hbefore => hopen (hiff.2 (.inl hbefore))
    obtain ⟨hhigh', hlow'⟩ := (h.day hload hok.order).2 hbefore
    rw [if_neg fun hin => hbefore (hrest hin.2.1)]
    exact ⟨hhigh.trans hhigh', hlow.trans hlow'⟩

/-- A call that gets as far as the candidates keeps the invariant where it asks for no more than it may. -/
theorem OrbInv.ready {ind : IndicatorResult} (h : OrbInv config params market calls n)
    (hload : config.loadStrategyParams = some params) (horb : params.allowOrbEntries) (hc : calls[n]? = some c)
    (hok : OrbStepOk config params market calls n c) (hready : c.ready config params = some ind) :
    OrbInv config params market calls (n + 1) := by
  have hsome : (c.ready config params).isSome := by rw [hready]; rfl
  obtain ⟨t, signals, ht, hrun, hlimit⟩ := run_ready hload horb hok hready
  have hday := (h.day hload hok.order).1
  have hstate : orbBefore config calls (n + 1) = { t with tradesToday := t.tradesToday + breakouts config calls n c } := by
    rw [orbBefore_succ hc, hrun]
  have hdate : ∀ d, (orbBefore config calls (n + 1)).date = some d → d = c.now.date := by
    intro d hd
    rw [hstate] at hd
    exact Option.some.inj (hd.symm.trans ht.date)
  have htotal : breakoutsOn config calls c.now.date (n + 1) = t.tradesToday + breakouts config calls n c := by
    rw [breakoutsOn_succ hc, if_pos rfl, hday, ht.trades]
  refine ⟨fun d hd => ⟨n, c, Nat.lt_succ_self n, hc, (hdate d hd).symm⟩, fun j c' hj hc' _ => ⟨c.now.date, ?_, ?_⟩,
    fun d hdefined => ?_, fun d hd hopen => ?_, fun d hd => ?_, fun d => ?_⟩
  · rw [hstate]
    exact ht.date
  · rcases Nat.lt_succ_iff_lt_or_eq.1 hj with hj | rfl
    · exact hok.order j c' hj hc'
    · exact le_of_eq (congrArg (fun c : OrbCall => c.now.date) (Option.some.inj (hc'.symm.trans hc)))
  · obtain ⟨hd, hdef⟩ := forDay_of_definedOn hdefined
    obtain rfl := hdate d hd
    rw [hstate] at hdef ⊢
    obtain ⟨hhigh, hlow⟩ := h.spans_of_defined hload hok hsome ht hdef
    exact ⟨hhigh, hlow⟩
  · obtain rfl := hdate d hd
    rw [hstate] at hopen ⊢
    obtain ⟨hhigh, hlow⟩ := h.spans_of_open hload hc hok hsome ht hopen
    exact ⟨hhigh, hlow⟩
  · obtain rfl := hdate d hd
    rw [hstate]
    exact htotal
  · by_cases hsame : c.now.date = d
    · rw [← hsame, htotal]
      have hmax := h.limit c.now.date
      rw [hday, ← ht.trades] at hmax
      rwa [max_eq_right hmax] at hlimit
    · rw [breakoutsOn_succ hc, if_neg hsame]
      exact h.limit d

/-- The invariant holds before every call of a run whose calls ask for no more than they may. -/
theorem orbInv_run (hload : config.loadStrategyParams = some params) (horb : params.allowOrbEntries)
    (hok : ∀ i, ∀ c : OrbCall, calls[i]? = some c → OrbStepOk config params market calls i c) (n : Nat) :
    OrbInv config params market calls n := by
  induction n with
  | zero => exact OrbInv.zero
  | succ n ih =>
    rcases hc : calls[n]? with _ | c
    · exact ih.over hc
    · rcases hready : c.ready config params with _ | ind
      · exact ih.unready hload hc hready
      · exact ih.ready hload horb hc (hok n c hc) hready

/-- A call raises exactly where it gets as far as the candidates with a window that ends after ten, or would read the times
of its frame. -/
theorem run_eq_none_iff (hload : config.loadStrategyParams = some params) (horb : params.allowOrbEntries)
    (c : OrbCall) (orb : OrbState) : (c.run config orb).2 = none ↔ (c.ready config params).isSome ∧
      (30 ≤ params.orbRangeMinutes ∨ orbInWindow params c.now ∧ ¬ orb.definedOn c.now.date ∧ c.df.timestamped) := by
  rcases hready : c.ready config params with _ | ind
  · rw [run_unready hload hready orb]
    exact iff_of_false (by simp) fun hnone => by cases hnone.1
  · obtain ⟨hraise, hreturn⟩ := @generateSignals_ready config params c.df c.df5m c.env c.now ind orb hload horb hready
    have hiff : (c.run config orb).2 = none ↔ (updateOrbRange orb c.df c.now params).2 = none := by
      refine ⟨fun hnone => ?_, hraise⟩
      by_contra hsome
      obtain ⟨-, core, -, heq⟩ := hreturn hsome
      cases hnone.symm.trans heq
    rw [hiff]
    by_cases hm : params.orbRangeMinutes < 30
    · rw [updateOrbRange_none_iff hm]
      have hlt := not_le.2 hm
      simp [hlt]
    · have hnone : (updateOrbRange orb c.df c.now params).2 = none := by
        unfold updateOrbRange
        rw [rangeEnd_eq_none (not_lt.1 hm)]
      exact iff_of_true hnone ⟨rfl, .inl (not_lt.1 hm)⟩

/-- Breakouts are tracked in every run whose calls ask for no more than they may; a call raises exactly where it gets as far
as the candidates with a window that ends after ten, or would read the times of its frame. -/
theorem orbTracked_run (config : Config) (params : StrategyParams) (market : List (EtTime × Ohlcv))
    (hload : config.loadStrategyParams = some params) (horb : params.allowOrbEntries) :
    (∀ calls, (∀ i, ∀ c : OrbCall, calls[i]? = some c → OrbStepOk config params market calls i c) →
        OrbTracked config params market calls) ∧
      ∀ (c : OrbCall) (orb : OrbState), (c.run config orb).2 = none ↔ (c.ready config params).isSome ∧
        (30 ≤ params.orbRangeMinutes ∨ orbInWindow params c.now ∧ ¬ orb.definedOn c.now.date ∧ c.df.timestamped) := by
  refine ⟨fun calls hok => ⟨fun i c hc => ?_, fun i date hdefined => ?_, fun n date => ?_, fun i c hc => ?_⟩,
    run_eq_none_iff hload horb⟩
  · rw [Option.isSome_iff_ne_none, Ne, run_eq_none_iff hload horb]
    rintro ⟨hready, hlong | ⟨hin, hopen, htimes⟩⟩
    · exact not_lt.2 hlong ((hok i c hc).minutes hready)
    · exact (hok i c hc).untimed hready hin hopen htimes
  · exact (orbInv_run hload horb hok i).range date hdefined
  · exact (orbInv_run hload horb hok n).limit date
  · rcases hready : c.ready config params with _ | ind
    · rw [orbBefore_succ hc, run_unready hload hready, breakouts_unready hload hready, Nat.add_zero]
    · obtain ⟨t, signals, ht, hrun, -⟩ := run_ready hload horb (hok i c hc) hready
      rw [orbBefore_succ hc, hrun, ← ht.trades]
      unfold OrbState.tradesOn OrbState.forDay
      rw [if_pos (show ({ t with tradesToday := _ } : OrbState).date = _ from ht.date)]

end Invariant

/-- The breakouts of a call pass the filters. -/
def OrbCall.keeps (config : Config) (params : StrategyParams) (c : OrbCall) (orb : OrbState) : Bool :=
  (c.ready config params).all fun ind => (orbEntry params c.df ind c.now (trackOrb c.df c.now orb params).1).all fun b =>
    config.minConfidenceOf b.side ≤ min (b.confidence * regimeMultiplier ind.regime.recommendation) (99/100) ∧
      0 < b.entry ∧ 0 < b.side.behind b.entry b.stopDistance ∧ 0 < b.side.ahead b.entry b.targetDistance

theorem OrbCall.passes_of_keeps {config : Config} {params : StrategyParams} {c : OrbCall} {orb : OrbState}
    (h : c.keeps config params orb) (ind : IndicatorResult) (hready : c.ready config params = some ind) :
    ∀ b ∈ orbEntry params c.df ind c.now (trackOrb c.df c.now orb params).1,
      b.Passes config (regimeMultiplier ind.regime.recommendation) := by
  intro b hb
  have hpasses := of_decide_eq_true ((Option.all_eq_true _ _).1 ((Option.all_eq_true _ _).1 h ind hready) b hb)
  exact hpasses

def orbConfig (minutes : Nat) : Config :=
  { crossConfig with strategy := { allowOrbEntries := true, orbRangeMinutes := minutes, adxRangingThreshold := 0 } }

/-- The last minute of the window shows its fifteen bars, without their times. -/
def buildingCall : OrbCall where
  df := risingFrame
  now := { date := 0, micros := microsAt 9 45 }

def breakoutCall : OrbCall where
  df := { risingFrame with bars := risingFrame.bars ++ [{ opening := 95, high := 99, low := 95, close := 98, volume := 100 }] }
  now := { date := 0, micros := microsAt 9 46 }

def risingMarket : List (EtTime × Ohlcv) :=
  (risingFrame.bars.drop 15).mapIdx fun i b => ({ date := 0, micros := microsAt 9 (31 + i) }, b)

theorem orbTracked_breakout : ∃ params, (orbConfig 15).loadStrategyParams = some params ∧
    OrbTracked (orbConfig 15) params risingMarket [buildingCall, breakoutCall] ∧
    breakouts (orbConfig 15) [buildingCall, breakoutCall] 1 breakoutCall = 1 := by
  have hrun : (orbConfig 15).loadStrategyParams.any fun params =>
      params.allowOrbEntries && params.orbRangeMinutes < 30 && buildingCall.keeps (orbConfig 15) params {} &&
        breakoutCall.keeps (orbConfig 15) params (orbBefore (orbConfig 15) [buildingCall, breakoutCall] 1) &&
        (shownBefore (orbConfig 15) params [buildingCall, breakoutCall] 1 0).all fun rows =>
          (rows.map Ohlcv.high).max? = ((windowBars params risingMarket 0).map Ohlcv.high).max? ∧
            (rows.map Ohlcv.low).min? = ((windowBars params risingMarket 0).map Ohlcv.low).min? := by
    decide +kernel
  obtain ⟨params, hload, hchecks⟩ := (Option.any_eq_true _ _).1 hrun
  simp only [Bool.and_eq_true] at hchecks
  obtain ⟨⟨⟨⟨horb, hm⟩, hbuilding⟩, hbreakout⟩, hshown⟩ := hchecks
  refine ⟨params, hload, (orbTracked_run (orbConfig 15) params risingMarket hload horb).1 _ fun i c hc => ?_,
    by decide +kernel⟩
  rcases i with _ | _ | i
  · obtain rfl := Option.some.inj hc
    refine ⟨fun _ => of_decide_eq_true hm, fun j _ hj => ?_, fun _ _ _ htimes => ?_, fun _ _ _ rows hrows => ?_,
      OrbCall.passes_of_keeps hbuilding⟩
    · exact absurd hj (Nat.not_lt_zero j)
    · cases htimes
    · cases hrows
  · obtain rfl := Option.some.inj hc
    refine ⟨fun _ => of_decide_eq_true hm, fun j c' hj hc' => ?_, fun _ _ _ htimes => ?_, fun _ _ _ rows hrows => ?_,
      OrbCall.passes_of_keeps hbreakout⟩
    · obtain rfl := Nat.lt_one_iff.1 hj
      obtain rfl := Option.some.inj hc'
      exact le_refl _
    · cases htimes
    · exact of_decide_eq_true ((Option.all_eq_true _ _).1 hshown rows hrows)
  · cases hc

/-- The frame of the window, with its times. -/
def timedCall : OrbCall := { buildingCall with df := { risingFrame with timestamped := true } }

theorem not_orbTracked_of_none {config : Config} {params : StrategyParams} {market : List (EtTime × Ohlcv)} {c : OrbCall}
    (h : (c.run config {}).2.isNone) : ¬ OrbTracked config params market [c] := by
  intro htracked
  have hsome := htracked.answers 0 c rfl
  rw [show orbBefore config [c] 0 = {} from rfl, Option.isNone_iff_eq_none.1 h] at hsome
  cases hsome

/-- A window of thirty minutes, and one of fifteen over bars that have times. -/
theorem not_orbTracked :
    (∃ params, (orbConfig 30).loadStrategyParams = some params ∧ params.allowOrbEntries ∧
      ¬ OrbTracked (orbConfig 30) params risingMarket [breakoutCall]) ∧
    ∃ params, (orbConfig 15).loadStrategyParams = some params ∧ params.allowOrbEntries ∧
      ¬ OrbTracked (orbConfig 15) params risingMarket [timedCall] := by
  constructor
  · have hload : (orbConfig 30).loadStrategyParams.any fun params => params.allowOrbEntries := by decide +kernel
    obtain ⟨params, hload, horb⟩ := (Option.any_eq_true _ _).1 hload
    exact ⟨params, hload, horb, not_orbTracked_of_none (by decide +kernel)⟩
  · have hload : (orbConfig 15).loadStrategyParams.any fun params => params.allowOrbEntries := by decide +kernel
    obtain ⟨params, hload, horb⟩ := (Option.any_eq_true _ _).1 hload
    exact ⟨params, hload, horb, not_orbTracked_of_none (by decide +kernel)⟩

end PearlAlgo.SignalGenerator
