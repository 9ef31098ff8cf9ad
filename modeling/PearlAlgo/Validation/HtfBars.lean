import Mathlib.Data.List.TakeWhile
import Mathlib.Data.List.MinMax
import PearlAlgo.Validation.SessionEvents

/-!
# Four hour bars (`_confirmed_htf_bars`)

A four hour bar has the label of its end and sums up the bars after the end before it up to its own. Those whose end is not
after the last bar before the decision bar are shown, and stay what they are as the series grows.
-/

namespace PearlAlgo.SignalFns

open Py

structure HtfBar where
  label : Int
  opening : ℚ
  high : ℚ
  low : ℚ
  close : ℚ
  volume : ℚ

def FOUR_HOURS : Int := 14400

/-- The end of the four hours that an instant falls into, which is in them. -/
def htfLabel (t : Int) : Int := -(-t / FOUR_HOURS) * FOUR_HOURS

/-- The bars stamped in the interval of a label. -/
def inInterval (label : Int) (bars : List Bar) : List Bar :=
  bars.filter fun b => label - FOUR_HOURS < b.time ∧ b.time ≤ label

/-- `agg`, where there are bars: first open, highest high, lowest low, last close and summed volume. -/
def aggregateHtf (label : Int) : List Bar → Option HtfBar
  | [] => none
  | b :: bars => some {
      label
      opening := b.opening
      high := bars.foldl (fun x c => max x c.high) b.high
      low := bars.foldl (fun x c => min x c.low) b.low
      close := ((b :: bars).getLastD b).close
      volume := ((b :: bars).map Bar.volume).sum }

/-- So many labels from the first one. -/
def progression (first : Int) (n : Nat) : List Int := (List.range n).map fun k : Nat => first + FOUR_HOURS * k

/-- How many labels there are from one bar to another. -/
def labelCount (first last : Bar) : Nat := ((htfLabel last.time - htfLabel first.time) / FOUR_HOURS).toNat + 1

/-- The labels from the first bar to the last one. -/
def htfLabels (bars : List Bar) : List Int :=
  match bars.head?, bars.getLast? with
  | some first, some last => progression (htfLabel first.time) (labelCount first last)
  | _, _ => []

/-- `resample("4h", label="right", closed="right", origin="epoch")` without its empty bins -/
def resampleHtf (bars : List Bar) : List HtfBar := (htfLabels bars).filterMap fun l => aggregateHtf l (inInterval l bars)

/-- `df[df["time"] < ts]` -/
def priorTo (ts : Int) (df : List Bar) : List Bar := df.filter fun b => b.time < ts

/-- `_confirmed_htf_bars` -/
def confirmedHtfBars (df : List Bar) (lastTs : Int) : List HtfBar :=
  if df.length < 5 then []
  else if (priorTo lastTs df).length < 4 then []
  else
    match ((priorTo lastTs df).map Bar.time).max? with
    | none => []
    | some latest => (resampleHtf (priorTo lastTs df)).filter fun bar => bar.label ≤ latest

structure Trend where
  direction : Direction
  close : ℚ
  fast : ℚ
  slow : ℚ

/-- `_trend_4h_context`. An average over less than one bar raises. -/
def trend4hContext (fastN slowN : Int) (df : List Bar) (ts : Int) : Except Unit (Option Trend) :=
  let bars := confirmedHtfBars df ts
  if (bars.length : Int) < max fastN slowN + 2 then .ok none
  else if fastN < 1 ∨ slowN < 1 then .error ()
  else
    let closes := bars.map HtfBar.close
    let fast := ema fastN.toNat closes
    let slow := ema slowN.toNat closes
    let lastClose := closes.getLastD 0
    let fastLast := fast.getLastD 0
    let slowLast := slow.getLastD 0
    let fastPrev := fast.dropLast.getLastD 0
    if fastLast < lastClose ∧ slowLast < fastLast ∧ fastPrev ≤ fastLast then
      .ok (some { direction := .long, close := lastClose, fast := fastLast, slow := slowLast })
    else if lastClose < fastLast ∧ fastLast < slowLast ∧ fastLast ≤ fastPrev then
      .ok (some { direction := .short, close := lastClose, fast := fastLast, slow := slowLast })
    else .ok none

/-- `vparams` -/
structure HourlyParams where
  atrLen : Nat := 14
  stopAtr : ℚ := 3/2
  targetR : ℚ := 5/2
  execEma : Nat := 20
  breakoutLookback : Nat := 8
  allowBreakout : Bool := true
  allowPullback : Bool := true
  allowShorts : Bool := false
  htfFast : Int := 8
  htfSlow : Int := 21

/-- Whether the decision bar breaks out of the bars before it, and whether it comes back through the average. -/
def hourlyEntry (p : HourlyParams) (direction : Direction) (df : List Bar) (c : ℚ) : Bool × Bool :=
  let prior := df.dropLast
  let prevClose := ((prior.getLast?).map Bar.close).getD 0
  let average := ema p.execEma (df.map Bar.close)
  let emaNow := average.getLastD 0
  let emaPrev := average.dropLast.getLastD 0
  let recent := prior.drop (prior.length - p.breakoutLookback)
  match direction with
  | .long =>
    (p.allowBreakout && (recent.map Bar.high).max?.any fun priorHigh => priorHigh < c,
      p.allowPullback && decide (prevClose ≤ emaPrev ∧ emaNow < c))
  | .short =>
    (p.allowBreakout && (recent.map Bar.low).min?.any fun priorLow => c < priorLow,
      p.allowPullback && decide (emaPrev ≤ prevClose ∧ c < emaNow))

/-- `hourly_defender_signals` -/
def hourlyDefenderSignals (z : NewYork) (p : HourlyParams) (df : List Bar) : Except Unit (List Signal) :=
  match base z p.atrLen df with
  | none => .ok []
  | some ctx =>
    if df.length < max (p.atrLen + 2) (max (p.execEma + 2) (p.breakoutLookback + 2)) then .ok []
    else
      match trend4hContext p.htfFast p.htfSlow df ctx.ts with
      | .error e => .error e
      | .ok none => .ok []
      | .ok (some trend) =>
        if trend.direction = .short ∧ ¬ p.allowShorts then .ok []
        else
          let (breakout, pullback) := hourlyEntry p trend.direction df ctx.close
          if ¬ (breakout ∨ pullback) then .ok []
          else
            let trigger := if breakout then "hourly_defender_breakout" else "hourly_defender_pullback"
            match trend.direction with
            | .long => .ok [{
                direction := .long
                entryPrice := ctx.close
                stopLoss := ctx.close - p.stopAtr * ctx.atr
                takeProfit := ctx.close + p.stopAtr * p.targetR * ctx.atr
                confidence := 62/100
                entryTrigger := trigger
                ts := ctx.ts }]
            | .short => .ok [{
                direction := .short
                entryPrice := ctx.close
                stopLoss := ctx.close + p.stopAtr * ctx.atr
                takeProfit := ctx.close - p.stopAtr * p.targetR * ctx.atr
                confidence := 62/100
                entryTrigger := trigger
                ts := ctx.ts }]

/-! ### Labels -/

section
variable {l t u m : Int} {b : Bar} {bars df s s' : List Bar} {bar : HtfBar}

theorem htfLabel_spec (t : Int) : t ≤ htfLabel t ∧ htfLabel t < t + FOUR_HOURS ∧ htfLabel t % FOUR_HOURS = 0 := by
  unfold htfLabel FOUR_HOURS
  omega

theorem htfLabel_mono (h : t ≤ u) : htfLabel t ≤ htfLabel u := by
  unfold htfLabel FOUR_HOURS
  omega

theorem mem_inInterval : b ∈ inInterval l bars ↔ b ∈ bars ∧ l - FOUR_HOURS < b.time ∧ b.time ≤ l := by
  unfold inInterval
  rw [List.mem_filter, decide_eq_true_iff]

theorem progression_succ (first : Int) (n : Nat) :
    progression first (n + 1) = progression first n ++ [first + FOUR_HOURS * n] := by
  unfold progression
  rw [List.range_succ, List.map_append, List.map_singleton]

theorem mem_progression {first : Int} {n : Nat} : l ∈ progression first n ↔ ∃ k : Nat, k < n ∧ l = first + FOUR_HOURS * k := by
  unfold progression
  simp only [List.mem_map, List.mem_range]
  constructor
  · rintro ⟨k, hk, rfl⟩
    exact ⟨k, hk, rfl⟩
  · rintro ⟨k, hk, rfl⟩
    exact ⟨k, hk, rfl⟩

theorem progression_grow (first : Int) {n n' : Nat} (hn : n ≤ n') : progression first n <+: progression first n' := by
  induction n', hn using Nat.le_induction with
  | base => exact List.prefix_rfl
  | succ n' _ ih =>
    rw [progression_succ]
    exact ih.trans (List.prefix_append _ _)

/-- Up to an earlier bound there is a part of what there is up to a later one. -/
theorem filter_progression_grow (first : Int) (n : Nat) {m m' : Int} (hm : m ≤ m') :
    (progression first n).filter (· ≤ m) <+: (progression first n).filter (· ≤ m') := by
  induction n with
  | zero => exact List.prefix_rfl
  | succ n ih =>
    rw [progression_succ, List.filter_append, List.filter_append]
    by_cases hlast : first + FOUR_HOURS * n ≤ m
    · -- All points before a point that is shown are shown.
      have hall : ∀ m, first + FOUR_HOURS * n ≤ m → (progression first n).filter (· ≤ m) = progression first n := by
        intro m hm
        refine List.filter_eq_self.2 fun l hl => ?_
        obtain ⟨k, hk, rfl⟩ := mem_progression.1 hl
        unfold FOUR_HOURS at *
        exact decide_eq_true (by omega)
      have hlast' : first + FOUR_HOURS * n ≤ m' := hlast.trans hm
      rw [hall m hlast, hall m' hlast', List.filter_singleton, List.filter_singleton, decide_eq_true hlast,
        decide_eq_true hlast']
    · rw [List.filter_singleton, decide_eq_false hlast]
      simp only [cond_false, List.append_nil]
      exact ih.trans (List.prefix_append _ _)

/-! ### Bars -/

theorem htfLabels_eq {first last : Bar} (hfirst : bars.head? = some first) (hlast : bars.getLast? = some last) :
    htfLabels bars = progression (htfLabel first.time) (labelCount first last) := by
  unfold htfLabels
  rw [hfirst, hlast]

theorem aggregateHtf_label (h : aggregateHtf l bars = some bar) : bar.label = l := by
  rcases bars with _ | ⟨b, bars⟩
  · cases h
  · cases h
    rfl

/-- The shown bars are those of the labels that are not later. -/
theorem filter_resampleHtf (bars : List Bar) (m : Int) :
    (resampleHtf bars).filter (fun bar => bar.label ≤ m) =
      ((htfLabels bars).filter (· ≤ m)).filterMap fun l => aggregateHtf l (inInterval l bars) := by
  unfold resampleHtf
  induction htfLabels bars with
  | nil => rfl
  | cons l ls ih =>
    rw [List.filterMap_cons, List.filter_cons]
    rcases hbar : aggregateHtf l (inInterval l bars) with _ | bar
    · dsimp only
      rw [ih]
      split
      · rw [List.filterMap_cons, hbar]
      · rfl
    · dsimp only
      rw [List.filter_cons, aggregateHtf_label hbar, ih]
      split
      · rw [List.filterMap_cons, hbar]
      · rfl

def InTimeOrder (s : List Bar) : Prop := s.Pairwise fun a b => a.time < b.time

theorem mem_priorTo {ts : Int} : b ∈ priorTo ts s ↔ b ∈ s ∧ b.time < ts := by
  unfold priorTo
  rw [List.mem_filter, decide_eq_true_iff]

/-- The bars of an interval that ends before an instant are before it. -/
theorem inInterval_priorTo {ts : Int} (h : l < ts) : inInterval l (priorTo ts s) = inInterval l s := by
  unfold inInterval priorTo
  rw [List.filter_filter]
  refine List.filter_congr fun b _ => ?_
  by_cases hb : l - FOUR_HOURS < b.time ∧ b.time ≤ l
  · have hbefore : b.time < ts := by omega
    simp [hb, hbefore]
  · simp [hb]

/-- The first and the last bar before a decision, and the latest time of those bars. -/
structure Shown (df : List Bar) (ts : Int) (first last : Bar) (latest : Int) : Prop where
  enough : 5 ≤ df.length ∧ 4 ≤ (priorTo ts df).length
  head : (priorTo ts df).head? = some first
  getLast : (priorTo ts df).getLast? = some last
  max : ((priorTo ts df).map Bar.time).max? = some latest

theorem exists_shown {ts : Int} (hlen : 5 ≤ df.length) (hprior : 4 ≤ (priorTo ts df).length) :
    ∃ first last latest, Shown df ts first last latest := by
  rcases hbars : priorTo ts df with _ | ⟨first, rest⟩
  · rw [hbars] at hprior
    cases hprior
  refine ⟨first, rest.getLastD first, (rest.map Bar.time).foldl max first.time, ⟨hlen, hprior⟩, ?_, ?_, ?_⟩
  · rw [hbars]
    rfl
  · rw [hbars, List.getLast?_cons]
    simp
  · rw [hbars]
    rfl

namespace Shown
variable {ts ts' latest latest' : Int} {first last first' last' : Bar}

theorem latest_spec (h : Shown df ts first last latest) :
    latest < ts ∧ ∀ b ∈ df, b.time < ts → b.time ≤ latest := by
  obtain ⟨hmem, hle⟩ := List.max?_eq_some_iff.1 h.max
  obtain ⟨b, hb, rfl⟩ := List.mem_map.1 hmem
  exact ⟨(mem_priorTo.1 hb).2, fun c hc hct => hle _ (List.mem_map.2 ⟨c, mem_priorTo.2 ⟨hc, hct⟩, rfl⟩)⟩

/-- The bars that are shown aggregate all bars of their intervals. -/
theorem confirmed_eq (h : Shown df ts first last latest) :
    confirmedHtfBars df ts = ((progression (htfLabel first.time) (labelCount first last)).filter (· ≤ latest)).filterMap
      fun l => aggregateHtf l (inInterval l df) := by
  have hlt := h.latest_spec.1
  obtain ⟨hlen, hprior⟩ := h.enough
  unfold confirmedHtfBars
  rw [if_neg (not_lt.2 hlen), if_neg (not_lt.2 hprior), h.max]
  dsimp only
  rw [filter_resampleHtf, htfLabels_eq h.head h.getLast]
  refine List.filterMap_congr fun l hl => ?_
  have hle : l ≤ latest := of_decide_eq_true (List.mem_filter.1 hl).2
  rw [inInterval_priorTo (by omega)]

end Shown

theorem confirmed_cases (df : List Bar) (ts : Int) :
    confirmedHtfBars df ts = [] ∨ ∃ first last latest, Shown df ts first last latest := by
  by_cases hlen : df.length < 5
  · left
    rw [confirmedHtfBars, if_pos hlen]
  by_cases hprior : (priorTo ts df).length < 4
  · left
    rw [confirmedHtfBars, if_neg hlen, if_pos hprior]
  · exact .inr (exists_shown (not_lt.1 hlen) (not_lt.1 hprior))

/-! ### A series that grows -/

theorem priorTo_concat (hs : InTimeOrder (s ++ [b])) : priorTo b.time (s ++ [b]) = s := by
  have hbefore := (List.pairwise_append.1 hs).2.2
  unfold priorTo
  rw [List.filter_append, List.filter_eq_self.2, List.filter_singleton, decide_eq_false (lt_irrefl _)]
  · simp
  · exact fun c hc => decide_eq_true (hbefore c hc b List.mem_cons_self)

/-- The last bar of a series is its latest. -/
theorem time_le_getLast (hs : InTimeOrder s) (hlast : s.getLast? = some b) {c : Bar} (hc : c ∈ s) : c.time ≤ b.time := by
  obtain ⟨l, rfl⟩ := List.getLast?_eq_some_iff.1 hlast
  rcases List.mem_append.1 hc with hc | hc
  · exact ((List.pairwise_append.1 hs).2.2 c hc b List.mem_cons_self).le
  · rw [List.mem_singleton.1 hc]

/-- No bar that comes later falls into an interval that ends before. -/
theorem inInterval_grow (hs : InTimeOrder s') (hpre : s ++ [b] <+: s') (hl : l < b.time) :
    inInterval l s' = inInterval l (s ++ [b]) := by
  obtain ⟨rest, rfl⟩ := hpre
  have hnone : inInterval l rest = [] := by
    refine List.filter_eq_nil_iff.2 fun c hc hin => ?_
    have hlater := (List.pairwise_append.1 hs).2.2 b (by simp) c hc
    have hle := (of_decide_eq_true hin).2
    omega
  unfold inInterval at hnone ⊢
  rw [List.filter_append (s ++ [b]), hnone, List.append_nil]

theorem prefix_of_concat {c : Bar} (hpre : s ++ [b] <+: s' ++ [c]) : s <+: s' := by
  obtain ⟨rest, hrest⟩ := hpre
  rcases List.eq_nil_or_concat rest with rfl | ⟨rest, d, rfl⟩
  · rw [List.append_nil] at hrest
    obtain ⟨rfl, -⟩ := List.append_inj' hrest rfl
    exact List.prefix_rfl
  · rw [List.concat_eq_append, ← List.append_assoc] at hrest
    obtain ⟨rfl, -⟩ := List.append_inj' hrest rfl
    rw [List.append_assoc]
    exact List.prefix_append _ _

/-- The bars at the last bar of a series are a part of those at the last bar of one that goes on. -/
theorem confirmedHtfBars_grow {c : Bar} (hs : InTimeOrder (s' ++ [c])) (hpre : s ++ [b] <+: s' ++ [c]) :
    confirmedHtfBars (s ++ [b]) b.time <+: confirmedHtfBars (s' ++ [c]) c.time := by
  rcases confirmed_cases (s ++ [b]) b.time with hnil | ⟨first, last, latest, h⟩
  · rw [hnil]
    exact List.nil_prefix
  have hprior := priorTo_concat (hs.sublist hpre.sublist)
  have hprior' := priorTo_concat hs
  have hpre' := prefix_of_concat hpre
  obtain ⟨hlen, hcount⟩ := h.enough
  rw [hprior] at hcount
  obtain ⟨first', last', latest', h'⟩ : ∃ first' last' latest', Shown (s' ++ [c]) c.time first' last' latest' := by
    refine exists_shown (hlen.trans hpre.length_le) ?_
    rw [hprior']
    exact hcount.trans hpre'.length_le
  have hhead := h.head
  have hhead' := h'.head
  have hlast := h.getLast
  have hlast' := h'.getLast
  rw [hprior] at hhead hlast
  rw [hprior'] at hhead' hlast'
  have hfirst : first' = first := by
    obtain ⟨rest, rfl⟩ := hpre'
    rw [List.head?_append, hhead] at hhead'
    exact (Option.some.inj hhead').symm
  have hmem : last ∈ s' := hpre'.subset (List.mem_of_getLast? hlast)
  have hs' : InTimeOrder s' := hs.sublist (List.sublist_append_left _ _)
  have hlabels : labelCount first last ≤ labelCount first' last' := by
    have hmono := htfLabel_mono (time_le_getLast hs' hlast' hmem)
    rw [hfirst]
    unfold labelCount FOUR_HOURS
    omega
  have hlatest : latest ≤ latest' := by
    obtain ⟨d, hd, rfl⟩ := List.mem_map.1 (List.max?_eq_some_iff.1 h.max).1
    rw [hprior] at hd
    have hd' := hpre'.subset hd
    refine h'.latest_spec.2 d (List.mem_append_left _ hd') ?_
    exact (List.pairwise_append.1 hs).2.2 d hd' c List.mem_cons_self
  rw [h.confirmed_eq, h'.confirmed_eq, hfirst]
  have hsame : ((progression (htfLabel first.time) (labelCount first last)).filter (· ≤ latest)).filterMap
        (fun l => aggregateHtf l (inInterval l (s ++ [b]))) =
      ((progression (htfLabel first.time) (labelCount first last)).filter (· ≤ latest)).filterMap
        fun l => aggregateHtf l (inInterval l (s' ++ [c])) := by
    refine List.filterMap_congr fun l hl => ?_
    have hle : l ≤ latest := of_decide_eq_true (List.mem_filter.1 hl).2
    have hlt := h.latest_spec.1
    rw [inInterval_grow hs hpre (by omega)]
  rw [hsame]
  rw [hfirst] at hlabels
  exact (((progression_grow _ hlabels).filter _).trans (filter_progression_grow _ _ hlatest)).filterMap _

/-- Each bar that is shown is that of all bars of its interval, which ends before the decision. -/
theorem confirmedHtfBars_exact {ts : Int} (hbar : bar ∈ confirmedHtfBars df ts) :
    bar.label % FOUR_HOURS = 0 ∧ bar.label < ts ∧ aggregateHtf bar.label (inInterval bar.label df) = some bar ∧
      ∀ b ∈ inInterval bar.label df, b.time < ts := by
  rcases confirmed_cases df ts with hnil | ⟨first, last, latest, h⟩
  · rw [hnil] at hbar
    cases hbar
  rw [h.confirmed_eq] at hbar
  obtain ⟨l, hl, hagg⟩ := List.mem_filterMap.1 hbar
  obtain ⟨hl, hle⟩ := List.mem_filter.1 hl
  have hle' : l ≤ latest := of_decide_eq_true hle
  have hlt := h.latest_spec.1
  obtain ⟨k, -, hk⟩ := mem_progression.1 hl
  have hlabel := aggregateHtf_label hagg
  rw [hlabel]
  refine ⟨?_, by omega, hagg, fun b hb => ?_⟩
  · have hfirst := (htfLabel_spec first.time).2.2
    unfold FOUR_HOURS at *
    omega
  · have hb' := (mem_inInterval.1 hb).2.2
    omega

/-- The decision bar's prices and what comes after it do not matter. -/
theorem confirmedHtfBars_congr {ts : Int} (hprior : priorTo ts s = priorTo ts s')
    (hlen : (priorTo ts s).length < s.length) (hlen' : (priorTo ts s').length < s'.length) :
    confirmedHtfBars s ts = confirmedHtfBars s' ts := by
  unfold confirmedHtfBars
  rw [hprior] at hlen
  rw [hprior]
  by_cases hfew : (priorTo ts s').length < 4
  · rw [if_pos hfew, ite_self, ite_self]
  · rw [if_neg hfew, if_neg (by omega), if_neg (by omega)]

theorem priorTo_of_later {later : List Bar} {b' : Bar} (hs : InTimeOrder (s ++ [b])) (hb : b'.time = b.time)
    (hlater : ∀ d ∈ later, b.time < d.time) : priorTo b.time (s ++ b' :: later) = s := by
  have hbefore := (List.pairwise_append.1 hs).2.2
  have hnone : priorTo b.time (b' :: later) = [] := by
    refine List.filter_eq_nil_iff.2 fun d hd hlt => ?_
    have hlt' : d.time < b.time := of_decide_eq_true hlt
    rcases List.mem_cons.1 hd with rfl | hd
    · omega
    · have hafter := hlater d hd
      omega
  have hall : priorTo b.time s = s := List.filter_eq_self.2 fun c hc => decide_eq_true (hbefore c hc b List.mem_cons_self)
  unfold priorTo at hnone hall ⊢
  rw [List.filter_append, hnone, hall, List.append_nil]

/-- The regime at a bar is that of the bars before it. -/
theorem trend4hContext_congr {later : List Bar} {b' : Bar} (hs : InTimeOrder (s ++ [b])) (hb : b'.time = b.time)
    (hlater : ∀ d ∈ later, b.time < d.time) (fastN slowN : Int) :
    trend4hContext fastN slowN (s ++ b' :: later) b.time = trend4hContext fastN slowN (s ++ [b]) b.time := by
  have hprior := priorTo_of_later hs hb hlater
  have hprior' := priorTo_concat hs
  have hbars : confirmedHtfBars (s ++ b' :: later) b.time = confirmedHtfBars (s ++ [b]) b.time := by
    refine confirmedHtfBars_congr (hprior.trans hprior'.symm) ?_ ?_
    · rw [hprior, List.length_append, List.length_cons]
      omega
    · rw [hprior', List.length_append, List.length_singleton]
      omega
  unfold trend4hContext
  rw [hbars]

theorem hourlyDefender_direction {z : NewYork} {p : HourlyParams} {sigs : List Signal} {sig : Signal}
    (h : hourlyDefenderSignals z p (s ++ [b]) = .ok sigs) (hsig : sig ∈ sigs) :
    ∃ trend, trend4hContext p.htfFast p.htfSlow (s ++ [b]) b.time = .ok (some trend) ∧ sig.direction = trend.direction := by
  unfold hourlyDefenderSignals at h
  split at h
  · cases h
    cases hsig
  next ctx hctx =>
    have hts : ctx.ts = b.time := (base_last hctx).1
    split at h
    · cases h
      cases hsig
    split at h
    · cases h
    · cases h
      cases hsig
    next trend htrend =>
      rw [hts] at htrend
      refine ⟨trend, htrend, ?_⟩
      split at h
      · cases h
        cases hsig
      dsimp only at h
      split at h
      · cases h
        cases hsig
      split at h
      next hlong =>
        cases h
        rw [List.mem_singleton.1 hsig, hlong]
      next hshort =>
        cases h
        rw [List.mem_singleton.1 hsig, hshort]

end

/-- The four hour bars at a decision are a part of those at every later one, and aggregate the bars of their intervals, all
of them before the decision; the regime, and with it the direction of `hourly_defender`, depends on the bars before the
decision alone. -/
theorem htfBars_no_repaint (s s' : List Bar) (b c : Bar) (hs : InTimeOrder (s' ++ [c])) (hpre : s ++ [b] <+: s' ++ [c]) :
    confirmedHtfBars (s ++ [b]) b.time <+: confirmedHtfBars (s' ++ [c]) c.time ∧
      (∀ bar ∈ confirmedHtfBars (s ++ [b]) b.time, bar.label % FOUR_HOURS = 0 ∧ bar.label < b.time ∧
        aggregateHtf bar.label (inInterval bar.label (s' ++ [c])) = some bar ∧
        ∀ d ∈ inInterval bar.label (s' ++ [c]), d.time < b.time) ∧
      ∀ b' later, b'.time = b.time → (∀ d ∈ later, b.time < d.time) →
        (∀ fastN slowN, trend4hContext fastN slowN (s ++ b' :: later) b.time =
          trend4hContext fastN slowN (s ++ [b]) b.time) ∧
        ∀ z p sigs, hourlyDefenderSignals z p (s ++ [b]) = .ok sigs → ∀ sig ∈ sigs,
          ∃ trend, trend4hContext p.htfFast p.htfSlow (s ++ b' :: later) b.time = .ok (some trend) ∧
            sig.direction = trend.direction := by
  have hs₁ : InTimeOrder (s ++ [b]) := hs.sublist hpre.sublist
  refine ⟨confirmedHtfBars_grow hs hpre, fun bar hbar => ?_, fun b' later hb hlater => ⟨?_, ?_⟩⟩
  · obtain ⟨hmultiple, hlt, hagg, hbefore⟩ := confirmedHtfBars_exact hbar
    rw [inInterval_grow hs hpre hlt]
    exact ⟨hmultiple, hlt, hagg, hbefore⟩
  · exact trend4hContext_congr hs₁ hb hlater
  · intro z p sigs hsigs sig hsig
    obtain ⟨trend, htrend, hdirection⟩ := hourlyDefender_direction hsigs hsig
    exact ⟨trend, (trend4hContext_congr hs₁ hb hlater _ _).trans htrend, hdirection⟩

/-- Five bars of two hours each, at whose last two bars of four hours have ended. -/
def twoHourBars : List Bar := [flatBar 7200, flatBar 14400, flatBar 21600, flatBar 28800, flatBar 36000]

theorem htfBars_no_repaint_twoHours :
    confirmedHtfBars twoHourBars 36000 <+: confirmedHtfBars (twoHourBars ++ [flatBar 43200]) 43200 :=
  (htfBars_no_repaint [flatBar 7200, flatBar 14400, flatBar 21600, flatBar 28800] twoHourBars (flatBar 36000)
    (flatBar 43200) (by simp [InTimeOrder, twoHourBars, flatBar]) ⟨[flatBar 43200], rfl⟩).1

example : (confirmedHtfBars twoHourBars 36000).map HtfBar.label = [14400, 28800] := by decide +kernel

end PearlAlgo.SignalFns
