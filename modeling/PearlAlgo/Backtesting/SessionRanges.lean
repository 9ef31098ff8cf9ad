import PearlAlgo.Backtesting.RunIndependence

/-!
# Opening ranges over a process (`update_opening_range` of `trading_bots/signal_generator.py`)

Runs of `update_opening_range` with any number of bars, over frames with and without times. `Steps` is what each call asks
of the state that it finds; `sessionRanges_run` says that then no call raises, and that the range of a session, once it is
defined, is that of its first bars in the market.
-/

namespace PearlAlgo.SignalGenerator
open Py

/-- A call of `update_opening_range`: the rows of `df`, whether they have a `timestamp`, and `current_time`. -/
structure RangeCall where
  rows : List TimedBar
  timestamped : Bool := true
  now : ℚ

/-! ### Sessions -/

/-- The session is on at a time: 9:30 to 16:00, and 18:00 to 9:30 of the next day. From 16:00 to 18:00 none is. -/
def SessionKey.Contains (k : SessionKey) (t : EtTime) : Prop :=
  if k.rth then t.date = k.date ∧ microsAt 9 30 ≤ t.micros ∧ t.micros < microsAt 16 0
  else t.date = k.date ∧ microsAt 18 0 ≤ t.micros ∨ t.date = k.date + 1 ∧ t.micros < microsAt 9 30

instance (k : SessionKey) (t : EtTime) : Decidable (k.Contains t) := instDecidableIte

/-- When `_get_session_open_time` lets the session of a time begin. -/
def openTime (t : EtTime) : EtTime :=
  if (sessionKey t).rth then ⟨t.date, microsAt 9 30⟩
  else if microsAt 18 0 ≤ t.micros then ⟨t.date, microsAt 18 0⟩
  else ⟨t.date - 1, microsAt 18 0⟩

def EtTime.wall (t : EtTime) : Int := t.date * microsAt 24 0 + t.micros

/-- `ct_et > or_end_time`: times of one zone are compared by the clock on the wall. -/
def rangeOver (orBars : Nat) (t : EtTime) : Bool := (openTime t).wall + microsAt 0 orBars < t.wall

/-- The high and the low are those of these bars. -/
structure OpeningRange.Spans (bars : List TimedBar) (state : OpeningRange) : Prop where
  high : state.orHigh = (bars.map fun b : TimedBar => b.high).max?
  low : state.orLow = (bars.map fun b : TimedBar => b.low).min?

/-- The state of a session after a call with these bars of its range. -/
def OpeningRange.fed (rangeBars : List TimedBar) (ended : Bool) (state : OpeningRange) : OpeningRange :=
  if state.orDefined then state
  else
    let state := match rangeBars with
      | [] => state
      | first :: _ =>
        { state with
          sessionOpenPrice := state.sessionOpenPrice <|> some first.opening
          orHigh := (rangeBars.map fun b : TimedBar => b.high).max?
          orLow := (rangeBars.map fun b : TimedBar => b.low).min?
          barCount := rangeBars.length }
    { state with orDefined := ended ∧ state.orHigh.isSome }

namespace GeneratorEnv
variable (gen : GeneratorEnv) (orBars : Nat)

def sessionStart (k : SessionKey) : ℚ := gen.instant k.date (if k.rth then microsAt 9 30 else microsAt 18 0)

/-- The first `orBars` minutes of a session. -/
def openingRows (market : List TimedBar) (k : SessionKey) : List TimedBar :=
  market.filter fun b => gen.sessionStart k ≤ b.timestamp ∧ b.timestamp ≤ gen.sessionStart k + orBars * 60

/-- `range_bars`: without times, `df.tail(or_bars)`. -/
def rangeBars (c : RangeCall) : List TimedBar :=
  if c.timestamped then
    c.rows.filter fun b => gen.sessionOpen c.now ≤ b.timestamp ∧ b.timestamp ≤ gen.sessionOpen c.now + orBars * 60
  else c.rows.drop (c.rows.length - orBars)

/-- `update_opening_range` with any `or_bars`, `none` where it raises. -/
def rangeCall (c : RangeCall) (ranges : Dict SessionKey OpeningRange) :
    Dict SessionKey OpeningRange × Option OpeningRange :=
  ranges.visit 4 (gen.session c.now) {} (OpeningRange.fed (gen.rangeBars orBars c) (rangeOver orBars (gen.et c.now)))

/-- The state before call `i`. -/
def rangesBefore (calls : List RangeCall) (i : Nat) : Dict SessionKey OpeningRange :=
  (calls.take i).foldl (fun ranges c => (gen.rangeCall orBars c ranges).1) .empty

/-- The rows of the frame are of the market, and a frame with times that is shown after the opening range has all of it. -/
structure ShowsRange (market : List TimedBar) (c : RangeCall) : Prop where
  sub : ∀ b ∈ c.rows, b ∈ market
  all : c.timestamped → rangeOver orBars (gen.et c.now) → ∀ k : SessionKey, k.Contains (gen.et c.now) →
    ∀ b ∈ gen.openingRows orBars market k, b ∈ c.rows

/-- What a run should give: no call raises, and a defined range of a session that is on is that of its first bars. -/
def RangesHold (market : List TimedBar) (calls : List RangeCall) : Prop :=
  ∀ i c, calls[i]? = some c → ∃ state, (gen.rangeCall orBars c (gen.rangesBefore orBars calls i)).2 = some state ∧
    ∀ k : SessionKey, k.Contains (gen.et c.now) → state.orDefined → state.Spans (gen.openingRows orBars market k)

/-- The frame has times and the session of the key is on. -/
def InSession (c : RangeCall) : Prop := c.timestamped ∧ (gen.session c.now).Contains (gen.et c.now)

/-- The call leaves the state of its session as it is. -/
def Leaves (c : RangeCall) (state : OpeningRange) : Prop :=
  state.orDefined ∨ gen.rangeBars orBars c = [] ∧ (state.orHigh = none ∨ ¬ rangeOver orBars (gen.et c.now))

/-- What a call asks of the state: fewer than four of its sessions are later than the one of the call, and a call that
comes from 16:00 to 18:00 or with a frame without times has nothing to change. -/
structure StepOk (ranges : Dict SessionKey OpeningRange) (c : RangeCall) : Prop where
  latest : Latest 4 (insert (gen.session c.now) ranges.keySet) (gen.session c.now)
  leaves : gen.InSession c ∨ gen.Leaves orBars c ((ranges.get? (gen.session c.now)).getD {})

end GeneratorEnv

theorem fed_eq_observe (sessionOpen now : ℚ) (window : List TimedBar) :
    OpeningRange.fed (window.filter fun b => sessionOpen ≤ b.timestamp ∧ b.timestamp ≤ sessionOpen + orSeconds)
      (sessionOpen + orSeconds < now) = OpeningRange.observe sessionOpen now window := by
  funext state
  unfold OpeningRange.fed OpeningRange.observe
  generalize window.filter _ = rangeBars
  split
  · rfl
  · cases rangeBars with
    | nil => simp
    | cons first rest => simp

/-- At the clock of the sessions the call with 15 bars is the one of `generate_signals`. -/
theorem rangeCall_eq (gen : GeneratorEnv)
    (hclock : ∀ now, rangeOver 15 (gen.et now) ↔ gen.sessionOpen now + orSeconds < now) (window : List TimedBar) (now : ℚ)
    (ranges : Dict SessionKey OpeningRange) :
    gen.rangeCall 15 { rows := window, now } ranges = gen.updateOpeningRange window now ranges := by
  have hover : rangeOver 15 (gen.et now) = decide (gen.sessionOpen now + orSeconds < now) :=
    Bool.eq_iff_iff.2 ((hclock now).trans decide_eq_true_iff.symm)
  have hseconds : ((15 : ℕ) : ℚ) * 60 = orSeconds := by norm_num [orSeconds]
  unfold GeneratorEnv.rangeCall GeneratorEnv.updateOpeningRange GeneratorEnv.rangeBars
  rw [if_pos rfl, hseconds, hover, fed_eq_observe]

section Sessions
variable {k : SessionKey} {t : EtTime}

theorem sessionKey_of_contains (h : k.Contains t) : sessionKey t = k := by
  obtain ⟨date, rth⟩ := k
  unfold SessionKey.Contains at h
  unfold sessionKey
  cases rth with
  | true =>
    obtain ⟨rfl, hopen, hclose⟩ := h
    exact if_pos ⟨hopen, hclose⟩
  | false =>
    rcases h with ⟨rfl, hevening⟩ | ⟨hdate, hmorning⟩
    · rw [if_neg (by unfold microsAt at hevening ⊢; omega), if_pos hevening]
    · have hdate' : t.date - 1 = date := by
        dsimp only at hdate
        omega
      rw [if_neg (by unfold microsAt at hmorning ⊢; omega), if_neg (by unfold microsAt at hmorning ⊢; omega),
        if_pos (by unfold microsAt at hmorning ⊢; omega), hdate']

theorem sessionOpen_of_contains {gen : GeneratorEnv} {now : ℚ} (h : k.Contains (gen.et now)) :
    gen.sessionOpen now = gen.sessionStart k := by
  have hkey := sessionKey_of_contains h
  unfold GeneratorEnv.sessionOpen GeneratorEnv.sessionStart
  obtain ⟨date, rth⟩ := k
  unfold SessionKey.Contains at h
  simp only [hkey]
  cases rth with
  | true =>
    obtain ⟨rfl, -, -⟩ := h
    rw [if_pos rfl, if_pos rfl]
  | false =>
    have hfalse : ¬ (false = true) := Bool.false_ne_true
    rw [if_neg hfalse, if_neg hfalse]
    rcases h with ⟨rfl, hevening⟩ | ⟨hdate, hmorning⟩
    · rw [if_pos hevening]
    · have hdate' : (gen.et now).date - 1 = date := by
        dsimp only at hdate
        omega
      have hnot : ¬ microsAt 18 0 ≤ (gen.et now).micros := by
        unfold microsAt at hmorning ⊢
        omega
      rw [if_neg hnot, hdate']

end Sessions

/-! ### One session -/

theorem max?_congr {l l' : List ℚ} (h : ∀ x, x ∈ l ↔ x ∈ l') : l.max? = l'.max? := by
  refine Option.ext fun m => ?_
  rw [List.max?_eq_some_iff, List.max?_eq_some_iff, h m]
  exact and_congr_right fun _ => forall_congr' fun x => by rw [h x]

theorem min?_congr {l l' : List ℚ} (h : ∀ x, x ∈ l ↔ x ∈ l') : l.min? = l'.min? := by
  refine Option.ext fun m => ?_
  rw [List.min?_eq_some_iff, List.min?_eq_some_iff, h m]
  exact and_congr_right fun _ => forall_congr' fun x => by rw [h x]

/-- The high and the low depend on which bars there are alone. -/
theorem spans_congr {bars bars' : List TimedBar} {state : OpeningRange} (h : ∀ b, b ∈ bars ↔ b ∈ bars')
    (hstate : state.Spans bars) : state.Spans bars' := by
  have hmap : ∀ (f : TimedBar → ℚ) x, x ∈ bars.map f ↔ x ∈ bars'.map f := by
    intro f x
    simp only [List.mem_map, h]
  exact ⟨hstate.high.trans (max?_congr (hmap _)), hstate.low.trans (min?_congr (hmap _))⟩

namespace GeneratorEnv
variable {gen : GeneratorEnv} {orBars : Nat} {market : List TimedBar} {c : RangeCall} {k : SessionKey} {state : OpeningRange}

/-- The invariant of the state of a session: what is defined is right, and a high is that of a bar of its range. -/
structure RangeKept (gen : GeneratorEnv) (orBars : Nat) (market : List TimedBar) (k : SessionKey) (state : OpeningRange) :
    Prop where
  spans : state.orDefined → state.Spans (gen.openingRows orBars market k)
  seen : state.orHigh.isSome → gen.openingRows orBars market k ≠ []

theorem RangeKept.blank : gen.RangeKept orBars market k {} where
  spans := fun h => by cases h
  seen := fun h => by cases h

theorem fed_of_leaves (h : gen.Leaves orBars c state) :
    OpeningRange.fed (gen.rangeBars orBars c) (rangeOver orBars (gen.et c.now)) state = state := by
  unfold OpeningRange.fed
  split
  · rfl
  next hopen =>
    obtain ⟨hnone, hfix⟩ := h.resolve_left hopen
    rw [hnone]
    have hnot : decide (rangeOver orBars (gen.et c.now) ∧ state.orHigh.isSome) = state.orDefined := by
      rw [Bool.eq_false_iff.2 hopen, decide_eq_false_iff_not]
      rintro ⟨hover, hsome⟩
      rcases hfix with hhigh | hbefore
      · simp [hhigh] at hsome
      · exact hbefore hover
    dsimp only
    rw [hnot]

theorem mem_rangeBars (htimes : c.timestamped) (hk : k.Contains (gen.et c.now)) {b : TimedBar} :
    b ∈ gen.rangeBars orBars c ↔
      b ∈ c.rows ∧ gen.sessionStart k ≤ b.timestamp ∧ b.timestamp ≤ gen.sessionStart k + orBars * 60 := by
  unfold rangeBars
  rw [if_pos htimes, List.mem_filter, sessionOpen_of_contains hk, decide_eq_true_iff]

theorem RangeKept.fed (h : gen.RangeKept orBars market k state) (hshows : gen.ShowsRange orBars market c)
    (htimes : c.timestamped) (hk : k.Contains (gen.et c.now)) :
    gen.RangeKept orBars market k
      (OpeningRange.fed (gen.rangeBars orBars c) (rangeOver orBars (gen.et c.now)) state) := by
  have hmem : ∀ b, b ∈ gen.openingRows orBars market k ↔
      b ∈ market ∧ gen.sessionStart k ≤ b.timestamp ∧ b.timestamp ≤ gen.sessionStart k + orBars * 60 := by
    intro b
    unfold openingRows
    rw [List.mem_filter, decide_eq_true_iff]
  have hsub : ∀ b ∈ gen.rangeBars orBars c, b ∈ gen.openingRows orBars market k := by
    intro b hb
    obtain ⟨hrow, hin⟩ := (mem_rangeBars htimes hk).1 hb
    exact (hmem b).2 ⟨hshows.sub b hrow, hin⟩
  have hall : rangeOver orBars (gen.et c.now) → ∀ b ∈ gen.openingRows orBars market k, b ∈ gen.rangeBars orBars c := by
    intro hover b hb
    exact (mem_rangeBars htimes hk).2 ⟨hshows.all htimes hover k hk b hb, ((hmem b).1 hb).2⟩
  unfold OpeningRange.fed
  split
  · exact h
  rcases hbars : gen.rangeBars orBars c with _ | ⟨first, rest⟩
  · -- nothing is seen: the range is not defined, for it would have a bar that is shown
    refine ⟨fun hdefined => ?_, h.seen⟩
    obtain ⟨hover, hsome⟩ := of_decide_eq_true hdefined
    obtain ⟨b, hb⟩ := List.exists_mem_of_ne_nil _ (h.seen hsome)
    have hshown := hall hover b hb
    rw [hbars] at hshown
    cases hshown
  · rw [hbars] at hsub hall
    refine ⟨fun hdefined => ?_, fun _ hnil => ?_⟩
    · obtain ⟨hover, -⟩ := of_decide_eq_true hdefined
      exact spans_congr (fun b => ⟨hsub b, hall hover b⟩) ⟨rfl, rfl⟩
    · have hfirst := hsub first (List.mem_cons_self ..)
      rw [hnil] at hfirst
      cases hfirst

/-! ### Runs -/

/-- The invariant of a run: at most four sessions are kept, and each of them is as it should be. -/
structure RangesKept (gen : GeneratorEnv) (orBars : Nat) (market : List TimedBar) (ranges : Dict SessionKey OpeningRange) :
    Prop where
  card_le : ranges.keySet.card ≤ 4
  kept : ∀ k state, ranges.get? k = some state → gen.RangeKept orBars market k state

variable {ranges : Dict SessionKey OpeningRange}

theorem RangesKept.empty : gen.RangesKept orBars market .empty where
  card_le := Nat.zero_le 4
  kept := fun k state h => by cases h

/-- A call that finds what it asks for gives a state of its session that is as it should be. -/
theorem RangesKept.call (h : gen.RangesKept orBars market ranges) (hshows : gen.ShowsRange orBars market c)
    (hok : gen.StepOk orBars ranges c) : ∃ state, (gen.rangeCall orBars c ranges).2 = some state ∧
      gen.RangeKept orBars market (gen.session c.now) state := by
  have hfound : gen.RangeKept orBars market (gen.session c.now) ((ranges.get? (gen.session c.now)).getD {}) := by
    rcases hget : ranges.get? (gen.session c.now) with _ | state
    · exact .blank
    · exact h.kept _ _ hget
  refine ⟨_, Dict.visit_latest h.card_le hok.latest, ?_⟩
  rcases hok.leaves with ⟨htimes, hon⟩ | hleaves
  · exact hfound.fed hshows htimes hon
  · rw [fed_of_leaves hleaves]
    exact hfound

theorem RangesKept.step (h : gen.RangesKept orBars market ranges) (hshows : gen.ShowsRange orBars market c)
    (hok : gen.StepOk orBars ranges c) : gen.RangesKept orBars market (gen.rangeCall orBars c ranges).1 := by
  obtain ⟨state, hstate, hkept⟩ := h.call hshows hok
  refine ⟨Dict.card_visit_le h.card_le, fun k s hget => ?_⟩
  rcases Dict.get?_visit hget with ⟨rfl, hs⟩ | ⟨-, hold⟩
  · obtain rfl := Option.some.inj (hstate.symm.trans hs)
    exact hkept
  · exact h.kept k s hold

variable {calls : List RangeCall}

theorem rangesBefore_succ {i : Nat} (h : calls[i]? = some c) :
    gen.rangesBefore orBars calls (i + 1) = (gen.rangeCall orBars c (gen.rangesBefore orBars calls i)).1 := by
  unfold rangesBefore
  rw [List.take_add_one, h, List.foldl_append]
  rfl

/-- What the first state has and every call keeps, every state before a call has. -/
theorem rangesBefore_induction {P : Dict SessionKey OpeningRange → Prop} (hempty : P Dict.empty)
    (hcall : ∀ i c, calls[i]? = some c → P (gen.rangesBefore orBars calls i) →
      P (gen.rangeCall orBars c (gen.rangesBefore orBars calls i)).1) (i : Nat) :
    P (gen.rangesBefore orBars calls i) := by
  induction i with
  | zero => exact hempty
  | succ i ih =>
    rcases hc : calls[i]? with _ | c
    · have hlen : calls.length ≤ i := List.getElem?_eq_none_iff.1 hc
      unfold rangesBefore at ih ⊢
      rw [List.take_of_length_le (by omega)] at ih ⊢
      exact ih
    · rw [rangesBefore_succ hc]
      exact hcall i c hc ih

theorem rangesBefore_kept (hshows : ∀ c ∈ calls, gen.ShowsRange orBars market c)
    (hok : ∀ i c, calls[i]? = some c → gen.StepOk orBars (gen.rangesBefore orBars calls i) c) (i : Nat) :
    gen.RangesKept orBars market (gen.rangesBefore orBars calls i) :=
  rangesBefore_induction .empty
    (fun i c hc h => h.step (hshows c (List.mem_of_getElem? hc)) (hok i c hc)) i

theorem rangesBefore_card_le (gen : GeneratorEnv) (orBars : Nat) (calls : List RangeCall) (i : Nat) :
    (gen.rangesBefore orBars calls i).keySet.card ≤ 4 :=
  rangesBefore_induction (P := fun ranges => ranges.keySet.card ≤ 4) (Nat.zero_le 4)
    (fun _ _ _ h => Dict.card_visit_le h) i

/-- In a run whose calls find what they ask for, no call raises and every defined range is right; and in any run a call
raises exactly if four of the sessions that it finds are later than its own. -/
theorem sessionRanges_run (gen : GeneratorEnv) (orBars : Nat) (market : List TimedBar) (calls : List RangeCall)
    (hshows : ∀ c ∈ calls, gen.ShowsRange orBars market c) :
    ((∀ i c, calls[i]? = some c → gen.StepOk orBars (gen.rangesBefore orBars calls i) c) →
        gen.RangesHold orBars market calls) ∧
      ∀ i c, calls[i]? = some c → ((gen.rangeCall orBars c (gen.rangesBefore orBars calls i)).2 = none ↔
        ¬ Latest 4 (insert (gen.session c.now) (gen.rangesBefore orBars calls i).keySet) (gen.session c.now)) := by
  constructor
  · intro hok i c hc
    obtain ⟨state, hstate, hkept⟩ :=
      (rangesBefore_kept hshows hok i).call (hshows c (List.mem_of_getElem? hc)) (hok i c hc)
    refine ⟨state, hstate, fun k hk hdefined => ?_⟩
    obtain rfl : gen.session c.now = k := sessionKey_of_contains hk
    exact hkept.spans hdefined
  · intro i c _
    rw [← Dict.visit_isSome_iff (rangesBefore_card_le gen orBars calls i), Option.not_isSome_iff_eq_none]
    rfl

end GeneratorEnv

/-! Two evenings: a call at half past four in the afternoon between them enters the second one with the range of the first.
And five days, the last of which is before the others. -/

def eveningBar (price timestamp : ℚ) : TimedBar :=
  { opening := price, high := price, low := price, close := price, volume := 1, timestamp }

def evenings : List TimedBar := [eveningBar 20 83100, eveningBar 40 169500]

def eveningCalls : List RangeCall :=
  [{ rows := evenings.take 1, now := 163800 }, { rows := evenings, now := 171000 }]

def backwardCalls : List RangeCall :=
  [140000, 226400, 312800, 399200, 53600].map fun now => { rows := [], now }

theorem eveningCalls_show : ∀ c ∈ eveningCalls, BacktestCall.winterDay.ShowsRange 15 evenings c := by
  intro c hc
  rcases List.mem_cons.1 hc with rfl | hc
  · refine ⟨fun b hb => List.mem_of_mem_take hb, fun _ _ k hk => ?_⟩
    -- no session is on in the afternoon
    obtain rfl := sessionKey_of_contains hk
    exact absurd hk (by decide +kernel)
  · obtain rfl := List.mem_singleton.1 hc
    exact ⟨fun b hb => hb, fun _ _ k _ b hb => (List.mem_filter.1 hb).1⟩

/-- Without the call of the afternoon the range is that of the evening. -/
theorem evening_rangesHold : BacktestCall.winterDay.RangesHold 15 evenings (eveningCalls.drop 1) := by
  have hshows : ∀ c ∈ eveningCalls.drop 1, BacktestCall.winterDay.ShowsRange 15 evenings c := by
    intro c hc
    exact eveningCalls_show c (List.mem_of_mem_drop hc)
  refine (GeneratorEnv.sessionRanges_run BacktestCall.winterDay 15 evenings (eveningCalls.drop 1) hshows).1 ?_
  intro i c hc
  rcases i with _ | i
  · cases hc
    exact ⟨by decide +kernel, .inl ⟨rfl, by decide +kernel⟩⟩
  · cases hc

theorem not_rangesHold :
    (∀ c ∈ eveningCalls, BacktestCall.winterDay.ShowsRange 15 evenings c) ∧
      ¬ BacktestCall.winterDay.RangesHold 15 evenings eveningCalls ∧
      (∀ c ∈ backwardCalls, BacktestCall.winterDay.ShowsRange 15 [] c) ∧
      ¬ BacktestCall.winterDay.RangesHold 15 [] backwardCalls := by
  refine ⟨eveningCalls_show, fun h => ?_, ?_, fun h => ?_⟩
  · obtain ⟨state, hstate, hright⟩ := h 1 { rows := evenings, now := 171000 } rfl
    have hdefined : ((BacktestCall.winterDay.rangeCall 15 { rows := evenings, now := 171000 }
        (BacktestCall.winterDay.rangesBefore 15 eveningCalls 1)).2.any fun state => state.orDefined ∧ state.orHigh = some 20) := by
      decide +kernel
    rw [hstate] at hdefined
    obtain ⟨hdefined, hhigh⟩ := of_decide_eq_true hdefined
    have hmarket : ((BacktestCall.winterDay.openingRows 15 evenings ⟨1, false⟩).map fun b : TimedBar =>
        b.high).max? = some 40 := by
      decide +kernel
    have hspans := (hright ⟨1, false⟩ (by decide +kernel) hdefined).high
    rw [hhigh, hmarket] at hspans
    exact absurd hspans (by decide)
  · intro c hc
    obtain ⟨now, -, rfl⟩ := List.mem_map.1 hc
    exact ⟨fun b hb => hb, fun _ _ k _ b hb => (List.mem_filter.1 hb).1⟩
  · obtain ⟨state, hstate, -⟩ := h 4 { rows := [], now := 53600 } rfl
    have hnone : (BacktestCall.winterDay.rangeCall 15 { rows := [], now := 53600 }
        (BacktestCall.winterDay.rangesBefore 15 backwardCalls 4)).2.isNone := by
      decide +kernel
    rw [hstate] at hnone
    cases hnone

end PearlAlgo.SignalGenerator
