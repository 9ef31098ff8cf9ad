import Mathlib.Data.List.Infix
import Mathlib.Data.List.Pairwise
import Mathlib.Tactic.Linarith
import PearlAlgo.Validation.SignalFns

/-!
# The session-event strategies over a series

A series is fed bar by bar. What a strategy emits is decided by the last two bars alone: after it has fired on a date, no
two bars of that date let it fire again. The signals have their stop and target on the right sides.
-/

namespace PearlAlgo.SignalFns

open Py

section
variable {α β : Type}

theorem inits_concat (s : List α) (a : α) : (s ++ [a]).inits = s.inits ++ [s ++ [a]] := by
  rw [List.inits_append]
  simp

theorem getLast?_of_mem_inits {s p : List α} {c : α} (h : p ∈ s.inits) (hc : p.getLast? = some c) : c ∈ s :=
  ((List.mem_inits p s).1 h).subset (List.mem_of_getLast? hc)

end

/-- The signals as the series grows. -/
def emitted (f : List Bar → List Signal) (s : List Bar) : List Signal := s.inits.flatMap f

/-- The stop and the target are on their sides of the entry. -/
def Signal.WellPlaced (sig : Signal) : Prop :=
  match sig.direction with
  | .long => sig.stopLoss < sig.entryPrice ∧ sig.entryPrice < sig.takeProfit
  | .short => sig.takeProfit < sig.entryPrice ∧ sig.entryPrice < sig.stopLoss

def InOrder (s : List Bar) : Prop := s.Pairwise fun a b => a.time ≤ b.time

def PositivePrices (s : List Bar) : Prop := ∀ b ∈ s, 0 < b.opening ∧ 0 < b.high ∧ 0 < b.low ∧ 0 < b.close

section
variable {z : NewYork} {f : List Bar → List Signal} {s df : List Bar} {prev cur : Bar} {sig : Signal} {ctx : Base}

theorem lastTwo_eq_some : lastTwo df = some (prev, cur) ↔ ∃ l, df = l ++ [prev, cur] := by
  constructor
  · intro h
    obtain ⟨c, hc, h⟩ := Option.bind_eq_some_iff.1 h
    obtain ⟨p, hp, h⟩ := Option.bind_eq_some_iff.1 h
    cases h
    obtain ⟨l, rfl⟩ := List.getLast?_eq_some_iff.1 hc
    rw [List.dropLast_concat] at hp
    obtain ⟨l', rfl⟩ := List.getLast?_eq_some_iff.1 hp
    exact ⟨l', by rw [List.append_assoc, List.singleton_append]⟩
  · rintro ⟨l, rfl⟩
    rw [show l ++ [prev, cur] = (l ++ [prev]) ++ [cur] by simp]
    simp [lastTwo]

/-! ### Firing once -/

/-- Where a strategy emits, it is one signal for the last bar, and `R` holds of the times of the last two. -/
def EmitsAt (f : List Bar → List Signal) (R : Int → Int → Prop) : Prop :=
  ∀ df, f df = [] ∨ ∃ prev cur sig, lastTwo df = some (prev, cur) ∧ f df = [sig] ∧ sig.ts = cur.time ∧
    R prev.time cur.time ∧ (0 < cur.close → sig.WellPlaced)

/-- Once such a strategy has fired, `R` holds of no later two bars of that date. -/
structure FiresOnce (z : NewYork) (f : List Bar → List Signal) (R : Int → Int → Prop) : Prop where
  emits : EmitsAt f R
  blocks : ∀ p u v w, R p u → u ≤ v → v ≤ w → z.day u = z.day w → ¬ R v w

theorem EmitsAt.of_mem {R : Int → Int → Prop} (hf : EmitsAt f R) (h : sig ∈ f df) :
    ∃ prev cur, lastTwo df = some (prev, cur) ∧ sig.ts = cur.time ∧ R prev.time cur.time ∧
      (0 < cur.close → sig.WellPlaced) := by
  rcases hf df with hnil | ⟨prev, cur, sig', hlast, heq, hspec⟩
  · rw [hnil] at h
    cases h
  · rw [heq] at h
    obtain rfl := List.mem_singleton.1 h
    exact ⟨prev, cur, hlast, hspec⟩

/-- What it emits has different dates. -/
theorem FiresOnce.nodup {R : Int → Int → Prop} (hf : FiresOnce z f R) (hs : InOrder s) :
    ((emitted f s).map fun sig => z.day sig.ts).Nodup := by
  induction s using List.reverseRecOn with
  | nil =>
    rcases hf.emits [] with hnil | ⟨prev, cur, sig, hlast, -⟩
    · simp [emitted, hnil]
    · cases hlast
  | append_singleton s b ih =>
    have hold := ih (List.pairwise_append.1 hs).1
    rw [emitted, inits_concat, List.flatMap_append, List.map_append, List.nodup_append]
    refine ⟨hold, ?_, ?_⟩
    · rcases hf.emits (s ++ [b]) with hnil | ⟨prev, cur, sig, -, heq, -⟩
      · simp [hnil]
      · simp [heq]
    · -- A signal of before and one at the new bar would be of one date.
      intro d hd d' hd' hdd'
      obtain ⟨sig, hsig, rfl⟩ := List.mem_map.1 hd
      obtain ⟨sig', hsig', rfl⟩ := List.mem_map.1 hd'
      obtain ⟨p, hp, hsig⟩ := List.mem_flatMap.1 hsig
      rw [List.flatMap_singleton] at hsig'
      obtain ⟨prev, cur, hlast, hts, hfires, -⟩ := hf.emits.of_mem hsig
      obtain ⟨prev', cur', hlast', hts', hfires', -⟩ := hf.emits.of_mem hsig'
      obtain ⟨l, rfl⟩ := lastTwo_eq_some.1 hlast
      obtain ⟨l', hl'⟩ := lastTwo_eq_some.1 hlast'
      rw [show l' ++ [prev', cur'] = (l' ++ [prev']) ++ [cur'] by simp] at hl'
      obtain ⟨rfl, hb⟩ := List.append_inj' hl' rfl
      have hcur : cur ∈ l' ++ [prev'] := getLast?_of_mem_inits hp (by simp)
      have hle : cur.time ≤ prev'.time := by
        rcases List.mem_append.1 hcur with hmem | hmem
        · have hpair := List.pairwise_append.1 (List.pairwise_append.1 hs).1
          exact hpair.2.2 cur hmem prev' List.mem_cons_self
        · rw [List.mem_singleton.1 hmem]
      have hle' : prev'.time ≤ cur'.time := by
        have hpair := (List.pairwise_append.1 hs).2.2
        rw [hb] at hpair
        exact hpair prev' (by simp) cur' List.mem_cons_self
      rw [hts, hts'] at hdd'
      exact hf.blocks _ _ _ _ hfires hle hle' hdd' hfires'

/-- The drive ends between the two bars. -/
def CrossesCutoff (z : NewYork) (driveMinutes prevTs curTs : Int) : Prop :=
  prevTs < cutoffTs z driveMinutes curTs ∧ cutoffTs z driveMinutes curTs ≤ curTs

theorem crossesCutoff_blocks {m p u v w : Int} (hu : CrossesCutoff z m p u) (huv : u ≤ v) (hday : z.day u = z.day w) :
    ¬ CrossesCutoff z m v w := by
  rintro ⟨hv, -⟩
  have hcutoff : cutoffTs z m w = cutoffTs z m u := by
    unfold cutoffTs
    rw [hday]
  have hle := hu.2
  omega

/-- The second bar is in the first half hour of a session, and the first is not in the session. -/
def OpensSession (z : NewYork) (prevTs curTs : Int) : Prop :=
  (RTH_OPEN ≤ z.second curTs ∧ z.second curTs < 10 * 3600) ∧ ¬ InSession z curTs prevTs

theorem opensSession_blocks {p u v w : Int} (hu : OpensSession z p u) (huv : u ≤ v) (hvw : v ≤ w)
    (hday : z.day u = z.day w) : ¬ OpensSession z v w := by
  rintro ⟨hw, hout⟩
  obtain ⟨hopen, -⟩ := hu
  have hle := NewYork.wall_mono huv (z := z) (Or.inl (by unfold RTH_OPEN at hopen; omega))
  have hle' := NewYork.wall_mono hvw (z := z) (Or.inr (by unfold RTH_OPEN at hw; omega))
  refine hout ?_
  unfold InSession InRthHours RTH_OPEN RTH_CLOSE NewYork.day NewYork.second at *
  omega

/-- The clock passes six in the evening between the two bars. -/
def PassesEntryHour (z : NewYork) (prevTs curTs : Int) : Prop :=
  ENTRY_HOUR * 3600 ≤ z.second curTs ∧ (z.day prevTs ≠ z.day curTs ∨ z.second prevTs < ENTRY_HOUR * 3600)

theorem passesEntryHour_blocks {p u v w : Int} (hu : PassesEntryHour z p u) (huv : u ≤ v) (hvw : v ≤ w)
    (hday : z.day u = z.day w) : ¬ PassesEntryHour z v w := by
  rintro ⟨hw, hprev⟩
  obtain ⟨hafter, -⟩ := hu
  have hle := NewYork.wall_mono huv (z := z) (Or.inl (by unfold ENTRY_HOUR at hafter; omega))
  have hle' := NewYork.wall_mono hvw (z := z) (Or.inr (by unfold ENTRY_HOUR at hw; omega))
  unfold ENTRY_HOUR NewYork.day NewYork.second at *
  omega

/-! ### The signals -/

theorem holdSignal_wellPlaced {c : ℚ} (hc : 0 < c) (direction : Direction) (trigger : String) (ts : Int) :
    (holdSignal direction c trigger ts).WellPlaced := by
  cases direction with
  | long =>
    simp only [holdSignal, Signal.WellPlaced, HOLD_SENTINEL]
    constructor <;> linarith
  | short =>
    simp only [holdSignal, Signal.WellPlaced, HOLD_SENTINEL]
    constructor <;> linarith

@[simp] theorem holdSignal_ts (direction : Direction) (c : ℚ) (trigger : String) (ts : Int) :
    (holdSignal direction c trigger ts).ts = ts := by
  cases direction <;> rfl

theorem base_last {n : Nat} {l : List Bar} (h : base z n (l ++ [cur]) = some ctx) :
    ctx.ts = cur.time ∧ ctx.close = cur.close := by
  unfold base at h
  split at h
  · cases h
  obtain ⟨last, hget, h⟩ := Option.bind_eq_some_iff.1 h
  have hcur : cur = last := by
    rw [List.getLast?_concat] at hget
    exact Option.some.inj hget
  split at h
  · cases h
  obtain ⟨atr, -, h⟩ := Option.bind_eq_some_iff.1 h
  split at h
  · cases h
  cases h
  exact ⟨by rw [hcur], by rw [hcur]⟩

theorem base_spec {n : Nat} (hlast : lastTwo df = some (prev, cur)) (h : base z n df = some ctx) :
    ctx.ts = cur.time ∧ ctx.close = cur.close := by
  obtain ⟨l, rfl⟩ := lastTwo_eq_some.1 hlast
  rw [show l ++ [prev, cur] = (l ++ [prev]) ++ [cur] by simp] at h
  exact base_last h

theorem openingDriveCore_emits (m : Int) (n : Nat) (trigger : String) :
    EmitsAt (openingDriveCore z m n trigger) (CrossesCutoff z m) := by
  intro df
  unfold openingDriveCore
  split
  · exact .inl rfl
  next prev cur hlast =>
    dsimp only
    split
    · exact .inl rfl
    split
    · exact .inl rfl
    next ctx hctx =>
      split
      next first second rest _ =>
        split
        · exact .inl rfl
        next hcrosses =>
          split
          · exact .inl rfl
          split
          · exact .inl rfl
          refine .inr ⟨prev, cur, _, hlast, rfl, holdSignal_ts _ _ _ _, not_not.1 hcrosses, fun hclose => ?_⟩
          rw [(base_spec hlast hctx).2]
          exact holdSignal_wellPlaced hclose _ _ _
      · exact .inl rfl

theorem todRthLongSignals_emits : EmitsAt (todRthLongSignals z) (OpensSession z) := by
  intro df
  unfold todRthLongSignals
  split
  · exact .inl rfl
  next prev cur hlast =>
    split
    · exact .inl rfl
    next ctx hctx =>
      obtain ⟨hts, hclose⟩ := base_spec hlast hctx
      split
      next hfirst =>
        refine .inr ⟨prev, cur, _, hlast, rfl, by rw [holdSignal_ts, hts], hfirst.2, fun hpos => ?_⟩
        rw [hclose]
        exact holdSignal_wellPlaced hpos _ _ _
      · exact .inl rfl

theorem overnightSeasonalitySignals_emits : EmitsAt (overnightSeasonalitySignals z) (PassesEntryHour z) := by
  intro df
  unfold overnightSeasonalitySignals
  split
  · exact .inl rfl
  split
  · exact .inl rfl
  next prev last hlast =>
    split
    · exact .inl rfl
    next hafter =>
      split
      next hprev =>
        exact .inr ⟨prev, last, _, hlast, rfl, holdSignal_ts _ _ _ _, ⟨not_lt.1 hafter, hprev⟩,
          fun hclose => holdSignal_wellPlaced hclose _ _ _⟩
      · exact .inl rfl

theorem gapContext_spec {g : GapContext} (h : gapContext z df = some g) :
    ∃ prev cur, lastTwo df = some (prev, cur) ∧ g.ts = cur.time ∧ g.close = cur.close ∧
      OpensSession z prev.time cur.time := by
  obtain ⟨⟨prev, cur⟩, hlast, h⟩ := Option.bind_eq_some_iff.1 h
  dsimp only at h
  split at h
  · cases h
  next hfirst =>
    split at h
    · cases h
    obtain ⟨prior, -, h⟩ := Option.bind_eq_some_iff.1 h
    cases h
    exact ⟨prev, cur, hlast, rfl, rfl, (not_not.1 hfirst).2⟩

/-- The fade goes towards the prior close, which the close has not reached. -/
theorem gapFadeSignal_spec (g : GapContext) (trigger : String) (hgap : GAP_FLOOR_PTS ≤ |g.gap|) :
    gapFadeSignal g trigger = [] ∨
      ∃ sig, gapFadeSignal g trigger = [sig] ∧ sig.ts = g.ts ∧ sig.WellPlaced := by
  unfold gapFadeSignal
  dsimp only
  split
  · exact .inl rfl
  next hgoes =>
    obtain ⟨hopen, hfloor⟩ := not_or.1 hgoes
    obtain ⟨hup, hdown⟩ := not_or.1 hopen
    unfold GAP_FLOOR_PTS at hfloor hgap
    split
    next hneg =>
      have hbelow : g.close < g.priorClose := by
        by_contra hle
        exact hdown ⟨hneg, not_lt.1 hle⟩
      refine .inr ⟨_, rfl, rfl, ?_, hbelow⟩
      dsimp only
      linarith [not_lt.1 hfloor]
    next hneg =>
      have hpos : 0 < g.gap := by
        rcases lt_or_eq_of_le (not_lt.1 hneg) with hlt | heq
        · exact hlt
        · rw [← heq, abs_zero] at hgap
          linarith
      have habove : g.priorClose < g.close := by
        by_contra hle
        exact hup ⟨hpos, not_lt.1 hle⟩
      refine .inr ⟨_, rfl, rfl, habove, ?_⟩
      dsimp only
      linarith [not_lt.1 hfloor]

theorem gapFadeSmallSignals_emits : EmitsAt (gapFadeSmallSignals z) (OpensSession z) := by
  intro df
  unfold gapFadeSmallSignals
  split
  · exact .inl rfl
  next g hg =>
    split
    · exact .inl rfl
    split
    next hsize =>
      obtain ⟨prev, cur, hlast, hts, -, hopens⟩ := gapContext_spec hg
      rcases gapFadeSignal_spec g "gap_fade_small" hsize.1 with hnil | ⟨sig, heq, hsig, hplaced⟩
      · exact .inl hnil
      · exact .inr ⟨prev, cur, sig, hlast, heq, by rw [hsig, hts], hopens, fun _ => hplaced⟩
    · exact .inl rfl

theorem gapFadeAllSignals_emits : EmitsAt (gapFadeAllSignals z) (OpensSession z) := by
  intro df
  unfold gapFadeAllSignals
  split
  · exact .inl rfl
  next g hg =>
    split
    · exact .inl rfl
    next hsize =>
      obtain ⟨prev, cur, hlast, hts, -, hopens⟩ := gapContext_spec hg
      rcases gapFadeSignal_spec g "gap_fade_all" (not_lt.1 hsize) with hnil | ⟨sig, heq, hsig, hplaced⟩
      · exact .inl hnil
      · exact .inr ⟨prev, cur, sig, hlast, heq, by rw [hsig, hts], hopens, fun _ => hplaced⟩

theorem gapContinueLargeSignals_emits : EmitsAt (gapContinueLargeSignals z) (OpensSession z) := by
  intro df
  unfold gapContinueLargeSignals
  split
  · exact .inl rfl
  next g hg =>
    split
    · exact .inl rfl
    split
    · exact .inl rfl
    obtain ⟨prev, cur, hlast, hts, hclose, hopens⟩ := gapContext_spec hg
    refine .inr ⟨prev, cur, _, hlast, rfl, by rw [holdSignal_ts, hts], hopens, fun hpos => ?_⟩
    rw [hclose]
    exact holdSignal_wellPlaced hpos _ _ _

end

/-! ### All of them -/

/-- The names in `STRATEGY_FNS` of the strategies that fire at an event of the session. -/
def sessionEventFns (z : NewYork) : List (String × (List Bar → List Signal)) :=
  [("opening_drive", openingDriveSignals z), ("opening_drive_5", openingDrive5Signals z),
    ("tod_rth_long", todRthLongSignals z), ("overnight_seasonality", overnightSeasonalitySignals z),
    ("gap_fade_small", gapFadeSmallSignals z), ("gap_fade_all", gapFadeAllSignals z),
    ("gap_continue_large", gapContinueLargeSignals z)]

theorem sessionEventFns_fireOnce (z : NewYork) {e : String × (List Bar → List Signal)} (h : e ∈ sessionEventFns z) :
    ∃ R, FiresOnce z e.2 R := by
  have hdrive : ∀ m trigger, FiresOnce z (openingDriveCore z m 14 trigger) (CrossesCutoff z m) := fun m trigger =>
    ⟨openingDriveCore_emits m 14 trigger, fun _ _ _ _ hu huv _ hday => crossesCutoff_blocks hu huv hday⟩
  have hopens : ∀ f, EmitsAt f (OpensSession z) → FiresOnce z f (OpensSession z) := fun f hf =>
    ⟨hf, fun _ _ _ _ hu huv hvw hday => opensSession_blocks hu huv hvw hday⟩
  have hovernight : FiresOnce z (overnightSeasonalitySignals z) (PassesEntryHour z) :=
    ⟨overnightSeasonalitySignals_emits, fun _ _ _ _ hu huv hvw hday => passesEntryHour_blocks hu huv hvw hday⟩
  simp only [sessionEventFns, List.mem_cons, List.not_mem_nil, or_false] at h
  rcases h with rfl | rfl | rfl | rfl | rfl | rfl | rfl
  · exact ⟨_, hdrive 15 "opening_drive"⟩
  · exact ⟨_, hdrive 5 "opening_drive_5"⟩
  · exact ⟨_, hopens _ todRthLongSignals_emits⟩
  · exact ⟨_, hovernight⟩
  · exact ⟨_, hopens _ gapFadeSmallSignals_emits⟩
  · exact ⟨_, hopens _ gapFadeAllSignals_emits⟩
  · exact ⟨_, hopens _ gapContinueLargeSignals_emits⟩

/-- The same bar, direction, entry, stop and target. -/
def Signal.Coincides (sig sig' : Signal) : Prop :=
  sig.ts = sig'.ts ∧ sig.direction = sig'.direction ∧ sig.entryPrice = sig'.entryPrice ∧ sig.stopLoss = sig'.stopLoss ∧
    sig.takeProfit = sig'.takeProfit

theorem gapFadeSignal_coincides {g : GapContext} {trigger : String} {sig : Signal} (trigger' : String)
    (h : sig ∈ gapFadeSignal g trigger) : ∃ sig' ∈ gapFadeSignal g trigger', sig.Coincides sig' := by
  unfold gapFadeSignal at h ⊢
  dsimp only at h ⊢
  split at h
  · cases h
  next hgoes =>
    rw [if_neg hgoes]
    split at h
    next hneg =>
      rw [if_pos hneg]
      obtain rfl := List.mem_singleton.1 h
      exact ⟨_, List.mem_cons_self, rfl, rfl, rfl, rfl, rfl⟩
    next hneg =>
      rw [if_neg hneg]
      obtain rfl := List.mem_singleton.1 h
      exact ⟨_, List.mem_cons_self, rfl, rfl, rfl, rfl, rfl⟩

theorem gapFadeSmall_coincides {z : NewYork} {df : List Bar} {sig : Signal} (h : sig ∈ gapFadeSmallSignals z df) :
    ∃ sig' ∈ gapFadeAllSignals z df, sig.Coincides sig' := by
  unfold gapFadeSmallSignals at h
  split at h
  · cases h
  next g hg =>
    split at h
    · cases h
    split at h
    next hsize =>
      obtain ⟨sig', hsig', hsame⟩ := gapFadeSignal_coincides "gap_fade_all" h
      refine ⟨sig', ?_, hsame⟩
      unfold gapFadeAllSignals
      rw [hg]
      dsimp only
      rw [if_neg (not_lt.2 hsize.1)]
      exact hsig'
    · cases h

/-- Over a series in time order each strategy emits one signal a date at most, all of them with the stop and the target on
their sides, and where small gaps are faded, all are. -/
theorem sessionEvents_once (z : NewYork) (s : List Bar) (hs : InOrder s) (hpos : PositivePrices s) :
    (∀ e ∈ sessionEventFns z, ((emitted e.2 s).map fun sig => z.day sig.ts).Nodup) ∧
      (∀ e ∈ sessionEventFns z, ∀ sig ∈ emitted e.2 s, sig.WellPlaced) ∧
      ∀ p ∈ s.inits, ∀ sig ∈ gapFadeSmallSignals z p, ∃ sig' ∈ gapFadeAllSignals z p, sig.Coincides sig' := by
  refine ⟨fun e he => ?_, fun e he sig hsig => ?_, fun p _ sig hsig => gapFadeSmall_coincides hsig⟩
  · obtain ⟨R, hR⟩ := sessionEventFns_fireOnce z he
    exact hR.nodup hs
  · obtain ⟨R, hR⟩ := sessionEventFns_fireOnce z he
    obtain ⟨p, hp, hsig⟩ := List.mem_flatMap.1 hsig
    obtain ⟨prev, cur, hlast, -, -, hplaced⟩ := hR.emits.of_mem hsig
    obtain ⟨l, rfl⟩ := lastTwo_eq_some.1 hlast
    have hcur : cur ∈ s := getLast?_of_mem_inits hp (by simp)
    exact hplaced (hpos cur hcur).2.2.2

/-- Five hours behind UTC all year. -/
def standardTime : NewYork where
  offset _ := -18000
  offset_eq _ := .inr rfl
  change _ h := absurd rfl h

def flatBar (time : Int) : Bar := { time, opening := 100, high := 101, low := 99, close := 100, volume := 1 }

/-- Half past five, six o'clock and half past six in the evening. -/
def eveningBars : List Bar := [flatBar 81000, flatBar 82800, flatBar 84600]

theorem sessionEvents_once_evening :
    ((emitted (overnightSeasonalitySignals standardTime) eveningBars).map fun sig => standardTime.day sig.ts).Nodup :=
  (sessionEvents_once standardTime eveningBars (by simp [InOrder, eveningBars, flatBar])
    (by simp [PositivePrices, eveningBars, flatBar])).1
      ("overnight_seasonality", overnightSeasonalitySignals standardTime) (by simp [sessionEventFns])

example : (emitted (overnightSeasonalitySignals standardTime) (flatBar 79200 :: eveningBars)).map Signal.ts = [82800] := by
  decide +kernel

end PearlAlgo.SignalFns
