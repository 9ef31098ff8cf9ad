import PearlAlgo.Backtesting.DrawdownAgreement
import Mathlib.Data.List.Induction

/-!
# The two ledgers of the scorecard (`Scorecard.record` of `scripts/ops/backtest_config.py`)

The totals count a trade as won or lost by the reason of its exit, and only a timeout by its points; the ledger of a
trigger counts every trade by the sign of its points. `ledgersAgree_iff`: they agree in every state of a run exactly if
every trade that leaves at its target gains net of cost, every one that leaves at its stop loses, and no timeout breaks
even.
-/

namespace PearlAlgo.ReplayHarness

variable {F : Type} [Field F] [LinearOrder F]

/-- How the totals count an exit. -/
def Won (reason : ExitReason) (pnl : F) : Prop :=
  match reason with
  | .tp => True
  | .sl => False
  | .timeout => 0 ≤ pnl

instance (reason : ExitReason) (pnl : F) : Decidable (Won reason pnl) :=
  match reason with
  | .tp => .isTrue trivial
  | .sl => .isFalse id
  | .timeout => inferInstanceAs (Decidable (0 ≤ pnl))

/-- The net points of a trade have the sign that the reason of its exit tells. -/
def SignsAgree (trade : SimTrade F) (commissionPoints : F) : Prop :=
  match trade.exit.exitReason with
  | .tp => 0 < trade.pnlPoints - commissionPoints
  | .sl => trade.pnlPoints - commissionPoints < 0
  | .timeout => trade.pnlPoints - commissionPoints ≠ 0

namespace Scorecard

/-- A sum over the ledgers of the triggers. -/
def overTriggers {M : Type} [AddCommMonoid M] (sc : Scorecard F) (f : TriggerStats F → M) : M :=
  (sc.byTrigger.values.map f).sum

/-- What every card keeps. -/
structure Balanced (sc : Scorecard F) : Prop where
  counts : sc.wins + sc.losses = sc.entries
  points : sc.grossWinPoints + sc.grossLossPoints = sc.totalPoints
  triggerEntries : sc.overTriggers TriggerStats.entries = sc.entries
  triggerPoints : sc.overTriggers TriggerStats.totalPoints = sc.totalPoints

structure LedgersAgree (sc : Scorecard F) : Prop extends Balanced sc where
  gains : 0 ≤ sc.grossWinPoints
  falls : sc.grossLossPoints ≤ 0
  triggerWins : sc.overTriggers TriggerStats.wins = sc.wins
  triggerLosses : sc.overTriggers TriggerStats.losses = sc.losses

/-- What `record` starts with for a new trigger. -/
def newStats : TriggerStats F := { entries := 0, wins := 0, losses := 0, totalPoints := 0 }

/-- What `countTrigger` makes of the ledger of a trigger. -/
def statsAfter (stats : TriggerStats F) (pnl : F) : TriggerStats F :=
  let stats := { stats with entries := stats.entries + 1, totalPoints := stats.totalPoints + pnl }
  if 0 < pnl then { stats with wins := stats.wins + 1 }
  else if pnl < 0 then { stats with losses := stats.losses + 1 }
  else stats

/-- The card after trades, each with its commission. -/
def ofRecords (records : List (SimTrade F × F)) : Scorecard F :=
  records.foldl (fun sc (trade, commissionPoints) => (sc.record trade commissionPoints).1) empty

/-! ### One trade -/

section Record
variable {sc : Scorecard F} {trade : SimTrade F} {commissionPoints pnl : F} {reason : ExitReason} {trigger : String}

theorem countExit_counts : (sc.countExit reason pnl).entries = sc.entries ∧
    (sc.countExit reason pnl).wins = sc.wins + (if Won reason pnl then 1 else 0) ∧
    (sc.countExit reason pnl).losses = sc.losses + if Won reason pnl then 0 else 1 := by
  cases reason with
  | tp => simp [countExit, countWin, Won]
  | sl => simp [countExit, countLoss, Won]
  | timeout => by_cases h : 0 ≤ pnl <;> simp [countExit, countWin, countLoss, Won, h]

theorem countExit_points :
    (sc.countExit reason pnl).grossWinPoints = sc.grossWinPoints + (if Won reason pnl then pnl else 0) ∧
      (sc.countExit reason pnl).grossLossPoints = sc.grossLossPoints + if Won reason pnl then 0 else pnl := by
  cases reason with
  | tp => simp [countExit, countWin, Won]
  | sl => simp [countExit, countLoss, Won]
  | timeout => by_cases h : 0 ≤ pnl <;> simp [countExit, countWin, countLoss, Won, h]

theorem countExit_byTrigger : (sc.countExit reason pnl).byTrigger = sc.byTrigger := by
  cases reason with
  | tp => rfl
  | sl => rfl
  | timeout =>
    simp only [countExit]
    split <;> rfl

/-- What is zero for a new trigger and moves by `d` with a trade moves by `d` over all triggers. -/
theorem overTriggers_countTrigger {M : Type} [AddCancelCommMonoid M] {f : TriggerStats F → M} {d : M}
    (hzero : f newStats = 0) (hadd : ∀ stats, f (statsAfter stats pnl) = f stats + d) :
    (sc.countTrigger trigger pnl).overTriggers f = sc.overTriggers f + d := by
  have hsum := sc.byTrigger.sum_values_set f trigger (statsAfter ((sc.byTrigger.get? trigger).getD newStats) pnl)
  have hold : ((sc.byTrigger.get? trigger).map f).getD 0 = f ((sc.byTrigger.get? trigger).getD newStats) := by
    cases sc.byTrigger.get? trigger with
    | none => exact hzero.symm
    | some stats => rfl
  rw [hadd, hold, ← add_assoc, add_right_comm] at hsum
  exact add_right_cancel hsum

theorem statsAfter_counts (stats : TriggerStats F) : (statsAfter stats pnl).entries = stats.entries + 1 ∧
    (statsAfter stats pnl).totalPoints = stats.totalPoints + pnl ∧
    (statsAfter stats pnl).wins = stats.wins + (if 0 < pnl then 1 else 0) ∧
    (statsAfter stats pnl).losses = stats.losses + if 0 < pnl then 0 else if pnl < 0 then 1 else 0 := by
  unfold statsAfter
  by_cases hpos : 0 < pnl
  · simp [hpos]
  · by_cases hneg : pnl < 0 <;> simp [hpos, hneg]

/-- A trade moves the two ledgers each by its own count. -/
structure Recorded (trade : SimTrade F) (commissionPoints : F) (sc sc' : Scorecard F) : Prop where
  entries : sc'.entries = sc.entries + 1
  wins : sc'.wins = sc.wins + if Won trade.exit.exitReason (trade.pnlPoints - commissionPoints) then 1 else 0
  losses : sc'.losses = sc.losses + if Won trade.exit.exitReason (trade.pnlPoints - commissionPoints) then 0 else 1
  totalPoints : sc'.totalPoints = sc.totalPoints + (trade.pnlPoints - commissionPoints)
  gains : sc'.grossWinPoints = sc.grossWinPoints +
    if Won trade.exit.exitReason (trade.pnlPoints - commissionPoints) then trade.pnlPoints - commissionPoints else 0
  falls : sc'.grossLossPoints = sc.grossLossPoints +
    if Won trade.exit.exitReason (trade.pnlPoints - commissionPoints) then 0 else trade.pnlPoints - commissionPoints
  triggerEntries : sc'.overTriggers TriggerStats.entries = sc.overTriggers TriggerStats.entries + 1
  triggerPoints : sc'.overTriggers TriggerStats.totalPoints =
    sc.overTriggers TriggerStats.totalPoints + (trade.pnlPoints - commissionPoints)
  triggerWins : sc'.overTriggers TriggerStats.wins =
    sc.overTriggers TriggerStats.wins + if 0 < trade.pnlPoints - commissionPoints then 1 else 0
  triggerLosses : sc'.overTriggers TriggerStats.losses = sc.overTriggers TriggerStats.losses +
    if 0 < trade.pnlPoints - commissionPoints then 0 else if trade.pnlPoints - commissionPoints < 0 then 1 else 0

theorem recorded_record (sc : Scorecard F) (trade : SimTrade F) (commissionPoints : F) :
    Recorded trade commissionPoints sc (sc.record trade commissionPoints).1 := by
  have hcounts := @countExit_counts F _ _
    { sc with entries := sc.entries + 1, totalPoints := sc.totalPoints + (trade.pnlPoints - commissionPoints) }
    (trade.pnlPoints - commissionPoints) trade.exit.exitReason
  have hpoints := @countExit_points F _ _
    { sc with entries := sc.entries + 1, totalPoints := sc.totalPoints + (trade.pnlPoints - commissionPoints) }
    (trade.pnlPoints - commissionPoints) trade.exit.exitReason
  have htriggers : ∀ {M : Type} [AddCancelCommMonoid M] {f : TriggerStats F → M} {d : M}, f newStats = 0 →
      (∀ stats, f (statsAfter stats (trade.pnlPoints - commissionPoints)) = f stats + d) →
      (sc.record trade commissionPoints).1.overTriggers f = sc.overTriggers f + d := by
    intro M _ f d hzero hadd
    refine Eq.trans (overTriggers_countTrigger hzero hadd) ?_
    unfold overTriggers trackDrawdown
    dsimp only
    rw [countExit_byTrigger]
  exact ⟨hcounts.1, hcounts.2.1, hcounts.2.2, record_totalPoints, hpoints.1, hpoints.2,
    htriggers rfl fun stats => (statsAfter_counts stats).1, htriggers rfl fun stats => (statsAfter_counts stats).2.1,
    htriggers rfl fun stats => (statsAfter_counts stats).2.2.1, htriggers rfl fun stats => (statsAfter_counts stats).2.2.2⟩

/-- A trade of any kind keeps the balances. -/
theorem Balanced.record (h : sc.Balanced) (trade : SimTrade F) (commissionPoints : F) :
    (sc.record trade commissionPoints).1.Balanced := by
  have hrec := recorded_record sc trade commissionPoints
  refine ⟨?_, ?_, ?_, ?_⟩
  · rw [hrec.wins, hrec.losses, hrec.entries, ← h.counts]
    split <;> omega
  · rw [hrec.gains, hrec.falls, hrec.totalPoints, ← h.points]
    split <;> ring
  · rw [hrec.triggerEntries, hrec.entries, h.triggerEntries]
  · rw [hrec.triggerPoints, hrec.totalPoints, h.triggerPoints]

/-- The signs agree where both ledgers count the trade as won or both as lost. -/
theorem signsAgree_iff : SignsAgree trade commissionPoints ↔
    (Won trade.exit.exitReason (trade.pnlPoints - commissionPoints) ↔ 0 < trade.pnlPoints - commissionPoints) ∧
      trade.pnlPoints - commissionPoints ≠ 0 := by
  unfold SignsAgree Won
  generalize trade.pnlPoints - commissionPoints = pnl
  cases trade.exit.exitReason with
  | tp =>
    simp only [true_iff]
    exact ⟨fun h => ⟨h, h.ne'⟩, fun h => h.1⟩
  | sl =>
    simp only [false_iff, not_lt]
    exact ⟨fun h => ⟨h.le, h.ne⟩, fun h => lt_of_le_of_ne h.1 h.2⟩
  | timeout =>
    refine ⟨fun h => ⟨⟨fun hle => lt_of_le_of_ne hle (Ne.symm h), le_of_lt⟩, h⟩, fun h => h.2⟩

/-! ### Runs -/

theorem ledgersAgree_empty : (empty : Scorecard F).LedgersAgree := by
  refine ⟨⟨?_, ?_, ?_, ?_⟩, ?_, ?_, ?_, ?_⟩ <;> simp [empty, overTriggers, Py.Dict.empty, Py.Dict.values]

theorem ofRecords_concat (records : List (SimTrade F × F)) (r : SimTrade F × F) :
    ofRecords (records ++ [r]) = ((ofRecords records).record r.1 r.2).1 := by
  simp [ofRecords]

/-- In every run the counts and the points balance, and those of the triggers sum up to them. -/
theorem balanced_ofRecords (records : List (SimTrade F × F)) : (ofRecords records).Balanced := by
  induction records using List.reverseRecOn with
  | nil => exact ledgersAgree_empty.toBalanced
  | append_singleton records r ih =>
    rw [ofRecords_concat]
    exact ih.record r.1 r.2

end Record

section Runs
variable [IsStrictOrderedRing F] {sc : Scorecard F} {trade : SimTrade F} {commissionPoints : F}

/-- A trade keeps the ledgers in agreement exactly if its signs agree. -/
theorem LedgersAgree.record_iff (h : sc.LedgersAgree) :
    (sc.record trade commissionPoints).1.LedgersAgree ↔ SignsAgree trade commissionPoints := by
  have hrec := recorded_record sc trade commissionPoints
  rw [signsAgree_iff]
  constructor
  · intro h'
    have hwins := h'.triggerWins
    have hlosses := h'.triggerLosses
    rw [hrec.triggerWins, hrec.wins, h.triggerWins] at hwins
    rw [hrec.triggerLosses, hrec.losses, h.triggerLosses] at hlosses
    rcases lt_trichotomy (trade.pnlPoints - commissionPoints) 0 with hneg | hzero | hpos
    · refine ⟨?_, hneg.ne⟩
      simp only [not_lt.2 hneg.le, if_false] at hwins ⊢
      split at hwins
      · omega
      next hlost => exact iff_of_false hlost id
    · simp only [hzero, lt_irrefl, if_false] at hwins hlosses
      split at hwins <;> simp_all
    · refine ⟨?_, hpos.ne'⟩
      simp only [hpos, if_true] at hwins ⊢
      split at hwins
      next hwon => exact iff_of_true hwon trivial
      · omega
  · rintro ⟨hwon, hne⟩
    refine ⟨h.toBalanced.record trade commissionPoints, ?_, ?_, ?_, ?_⟩
    · rw [hrec.gains]
      split
      next hw => exact add_nonneg h.gains (hwon.1 hw).le
      · simpa using h.gains
    · rw [hrec.falls]
      split
      · simpa using h.falls
      next hlost => exact add_nonpos h.falls (not_lt.1 fun hpos => hlost (hwon.2 hpos))
    · rw [hrec.triggerWins, hrec.wins, h.triggerWins]
      simp only [hwon]
    · rw [hrec.triggerLosses, hrec.losses, h.triggerLosses]
      by_cases hpos : 0 < trade.pnlPoints - commissionPoints
      · simp [hwon, hpos]
      · simp [hwon, hpos, lt_of_le_of_ne (not_lt.1 hpos) hne]

/-- The ledgers agree in every state of a run exactly if the signs of every trade agree. -/
theorem ledgersAgree_iff (records : List (SimTrade F × F)) :
    (∀ n, (ofRecords (records.take n)).LedgersAgree) ↔ ∀ r ∈ records, SignsAgree r.1 r.2 := by
  constructor
  · intro h r hr
    obtain ⟨n, hn⟩ := List.mem_iff_getElem?.1 hr
    have hnext := h (n + 1)
    rw [List.take_add_one, hn, Option.toList_some, ofRecords_concat, (h n).record_iff] at hnext
    exact hnext
  · intro h n
    induction n with
    | zero => exact ledgersAgree_empty
    | succ n ih =>
      rw [List.take_add_one]
      rcases hr : records[n]? with _ | r
      · simpa using ih
      · rw [Option.toList_some, ofRecords_concat, ih.record_iff]
        exact h r (List.mem_of_getElem? hr)

end Runs

/-! A long that leaves at its target a quarter of a point above its entry, and one that times out at its entry. -/

def sampleEntry : Entry ℚ where
  signalId := "sim-0-0"
  trigger := "ema_cross"
  direction := "long"
  entryTime := 0
  entryPrice := 100
  stopLoss := 95
  takeProfit := 101
  confidence := 1/2

def sampleTarget : SimTrade ℚ := ⟨sampleEntry, ⟨300, 101 - 1/4, .tp⟩⟩

def sampleStop : SimTrade ℚ := ⟨sampleEntry, ⟨300, 95 - 1/4, .sl⟩⟩

theorem ledgersAgree_iff_target : (ofRecords ([(sampleTarget, 1/2), (sampleStop, 1/2)].take 2)).LedgersAgree :=
  (ledgersAgree_iff [(sampleTarget, 1/2), (sampleStop, 1/2)]).2 (by
    simp only [List.forall_mem_cons]
    refine ⟨?_, ?_, ?_⟩ <;> simp [SignsAgree, SimTrade.pnlPoints, sampleTarget, sampleStop, sampleEntry] <;> norm_num) 2

def smallGain : SimTrade ℚ := ⟨sampleEntry, ⟨300, 100 + 1/4, .tp⟩⟩

def breakEven : SimTrade ℚ := ⟨sampleEntry, ⟨10800, 100, .timeout⟩⟩

theorem not_ledgersAgree : (∃ n, ¬ (ofRecords ([(smallGain, 1)].take n)).LedgersAgree) ∧
    ∃ n, ¬ (ofRecords ([(breakEven, 0)].take n)).LedgersAgree := by
  refine ⟨⟨1, fun h => ?_⟩, ⟨1, fun h => ?_⟩⟩
  · exact absurd h.gains (by decide +kernel)
  · exact absurd h.triggerWins (by decide +kernel)

end Scorecard

end PearlAlgo.ReplayHarness
