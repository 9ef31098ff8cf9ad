import PearlAlgo.Backtesting.TradeConservation

/-!
# Feasible trade records of a backtest

An exit at the stop or the target has the level itself for its price, wherever the bar is, and the extremes of a trade are
those of the bars that have not closed it. `feasible_iff` says in which runs every recorded exit is a price of its bar and
every recorded excursion covers the move of its trade.
-/

namespace PearlAlgo
open Py

/-- `round(x, 4)` -/
def roundPoints (x : ℚ) : ℚ := roundHalfEven (x * 10000) / 10000

/-- A bar of a series: the open and the close are between the low and the high. -/
structure TimedBar.Ordered (b : TimedBar) : Prop where
  low_open : b.low ≤ b.opening
  open_high : b.opening ≤ b.high
  low_close : b.low ≤ b.close
  close_high : b.close ≤ b.high

/-- The reported excursions cover the reported move. -/
def BacktestResult.Covered (r : BacktestResult) : Prop := max 0 r.pnlPoints ≤ r.mfePoints ∧ max 0 (-r.pnlPoints) ≤ r.maePoints

instance : DecidablePred BacktestResult.Covered := fun _ => instDecidableAnd

instance : DecidablePred TimedBar.Ordered := fun b =>
  decidable_of_iff (b.low ≤ b.opening ∧ b.opening ≤ b.high ∧ b.low ≤ b.close ∧ b.close ≤ b.high)
    ⟨fun h => ⟨h.1, h.2.1, h.2.2.1, h.2.2.2⟩, fun h => ⟨h.low_open, h.open_high, h.low_close, h.close_high⟩⟩

/-- An exit at the stop or the target is at a price of its bar, and the excursions cover the move. -/
def BacktestEvent.Feasible (bars : List TimedBar) : BacktestEvent → Prop
  | .closed _ r i => (r.exitReason ≠ .endOfData → ∀ bar ∈ bars[i]?, bar.low ≤ r.exitPrice ∧ r.exitPrice ≤ bar.high) ∧ r.Covered
  | .considered _ | .opened _ | .told _ => True

instance (bars : List TimedBar) : DecidablePred (BacktestEvent.Feasible bars)
  | .closed _ r i => inferInstanceAs (Decidable
      ((r.exitReason ≠ .endOfData → ∀ bar ∈ bars[i]?, bar.low ≤ r.exitPrice ∧ r.exitPrice ≤ bar.high) ∧ r.Covered))
  | .considered _ => .isTrue trivial
  | .opened _ => .isTrue trivial
  | .told _ => .isTrue trivial

/-- What a run records is feasible: its exits at the stop or the target are at prices of their bars, and the excursions of
every result cover its move. -/
structure BacktestState.Feasible {γ : Type} (bars : List TimedBar) (s : BacktestState γ) : Prop where
  inRange : ∀ id r i, .closed id r i ∈ s.log → r.exitReason ≠ .endOfData →
    ∀ bar ∈ bars[i]?, bar.low ≤ r.exitPrice ∧ r.exitPrice ≤ bar.high
  covered : ∀ r ∈ s.results, r.Covered

namespace OpenBacktestTrade

/-- Up to four decimals, the trade has seen this price on a bar that has not closed it, or at its entry. -/
def Seen (t : OpenBacktestTrade) (price : ℚ) : Prop :=
  roundPoints (price - t.entryPrice) ≤ roundPoints (t.maxPrice - t.entryPrice) ∧
    roundPoints (t.entryPrice - price) ≤ roundPoints (t.entryPrice - t.minPrice)

/-- Where the bar touches the stop of the trade, which it may itself have trailed, its range reaches back to it, and the
trade has seen that price before; the same of the target, where only that is touched. -/
structure FairExit (cfg : TrailingStopConfig) (bar : TimedBar) (t : OpenBacktestTrade) : Prop where
  stop : t.direction.le (bar.against t.direction) (t.trailed cfg bar).stopLoss →
    t.direction.le (t.trailed cfg bar).stopLoss (bar.range.favorable t.direction) ∧ t.Seen (t.trailed cfg bar).stopLoss
  target : ¬ t.direction.le (bar.against t.direction) (t.trailed cfg bar).stopLoss →
    t.direction.le t.takeProfit (bar.range.favorable t.direction) →
      t.direction.le (bar.against t.direction) t.takeProfit ∧ t.Seen t.takeProfit

instance (price : ℚ) : DecidablePred fun t : OpenBacktestTrade => t.Seen price := fun _ => instDecidableAnd

instance (cfg : TrailingStopConfig) (bar : TimedBar) : DecidablePred (FairExit cfg bar) := fun t =>
  decidable_of_iff ((t.direction.le (bar.against t.direction) (t.trailed cfg bar).stopLoss →
      t.direction.le (t.trailed cfg bar).stopLoss (bar.range.favorable t.direction) ∧ t.Seen (t.trailed cfg bar).stopLoss) ∧
    (¬ t.direction.le (bar.against t.direction) (t.trailed cfg bar).stopLoss →
      t.direction.le t.takeProfit (bar.range.favorable t.direction) →
        t.direction.le (bar.against t.direction) t.takeProfit ∧ t.Seen t.takeProfit))
    ⟨fun h => ⟨h.1, h.2⟩, fun h => ⟨h.stop, h.target⟩⟩

/-- The extremes of a trade are about its entry. -/
structure AboutEntry (t : OpenBacktestTrade) : Prop where
  min_le : t.minPrice ≤ t.entryPrice
  le_max : t.entryPrice ≤ t.maxPrice

/-! ### One result -/

variable {t : OpenBacktestTrade} {price : ℚ}

theorem roundPoints_mono {x y : ℚ} (h : x ≤ y) : roundPoints x ≤ roundPoints y := by
  have hround := roundHalfEven_mono (mul_le_mul_of_nonneg_right h (by norm_num : (0 : ℚ) ≤ 10000))
  unfold roundPoints
  have hcast : ((roundHalfEven (x * 10000) : ℤ) : ℚ) ≤ (roundHalfEven (y * 10000) : ℤ) := by exact_mod_cast hround
  linarith

theorem roundPoints_neg (x : ℚ) : roundPoints (-x) = -roundPoints x := by
  rw [roundPoints, roundPoints, neg_mul, roundHalfEven_neg, Int.cast_neg, neg_div]

@[simp] theorem roundPoints_zero : roundPoints 0 = 0 := by
  simpa [roundPoints] using roundHalfEven_intCast 0

theorem roundPoints_nonneg {x : ℚ} (h : 0 ≤ x) : 0 ≤ roundPoints x := by
  simpa using roundPoints_mono h

theorem seen_of_mem (hmin : t.minPrice ≤ price) (hmax : price ≤ t.maxPrice) : t.Seen price :=
  ⟨roundPoints_mono (by linarith), roundPoints_mono (by linarith)⟩

/-- The excursions of a record cover its move exactly if the trade has seen the exit price. -/
theorem covered_iff (h : t.AboutEntry) (pointValue : ℚ) (i : Nat) (time : ℚ) (reason : ExitReason) :
    (t.result pointValue i price time reason).Covered ↔ t.Seen price := by
  have hmax : 0 ≤ roundPoints (t.maxPrice - t.entryPrice) := roundPoints_nonneg (sub_nonneg.2 h.le_max)
  have hmin : 0 ≤ roundPoints (t.entryPrice - t.minPrice) := roundPoints_nonneg (sub_nonneg.2 h.min_le)
  have hflip : roundPoints (price - t.entryPrice) = -roundPoints (t.entryPrice - price) := by
    rw [← roundPoints_neg, neg_sub]
  unfold BacktestResult.Covered Seen result
  cases hside : t.direction with
  | long =>
    show max 0 (roundPoints (price - t.entryPrice)) ≤ roundPoints (t.maxPrice - t.entryPrice) ∧
      max 0 (-roundPoints (price - t.entryPrice)) ≤ roundPoints (t.entryPrice - t.minPrice) ↔ _
    rw [max_le_iff, max_le_iff, hflip, neg_neg]
    simp only [hmax, hmin, true_and]
  | short =>
    show max 0 (roundPoints (t.entryPrice - price)) ≤ roundPoints (t.entryPrice - t.minPrice) ∧
      max 0 (-roundPoints (t.entryPrice - price)) ≤ roundPoints (t.maxPrice - t.entryPrice) ↔ _
    rw [max_le_iff, max_le_iff, ← hflip]
    simp only [hmax, hmin, true_and]
    exact and_comm

/-! ### One trade at one bar -/

variable {cfg : TrailingStopConfig} {bar : TimedBar}

theorem trailed_entryPrice : (t.trailed cfg bar).entryPrice = t.entryPrice := by
  obtain ⟨stop, best, name, heq⟩ := BacktestSetup.trail_eq cfg t.toBacktestTrade bar.range
  unfold trailed
  rw [heq]

theorem seen_trailed : (t.trailed cfg bar).Seen price ↔ t.Seen price := by
  unfold Seen
  rw [trailed_entryPrice]
  rfl

theorem AboutEntry.trailed (h : t.AboutEntry) : (t.trailed cfg bar).AboutEntry := by
  refine ⟨?_, ?_⟩
  · rw [trailed_entryPrice]
    exact h.min_le
  · rw [trailed_entryPrice]
    exact h.le_max

theorem AboutEntry.tracked (h : t.AboutEntry) : (t.tracked bar).AboutEntry :=
  ⟨(min_le_left _ _).trans h.min_le, h.le_max.trans (le_max_left _ _)⟩

/-- The range of a bar, from the side of a position. -/
theorem between_iff (side : PositionSide) :
    bar.low ≤ price ∧ price ≤ bar.high ↔ side.le (bar.against side) price ∧ side.le price (bar.range.favorable side) := by
  cases side with
  | long => rfl
  | short => exact and_comm

theorem closed_feasible {bars : List TimedBar} {i : Nat} {reason : ExitReason} (hbar : bars[i]? = some bar)
    (h : t.AboutEntry) (hreason : reason ≠ .endOfData) (pointValue time : ℚ) (id : TradeId) :
    BacktestEvent.Feasible bars (.closed id (t.result pointValue i price time reason) i) ↔
      (t.direction.le (bar.against t.direction) price ∧ t.direction.le price (bar.range.favorable t.direction)) ∧
        t.Seen price := by
  rw [← between_iff, ← covered_iff h pointValue i time reason]
  show (reason ≠ .endOfData → ∀ b ∈ bars[i]?, b.low ≤ price ∧ price ≤ b.high) ∧ _ ↔ _
  rw [hbar]
  simp only [Option.mem_def, Option.some.injEq, forall_eq']
  exact and_congr_left fun _ => forall_prop_of_true hreason

/-- What the bar records of the trade is feasible exactly if its exit is fair. -/
theorem exitAt_feasible {bars : List TimedBar} {i : Nat} (hbar : bars[i]? = some bar) (h : t.AboutEntry) (pointValue : ℚ)
    (id : TradeId) :
    (∀ e ∈ (t.trailed cfg bar).exitAt bar, BacktestEvent.Feasible bars
      (.closed id ((t.trailed cfg bar).result pointValue i e.2 bar.timestamp e.1) i)) ↔ t.FairExit cfg bar := by
  have hside : (t.trailed cfg bar).direction = t.direction := BacktestSetup.trail_direction ..
  have hclosed := fun reason price (hreason : reason ≠ ExitReason.endOfData) =>
    @closed_feasible (t.trailed cfg bar) price bar bars i reason hbar h.trailed hreason pointValue bar.timestamp id
  simp only [hside, seen_trailed] at hclosed
  unfold exitAt
  rw [hside]
  split
  next hstop =>
    simp only [Option.mem_def, Option.some.injEq, forall_eq']
    rw [hclosed _ _ (by simp)]
    refine ⟨fun hfair => ⟨fun _ => ⟨hfair.1.2, hfair.2⟩, fun hnot => absurd hstop hnot⟩, fun hfair => ?_⟩
    obtain ⟨hreach, hseen⟩ := hfair.stop hstop
    exact ⟨⟨hstop, hreach⟩, hseen⟩
  next hstop =>
    split
    next htarget =>
      simp only [Option.mem_def, Option.some.injEq, forall_eq']
      rw [hclosed _ _ (by simp)]
      refine ⟨fun hfair => ⟨fun hnot => absurd hnot hstop, fun _ _ => ⟨hfair.1.1, hfair.2⟩⟩, fun hfair => ?_⟩
      obtain ⟨hreach, hseen⟩ := hfair.target hstop htarget
      exact ⟨⟨hreach, htarget⟩, hseen⟩
    next htarget =>
      simp only [Option.mem_def, reduceCtorEq, false_imp_iff, implies_true, true_iff]
      exact ⟨fun hnot => absurd hnot hstop, fun _ hnot => absurd hnot htarget⟩

end OpenBacktestTrade

/-! ### The log of a run -/

def FeasibleLog (bars : List TimedBar) (log : List BacktestEvent) : Prop := ∀ e ∈ log, e.Feasible bars

theorem feasibleLog_concat {bars : List TimedBar} {log : List BacktestEvent} {e : BacktestEvent} :
    FeasibleLog bars (log ++ [e]) ↔ FeasibleLog bars log ∧ e.Feasible bars := by
  unfold FeasibleLog
  rw [List.forall_mem_append, List.forall_mem_singleton]

namespace BacktestSetup
variable {γ : Type} {setup : BacktestSetup} {env : BacktestEnv} {bars : List TimedBar} {bar : TimedBar} {i : Nat}
  {s : BacktestState γ}

theorem close_feasible {t : OpenBacktestTrade} {r : BacktestResult} :
    FeasibleLog bars (setup.close i t r s).log ↔
      FeasibleLog bars s.log ∧ BacktestEvent.Feasible bars (.closed t.tradeId r i) := by
  unfold close
  rcases setup.breaker with _ | c
  · exact feasibleLog_concat
  · refine feasibleLog_concat.trans ?_
    rw [feasibleLog_concat]
    exact and_iff_left trivial

theorem exitStep_feasible {t : OpenBacktestTrade} (hbar : bars[i]? = some bar) (h : t.AboutEntry)
    (acc : BacktestState γ × List OpenBacktestTrade) :
    FeasibleLog bars (setup.exitStep i bar acc t).1.log ↔
      FeasibleLog bars acc.1.log ∧ t.FairExit setup.trailing bar := by
  rw [← OpenBacktestTrade.exitAt_feasible hbar h setup.pointValue (t.trailed setup.trailing bar).tradeId]
  unfold exitStep
  dsimp only
  rcases (t.trailed setup.trailing bar).exitAt bar with _ | ⟨reason, price⟩
  · simp
  · rw [close_feasible]
    simp

/-- The exits of a bar are feasible exactly if they are fair for each of the open trades. -/
theorem exits_feasible (hbar : bars[i]? = some bar) (h : ∀ t ∈ s.openTrades, t.AboutEntry) :
    FeasibleLog bars (setup.exits i bar s).log ↔
      FeasibleLog bars s.log ∧ ∀ t ∈ s.openTrades, t.FairExit setup.trailing bar := by
  suffices hfold : ∀ (ts : List OpenBacktestTrade) (acc : BacktestState γ × List OpenBacktestTrade),
      (∀ t ∈ ts, t.AboutEntry) → (FeasibleLog bars (ts.foldl (setup.exitStep i bar) acc).1.log ↔
        FeasibleLog bars acc.1.log ∧ ∀ t ∈ ts, t.FairExit setup.trailing bar) from hfold s.openTrades (s, []) h
  intro ts
  induction ts with
  | nil => simp
  | cons t ts ih =>
    intro acc hts
    obtain ⟨ht, hts⟩ := List.forall_mem_cons.1 hts
    rw [List.foldl_cons, ih _ hts, exitStep_feasible hbar ht, List.forall_mem_cons, and_assoc]

/-- A trade that stays open is an earlier one, trailed and tracked. -/
theorem mem_exits {t : OpenBacktestTrade} (h : t ∈ (setup.exits i bar s).openTrades) :
    ∃ t₀ ∈ s.openTrades, t = (t₀.trailed setup.trailing bar).tracked bar := by
  suffices hfold : ∀ (ts : List OpenBacktestTrade) (acc : BacktestState γ × List OpenBacktestTrade),
      t ∈ (ts.foldl (setup.exitStep i bar) acc).2 →
        t ∈ acc.2 ∨ ∃ t₀ ∈ ts, t = (t₀.trailed setup.trailing bar).tracked bar by
    rcases hfold s.openTrades (s, []) h with hnil | hmem
    · cases hnil
    · exact hmem
  intro ts
  induction ts with
  | nil => exact fun _ hmem => .inl hmem
  | cons t₀ ts ih =>
    intro acc hmem
    rcases ih _ hmem with hmem | ⟨t₁, ht₁, heq⟩
    · unfold exitStep at hmem
      dsimp only at hmem
      split at hmem
      · exact .inl hmem
      · rcases List.mem_append.1 hmem with hmem | hmem
        · exact .inl hmem
        · exact .inr ⟨t₀, List.mem_cons_self .., List.mem_singleton.1 hmem⟩
    · exact .inr ⟨t₁, List.mem_cons_of_mem _ ht₁, heq⟩

/-! ### The signals of a bar -/

/-- What the signals of a bar do: they log nothing that could be infeasible, and open trades of their own bar. -/
structure Grown (bars : List TimedBar) (i : Nat) (s s' : BacktestState γ) : Prop where
  log : FeasibleLog bars s'.log ↔ FeasibleLog bars s.log
  opened : ∀ t ∈ s'.openTrades, t ∈ s.openTrades ∨ t.AboutEntry ∧ t.entryBarIdx = i

theorem Grown.refl (s : BacktestState γ) : Grown bars i s s := ⟨Iff.rfl, fun _ h => .inl h⟩

theorem Grown.trans {s₁ s₂ s₃ : BacktestState γ} (h₁ : Grown bars i s₁ s₂) (h₂ : Grown bars i s₂ s₃) :
    Grown bars i s₁ s₃ := by
  refine ⟨h₂.log.trans h₁.log, fun t ht => ?_⟩
  rcases h₂.opened t ht with ht | hnew
  · exact h₁.opened t ht
  · exact .inr hnew

theorem entryDecision_grown (setup : BacktestSetup) (env : BacktestEnv) (window : List TimedBar) (sig : BacktestSignal)
    (s : BacktestState γ) : Grown bars i s (setup.entryDecision env i bar window sig s) := by
  unfold entryDecision
  dsimp only
  split
  · exact ⟨Iff.rfl, fun _ h => .inl h⟩
  · rcases hask : setup.askBreaker env bar sig s with ⟨allowed, s'⟩
    obtain ⟨hopen, hlog, -⟩ := askBreaker_same hask
    have hs' : Grown bars i s s' := ⟨by rw [hlog], fun t ht => .inl (by rwa [hopen] at ht)⟩
    cases allowed with
    | true =>
      refine hs'.trans ⟨feasibleLog_concat.trans (and_iff_left trivial), fun t ht => ?_⟩
      rcases List.mem_append.1 ht with ht | ht
      · exact .inl ht
      · obtain rfl := List.mem_singleton.1 ht
        exact .inr ⟨⟨le_rfl, le_rfl⟩, rfl⟩
    | false => exact hs'.trans ⟨Iff.rfl, fun _ h => .inl h⟩

theorem signalStep_grown (setup : BacktestSetup) (env : BacktestEnv) (window : List TimedBar) (sig : BacktestSignal)
    (s : BacktestState γ) : Grown bars i s (setup.signalStep env i bar window s sig) := by
  have hnoted : Grown bars i s
      { s with totalSignalsGenerated := s.totalSignalsGenerated + 1, log := s.log ++ [.considered sig] } :=
    ⟨feasibleLog_concat.trans (and_iff_left trivial), fun _ h => .inl h⟩
  unfold signalStep
  dsimp only
  split
  · exact hnoted
  · split
    · exact hnoted
    · exact hnoted.trans (entryDecision_grown ..)

/-! ### The loop -/

/-- The invariant of the loop for a trade that is open before bar `n`: it was opened at the bar before, or its extremes
cover that bar. -/
structure Watched (bars : List TimedBar) (n : Nat) (t : OpenBacktestTrade) : Prop where
  about : t.AboutEntry
  last : t.entryBarIdx + 1 = n ∨ ∀ bar ∈ bars[n - 1]?, t.minPrice ≤ bar.low ∧ bar.high ≤ t.maxPrice

theorem barStep_feasible (setup : BacktestSetup) (env : BacktestEnv) (gen : Generator γ)
    (hbar : bars[i]? = some bar) (h : ∀ t ∈ s.openTrades, t.AboutEntry) :
    (FeasibleLog bars (setup.barStep env gen bars i bar s).log ↔
        FeasibleLog bars s.log ∧ ∀ t ∈ s.openTrades, t.FairExit setup.trailing bar) ∧
      ∀ t ∈ (setup.barStep env gen bars i bar s).openTrades, Watched bars (i + 1) t := by
  have hgrown : Grown bars i (setup.exits i bar s) (setup.barStep env gen bars i bar s) := by
    unfold barStep
    dsimp only
    generalize setup.exits i bar s = s₁
    rcases gen s₁.generator (setup.window bars i) bar.timestamp (setup.sig5m bar) with ⟨generator, signals⟩
    have hgen : Grown bars i s₁ { s₁ with generator := generator } := ⟨Iff.rfl, fun _ h => .inl h⟩
    rcases signals with _ | signals
    · exact hgen
    · dsimp only
      refine hgen.trans ?_
      generalize { s₁ with generator := generator } = s₂
      induction signals generalizing s₂ with
      | nil => exact .refl s₂
      | cons sig signals ih => exact (signalStep_grown ..).trans (ih _)
  refine ⟨hgrown.log.trans (exits_feasible hbar h), fun t ht => ?_⟩
  rcases hgrown.opened t ht with ht | ⟨habout, hnew⟩
  · obtain ⟨t₀, ht₀, rfl⟩ := mem_exits ht
    refine ⟨(h t₀ ht₀).trailed.tracked, .inr fun b hb => ?_⟩
    rw [Nat.add_sub_cancel, hbar] at hb
    obtain rfl := Option.some.inj hb
    exact ⟨min_le_right _ _, le_max_right _ _⟩
  · exact ⟨habout, .inl (by rw [hnew])⟩

/-- A run is feasible so far exactly if the exits of its bars were fair, and its open trades are watched. -/
theorem loop_feasible (setup : BacktestSetup) (env : BacktestEnv) (gen : Generator γ) (bars : List TimedBar)
    (generator : γ) (n : Nat) :
    (FeasibleLog bars (setup.loop env gen bars generator n).log ↔
        ∀ i < n, ∀ bar ∈ bars[i]?, ∀ t ∈ (setup.loop env gen bars generator i).openTrades, t.FairExit setup.trailing bar) ∧
      ∀ t ∈ (setup.loop env gen bars generator n).openTrades, Watched bars n t := by
  have hstart : ∀ m ≤ setup.windowSize, setup.loop env gen bars generator m = setup.start generator := by
    intro m hm
    unfold loop
    rw [Nat.sub_eq_zero_of_le hm]
    rfl
  induction n with
  | zero =>
    rw [hstart 0 (Nat.zero_le _)]
    simp [FeasibleLog, start]
  | succ n ih =>
    obtain ⟨hlog, hopen⟩ := ih
    by_cases hn : setup.windowSize ≤ n
    · rw [loop_succ, if_pos hn]
      have hsplit : (∀ i < n + 1, ∀ bar ∈ bars[i]?, ∀ t ∈ (setup.loop env gen bars generator i).openTrades,
          t.FairExit setup.trailing bar) ↔ (∀ i < n, ∀ bar ∈ bars[i]?,
            ∀ t ∈ (setup.loop env gen bars generator i).openTrades, t.FairExit setup.trailing bar) ∧
          ∀ bar ∈ bars[n]?, ∀ t ∈ (setup.loop env gen bars generator n).openTrades, t.FairExit setup.trailing bar := by
        simp only [Nat.lt_succ_iff_lt_or_eq, or_imp, forall_and, forall_eq]
      rw [hsplit, ← hlog]
      unfold indexStep
      rcases hbar : bars[n]? with _ | bar
      · refine ⟨by simp, fun t ht => ⟨(hopen t ht).about, .inr fun b hb => ?_⟩⟩
        rw [Nat.add_sub_cancel, hbar] at hb
        cases hb
      · have hstep := barStep_feasible setup env gen hbar fun t ht => (hopen t ht).about
        refine ⟨hstep.1.trans ?_, hstep.2⟩
        simp
    · rw [hstart (n + 1) (by omega)]
      refine ⟨iff_of_true (fun e he => by cases he) ?_, fun t ht => by cases ht⟩
      intro i hi bar _ t ht
      rw [hstart i (by omega)] at ht
      cases ht

/-! ### The end of the data -/

theorem finish_feasible {ts : List OpenBacktestTrade} (h : ∀ t ∈ ts, t.AboutEntry) :
    FeasibleLog bars (ts.foldl (setup.endStep i bar) s).log ↔ FeasibleLog bars s.log ∧ ∀ t ∈ ts, t.Seen bar.close := by
  induction ts generalizing s with
  | nil => simp
  | cons t ts ih =>
    obtain ⟨ht, hts⟩ := List.forall_mem_cons.1 h
    rw [List.foldl_cons, ih hts, List.forall_mem_cons, ← and_assoc]
    refine and_congr_left fun _ => feasibleLog_concat.trans (and_congr_right fun _ => ?_)
    rw [← OpenBacktestTrade.covered_iff ht setup.pointValue i bar.timestamp .endOfData]
    exact and_iff_right fun hnot => absurd rfl hnot

/-- In which runs the exits of the bars were fair, and what was opened at the last bar has seen its close. -/
structure FairRun (setup : BacktestSetup) (env : BacktestEnv) (gen : Generator γ) (bars : List TimedBar) (generator : γ) :
    Prop where
  exits : ∀ i < bars.length, ∀ bar ∈ bars[i]?, ∀ t ∈ (setup.loop env gen bars generator i).openTrades,
    t.FairExit setup.trailing bar
  opened : ∀ bar ∈ bars.getLast?, ∀ t ∈ (setup.loop env gen bars generator bars.length).openTrades,
    t.entryBarIdx + 1 = bars.length → t.Seen bar.close

theorem feasible_iff_log (h : s.results = s.log.filterMap BacktestEvent.result?) :
    s.Feasible bars ↔ FeasibleLog bars s.log := by
  refine ⟨fun hs e he => ?_, fun hlog => ⟨fun id r i hmem => (hlog _ hmem).1, fun r hr => ?_⟩⟩
  · cases e with
    | closed id r i =>
      refine ⟨hs.inRange id r i he, hs.covered r ?_⟩
      rw [h]
      exact List.mem_filterMap.2 ⟨_, he, rfl⟩
    | considered sig => trivial
    | opened t => trivial
    | told t => trivial
  · rw [h] at hr
    obtain ⟨e, he, hresult⟩ := List.mem_filterMap.1 hr
    cases e with
    | closed id r' i =>
      cases hresult
      exact (hlog _ he).2
    | considered sig => cases hresult
    | opened t => cases hresult
    | told t => cases hresult

theorem runBacktest_results (setup : BacktestSetup) (env : BacktestEnv) (gen : Generator γ) (bars : List TimedBar)
    (generator : γ) : (setup.runBacktest env gen bars generator).results =
      (setup.runBacktest env gen bars generator).log.filterMap BacktestEvent.result? := by
  have hloop := loop_accounted setup env gen bars generator bars.length bars.length
  unfold runBacktest finish
  rcases hlast : bars.getLast? with _ | bar
  · exact hloop.results
  · have hne : 0 < bars.length := List.length_pos_of_mem (List.mem_of_getLast? hlast)
    exact (finish_accounted (by omega) hloop).results

/-- Exactly in the fair runs, everything that a backtest records is feasible. -/
theorem runBacktest_feasible_iff (setup : BacktestSetup) (env : BacktestEnv) (gen : Generator γ) (bars : List TimedBar)
    (generator : γ) (hbars : ∀ bar ∈ bars, bar.Ordered) :
    (setup.runBacktest env gen bars generator).Feasible bars ↔ setup.FairRun env gen bars generator := by
  obtain ⟨hlog, hopen⟩ := loop_feasible setup env gen bars generator bars.length
  rw [feasible_iff_log (runBacktest_results ..)]
  suffices hfinish : FeasibleLog bars (setup.runBacktest env gen bars generator).log ↔
      FeasibleLog bars (setup.loop env gen bars generator bars.length).log ∧ ∀ bar ∈ bars.getLast?,
        ∀ t ∈ (setup.loop env gen bars generator bars.length).openTrades, t.entryBarIdx + 1 = bars.length → t.Seen bar.close by
    rw [hfinish, hlog]
    exact ⟨fun h => ⟨h.1, h.2⟩, fun h => ⟨h.exits, h.opened⟩⟩
  unfold runBacktest finish
  rcases hlast : bars.getLast? with _ | bar
  · simp
  · refine (finish_feasible fun t ht => (hopen t ht).about).trans (and_congr_right fun _ => ?_)
    refine ⟨fun h b hb t ht _ => ?_, fun h t ht => ?_⟩
    · obtain rfl := Option.some.inj hb
      exact h t ht
    · -- a trade that was not opened at the last bar has seen all of it
      rcases (hopen t ht).last with hnew | hseen
      · exact h bar rfl t ht hnew
      · have hord := hbars bar (List.mem_of_getLast? hlast)
        rw [List.getLast?_eq_getElem?] at hlast
        obtain ⟨hlow, hhigh⟩ := hseen bar hlast
        exact OpenBacktestTrade.seen_of_mem (hlow.trans hord.low_close) (hord.close_high.trans hhigh)

/-- A long is entered at 100, its stop is trailed to the entry and 0.25 in the next bar, and the third bar opens below it. -/
def gapSetup : BacktestSetup :=
  { windowSize := 0, enableTod := false, trailing := { enabled := true, rawPhases := [⟨"breakeven", 1, 0⟩] } }

def gapEnv : BacktestEnv := { simTime := fun t => { clock := ⟨t, 0, 0⟩, secondsEt := 0, yday := 0 } }

def gapSignals : Generator Unit := fun _ _ time _ =>
  ((), some (if time = 0 then [{ direction := .long, entryPrice := 100, stopLoss := 95, takeProfit := 110 }] else []))

def gapBars : List TimedBar :=
  [{ opening := 100, high := 101, low := 99, close := 100, volume := 1, timestamp := 0 },
   { opening := 101, high := 102, low := 101, close := 102, volume := 1, timestamp := 60 },
   { opening := 97, high := 98, low := 96, close := 97, volume := 1, timestamp := 120 }]

theorem gap_infeasible : ∃ (setup : BacktestSetup) (env : BacktestEnv) (gen : Generator Unit) (bars : List TimedBar),
    (∀ bar ∈ bars, bar.Ordered) ∧ ¬ (setup.runBacktest env gen bars ()).Feasible bars := by
  refine ⟨gapSetup, gapEnv, gapSignals, gapBars, by decide +kernel, fun h => ?_⟩
  have hlog := (feasible_iff_log (runBacktest_results gapSetup gapEnv gapSignals gapBars ())).1 h
  exact absurd hlog (show ¬ ∀ e ∈ (gapSetup.runBacktest gapEnv gapSignals gapBars ()).log, e.Feasible gapBars by decide +kernel)

/-- Where the third bar reaches back to the stop, the record is feasible. -/
theorem pullback_feasible : ∃ bars : List TimedBar,
    (gapSetup.runBacktest gapEnv gapSignals bars ()).results.length = 1 ∧
      (gapSetup.runBacktest gapEnv gapSignals bars ()).Feasible bars := by
  refine ⟨gapBars.take 2 ++
    [{ opening := 101, high := 101, low := 100, close := 100, volume := 1, timestamp := 120 }], by decide +kernel, ?_⟩
  refine (runBacktest_feasible_iff gapSetup gapEnv gapSignals _ () (by decide +kernel)).2 ⟨?_, ?_⟩
  · decide +kernel
  · decide +kernel

end BacktestSetup

end PearlAlgo
