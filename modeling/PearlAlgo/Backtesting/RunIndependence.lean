import PearlAlgo.Backtesting.GeneratorGlobals

/-!
# Independence of the runs of a process

Runs of `run_backtest` one after the other, as in a comparison or a parameter sweep, pass the globals of the signal
generator on. `reports_of_unaffected` says when every run reports what it would report in a fresh process.
-/

namespace PearlAlgo
open Py SignalGenerator

/-! ### Two runs of the loop -/

def BacktestState.withGenerator {γ : Type} (g : γ) (s : BacktestState γ) : BacktestState γ :=
  { s with generator := g }

namespace BacktestSetup
variable {γ : Type} {env : BacktestEnv} {setup : BacktestSetup} {gen : Generator γ} {bars : List TimedBar}
  {bar : TimedBar} {i : Nat} {g f : γ}

theorem close_withGenerator {t : OpenBacktestTrade} {r : BacktestResult} (s : BacktestState γ) :
    setup.close i t r (s.withGenerator g) = (setup.close i t r s).withGenerator g := by
  unfold close
  rcases setup.breaker with _ | c
  · rfl
  · rfl

theorem exits_withGenerator (s : BacktestState γ) :
    setup.exits i bar (s.withGenerator g) = (setup.exits i bar s).withGenerator g := by
  have hfold : ∀ (ts stillOpen : List OpenBacktestTrade) (s : BacktestState γ),
      ts.foldl (setup.exitStep i bar) (s.withGenerator g, stillOpen) =
        ((ts.foldl (setup.exitStep i bar) (s, stillOpen)).1.withGenerator g,
          (ts.foldl (setup.exitStep i bar) (s, stillOpen)).2) := by
    intro ts
    induction ts with
    | nil => exact fun _ _ => rfl
    | cons t ts ih =>
      intro stillOpen s
      rw [List.foldl_cons, List.foldl_cons]
      unfold exitStep
      dsimp only
      rcases (t.trailed setup.trailing bar).exitAt bar with _ | ⟨reason, price⟩
      · exact ih _ s
      · dsimp only
        rw [close_withGenerator]
        exact ih stillOpen _
  unfold exits
  dsimp only
  rw [show (s.withGenerator g).openTrades = s.openTrades from rfl, hfold]
  rfl

theorem askBreaker_withGenerator {sig : BacktestSignal} (s : BacktestState γ) :
    setup.askBreaker env bar sig (s.withGenerator g) =
      ((setup.askBreaker env bar sig s).1, (setup.askBreaker env bar sig s).2.withGenerator g) := by
  unfold askBreaker
  rcases setup.breaker with _ | c
  · rfl
  · rfl

theorem entryDecision_withGenerator {window : List TimedBar} {sig : BacktestSignal} (s : BacktestState γ) :
    setup.entryDecision env i bar window sig (s.withGenerator g) =
      (setup.entryDecision env i bar window sig s).withGenerator g := by
  unfold entryDecision
  dsimp only
  split
  · rfl
  · rw [askBreaker_withGenerator]
    dsimp only
    split
    · rfl
    · rfl

theorem signalStep_withGenerator {window : List TimedBar} {sig : BacktestSignal} (s : BacktestState γ) :
    setup.signalStep env i bar window (s.withGenerator g) sig =
      (setup.signalStep env i bar window s sig).withGenerator g := by
  unfold signalStep BacktestState.withGenerator
  dsimp only
  split
  · rfl
  · split
    · rfl
    · exact entryDecision_withGenerator
        { s with totalSignalsGenerated := s.totalSignalsGenerated + 1, log := s.log ++ [.considered sig] }

theorem signals_withGenerator {window : List TimedBar} (sigs : List BacktestSignal) (s : BacktestState γ) :
    sigs.foldl (setup.signalStep env i bar window) (s.withGenerator g) =
      (sigs.foldl (setup.signalStep env i bar window) s).withGenerator g := by
  induction sigs generalizing s with
  | nil => rfl
  | cons sig sigs ih =>
    rw [List.foldl_cons, List.foldl_cons, signalStep_withGenerator]
    exact ih _

theorem finish_withGenerator (s : BacktestState γ) :
    setup.finish bars (s.withGenerator g) = (setup.finish bars s).withGenerator g := by
  unfold finish
  rcases bars.getLast? with _ | bar
  · rfl
  · dsimp only
    rw [show (s.withGenerator g).openTrades = s.openTrades from rfl]
    generalize s.openTrades = ts
    induction ts generalizing s with
    | nil => rfl
    | cons t ts ih =>
      rw [List.foldl_cons, List.foldl_cons]
      exact ih (setup.endStep (bars.length - 1) bar s t)

theorem finish_generator (s : BacktestState γ) : (setup.finish bars s).generator = s.generator := by
  have hfinish : setup.finish bars s = (setup.finish bars s).withGenerator s.generator := finish_withGenerator s
  rw [hfinish]
  rfl

/-- What a bar does but for the generator: the exits, then the signals. -/
def enterSignals (env : BacktestEnv) (setup : BacktestSetup) (bars : List TimedBar) (i : Nat) (bar : TimedBar)
    (signals : Option (List BacktestSignal)) (s : BacktestState γ) : BacktestState γ :=
  (signals.getD []).foldl (setup.signalStep env i bar (setup.window bars i)) (setup.exits i bar s)

theorem barStep_eq (s : BacktestState γ) : setup.barStep env gen bars i bar s =
    let called := gen s.generator (setup.window bars i) bar.timestamp (setup.sig5m bar)
    (enterSignals env setup bars i bar called.2 s).withGenerator called.1 := by
  have hgenerator : (setup.exits i bar s).generator = s.generator := by
    have hexits : setup.exits i bar s = (setup.exits i bar s).withGenerator s.generator := exits_withGenerator s
    rw [hexits]
    rfl
  unfold barStep enterSignals
  dsimp only
  rw [hgenerator]
  rcases gen s.generator (setup.window bars i) bar.timestamp (setup.sig5m bar) with ⟨generator, _ | signals⟩
  · rfl
  · exact signals_withGenerator signals _

/-- The states differ in the generator alone. -/
def SameRun (s s' : BacktestState γ) : Prop := s' = s.withGenerator s'.generator

theorem SameRun.barStep {s s' : BacktestState γ} (h : SameRun s s')
    (hsignals : (gen s.generator (setup.window bars i) bar.timestamp (setup.sig5m bar)).2 =
      (gen s'.generator (setup.window bars i) bar.timestamp (setup.sig5m bar)).2) :
    SameRun (setup.barStep env gen bars i bar s) (setup.barStep env gen bars i bar s') := by
  unfold SameRun at h ⊢
  rw [barStep_eq, barStep_eq]
  dsimp only
  rw [hsignals]
  unfold enterSignals
  rw [h, exits_withGenerator, signals_withGenerator]
  rfl

/-- Two runs of the loop from generators that a relation keeps answering alike. -/
theorem loop_sameRun (env : BacktestEnv) (gen : Generator γ) {R : Nat → γ → γ → Prop}
    (hstart : ∀ n ≤ setup.windowSize, R n g f)
    (hstep : ∀ i bar g f, setup.windowSize ≤ i → bars[i]? = some bar → R i g f →
      (gen g (setup.window bars i) bar.timestamp (setup.sig5m bar)).2 =
          (gen f (setup.window bars i) bar.timestamp (setup.sig5m bar)).2 ∧
        R (i + 1) (gen g (setup.window bars i) bar.timestamp (setup.sig5m bar)).1
          (gen f (setup.window bars i) bar.timestamp (setup.sig5m bar)).1) {n : Nat} (hn : n ≤ bars.length) :
    SameRun (setup.loop env gen bars g n) (setup.loop env gen bars f n) ∧
      R n (setup.loop env gen bars g n).generator (setup.loop env gen bars f n).generator := by
  induction n with
  | zero =>
    unfold loop
    rw [Nat.zero_sub]
    exact ⟨rfl, hstart 0 (Nat.zero_le _)⟩
  | succ n ih =>
    obtain ⟨hsame, hR⟩ := ih (by omega)
    rw [loop_succ, loop_succ]
    split
    next hwindow =>
      have hbar : bars[n]? = some bars[n] := List.getElem?_eq_getElem hn
      obtain ⟨hsignals, hnext⟩ := hstep n bars[n] _ _ hwindow hbar hR
      unfold indexStep
      rw [hbar]
      dsimp only
      refine ⟨hsame.barStep hsignals, ?_⟩
      rw [barStep_eq, barStep_eq]
      exact hnext
    next hwindow => exact ⟨rfl, hstart (n + 1) (by omega)⟩

end BacktestSetup

/-! ### Calls of one process -/

/-- A call of `run_backtest`: a configuration with its bars. -/
structure BacktestCall where
  setup : BacktestSetup
  config : Config
  bars : List TimedBar

namespace BacktestCall
variable (gen : GeneratorEnv) (env : BacktestEnv) (call : BacktestCall)

def run (g : Globals) : BacktestState Globals := call.setup.runBacktest env (gen.generate call.config) call.bars g

/-- What `run_backtest` returns. -/
def report (g : Globals) : List BacktestResult × BacktestMetadata :=
  ((call.run gen env g).results, call.setup.metadata (call.run gen env g))

/-- The reports of calls made one after the other in a process with these globals. -/
def reports : List BacktestCall → Globals → List (List BacktestResult × BacktestMetadata)
  | [], _ => []
  | call :: calls, g => call.report gen env g :: reports calls (call.run gen env g).generator

/-- The call gets to the globals at all. -/
def Consults : Prop :=
  ∃ params, call.config.loadStrategyParams = some params ∧
    GeneratorEnv.minCoreBars call.config params ≤ call.setup.windowSize + 1

/-- A window of the loop. -/
def Requested (window : List TimedBar) : Prop :=
  ∃ i, call.setup.windowSize ≤ i ∧ i < call.bars.length ∧ window = call.setup.window call.bars i

/-- The sessions of the loop's bars with an index below `n`. -/
def visited (n : Nat) : Finset SessionKey :=
  (((call.bars.take n).drop call.setup.windowSize).map fun b => gen.session b.timestamp).toFinset

/-- What a call finds in the globals makes no difference to it: at no bar does the opening range differ, and the cached
levels are either those of no window of the call, or the levels of all its windows with their key. -/
structure Unaffected (g : Globals) : Prop where
  ranges : ∀ i bar, call.setup.windowSize ≤ i → call.bars[i]? = some bar →
    gen.SameRange g (call.visited gen i) (call.setup.window call.bars i) bar.timestamp
  levels : (∀ w, call.Requested w → g.keyLevels.get? (gen.levelsKey w) = none) ∨
    Dict.Coherent call.Requested gen.levelsKey gen.levelsOf ∧
      Dict.Honest call.Requested gen.levelsKey gen.levelsOf g.keyLevels

/-- No call of the sequence is affected by what the calls before it left. -/
def AllUnaffected : List BacktestCall → Globals → Prop
  | [], _ => True
  | call :: calls, g => (call.Consults → call.Unaffected gen g) ∧ AllUnaffected calls (call.run gen env g).generator

variable {gen env call} {g : Globals} {i : Nat} {bar : TimedBar}

theorem length_window (hwindow : call.setup.windowSize ≤ i) (hbar : call.bars[i]? = some bar) :
    (call.setup.window call.bars i).length = call.setup.windowSize + 1 := by
  have hlt := (List.getElem?_eq_some_iff.1 hbar).1
  unfold BacktestSetup.window
  rw [List.length_drop, List.length_take]
  omega

theorem visited_start {n : Nat} (hn : n ≤ call.setup.windowSize) : call.visited gen n = ∅ := by
  unfold visited
  rw [List.drop_eq_nil_of_le (by rw [List.length_take]; omega)]
  rfl

theorem visited_succ (hwindow : call.setup.windowSize ≤ i) (hbar : call.bars[i]? = some bar) :
    call.visited gen (i + 1) = insert (gen.session bar.timestamp) (call.visited gen i) := by
  have hlt := (List.getElem?_eq_some_iff.1 hbar).1
  unfold visited
  rw [List.take_add_one, hbar, Option.toList_some, List.drop_append_of_le_length (by rw [List.length_take]; omega),
    List.map_append, List.toFinset_append, Finset.union_comm]
  rfl

/-- The globals that a process can have between two calls. -/
structure Left (g : Globals) : Prop where
  card_le : g.openingRange.keySet.card ≤ 4
  idle : g.orb.Idle

theorem Left.fresh : Left {} := ⟨Nat.zero_le 4, none, rfl⟩

theorem Unaffected.alike (h : call.Unaffected gen g) (hg : Left g) : gen.Alike call.Requested g ∅ g {} where
  ranges := .start hg.card_le
  caches := by
    rcases h.levels with hnone | ⟨hcoherent, hhonest⟩
    · refine .inl (.empty fun k hk => ?_)
      obtain ⟨w, hw, rfl⟩ := hk
      exact hnone w hw
    · exact .inr ⟨hcoherent, hhonest, .empty⟩
  idle := hg.idle
  freshIdle := ⟨none, rfl⟩

/-- A fresh process has nothing that could make a difference. -/
theorem Unaffected.fresh : call.Unaffected gen {} where
  ranges := by
    intro i bar _ _ hlatest
    rw [show ({} : Globals).openingRange.keySet = ∅ from rfl, Finset.empty_union]
    refine ⟨hlatest, fun _ state hstate => ?_⟩
    cases hstate
  levels := .inl fun _ _ => rfl

theorem generate_of_not_consults (gen : GeneratorEnv) (h : ¬ call.Consults) {window : List TimedBar}
    (hlen : window.length = call.setup.windowSize + 1) :
    ∃ answer, ∀ g now df5m, gen.generate call.config g window now df5m = (g, answer) := by
  unfold GeneratorEnv.generate
  rcases hparams : call.config.loadStrategyParams with _ | params
  · exact ⟨none, fun _ _ _ => rfl⟩
  · refine ⟨some [], fun g now df5m => if_pos ?_⟩
    by_contra hlong
    exact h ⟨params, hparams, by omega⟩

theorem loop_of_unaffected (env : BacktestEnv) (hg : Left g) (h : call.Consults → call.Unaffected gen g) :
    BacktestSetup.SameRun (call.setup.loop env (gen.generate call.config) call.bars g call.bars.length)
        (call.setup.loop env (gen.generate call.config) call.bars {} call.bars.length) ∧
      Left (call.setup.loop env (gen.generate call.config) call.bars g call.bars.length).generator := by
  by_cases hconsults : call.Consults
  · have hunaffected := h hconsults
    obtain ⟨params, hparams, hlong⟩ := hconsults
    have halike := hunaffected.alike hg
    have hloop := BacktestSetup.loop_sameRun env (gen.generate call.config) (g := g) (f := {})
      (R := fun n => gen.Alike call.Requested g (call.visited gen n)) (fun n hn => by rwa [visited_start hn])
      (fun i bar a b hwindow hbar hR => by
        have hlen := length_window hwindow hbar
        have hrequested : call.Requested (call.setup.window call.bars i) :=
          ⟨i, hwindow, (List.getElem?_eq_some_iff.1 hbar).1, rfl⟩
        rw [visited_succ hwindow hbar]
        exact hR.generate hrequested (hunaffected.ranges i bar hwindow hbar) hparams (by omega))
      (Nat.le_refl call.bars.length)
    exact ⟨hloop.1, hloop.2.ranges.card_le, hloop.2.idle⟩
  · have hloop := BacktestSetup.loop_sameRun env (gen.generate call.config) (g := g) (f := {})
      (R := fun _ a b => a = g ∧ b = {}) (fun _ _ => ⟨rfl, rfl⟩)
      (fun i bar a b hwindow hbar hR => by
        obtain ⟨answer, hanswer⟩ := generate_of_not_consults gen hconsults (length_window hwindow hbar)
        rw [hanswer, hanswer]
        exact ⟨rfl, hR⟩)
      (Nat.le_refl call.bars.length)
    refine ⟨hloop.1, ?_⟩
    rw [hloop.2.1]
    exact hg

theorem report_of_unaffected (env : BacktestEnv) (hg : Left g) (h : call.Consults → call.Unaffected gen g) :
    call.report gen env g = call.report gen env {} ∧ Left (call.run gen env g).generator := by
  obtain ⟨hsame, hleft⟩ := loop_of_unaffected env hg h
  unfold report run BacktestSetup.runBacktest
  constructor
  · rw [show call.setup.loop env (gen.generate call.config) call.bars {} call.bars.length = _ from hsame,
      BacktestSetup.finish_withGenerator]
    rfl
  · rwa [BacktestSetup.finish_generator]

/-- Every call of a process reports what it would report in a fresh one, where none is affected by what the calls
before it left. -/
theorem reports_of_unaffected (calls : List BacktestCall) (h : AllUnaffected gen env calls {}) :
    reports gen env calls {} = calls.map fun call => call.report gen env {} := by
  have hrun : ∀ (calls : List BacktestCall) (g : Globals), Left g → AllUnaffected gen env calls g →
      reports gen env calls g = calls.map fun call => call.report gen env {} := by
    intro calls
    induction calls with
    | nil => exact fun _ _ _ => rfl
    | cons call calls ih =>
      intro g hg hall
      obtain ⟨hreport, hleft⟩ := report_of_unaffected env hg hall.1
      rw [reports, List.map_cons, hreport, ih _ hleft hall.2]
  exact hrun calls {} .fresh h

/-- New York in winter, and the levels of windows that lie in one day. -/
def winterDay : GeneratorEnv where
  et t :=
    let date := ((t - 18000) / 86400).floor
    { date, micros := ((t - 18000 - date * 86400) * 1000000).floor.toNat }
  instant date micros := date * 86400 + micros / 1000000 + 18000
  date t := (t / 86400).floor
  hash xs := (xs.foldl (fun h x => 31 * h + x) 0).floor
  resampledLevels window :=
    let opening := window.head?.map fun b => b.opening
    some ((((Dict.empty.set "current_close" (window.getLast?.map fun b => b.close)).set "daily_open" opening).set
      "weekly_open" opening).set "monthly_open" opening)
  simpleLevels _ := .empty
  extended _ _ _ := {}
  regimeScore _ := 5
  smc _ _ := { installed := false }
  reason _ _ _ _ _ := ""

def noonEnv : BacktestEnv where
  simTime t := { clock := ⟨t, 0, 0⟩, secondsEt := 43200, yday := 0 }

/-- Twenty quiet bars from eight in the morning, and then a rise at these times. -/
def openingBars (times : List ℚ) : List TimedBar :=
  (List.range 20).map (fun i =>
    { opening := 100, high := 101, low := 99, close := 100, volume := 100, timestamp := 46800 + 60 * i }) ++
  times.map fun timestamp => { opening := 101, high := 103, low := 101, close := 102, volume := 300, timestamp }

def openingCall (times : List ℚ) : BacktestCall where
  setup := { windowSize := 20, enableTod := false }
  config := { minConfidence := some (2/10), minRiskReward := 13/10 }
  bars := openingBars times

deriving instance DecidableEq for OpeningRange

/-- At a quarter to eleven the opening range is out of sight, and the levels of the only window are cached. -/
theorem late_unaffected : (openingCall [56700]).Unaffected winterDay
    ((openingCall [56700]).run winterDay noonEnv {}).generator where
  ranges := by
    intro i bar hi hbar _
    have hi : i = 20 := by
      have hlt : i < 21 := (List.getElem?_eq_some_iff.1 hbar).1
      have hle : 20 ≤ i := hi
      omega
    subst hi
    cases hbar
    have hstate : ((openingCall [56700]).run winterDay noonEnv {}).generator.openingRange.get?
        (winterDay.session 56700) = some {} := by
      decide +kernel
    refine ⟨by decide +kernel, fun _ state hget => ?_⟩
    rw [Option.some.inj (hget.symm.trans hstate)]
  levels := by
    have hrequested : ∀ w, (openingCall [56700]).Requested w → w = openingBars [56700] := by
      rintro w ⟨i, hi, hlt, rfl⟩
      have hi : i = 20 := by
        have hlt : i < 21 := hlt
        have hle : 20 ≤ i := hi
        omega
      subst hi
      rfl
    refine .inr ⟨fun w w' hw hw' _ => ?_, fun w hw a ha => ?_⟩
    · rw [hrequested w hw, hrequested w' hw']
    · have hcached : ((openingCall [56700]).run winterDay noonEnv {}).generator.keyLevels.get?
          (winterDay.levelsKey (openingBars [56700])) = some (winterDay.levelsOf (openingBars [56700])) := by
        decide +kernel
      rw [hrequested w hw] at ha ⊢
      exact Option.some.inj (ha.symm.trans hcached)

theorem reports_late : reports winterDay noonEnv [openingCall [56700], openingCall [56700]] {} =
    [openingCall [56700], openingCall [56700]].map fun call => call.report winterDay noonEnv {} :=
  reports_of_unaffected _ ⟨fun _ => .fresh, fun _ => late_unaffected, trivial⟩

/-- The first run sees the opening range being built, where the second run finds it. -/
theorem sweep_dependent : ¬ ∀ (gen : GeneratorEnv) (env : BacktestEnv) (bars : List TimedBar)
    (calls : List BacktestCall), (∀ call ∈ calls, call.bars = bars) →
      reports gen env calls {} = calls.map fun call => call.report gen env {} := by
  intro h
  have hreports := h winterDay noonEnv (openingBars [52800, 53160])
    [openingCall [52800, 53160], openingCall [52800, 53160]] (by simp [openingCall])
  have hentries := congrArg (fun l => l.map fun r : List BacktestResult × BacktestMetadata =>
    (r.1.map BacktestResult.entryTime, r.2.totalSignalsGenerated)) hreports
  exact absurd hentries (by decide +kernel)

end BacktestCall

end PearlAlgo
