import PearlAlgo.Backtesting.Resampling

/-!
# Look-ahead in the backtest

Two series that agree up to a bar, each with the 5 minute rows that are resampled from it. A 5 minute row is seen from the
first of its five minutes on, with all that the rest of them will bring: `noLookAhead_iff` says when this makes no
difference. A closing at the end of the data is at no bar.
-/

namespace PearlAlgo
open Py

namespace BacktestEvent

/-- An entry or an exit at a bar with an index up to `i`. -/
def UpTo (i : Nat) : BacktestEvent → Prop
  | .opened t => t.entryBarIdx ≤ i
  | .closed _ r j => r.exitReason ≠ .endOfData ∧ j ≤ i
  | .considered _ | .told _ => False

instance (i : Nat) : DecidablePred (UpTo i)
  | .opened _ => inferInstanceAs (Decidable (_ ≤ _))
  | .closed _ _ _ => inferInstanceAs (Decidable (_ ∧ _))
  | .considered _ | .told _ => inferInstanceAs (Decidable False)

end BacktestEvent

def tradesUpTo (i : Nat) (log : List BacktestEvent) : List BacktestEvent := log.filter fun e => e.UpTo i

/-- `generate_signals` as a function of the frames and the time. -/
abbrev FrameGenerator := List TimedBar → ℚ → Option (List TimedBar) → Option (List BacktestSignal)

namespace BacktestSetup

/-- The run over a series with the 5 minute rows that are resampled from it. -/
def runResampled (setup : BacktestSetup) (env : BacktestEnv) (gen : FrameGenerator) (bars : List TimedBar) :
    BacktestState Unit :=
  ({ setup with df5m := resample1mTo5m bars } : BacktestSetup).runBacktest env (fun _ w t f => ((), gen w t f)) bars ()

end BacktestSetup

/-- No run over one of the two series tells it from the other by its trades up to the bar. -/
def NoLookAhead (i : Nat) (bars bars' : List TimedBar) : Prop :=
  ∀ (setup : BacktestSetup) (env : BacktestEnv) (gen : FrameGenerator),
    tradesUpTo i (setup.runResampled env gen bars).log = tradesUpTo i (setup.runResampled env gen bars').log

/-- Every bar up to the index is shown the same 5 minute rows. -/
def SameRows (i : Nat) (bars bars' : List TimedBar) : Prop :=
  ∀ bar ∈ bars.take (i + 1),
    visible5m (resample1mTo5m bars) bar.timestamp = visible5m (resample1mTo5m bars') bar.timestamp

variable {γ : Type} {setup : BacktestSetup} {env : BacktestEnv} {gen : Generator γ} {bars bars' : List TimedBar}
  {bar : TimedBar} {i k : Nat} {s : BacktestState γ} {log : List BacktestEvent}

theorem tradesUpTo_concat (i : Nat) (log : List BacktestEvent) {e : BacktestEvent} (h : ¬ e.UpTo i) :
    tradesUpTo i (log ++ [e]) = tradesUpTo i log := by
  unfold tradesUpTo
  rw [List.filter_append, List.filter_cons_of_neg (by simpa using h)]
  exact List.append_nil _

theorem tradesUpTo_opened {t : OpenBacktestTrade} (h : t.entryBarIdx ≤ i) :
    tradesUpTo i (log ++ [.opened t]) = tradesUpTo i log ++ [.opened t] := by
  have hopened : (BacktestEvent.opened t).UpTo i := h
  unfold tradesUpTo
  rw [List.filter_append, List.filter_cons_of_pos (by simpa using hopened), List.filter_nil]

theorem tradesUpTo_le {j : Nat} (h : j ≤ i) (log : List BacktestEvent) :
    tradesUpTo j (tradesUpTo i log) = tradesUpTo j log := by
  unfold tradesUpTo
  rw [List.filter_filter]
  refine List.filter_congr fun e _ => ?_
  have himp : e.UpTo j → e.UpTo i := by
    intro he
    cases e with
    | considered sig => exact he
    | told t => exact he
    | opened t => exact Nat.le_trans he h
    | closed id r k => exact ⟨he.1, Nat.le_trans he.2 h⟩
  by_cases hj : e.UpTo j
  · simp [hj, himp hj]
  · simp [hj]

namespace BacktestSetup

/-! ### What happens after a bar -/

theorem tradesUpTo_close {t : OpenBacktestTrade} {r : BacktestResult} (hk : i < k) :
    tradesUpTo i (setup.close k t r s).log = tradesUpTo i s.log := by
  have hclosed : ¬ (BacktestEvent.closed t.tradeId r k).UpTo i := by
    rintro ⟨-, hle⟩
    omega
  unfold close
  rcases setup.breaker with _ | c
  · exact tradesUpTo_concat i _ hclosed
  · show tradesUpTo i (s.log ++ [_] ++ [.told _]) = _
    rw [tradesUpTo_concat i _ (e := .told _) not_false, tradesUpTo_concat i _ hclosed]

theorem tradesUpTo_exits (hk : i < k) : tradesUpTo i (setup.exits k bar s).log = tradesUpTo i s.log := by
  have hfold : ∀ (ts : List OpenBacktestTrade) (acc : BacktestState γ × List OpenBacktestTrade),
      tradesUpTo i (ts.foldl (setup.exitStep k bar) acc).1.log = tradesUpTo i acc.1.log := by
    intro ts
    induction ts with
    | nil => exact fun _ => rfl
    | cons t ts ih =>
      rintro ⟨s, stillOpen⟩
      rw [List.foldl_cons, ih]
      unfold exitStep
      dsimp only
      rcases (t.trailed setup.trailing bar).exitAt bar with _ | ⟨reason, price⟩
      · rfl
      · exact tradesUpTo_close hk
  exact hfold s.openTrades (s, [])

theorem askBreaker_log {sig : BacktestSignal} : (setup.askBreaker env bar sig s).2.log = s.log := by
  unfold askBreaker
  rcases setup.breaker with _ | c
  · rfl
  · rfl

theorem tradesUpTo_entryDecision {window : List TimedBar} {sig : BacktestSignal} (hk : i < k) :
    tradesUpTo i (setup.entryDecision env k bar window sig s).log = tradesUpTo i s.log := by
  unfold entryDecision
  dsimp only
  split
  · rfl
  · have hlog := @askBreaker_log γ setup env bar s sig
    rcases hask : setup.askBreaker env bar sig s with ⟨allowed, s'⟩
    rw [hask] at hlog
    rw [← show s'.log = s.log from hlog]
    cases allowed with
    | true =>
      refine tradesUpTo_concat i _ fun hle => ?_
      have hidx : k ≤ i := hle
      omega
    | false => rfl

theorem tradesUpTo_signalStep {window : List TimedBar} {sig : BacktestSignal} (hk : i < k) :
    tradesUpTo i (setup.signalStep env k bar window s sig).log = tradesUpTo i s.log := by
  have hconsidered := tradesUpTo_concat i s.log (e := .considered sig) not_false
  unfold signalStep
  dsimp only
  split
  · exact hconsidered
  · split
    · exact hconsidered
    · exact (tradesUpTo_entryDecision hk).trans hconsidered

theorem tradesUpTo_indexStep (hk : i < k) : tradesUpTo i (setup.indexStep env gen bars s k).log = tradesUpTo i s.log := by
  unfold indexStep
  rcases bars[k]? with _ | bar
  · rfl
  · have hexits := @tradesUpTo_exits γ setup bar i k s hk
    dsimp only
    unfold barStep
    dsimp only
    generalize setup.exits k bar s = s₁ at hexits ⊢
    rw [← hexits]
    rcases gen s₁.generator (setup.window bars k) bar.timestamp (setup.sig5m bar) with ⟨generator, signals⟩
    rcases signals with _ | signals
    · rfl
    · dsimp only
      have hfold : ∀ (sigs : List BacktestSignal) (s₂ : BacktestState γ),
          tradesUpTo i (sigs.foldl (setup.signalStep env k bar (setup.window bars k)) s₂).log = tradesUpTo i s₂.log := by
        intro sigs
        induction sigs with
        | nil => exact fun _ => rfl
        | cons sig sigs ih => exact fun s₂ => (ih _).trans (tradesUpTo_signalStep hk)
      exact hfold signals _

/-- Bars after an index do not change the trades up to it. -/
theorem tradesUpTo_loop {generator : γ} {n : Nat} (hn : i + 1 ≤ n) :
    tradesUpTo i (setup.loop env gen bars generator n).log = tradesUpTo i (setup.loop env gen bars generator (i + 1)).log := by
  induction n, hn using Nat.le_induction with
  | base => rfl
  | succ n hn ih =>
    rw [← ih, loop_succ]
    split
    · exact tradesUpTo_indexStep hn
    next hwindow =>
      rw [show setup.loop env gen bars generator n = setup.start generator by
        unfold loop
        rw [show n - setup.windowSize = 0 by omega]
        rfl]

theorem loop_past {generator : γ} {n : Nat} (hn : bars.length ≤ n) :
    setup.loop env gen bars generator n = setup.loop env gen bars generator bars.length := by
  induction n, hn using Nat.le_induction with
  | base => rfl
  | succ n hn ih =>
    rw [← ih, loop_succ]
    split
    · unfold indexStep
      rw [List.getElem?_eq_none hn]
    next hwindow =>
      unfold loop
      rw [show n - setup.windowSize = 0 by omega]
      rfl

theorem tradesUpTo_finish : tradesUpTo i (setup.finish bars s).log = tradesUpTo i s.log := by
  unfold finish
  rcases bars.getLast? with _ | bar
  · rfl
  · dsimp only
    generalize s.openTrades = ts
    induction ts generalizing s with
    | nil => rfl
    | cons t ts ih =>
      rw [List.foldl_cons, ih]
      refine tradesUpTo_concat i s.log ?_
      rintro ⟨hreason, -⟩
      exact hreason rfl

theorem tradesUpTo_run {generator : γ} : tradesUpTo i (setup.runBacktest env gen bars generator).log =
    tradesUpTo i (setup.loop env gen bars generator (i + 1)).log := by
  unfold runBacktest
  rw [tradesUpTo_finish]
  rcases Nat.le_total (i + 1) bars.length with hle | hle
  · exact tradesUpTo_loop hle
  · rw [loop_past hle]

/-! ### What the loop takes from the 5 minute rows -/

section rows
variable {df df' : List TimedBar}

/-- The loop takes the same from the 5 minute rows at the bar. -/
structure SameView (setup : BacktestSetup) (df df' : List TimedBar) (bar : TimedBar) : Prop where
  frame : ({ setup with df5m := df } : BacktestSetup).sig5m bar = ({ setup with df5m := df' } : BacktestSetup).sig5m bar
  regime : ∀ sig, ({ setup with df5m := df } : BacktestSetup).regimeOf bar sig =
    ({ setup with df5m := df' } : BacktestSetup).regimeOf bar sig

theorem SameView.of_visible (hdf : InTimeOrder df) (hdf' : InTimeOrder df')
    (h : visible5m df bar.timestamp = visible5m df' bar.timestamp) : SameView setup df df' bar where
  frame := by
    unfold sig5m
    dsimp only
    rw [h]
  regime := by
    intro sig
    unfold regimeOf
    dsimp only
    rw [find5mRegime_visible hdf hdf' h]

theorem SameView.of_off (h : setup.use5mRegime = false) : SameView setup df df' bar where
  frame := by
    unfold sig5m
    dsimp only
    rw [h, if_neg Bool.false_ne_true, if_neg Bool.false_ne_true]
  regime := by
    intro sig
    unfold regimeOf
    dsimp only
    rw [h, if_neg Bool.false_ne_true, if_neg Bool.false_ne_true]

theorem signalStep_congr {window : List TimedBar} (sig : BacktestSignal)
    (h : ({ setup with df5m := df } : BacktestSetup).regimeOf bar sig =
      ({ setup with df5m := df' } : BacktestSetup).regimeOf bar sig) :
    ({ setup with df5m := df } : BacktestSetup).signalStep env k bar window s sig =
      ({ setup with df5m := df' } : BacktestSetup).signalStep env k bar window s sig := by
  unfold signalStep entryDecision askBreaker newTrade
  simp only [h]

theorem barStep_congr (h : SameView setup df df' bar) (hbars : bars.take (k + 1) = bars'.take (k + 1)) :
    ({ setup with df5m := df } : BacktestSetup).barStep env gen bars k bar s =
      ({ setup with df5m := df' } : BacktestSetup).barStep env gen bars' k bar s := by
  have hwindow : ({ setup with df5m := df } : BacktestSetup).window bars k =
      ({ setup with df5m := df' } : BacktestSetup).window bars' k := by
    unfold window
    rw [hbars]
  have hsignal : ∀ w, ({ setup with df5m := df } : BacktestSetup).signalStep (γ := γ) env k bar w =
      ({ setup with df5m := df' } : BacktestSetup).signalStep env k bar w := by
    intro w
    funext s sig
    exact signalStep_congr sig (h.regime sig)
  unfold barStep
  rw [hwindow, h.frame]
  simp only [hsignal]
  rfl

/-- Series that agree on the bars of the loop are run alike where these bars have the same view. -/
theorem loop_congr {generator : γ} {n : Nat} (hbars : bars.take n = bars'.take n)
    (h : ∀ bar ∈ bars.take n, SameView setup df df' bar) :
    ({ setup with df5m := df } : BacktestSetup).loop env gen bars generator n =
      ({ setup with df5m := df' } : BacktestSetup).loop env gen bars' generator n := by
  induction n with
  | zero =>
    unfold loop
    rw [Nat.zero_sub]
    rfl
  | succ n ih =>
    have hbars' : bars.take n = bars'.take n := by
      have htake := congrArg (List.take n) hbars
      rwa [List.take_take, List.take_take, Nat.min_eq_left (Nat.le_succ n)] at htake
    have hearlier : ∀ bar ∈ bars.take n, bar ∈ bars.take (n + 1) := fun bar hbar =>
      (List.take_sublist_take_left (Nat.le_succ n)).subset hbar
    rw [loop_succ, loop_succ, ih hbars' fun bar hbar => h bar (hearlier bar hbar)]
    dsimp only
    split
    · have hget : bars[n]? = bars'[n]? := by
        have hget := congrArg (fun l => l[n]?) hbars
        simpa [List.getElem?_take] using hget
      unfold indexStep
      rw [← hget]
      rcases hbar : bars[n]? with _ | bar
      · rfl
      · refine barStep_congr (h bar ?_) hbars
        exact List.mem_of_getElem? (i := n) (by rw [List.getElem?_take_of_lt (Nat.lt_succ_self n)]; exact hbar)
    · rfl

end rows

/-! ### Telling the series apart -/

/-- The loop starts at bar `j` and enters on every signal of it. -/
def probe (j : Nat) (df : List TimedBar) : BacktestSetup :=
  { windowSize := j, enableTod := false, use5mRegime := true, df5m := df }

theorem probe_loop {j : Nat} {df : List TimedBar} {generator : γ} (hbar : bars[j]? = some bar) :
    (probe j df).loop env gen bars generator (j + 1) =
      (probe j df).barStep env gen bars j bar ((probe j df).start generator) := by
  have hstart : (probe j df).loop env gen bars generator j = (probe j df).start generator := by
    unfold loop
    rw [show j - (probe j df).windowSize = 0 from Nat.sub_self j]
    rfl
  rw [loop_succ, if_pos (show (probe j df).windowSize ≤ j from Nat.le_refl j), hstart, indexStep, hbar]

/-- The first bar of the probe opens a trade if and only if there is a signal. -/
theorem probe_opens (env : BacktestEnv) (df : List TimedBar) (gen : FrameGenerator) (sigs : List BacktestSignal) {j : Nat}
    (hbar : bars[j]? = some bar)
    (hgen : gen ((probe j df).window bars j) bar.timestamp (visible5m df bar.timestamp) = some sigs)
    (hsigs : sigs.length ≤ 1) :
    (tradesUpTo j ((probe j df).runBacktest env (fun _ w t f => ((), gen w t f)) bars ()).log).length = sigs.length := by
  rw [tradesUpTo_run, probe_loop hbar]
  unfold barStep
  rw [show (probe j df).sig5m bar = visible5m df bar.timestamp from rfl]
  dsimp only
  rw [hgen]
  rcases sigs with _ | ⟨sig, _ | ⟨sig', sigs⟩⟩
  · rfl
  · show (tradesUpTo j ([] ++ [.considered sig] ++ [.opened _])).length = 1
    rw [tradesUpTo_opened (Nat.le_refl j), tradesUpTo_concat j [] (e := .considered sig) not_false]
    rfl
  · simp at hsigs

end BacktestSetup

/-- A generator that sees other rows at a bar can enter there on one series alone. -/
theorem NoLookAhead.sameRows (h : NoLookAhead i bars bars') (hagree : bars.take (i + 1) = bars'.take (i + 1)) :
    SameRows i bars bars' := by
  classical
  intro bar hbar
  by_contra hne
  obtain ⟨j, hget⟩ := List.mem_iff_getElem?.1 hbar
  have hj : j < i + 1 := by
    by_contra hnot
    rw [List.getElem?_eq_none (by rw [List.length_take]; omega)] at hget
    cases hget
  have hbars : bars[j]? = some bar := by rwa [List.getElem?_take_of_lt hj] at hget
  have hbars' : bars'[j]? = some bar := by rwa [hagree, List.getElem?_take_of_lt hj] at hget
  let sig : BacktestSignal := { direction := .long, entryPrice := 0, stopLoss := 0, takeProfit := 0 }
  let env : BacktestEnv := { simTime := fun t => { clock := ⟨t, 0, 0⟩, secondsEt := 0, yday := 0 } }
  let gen : FrameGenerator := fun _ _ rows =>
    some (if rows = visible5m (resample1mTo5m bars) bar.timestamp then [sig] else [])
  have hone := BacktestSetup.probe_opens env (resample1mTo5m bars) gen [sig] hbars
    (congrArg some (if_pos rfl)) (Nat.le_refl 1)
  have hnone := BacktestSetup.probe_opens env (resample1mTo5m bars') gen [] hbars'
    (congrArg some (if_neg (Ne.symm hne))) (Nat.zero_le 1)
  have htrades := congrArg (fun trades => (tradesUpTo j trades).length) (h (BacktestSetup.probe j []) env gen)
  rw [tradesUpTo_le (by omega), tradesUpTo_le (by omega)] at htrades
  have hlen : [sig].length = ([] : List BacktestSignal).length := hone.symm.trans (htrades.trans hnone)
  cases hlen

theorem trades_congr {setup : BacktestSetup} {gen : FrameGenerator} (hagree : bars.take (i + 1) = bars'.take (i + 1))
    (h : ∀ bar ∈ bars.take (i + 1),
      BacktestSetup.SameView setup (resample1mTo5m bars) (resample1mTo5m bars') bar) :
    tradesUpTo i (setup.runResampled env gen bars).log = tradesUpTo i (setup.runResampled env gen bars').log := by
  unfold BacktestSetup.runResampled
  rw [BacktestSetup.tradesUpTo_run, BacktestSetup.tradesUpTo_run, BacktestSetup.loop_congr hagree h]

/-- Two series that agree up to a bar are traded alike up to it by every run without the 5 minute regime, and by every
run at all if and only if the bars are shown the same 5 minute rows. -/
theorem noLookAhead_iff (hagree : bars.take (i + 1) = bars'.take (i + 1)) :
    (∀ (setup : BacktestSetup) (env : BacktestEnv) (gen : FrameGenerator), setup.use5mRegime = false →
      tradesUpTo i (setup.runResampled env gen bars).log = tradesUpTo i (setup.runResampled env gen bars').log) ∧
    (NoLookAhead i bars bars' ↔ SameRows i bars bars') := by
  refine ⟨fun setup env gen hoff => ?_, fun h => h.sameRows hagree, fun h setup env gen => ?_⟩
  · exact trades_congr hagree fun bar _ => .of_off hoff
  · refine trades_congr hagree fun bar hbar => .of_visible ?_ ?_ (h bar hbar)
    · exact resample_inTimeOrder bars
    · exact resample_inTimeOrder bars'

/-- In time order the rows are the same where the later bars of both series come after the five minutes of the last
common bar. -/
theorem sameRows_of_complete (hagree : bars.take (i + 1) = bars'.take (i + 1))
    (hsorted : bars.Pairwise fun a b => a.timestamp ≤ b.timestamp)
    (hsorted' : bars'.Pairwise fun a b => a.timestamp ≤ b.timestamp)
    (hlater : ∀ bar ∈ bars.take (i + 1), ∀ b ∈ bars.drop (i + 1) ++ bars'.drop (i + 1), bar.timestamp < binLabel b.timestamp) :
    SameRows i bars bars' := by
  intro bar hbar
  have hseen := seenRows_take hsorted fun b hb => hlater bar hbar b (List.mem_append_left _ hb)
  have hseen' := seenRows_take hsorted' fun b hb => hlater bar hbar b (List.mem_append_right _ hb)
  unfold visible5m
  rw [hseen, hseen', hagree]

/-- Two one minute bars that are alike but for the close of the second. -/
def twoBars (first second close : ℚ) : List TimedBar :=
  [{ opening := 99, high := 102, low := 98, close := 100, volume := 10, timestamp := first },
   { opening := 99, high := 102, low := 98, close, volume := 10, timestamp := second }]

/-- The first bar is the last of its five minutes. -/
theorem noLookAhead_complete : NoLookAhead 0 (twoBars 240 300 100) (twoBars 240 300 101) := by
  have hagree : (twoBars 240 300 100).take (0 + 1) = (twoBars 240 300 101).take (0 + 1) := rfl
  refine (noLookAhead_iff hagree).2.2 (sameRows_of_complete hagree ?_ ?_ ?_)
  · decide +kernel
  · decide +kernel
  · decide +kernel

/-- The first bar is shown the close of the second, a minute ahead. -/
theorem lookAhead : ¬ ∀ (i : Nat) (bars bars' : List TimedBar), bars.take (i + 1) = bars'.take (i + 1) →
    NoLookAhead i bars bars' := by
  intro h
  have hsame := (h 0 (twoBars 0 60 100) (twoBars 0 60 101) rfl).sameRows rfl _ (List.mem_cons_self ..)
  have hclose := congrArg (fun rows => rows.map fun rows : List TimedBar => rows.map fun row => row.close) hsame
  exact absurd hclose (by decide +kernel)

end PearlAlgo
