import PearlAlgo.MarketAgent.EvalAttempts

/-!
# The drawdown floor of an attempt (`market_agent/tv_paper_eval_tracker.py`)

`floor_holds_iff`: within one attempt the floor never decreases and stays once it is locked, if and only if no balance
comes in at which the lock pulls the floor down or the trail moves it after the lock.
-/

namespace PearlAlgo
open Py

/-- From `a` to `a'` the floor does not decrease, and stays if it is locked. -/
def FloorKept (a a' : EvalAttempt) : Prop :=
  a.currentDrawdownFloor ≤ a'.currentDrawdownFloor ∧
    (a.drawdownLocked = true → a'.currentDrawdownFloor = a.currentDrawdownFloor)

/-- Within one attempt the floor does not decrease, and once locked it stays. -/
def FloorHolds (t : TvPaperEvalTracker) (calls : List EvalCall) : Prop :=
  ∀ pre mid post, calls = pre ++ mid ++ post →
    (t.run (pre ++ mid)).currentAttempt.attemptId = (t.run pre).currentAttempt.attemptId →
      FloorKept (t.run pre).currentAttempt (t.run (pre ++ mid)).currentAttempt

/-- The floor that trails the high-water mark after the balance. -/
def trailedFloor (config : TvPaperEvalConfig) (a : EvalAttempt) (eodBalance : Option ℚ) : ℚ :=
  max a.eodHighWaterMark (eodBalance.getD (a.startingBalance + a.pnl)) - config.maxLossDistance

/-- In a funded stage the call does not lock below the floor, nor trail past a floor that is locked. -/
def KeepsFloor (config : TvPaperEvalConfig) (a : EvalAttempt) : EvalCall → Prop
  | .updateEodHwm eodBalance => a.outcome = .active → config.stage = "sim_funded" ∨ config.stage = "live" →
    if a.drawdownLocked then trailedFloor config a eodBalance ≤ a.currentDrawdownFloor
    else config.drawdownLockThreshold ≤ max a.currentDrawdownFloor (trailedFloor config a eodBalance) →
      a.currentDrawdownFloor ≤ config.drawdownLockThreshold
  | _ => True

section floor
variable {t : TvPaperEvalTracker} {call : EvalCall} {calls : List EvalCall} {config : TvPaperEvalConfig} {a : EvalAttempt}

theorem raiseMark_eodHighWaterMark (a : EvalAttempt) (balance : ℚ) :
    (TvPaperEvalTracker.raiseMark a balance).eodHighWaterMark = max a.eodHighWaterMark balance := by
  unfold TvPaperEvalTracker.raiseMark
  split
  next h => exact (max_eq_right h.le).symm
  next h => exact (max_eq_left (not_lt.1 h)).symm

theorem trailFloor_of_funded (h : config.stage = "sim_funded" ∨ config.stage = "live") :
    TvPaperEvalTracker.trailFloor config a =
      let floor := max a.currentDrawdownFloor (a.eodHighWaterMark - config.maxLossDistance)
      if a.drawdownLocked = false ∧ config.drawdownLockThreshold ≤ floor then
        { a with drawdownLocked := true, currentDrawdownFloor := config.drawdownLockThreshold }
      else { a with currentDrawdownFloor := floor } := by
  unfold TvPaperEvalTracker.trailFloor
  rw [if_pos h]
  dsimp only
  by_cases hraise : a.currentDrawdownFloor < a.eodHighWaterMark - config.maxLossDistance
  · rw [if_pos hraise, max_eq_right hraise.le]
    simp only [Bool.not_eq_true]
  · rw [if_neg hraise, max_eq_left (not_lt.1 hraise)]
    simp only [Bool.not_eq_true]

theorem trailFloor_of_not_funded (h : ¬ (config.stage = "sim_funded" ∨ config.stage = "live")) :
    TvPaperEvalTracker.trailFloor config a = a := by
  unfold TvPaperEvalTracker.trailFloor
  rw [if_neg h]

theorem moved_floor (balance : Option ℚ) (hactive : a.outcome = .active) :
    let a' := TvPaperEvalTracker.trailFloor config
      (TvPaperEvalTracker.raiseMark a (balance.getD (a.startingBalance + a.pnl)))
    (FloorKept a a' ↔ KeepsFloor config a (.updateEodHwm balance)) ∧
      (a.drawdownLocked = true → a'.drawdownLocked = true) := by
  have hmax := raiseMark_eodHighWaterMark a (balance.getD (a.startingBalance + a.pnl))
  obtain ⟨mark, hmark⟩ := raiseMark_eq a (balance.getD (a.startingBalance + a.pnl))
  rw [hmark] at hmax ⊢
  by_cases hfunded : config.stage = "sim_funded" ∨ config.stage = "live"
  · rw [trailFloor_of_funded hfunded]
    have htrailed : mark - config.maxLossDistance = trailedFloor config a balance := congrArg (· - _) hmax
    have hkeeps : KeepsFloor config a (.updateEodHwm balance) ↔
        if a.drawdownLocked then trailedFloor config a balance ≤ a.currentDrawdownFloor
        else config.drawdownLockThreshold ≤ max a.currentDrawdownFloor (trailedFloor config a balance) →
          a.currentDrawdownFloor ≤ config.drawdownLockThreshold :=
      ⟨fun h => h hactive hfunded, fun h _ _ => h⟩
    rw [hkeeps]
    unfold FloorKept
    dsimp only
    rw [htrailed]
    rcases hlocked : a.drawdownLocked
    · rw [if_neg Bool.false_ne_true]
      by_cases hlock : config.drawdownLockThreshold ≤ max a.currentDrawdownFloor (trailedFloor config a balance)
      · rw [if_pos ⟨rfl, hlock⟩]
        exact ⟨⟨fun h _ => h.1, fun h => ⟨h hlock, fun hc => by cases hc⟩⟩, fun hc => by cases hc⟩
      · rw [if_neg fun h => hlock h.2]
        refine ⟨iff_of_true ⟨le_max_left _ _, fun hc => by cases hc⟩ fun h => absurd h hlock, fun hc => by cases hc⟩
    · rw [if_neg fun h => Bool.false_ne_true h.1.symm, if_pos rfl]
      refine ⟨⟨fun h => ?_, fun h => ?_⟩, fun _ => rfl⟩
      · exact max_eq_left_iff.1 (h.2 rfl)
      · exact ⟨le_max_left _ _, fun _ => max_eq_left h⟩
  · rw [trailFloor_of_not_funded hfunded]
    exact ⟨iff_of_true ⟨le_rfl, fun _ => rfl⟩ fun _ h => absurd h hfunded, id⟩

theorem acted_floor (call : EvalCall) (a : EvalAttempt) :
    (call.acted a).currentDrawdownFloor = a.currentDrawdownFloor ∧ (call.acted a).drawdownLocked = a.drawdownLocked := by
  cases call <;> exact ⟨rfl, rfl⟩

theorem attemptId_apply (t : TvPaperEvalTracker) (call : EvalCall) :
    t.currentAttempt.attemptId ≤ (call.apply t).currentAttempt.attemptId := by
  cases apply_cases t call with
  | kept _ ht' => rw [ht']
  | booked _ _ ht' =>
    rw [ht']
    exact (acted_attemptId call t.currentAttempt).ge
  | moved _ balance _ ht' =>
    rw [ht']
    exact (moved_attemptId _ _ _).1.ge
  | ended _ outcome clock _ ht' =>
    have hacted := (acted_attemptId call t.currentAttempt).ge
    rw [ht', endAttempt_currentAttempt]
    split
    · exact Int.le_add_one hacted
    · exact hacted

theorem attemptId_run (t : TvPaperEvalTracker) (calls : List EvalCall) :
    t.currentAttempt.attemptId ≤ (t.run calls).currentAttempt.attemptId := by
  induction calls generalizing t with
  | nil => exact le_rfl
  | cons call rest ih => exact (attemptId_apply t call).trans (ih (call.apply t))

/-- A call that takes no balance leaves the floor of an attempt that goes on. -/
theorem apply_floor_eq (hcall : ∀ balance, call ≠ .updateEodHwm balance)
    (hsame : (call.apply t).currentAttempt.attemptId = t.currentAttempt.attemptId) :
    (call.apply t).currentAttempt.currentDrawdownFloor = t.currentAttempt.currentDrawdownFloor ∧
      (call.apply t).currentAttempt.drawdownLocked = t.currentAttempt.drawdownLocked := by
  cases apply_cases t call with
  | kept _ ht' =>
    rw [ht']
    exact ⟨rfl, rfl⟩
  | booked _ _ ht' =>
    rw [ht']
    exact acted_floor call t.currentAttempt
  | moved _ balance hupdate _ => exact absurd hupdate (hcall balance)
  | ended _ outcome clock _ ht' =>
    rw [ht', endAttempt_currentAttempt] at hsame ⊢
    split at hsame
    · -- the next attempt has another number
      have hnext : (call.acted t.currentAttempt).attemptId + 1 = t.currentAttempt.attemptId := hsame
      rw [acted_attemptId] at hnext
      omega
    next hreset =>
      rw [if_neg hreset]
      exact acted_floor call t.currentAttempt

theorem apply_floor (hsame : (call.apply t).currentAttempt.attemptId = t.currentAttempt.attemptId) :
    (FloorKept t.currentAttempt (call.apply t).currentAttempt ↔ KeepsFloor t.config t.currentAttempt call) ∧
      (t.currentAttempt.drawdownLocked = true → (call.apply t).currentAttempt.drawdownLocked = true) := by
  have hother : (∀ balance, call ≠ .updateEodHwm balance) → KeepsFloor t.config t.currentAttempt call →
      (FloorKept t.currentAttempt (call.apply t).currentAttempt ↔ KeepsFloor t.config t.currentAttempt call) ∧
        (t.currentAttempt.drawdownLocked = true → (call.apply t).currentAttempt.drawdownLocked = true) := by
    intro hcall hkeeps
    obtain ⟨hfloor, hlocked⟩ := apply_floor_eq hcall hsame
    rw [hlocked]
    exact ⟨iff_of_true ⟨hfloor.ge, fun _ => hfloor⟩ hkeeps, id⟩
  cases call with
  | recordTrade pnl isWin tradeDate clock => exact hother (by simp) trivial
  | checkIntradayBreach equity clock => exact hother (by simp) trivial
  | updateEodHwm balance =>
    show (FloorKept _ (t.updateEodHwm balance).currentAttempt ↔ _) ∧
      (_ → (t.updateEodHwm balance).currentAttempt.drawdownLocked = true)
    unfold TvPaperEvalTracker.updateEodHwm
    by_cases hactive : t.currentAttempt.outcome = .active
    · rw [if_neg (not_not.2 hactive)]
      exact moved_floor balance hactive
    · rw [if_pos hactive]
      exact ⟨iff_of_true ⟨le_rfl, fun _ => rfl⟩ fun h => absurd h hactive, id⟩

theorem run_append (t : TvPaperEvalTracker) (pre mid : List EvalCall) : t.run (pre ++ mid) = (t.run pre).run mid :=
  List.foldl_append

theorem run_floor (hkeeps : ∀ pre call post, calls = pre ++ call :: post →
    KeepsFloor t.config (t.run pre).currentAttempt call)
    (hsame : (t.run calls).currentAttempt.attemptId = t.currentAttempt.attemptId) :
    FloorKept t.currentAttempt (t.run calls).currentAttempt := by
  induction calls generalizing t with
  | nil => exact ⟨le_rfl, fun _ => rfl⟩
  | cons call rest ih =>
    have hfirst : (call.apply t).currentAttempt.attemptId = t.currentAttempt.attemptId :=
      le_antisymm ((attemptId_run (call.apply t) rest).trans hsame.le) (attemptId_apply t call)
    have hrest := @ih (call.apply t) (fun pre c post h => by
      rw [apply_config]
      exact hkeeps (call :: pre) c post (by rw [h, List.cons_append])) (hsame.trans hfirst.symm)
    obtain ⟨hiff, hlocked⟩ := apply_floor hfirst
    obtain ⟨hle, heq⟩ := hiff.2 (hkeeps [] call rest rfl)
    exact ⟨hle.trans hrest.1, fun h => (hrest.2 (hlocked h)).trans (heq h)⟩

end floor

/-- The floor holds if and only if every call keeps it. -/
theorem floor_holds_iff (t : TvPaperEvalTracker) (calls : List EvalCall) :
    FloorHolds t calls ↔
      ∀ pre call post, calls = pre ++ call :: post → KeepsFloor t.config (t.run pre).currentAttempt call := by
  constructor
  · intro hholds pre call post hcalls
    have hstep : t.run (pre ++ [call]) = call.apply (t.run pre) := run_append t pre [call]
    by_cases hsame : (call.apply (t.run pre)).currentAttempt.attemptId = (t.run pre).currentAttempt.attemptId
    · have hkept := hholds pre [call] post (by rw [hcalls, List.append_assoc, List.singleton_append])
      rw [hstep] at hkept
      rw [← run_config t pre]
      exact (apply_floor hsame).1.1 (hkept hsame)
    · cases call with
      | updateEodHwm balance =>
        -- a balance does not end an attempt
        refine absurd ?_ hsame
        show ((t.run pre).updateEodHwm balance).currentAttempt.attemptId = _
        unfold TvPaperEvalTracker.updateEodHwm
        split
        · rfl
        · exact (moved_attemptId _ _ _).1
      | _ => trivial
  · intro hkeeps pre mid post hcalls hsame
    rw [run_append] at hsame ⊢
    refine run_floor (fun pre' call post' hmid => ?_) hsame
    rw [run_config, ← run_append]
    refine hkeeps (pre ++ pre') call (post' ++ post) ?_
    rw [hcalls, hmid]
    simp

def fundedTracker : TvPaperEvalTracker := .fresh { stage := "sim_funded" } 1 "2026-03-25T16:10:00Z" none []

def zeroTracker : TvPaperEvalTracker := .fresh { stage := "sim_funded", startBalance := 0 } 1 "2026-03-25T16:10:00Z" none []

/-- The lock pulls the floor from 48,000 to 100, and a floor that is locked at 100 trails on. -/
theorem floor_gives_way :
    ¬ FloorHolds fundedTracker [.updateEodHwm none] ∧
      ¬ FloorHolds zeroTracker [.updateEodHwm (some 2100), .updateEodHwm (some 3000)] := by
  constructor
  · intro h
    exact absurd (h [] [.updateEodHwm none] [] rfl (by decide +kernel)).1 (by decide +kernel)
  · intro h
    exact absurd ((h [.updateEodHwm (some 2100)] [.updateEodHwm (some 3000)] [] rfl (by decide +kernel)).2
      (by decide +kernel)) (by decide +kernel)

end PearlAlgo
