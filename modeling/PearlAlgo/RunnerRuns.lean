import PearlAlgo.Lts.Reach
import PearlAlgo.PartialRunner

/-!
# Runs of the partial profit runner (`execution/advanced_exit_manager.py`)

A run is any sequence of calls of the manager, for any positions. The manager reads `remove_fixed_tp` and never uses
it, and the trail replaces the breakeven stop wherever it starts; `neverLoosens_iff` says between two registrations
of a position when it is left alone with a tighter stop after every update.
-/

namespace PearlAlgo
open Py Lts

structure PartialRunnerSettings extends PartialRunnerConfig where
  removeFixedTp : Bool := true

inductive RunnerOp (κ : Type)
  | registerPosition (positionId : κ) (entryPrice : ℚ) (direction : PositionSide) (atr : ℚ)
  | updatePosition (positionId : κ) (currentPrice : ℚ)
  | removePosition (positionId : κ)

def RunnerPhase.rank : RunnerPhase → Nat
  | .initial => 0
  | .breakeven => 1
  | .tightTrail => 2

section run
variable {κ : Type} [DecidableEq κ]

def PartialRunnerManager.removePosition (positionId : κ) (m : PartialRunnerManager κ) : PartialRunnerManager κ :=
  { m with states := m.states.pop positionId }

namespace RunnerOp

def Registers (id : κ) : RunnerOp κ → Prop
  | registerPosition k _ _ _ => k = id
  | _ => False

def apply (cfg : PartialRunnerSettings) (m : PartialRunnerManager κ) : RunnerOp κ → PartialRunnerManager κ
  | registerPosition id entryPrice direction atr => m.registerPosition cfg.toPartialRunnerConfig id entryPrice direction atr
  | updatePosition id currentPrice => (m.updatePosition cfg.toPartialRunnerConfig id currentPrice).2
  | removePosition id => m.removePosition id

/-- What an update of the position returns, and the state that it leaves. -/
def result (cfg : PartialRunnerSettings) (id : κ) (m : PartialRunnerManager κ) :
    RunnerOp κ → Option (RunnerUpdate × PartialRunnerState)
  | updatePosition k currentPrice =>
    let (u, m) := m.updatePosition cfg.toPartialRunnerConfig k currentPrice
    if k = id then (m.states.get? id).map fun st => (u, st) else none
  | _ => none

end RunnerOp

def PartialRunnerManager.results (cfg : PartialRunnerSettings) (id : κ) (m : PartialRunnerManager κ) :
    List (RunnerOp κ) → List (RunnerUpdate × PartialRunnerState)
  | [] => []
  | op :: ops => (op.result cfg id m).toList ++ (op.apply cfg m).results cfg id ops

/-- The prices of the position until it is removed. -/
def pricesOf (id : κ) : List (RunnerOp κ) → List ℚ
  | .updatePosition k currentPrice :: ops => if k = id then currentPrice :: pricesOf id ops else pricesOf id ops
  | .removePosition k :: ops => if k = id then [] else pricesOf id ops
  | _ :: ops => pricesOf id ops
  | [] => []

end run

/-- The phase only advances, the returned stops move in favour of the position, and its take profit is to be cancelled at
most once and only where the settings ask for it. -/
structure NeverLoosens (cfg : PartialRunnerSettings) (direction : PositionSide)
    (results : List (RunnerUpdate × PartialRunnerState)) : Prop where
  phase : (results.map fun r => r.2.phase.rank).Pairwise (· ≤ ·)
  stop : (results.filterMap fun r => r.1.newStop).Pairwise direction.le
  cancelTpOnce : (results.countP fun r => r.1.cancelTp) ≤ 1
  cancelTpOnly : ∀ r ∈ results, r.1.cancelTp = true → cfg.removeFixedTp = true

namespace PartialRunnerState

def register (entryPrice : ℚ) (direction : PositionSide) (atr : ℚ) : PartialRunnerState :=
  { entryPrice, direction, atr, bestPrice := entryPrice }

def results (cfg : PartialRunnerConfig) (st : PartialRunnerState) : List ℚ → List (RunnerUpdate × PartialRunnerState)
  | [] => []
  | price :: prices => st.update cfg price :: (st.update cfg price).2.results cfg prices

def see (price : ℚ) (st : PartialRunnerState) : PartialRunnerState :=
  { st with bestPrice := st.direction.best st.bestPrice price }

/-- The price does not reach the breakeven trigger when the take profit is to stay, and where it starts the trail of a
position at breakeven, the trail is not behind the breakeven stop. -/
structure Tightens (cfg : PartialRunnerSettings) (st : PartialRunnerState) (price : ℚ) : Prop where
  takeProfit : st.phase = .initial → cfg.breakevenTriggerAtr ≤ (st.see price).favorableMove → cfg.removeFixedTp = true
  trail : st.phase = .breakeven → cfg.tightTrailTriggerAtr ≤ (st.see price).favorableMove →
    cfg.breakevenOffset + st.atr * cfg.tightTrailDistanceAtr ≤ st.direction.move st.entryPrice (st.see price).bestPrice

end PartialRunnerState

/-! ### The calls that concern a position -/

section calls
variable {κ : Type} [DecidableEq κ] {cfg : PartialRunnerSettings} {id : κ} {m : PartialRunnerManager κ}
  {st : PartialRunnerState} {ops : List (RunnerOp κ)}

theorem updatePosition_enabled (hon : cfg.enabled = true) (hst : m.states.get? id = some st) (price : ℚ) :
    m.updatePosition cfg.toPartialRunnerConfig id price =
      ((st.update cfg.toPartialRunnerConfig price).1,
        { m with states := m.states.set id (st.update cfg.toPartialRunnerConfig price).2 }) := by
  unfold PartialRunnerManager.updatePosition
  rw [hst]
  exact if_pos hon

theorem updatePosition_ne {k : κ} (hk : id ≠ k) (price : ℚ) :
    (m.updatePosition cfg.toPartialRunnerConfig k price).2.states.get? id = m.states.get? id :=
  (PartialRunnerManager.updatePosition_floor cfg.toPartialRunnerConfig m k price).2.1 id hk

theorem registerPosition_ne {k : κ} (hk : id ≠ k) (entryPrice : ℚ) (direction : PositionSide) (atr : ℚ) :
    (m.registerPosition cfg.toPartialRunnerConfig k entryPrice direction atr).states.get? id = m.states.get? id := by
  unfold PartialRunnerManager.registerPosition
  split
  · exact Dict.get?_set_ne _ _ hk
  · rfl

/-- A position that is not there has no results until it is registered. -/
theorem results_none (hnone : m.states.get? id = none) (hops : ∀ op ∈ ops, ¬ op.Registers id) :
    m.results cfg id ops = [] := by
  induction ops generalizing m with
  | nil => rfl
  | cons op ops ih =>
    have hrest : ∀ op ∈ ops, ¬ op.Registers id := fun op hop => hops op (List.mem_cons_of_mem _ hop)
    have hkeep : (op.apply cfg m).states.get? id = none ∧ op.result cfg id m = none := by
      cases op with
      | registerPosition k entryPrice direction atr =>
        have hk : id ≠ k := fun h => hops _ List.mem_cons_self h.symm
        exact ⟨(registerPosition_ne hk entryPrice direction atr).trans hnone, rfl⟩
      | updatePosition k price =>
        by_cases hk : k = id
        · subst hk
          have hsame : m.updatePosition cfg.toPartialRunnerConfig k price = ({}, m) := by
            unfold PartialRunnerManager.updatePosition
            rw [hnone]
          simp only [RunnerOp.apply, RunnerOp.result, hsame]
          simp [hnone]
        · exact ⟨(updatePosition_ne (Ne.symm hk) price).trans hnone, if_neg hk⟩
      | removePosition k =>
        refine ⟨?_, rfl⟩
        by_cases hk : id = k
        · subst hk
          exact Dict.get?_pop_self _ _
        · exact (Dict.get?_pop_ne _ hk).trans hnone
    rw [PartialRunnerManager.results, hkeep.2, ih hkeep.1 hrest]
    rfl

/-- A manager that is not enabled answers nothing and keeps what it has. -/
theorem results_disabled (hoff : cfg.enabled = false) :
    ∀ r ∈ m.results cfg id ops, r.1 = {} ∧ m.states.get? id = some r.2 := by
  have hoff' : ¬ cfg.enabled = true := by
    rw [hoff]
    exact Bool.false_ne_true
  induction ops generalizing m with
  | nil => exact fun r hr => absurd hr List.not_mem_nil
  | cons op ops ih =>
    intro r hr
    rw [PartialRunnerManager.results, List.mem_append] at hr
    cases op with
    | registerPosition k entryPrice direction atr =>
      have hsame : m.registerPosition cfg.toPartialRunnerConfig k entryPrice direction atr = m := if_neg hoff'
      have hrest := ih (m := m.registerPosition cfg.toPartialRunnerConfig k entryPrice direction atr) r
        (hr.resolve_left List.not_mem_nil)
      rw [hsame] at hrest
      exact hrest
    | updatePosition k price =>
      have hsame : m.updatePosition cfg.toPartialRunnerConfig k price = ({}, m) := by
        unfold PartialRunnerManager.updatePosition
        split
        · exact if_neg hoff'
        · rfl
      rcases hr with hr | hr
      · simp only [RunnerOp.result, hsame] at hr
        split at hr
        · obtain ⟨st, hst, rfl⟩ := Option.map_eq_some_iff.1 (Option.mem_toList.1 hr)
          exact ⟨rfl, hst⟩
        · cases hr
      · have hrest := ih (m := (m.updatePosition cfg.toPartialRunnerConfig k price).2) r hr
        rw [hsame] at hrest
        exact hrest
    | removePosition k =>
      obtain ⟨hu, hst⟩ := ih (m := m.removePosition k) r (hr.resolve_left List.not_mem_nil)
      refine ⟨hu, ?_⟩
      by_cases hk : id = k
      · subst hk
        have hgone : (m.removePosition id).states.get? id = none := Dict.get?_pop_self _ _
        rw [hgone] at hst
        cases hst
      · exact (Dict.get?_pop_ne _ hk).symm.trans hst

/-- The results of a position are those of its state, for the prices that it sees. -/
theorem results_eq (hon : cfg.enabled = true) (hst : m.states.get? id = some st) (hops : ∀ op ∈ ops, ¬ op.Registers id) :
    m.results cfg id ops = st.results cfg.toPartialRunnerConfig (pricesOf id ops) := by
  induction ops generalizing m st with
  | nil => rfl
  | cons op ops ih =>
    have hrest : ∀ op ∈ ops, ¬ op.Registers id := fun op hop => hops op (List.mem_cons_of_mem _ hop)
    cases op with
    | registerPosition k entryPrice direction atr =>
      have hk : id ≠ k := fun h => hops _ List.mem_cons_self h.symm
      exact ih ((registerPosition_ne hk entryPrice direction atr).trans hst) hrest
    | updatePosition k price =>
      by_cases hk : k = id
      · subst hk
        have hupdate := updatePosition_enabled hon hst price
        rw [PartialRunnerManager.results, pricesOf, if_pos rfl, PartialRunnerState.results]
        have hset : (m.updatePosition cfg.toPartialRunnerConfig k price).2.states.get? k =
            some (st.update cfg.toPartialRunnerConfig price).2 := by
          rw [hupdate]
          exact Dict.get?_set_self _ _ _
        have hnext := ih hset hrest
        rw [hupdate] at hnext
        simp only [RunnerOp.apply, RunnerOp.result, hupdate]
        rw [if_pos trivial, Dict.get?_set_self, hnext]
        rfl
      · have hresult : (RunnerOp.updatePosition k price).result cfg id m = none := if_neg hk
        rw [PartialRunnerManager.results, pricesOf, if_neg hk, hresult]
        exact ih ((updatePosition_ne (Ne.symm hk) price).trans hst) hrest
    | removePosition k =>
      rw [pricesOf]
      split
      next hk =>
        subst hk
        exact results_none (m := m.removePosition k) (Dict.get?_pop_self _ _) hrest
      next hk => exact ih ((Dict.get?_pop_ne _ (Ne.symm hk)).trans hst) hrest

end calls

/-! ### The updates of a state -/

namespace PartialRunnerState
variable {cfg : PartialRunnerSettings} {price : ℚ} {st : PartialRunnerState} {prices : List ℚ}

/-- The stop that the last update with one returned. -/
def lastStop (cfg : PartialRunnerConfig) (st : PartialRunnerState) : Option ℚ :=
  if st.phase = .initial then none else some (st.floor cfg)

/-- The take profit is cancelled with the first advance. -/
def TpPending (st : PartialRunnerState) : Prop := st.phase = .initial → st.tpCancelled = false

theorem le_trailStop_iff :
    st.direction.le (st.direction.ahead st.entryPrice cfg.breakevenOffset) (st.trailStop cfg.toPartialRunnerConfig) ↔
    cfg.breakevenOffset + st.atr * cfg.tightTrailDistanceAtr ≤ st.direction.move st.entryPrice st.bestPrice := by
  unfold trailStop
  rcases st.direction with _ | _
  · show _ + _ ≤ _ - _ ↔ _ ≤ _ - _
    constructor
    · intro h
      linarith
    · intro h
      linarith
  · show _ + _ ≤ _ - _ ↔ _ ≤ _ - _
    constructor
    · intro h
      linarith
    · intro h
      linarith

/-- What an update does in each phase. -/
theorem update_cases (cfg : PartialRunnerSettings) (price : ℚ) (st : PartialRunnerState) (hpending : st.TpPending) :
    let r := st.update cfg.toPartialRunnerConfig price
    let s := st.see price
    -- nothing is reached
    (st.phase ≠ .tightTrail ∧ r = ({}, s) ∧
      (st.phase = .initial → ¬ cfg.breakevenTriggerAtr ≤ s.favorableMove) ∧
      (st.phase = .breakeven → ¬ cfg.tightTrailTriggerAtr ≤ s.favorableMove)) ∨
    -- the first trigger, and perhaps the second one too
    (st.phase = .initial ∧ cfg.breakevenTriggerAtr ≤ s.favorableMove ∧ r.1.cancelTp = true ∧ r.2.phase ≠ .initial ∧
      r.1.newStop = some (r.2.floor cfg.toPartialRunnerConfig)) ∨
    -- the second trigger from breakeven
    (st.phase = .breakeven ∧ cfg.tightTrailTriggerAtr ≤ s.favorableMove ∧ r.1.cancelTp = false ∧
      r.2 = { s with phase := .tightTrail } ∧ r.1.newStop = some (s.trailStop cfg.toPartialRunnerConfig)) ∨
    (st.phase = .tightTrail ∧ r.1.cancelTp = false ∧ r.2 = s ∧ r.1.newStop = some (s.trailStop cfg.toPartialRunnerConfig)) := by
  dsimp only
  have hphase : (st.see price).phase = st.phase := rfl
  have hstays (h : ¬ (st.phase = .initial ∧ cfg.breakevenTriggerAtr ≤ (st.see price).favorableMove)) :
      st.moveToBreakeven cfg.toPartialRunnerConfig price = ({}, st.see price) := if_neg h
  rcases hst : st.phase with _ | _ | _
  · by_cases htrigger : cfg.breakevenTriggerAtr ≤ (st.see price).favorableMove
    · have hmove : st.moveToBreakeven cfg.toPartialRunnerConfig price =
          ({ action := some .moveToBreakeven, newStop := some ((st.see price).breakevenStop cfg.toPartialRunnerConfig)
             cancelTp := !(st.see price).tpCancelled },
            { st.see price with phase := .breakeven, tpCancelled := true }) := if_pos ⟨hst, htrigger⟩
      have hcancel : (!(st.see price).tpCancelled) = true := by
        rw [show (st.see price).tpCancelled = st.tpCancelled from rfl, hpending hst]
        rfl
      refine .inr (.inl ⟨rfl, htrigger, ?_⟩)
      unfold update
      rw [hmove]
      dsimp only
      split
      · exact ⟨hcancel, RunnerPhase.noConfusion, rfl⟩
      · split
        next h => cases h
        · exact ⟨hcancel, RunnerPhase.noConfusion, rfl⟩
    · refine .inl ⟨RunnerPhase.noConfusion, ?_, fun _ => htrigger, RunnerPhase.noConfusion⟩
      unfold update
      rw [hstays fun h => htrigger h.2]
      dsimp only
      rw [hphase, hst]
      simp
  · have hmove := hstays fun h => by rw [hst] at h; cases h.1
    unfold update
    rw [hmove]
    dsimp only
    rw [hphase, hst]
    by_cases htrigger : cfg.tightTrailTriggerAtr ≤ (st.see price).favorableMove
    · rw [if_pos ⟨rfl, htrigger⟩]
      exact .inr (.inr (.inl ⟨rfl, htrigger, rfl, rfl, rfl⟩))
    · rw [if_neg fun h => htrigger h.2, if_neg RunnerPhase.noConfusion]
      exact .inl ⟨RunnerPhase.noConfusion, rfl, RunnerPhase.noConfusion, fun _ => htrigger⟩
  · have hmove := hstays fun h => by rw [hst] at h; cases h.1
    unfold update
    rw [hmove]
    dsimp only
    rw [hphase, hst]
    exact .inr (.inr (.inr ⟨rfl, rfl, rfl, rfl⟩))

theorem pairwise_le_cons {side : PositionSide} {p q : ℚ} {stops : List ℚ} :
    (p :: q :: stops).Pairwise side.le ↔ side.le p q ∧ (q :: stops).Pairwise side.le := by
  have : Trans side.le side.le side.le := ⟨PositionSide.le_trans⟩
  rw [← List.isChain_iff_pairwise, List.isChain_cons_cons, List.isChain_iff_pairwise]

theorem update_direction (cfg : PartialRunnerConfig) (price : ℚ) (st : PartialRunnerState) :
    (st.update cfg price).2.direction = st.direction := (update_spec cfg price st).1

theorem TpPending.update (h : st.TpPending) (cfg : PartialRunnerSettings) (price : ℚ) :
    (st.update cfg.toPartialRunnerConfig price).2.TpPending := by
  rcases update_cases cfg price st h with ⟨-, hr, -⟩ | ⟨-, -, -, hphase, -⟩ | ⟨-, -, -, hr, -⟩ | ⟨htight, -, hr, -⟩
  · rw [hr]
    exact h
  · exact fun hinitial => absurd hinitial hphase
  · rw [hr]
    exact RunnerPhase.noConfusion
  · rw [hr]
    exact fun hinitial => RunnerPhase.noConfusion (htight.symm.trans hinitial)

/-- The stop of one update: it follows the last one exactly where the trail does not start behind the breakeven stop. -/
theorem pairwise_update (h : st.TpPending) (price : ℚ) (stops : List ℚ) :
    let r := st.update cfg.toPartialRunnerConfig price
    ((st.lastStop cfg.toPartialRunnerConfig).toList ++ (r.1.newStop.toList ++ stops)).Pairwise st.direction.le ↔
      (st.phase = .breakeven → cfg.tightTrailTriggerAtr ≤ (st.see price).favorableMove →
        cfg.breakevenOffset + st.atr * cfg.tightTrailDistanceAtr ≤ st.direction.move st.entryPrice (st.see price).bestPrice) ∧
      ((r.2.lastStop cfg.toPartialRunnerConfig).toList ++ stops).Pairwise st.direction.le := by
  dsimp only
  rcases update_cases cfg price st h with
    ⟨hphase, hr, -, hkeep⟩ | ⟨hinitial, -, -, hphase, hstop⟩ | ⟨hbreakeven, hreach, -, hr, hstop⟩ |
    ⟨htight, -, hr, hstop⟩
  · rw [hr]
    have hsame : (st.see price).lastStop cfg.toPartialRunnerConfig = st.lastStop cfg.toPartialRunnerConfig := by
      unfold lastStop floor
      rcases hst : st.phase with _ | _ | _
      · simp [see, hst]
      · simp [see, hst, breakevenStop]
      · exact absurd hst hphase
    rw [hsame]
    exact (and_iff_right fun hb hreach => absurd hreach (hkeep hb)).symm
  · have hnone : st.lastStop cfg.toPartialRunnerConfig = none := if_pos hinitial
    have hsome : (st.update cfg.toPartialRunnerConfig price).2.lastStop cfg.toPartialRunnerConfig =
        (st.update cfg.toPartialRunnerConfig price).1.newStop := (if_neg hphase).trans hstop.symm
    rw [hnone, hsome]
    exact (and_iff_right fun hb => RunnerPhase.noConfusion (hinitial.symm.trans hb)).symm
  · have hlast : st.lastStop cfg.toPartialRunnerConfig = some (st.breakevenStop cfg.toPartialRunnerConfig) := by
      unfold lastStop floor
      rw [hbreakeven]
      rfl
    rw [hstop, hlast, hr]
    show (_ :: _ :: stops).Pairwise st.direction.le ↔ _ ∧ (_ :: stops).Pairwise st.direction.le
    rw [pairwise_le_cons]
    refine and_congr ?_ Iff.rfl
    have htrail := @le_trailStop_iff cfg (st.see price)
    exact ⟨fun hle _ _ => htrail.1 hle, fun hcovers => htrail.2 (hcovers hbreakeven hreach)⟩
  · have hlast : st.lastStop cfg.toPartialRunnerConfig = some (st.trailStop cfg.toPartialRunnerConfig) := by
      unfold lastStop floor
      rw [htight]
      rfl
    have hlast' : (st.see price).lastStop cfg.toPartialRunnerConfig =
        some ((st.see price).trailStop cfg.toPartialRunnerConfig) := by
      unfold lastStop floor
      rw [show (st.see price).phase = .tightTrail from htight]
      rfl
    rw [hstop, hlast, hr, hlast']
    show (_ :: _ :: stops).Pairwise st.direction.le ↔ _ ∧ (_ :: stops).Pairwise st.direction.le
    rw [pairwise_le_cons]
    refine and_congr ?_ Iff.rfl
    have hle : st.direction.le (st.trailStop cfg.toPartialRunnerConfig) ((st.see price).trailStop cfg.toPartialRunnerConfig) :=
      PositionSide.behind_le_behind (PositionSide.le_best _ _ _) _
    exact ⟨fun _ hb => RunnerPhase.noConfusion (htight.symm.trans hb), fun _ => hle⟩

theorem cancelTp_iff (h : st.TpPending) (price : ℚ) : (st.update cfg.toPartialRunnerConfig price).1.cancelTp = true ↔
    st.phase = .initial ∧ cfg.breakevenTriggerAtr ≤ (st.see price).favorableMove := by
  rcases update_cases cfg price st h with
    ⟨-, hr, hkeep, -⟩ | ⟨hinitial, hreach, hcancel, -⟩ | ⟨hphase, -, hcancel, -⟩ | ⟨hphase, hcancel, -⟩
  · rw [hr]
    exact ⟨Bool.noConfusion, fun hreach => absurd hreach.2 (hkeep hreach.1)⟩
  · exact ⟨fun _ => ⟨hinitial, hreach⟩, fun _ => hcancel⟩
  · rw [hcancel]
    exact ⟨Bool.noConfusion, fun hreach => RunnerPhase.noConfusion (hphase.symm.trans hreach.1)⟩
  · rw [hcancel]
    exact ⟨Bool.noConfusion, fun hreach => RunnerPhase.noConfusion (hphase.symm.trans hreach.1)⟩

/-- An update keeps the phase, or leaves the first one or the second one behind. -/
theorem rank_update (h : st.TpPending) (price : ℚ) :
    let r := st.update cfg.toPartialRunnerConfig price
    st.phase.rank ≤ r.2.phase.rank ∧ (r.1.cancelTp = true → r.2.phase ≠ .initial) := by
  dsimp only
  rcases update_cases cfg price st h with
    ⟨-, hr, -⟩ | ⟨hinitial, -, -, hphase, -⟩ | ⟨hphase, -, hcancel, hr, -⟩ | ⟨hphase, hcancel, hr, -⟩
  · rw [hr]
    exact ⟨le_rfl, Bool.noConfusion⟩
  · rw [hinitial]
    exact ⟨Nat.zero_le _, fun _ => hphase⟩
  · rw [hr, hphase, hcancel]
    exact ⟨Nat.le_succ 1, Bool.noConfusion⟩
  · rw [hr, hcancel]
    exact ⟨le_rfl, Bool.noConfusion⟩

theorem filterMap_newStop (r : RunnerUpdate × PartialRunnerState) (results : List (RunnerUpdate × PartialRunnerState)) :
    ((r :: results).filterMap fun r => r.1.newStop) = r.1.newStop.toList ++ results.filterMap fun r => r.1.newStop := by
  rw [List.filterMap_cons]
  rcases r.1.newStop with _ | p
  · rfl
  · rfl

/-- The stops follow each other, and the take profit is cancelled as the settings say, exactly when every price
tightens. -/
theorem stops_iff (h : st.TpPending) (prices : List ℚ) :
    ((st.lastStop cfg.toPartialRunnerConfig).toList ++
        (st.results cfg.toPartialRunnerConfig prices).filterMap fun r => r.1.newStop).Pairwise st.direction.le ∧
      (∀ r ∈ st.results cfg.toPartialRunnerConfig prices, r.1.cancelTp = true → cfg.removeFixedTp = true) ↔
    Along (fun st price => (st.update cfg.toPartialRunnerConfig price).2) (Tightens cfg) st prices := by
  induction prices generalizing st with
  | nil =>
    rcases st.lastStop cfg.toPartialRunnerConfig with _ | p
    · simp [results, Along]
    · simp [results, Along]
  | cons price prices ih =>
    have hnext := ih (h.update cfg price)
    rw [update_direction] at hnext
    have hpair := @pairwise_update cfg st h price
      (((st.update cfg.toPartialRunnerConfig price).2.results cfg.toPartialRunnerConfig prices).filterMap fun r => r.1.newStop)
    dsimp only at hpair
    rw [results, filterMap_newStop, hpair, List.forall_mem_cons, cancelTp_iff h, Along, ← hnext]
    constructor
    · rintro ⟨⟨htrail, hstops⟩, htp, hrest⟩
      exact ⟨⟨fun hp hreach => htp ⟨hp, hreach⟩, htrail⟩, hstops, hrest⟩
    · rintro ⟨ht, hstops, hrest⟩
      exact ⟨⟨ht.trail, hstops⟩, fun hreach => ht.takeProfit hreach.1 hreach.2, hrest⟩

theorem phases_advance (h : st.TpPending) (prices : List ℚ) :
    (st.phase.rank :: (st.results cfg.toPartialRunnerConfig prices).map fun r => r.2.phase.rank).Pairwise (· ≤ ·) := by
  induction prices generalizing st with
  | nil => simp [results]
  | cons price prices ih =>
    have hnext := ih (h.update cfg price)
    rw [results, List.map_cons, ← List.isChain_iff_pairwise, List.isChain_cons_cons, List.isChain_iff_pairwise]
    exact ⟨(rank_update h price).1, hnext⟩

theorem cancelTp_once (h : st.TpPending) (prices : List ℚ) :
    ((st.results cfg.toPartialRunnerConfig prices).countP fun r => r.1.cancelTp) ≤ if st.phase = .initial then 1 else 0 := by
  induction prices generalizing st with
  | nil => simp [results]
  | cons price prices ih =>
    have hnext := ih (h.update cfg price)
    obtain ⟨hrank, hadvance⟩ := @rank_update cfg st h price
    rw [results, List.countP_cons]
    rcases hcancel : (st.update cfg.toPartialRunnerConfig price).1.cancelTp with _ | _
    · have hinitial : (st.update cfg.toPartialRunnerConfig price).2.phase = .initial → st.phase = .initial := by
        intro hinitial
        rw [hinitial] at hrank
        rcases hst : st.phase with _ | _ | _
        · rfl
        · rw [hst] at hrank
          cases hrank
        · rw [hst] at hrank
          cases hrank
      split at hnext
      next hphase =>
        rw [if_pos (hinitial hphase)]
        exact hnext
      next => exact hnext.trans (Nat.zero_le _)
    · rw [if_neg (hadvance hcancel)] at hnext
      rw [if_pos ((cancelTp_iff h price).1 hcancel).1]
      exact Nat.succ_le_succ hnext

end PartialRunnerState

/-- Between two registrations the runner never loosens exactly when every price of the position tightens. -/
theorem neverLoosens_iff {κ : Type} [DecidableEq κ] (cfg : PartialRunnerSettings) (m : PartialRunnerManager κ) (id : κ)
    (entryPrice : ℚ) (direction : PositionSide) (atr : ℚ) (ops : List (RunnerOp κ)) (hops : ∀ op ∈ ops, ¬ op.Registers id) :
    NeverLoosens cfg direction
        ((m.registerPosition cfg.toPartialRunnerConfig id entryPrice direction atr).results cfg id ops) ↔
      (cfg.enabled = true →
        Along (fun st price => (PartialRunnerState.update cfg.toPartialRunnerConfig price st).2)
          (PartialRunnerState.Tightens cfg) (.register entryPrice direction atr) (pricesOf id ops)) := by
  rcases hon : cfg.enabled with _ | _
  · refine iff_of_true ?_ nofun
    have hsame : m.registerPosition cfg.toPartialRunnerConfig id entryPrice direction atr = m := by
      refine if_neg ?_
      rw [hon]
      exact Bool.false_ne_true
    rw [hsame]
    have hresults := @results_disabled κ _ cfg id m ops hon
    refine ⟨?_, ?_, ?_, ?_⟩
    · refine List.pairwise_map.2 (List.pairwise_of_forall_mem_list fun r hr r' hr' => ?_)
      have hsome := (hresults r hr).2.symm.trans (hresults r' hr').2
      rw [Option.some.inj hsome]
    · have hnil : ((m.results cfg id ops).filterMap fun r => r.1.newStop) = [] := by
        refine List.filterMap_eq_nil_iff.2 fun r hr => ?_
        rw [(hresults r hr).1]
      rw [hnil]
      exact List.Pairwise.nil
    · have hzero : ((m.results cfg id ops).countP fun r => r.1.cancelTp) = 0 := by
        refine List.countP_eq_zero.2 fun r hr => ?_
        rw [(hresults r hr).1]
        exact Bool.false_ne_true
      omega
    · intro r hr hcancel
      rw [(hresults r hr).1] at hcancel
      cases hcancel
  · have hst : (m.registerPosition cfg.toPartialRunnerConfig id entryPrice direction atr).states.get? id =
        some (.register entryPrice direction atr) := by
      unfold PartialRunnerManager.registerPosition
      rw [if_pos hon]
      exact Dict.get?_set_self _ _ _
    have hpending : (PartialRunnerState.register entryPrice direction atr).TpPending := fun _ => rfl
    rw [results_eq hon hst hops, ← PartialRunnerState.stops_iff hpending]
    constructor
    · intro h _
      exact ⟨h.stop, h.cancelTpOnly⟩
    · intro h
      obtain ⟨hstop, hcancel⟩ := h rfl
      exact ⟨(List.pairwise_cons.1 (PartialRunnerState.phases_advance hpending _)).2, hstop,
        PartialRunnerState.cancelTp_once hpending _, hcancel⟩

/-- A long position goes to breakeven, and then starts its trail. -/
def runnerOps : List (RunnerOp Nat) := [.updatePosition 1 115, .updatePosition 1 125]

def runnerResults (cfg : PartialRunnerSettings) : List (RunnerUpdate × PartialRunnerState) :=
  (({} : PartialRunnerManager Nat).registerPosition cfg.toPartialRunnerConfig 1 100 .long 10).results cfg 1 runnerOps

theorem neverLoosens_iff_default : NeverLoosens { enabled := true } .long (runnerResults { enabled := true }) :=
  (neverLoosens_iff { enabled := true } {} 1 100 .long 10 runnerOps (by simp [runnerOps, RunnerOp.Registers])).2 fun _ =>
    ⟨⟨by decide +kernel, by decide +kernel⟩, ⟨by decide +kernel, by decide +kernel⟩, trivial⟩

/-- The take profit is to be cancelled where the settings keep it, and a trail as wide as its trigger starts behind the
breakeven stop. -/
theorem not_neverLoosens :
    ¬ NeverLoosens { enabled := true, removeFixedTp := false } .long
      (runnerResults { enabled := true, removeFixedTp := false }) ∧
    ¬ NeverLoosens { enabled := true, tightTrailDistanceAtr := 5/2 } .long
      (runnerResults { enabled := true, tightTrailDistanceAtr := 5/2 }) := by
  refine ⟨fun h => ?_, fun h => ?_⟩
  · have hcancel : ∃ r ∈ runnerResults { enabled := true, removeFixedTp := false }, r.1.cancelTp = true := by decide +kernel
    obtain ⟨r, hr, hcancel⟩ := hcancel
    exact Bool.false_ne_true (h.cancelTpOnly r hr hcancel)
  · have hstop := h.stop
    revert hstop
    decide +kernel

end PearlAlgo
