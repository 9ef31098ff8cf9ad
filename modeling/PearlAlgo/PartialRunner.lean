import PearlAlgo.PositionSide
import PearlAlgo.Py.Dict

/-!
# The partial profit runner (`execution/advanced_exit_manager.py`)

`PartialRunnerState.update`: the stop goes to breakeven at the first trigger, and trails the best price from the
second one on. The settings, which each state copies from its manager, are a parameter; `get_all_states` is left out.
-/

namespace PearlAlgo
open Py

inductive RunnerPhase
  | initial
  | breakeven
  | tightTrail
deriving DecidableEq

structure PartialRunnerConfig where
  enabled : Bool := false
  breakevenTriggerAtr : ℚ := 3 / 2
  tightTrailTriggerAtr : ℚ := 5 / 2
  tightTrailDistanceAtr : ℚ := 1
  breakevenOffset : ℚ := 1 / 4

structure PartialRunnerState where
  entryPrice : ℚ
  direction : PositionSide
  atr : ℚ
  phase : RunnerPhase := .initial
  bestPrice : ℚ
  tpCancelled : Bool := false
deriving DecidableEq

inductive RunnerAction
  | moveToBreakeven
  | tightenTrail
deriving DecidableEq

structure RunnerUpdate where
  action : Option RunnerAction := none
  newStop : Option ℚ := none
  cancelTp : Bool := false
deriving DecidableEq

namespace PartialRunnerState

/-- `favorable_move`, in multiples of the ATR -/
def favorableMove (st : PartialRunnerState) : ℚ :=
  if 0 < st.atr then st.direction.move st.entryPrice st.bestPrice / st.atr else 0

def breakevenStop (cfg : PartialRunnerConfig) (st : PartialRunnerState) : ℚ := st.direction.ahead st.entryPrice cfg.breakevenOffset

def trailStop (cfg : PartialRunnerConfig) (st : PartialRunnerState) : ℚ :=
  st.direction.behind st.bestPrice (st.atr * cfg.tightTrailDistanceAtr)

/-- The first part of `update`: the best price and the move to breakeven. -/
def moveToBreakeven (cfg : PartialRunnerConfig) (currentPrice : ℚ) (st : PartialRunnerState) : RunnerUpdate × PartialRunnerState :=
  let st := { st with bestPrice := st.direction.best st.bestPrice currentPrice }
  if st.phase = .initial ∧ cfg.breakevenTriggerAtr ≤ st.favorableMove then
    ({ action := some .moveToBreakeven, newStop := some (st.breakevenStop cfg), cancelTp := !st.tpCancelled },
      { st with phase := .breakeven, tpCancelled := true })
  else ({}, st)

def update (cfg : PartialRunnerConfig) (currentPrice : ℚ) (st : PartialRunnerState) : RunnerUpdate × PartialRunnerState :=
  let (u, st) := st.moveToBreakeven cfg currentPrice
  if st.phase = .breakeven ∧ cfg.tightTrailTriggerAtr ≤ st.favorableMove then
    ({ u with action := some .tightenTrail, newStop := some (st.trailStop cfg) }, { st with phase := .tightTrail })
  else if st.phase = .tightTrail then
    -- no stop has been set in this phase
    ({ u with action := some .tightenTrail, newStop := some (st.trailStop cfg) }, st)
  else (u, st)

/-- The stop that the state stands for. -/
def floor (cfg : PartialRunnerConfig) (st : PartialRunnerState) : ℚ :=
  match st.phase with
  | .tightTrail => st.trailStop cfg
  | _ => st.breakevenStop cfg

/-- When this price starts the tight trail, the trail is not behind the breakeven stop. -/
def TrailCovers (cfg : PartialRunnerConfig) (currentPrice : ℚ) (st : PartialRunnerState) : Prop :=
  let st' := (st.moveToBreakeven cfg currentPrice).2
  st'.phase = .breakeven → cfg.tightTrailTriggerAtr ≤ st'.favorableMove →
    cfg.breakevenOffset + st'.atr * cfg.tightTrailDistanceAtr ≤ st'.direction.move st'.entryPrice st'.bestPrice

instance (cfg : PartialRunnerConfig) (currentPrice : ℚ) (st : PartialRunnerState) : Decidable (st.TrailCovers cfg currentPrice) :=
  inferInstanceAs (Decidable (_ → _ → _))

variable {cfg : PartialRunnerConfig} {price : ℚ} {st : PartialRunnerState}

theorem moveToBreakeven_spec (cfg : PartialRunnerConfig) (price : ℚ) (st : PartialRunnerState) :
    let r := st.moveToBreakeven cfg price
    r.2.direction = st.direction ∧ st.direction.le (st.floor cfg) (r.2.floor cfg) ∧
      (∀ p ∈ r.1.newStop, p = r.2.floor cfg) := by
  dsimp only
  have hbest : st.direction.le (st.floor cfg)
      ({ st with bestPrice := st.direction.best st.bestPrice price }.floor cfg) := by
    unfold floor
    rcases st.phase with _ | _ | _
    · exact PositionSide.le_refl _ _
    · exact PositionSide.le_refl _ _
    · exact PositionSide.behind_le_behind (PositionSide.le_best _ _ _) _
  unfold moveToBreakeven
  dsimp only
  split
  next hinitial =>
    refine ⟨rfl, ?_, ?_⟩
    · unfold floor
      rw [hinitial.1]
      exact PositionSide.le_refl _ _
    · rintro p ⟨⟩
      rfl
  · exact ⟨rfl, hbest, fun _ hp => absurd hp (Option.not_mem_none _)⟩

/-- A stop that an update returns is the new floor, which does not move against the position unless a tight trail
starts behind it. -/
theorem update_spec (cfg : PartialRunnerConfig) (price : ℚ) (st : PartialRunnerState) :
    let r := st.update cfg price
    r.2.direction = st.direction ∧
      (st.TrailCovers cfg price → st.direction.le (st.floor cfg) (r.2.floor cfg)) ∧
      (∀ p ∈ r.1.newStop, p = r.2.floor cfg) := by
  obtain ⟨hdir, hfloor, hstop⟩ := moveToBreakeven_spec cfg price st
  unfold TrailCovers update
  dsimp only at *
  generalize st.moveToBreakeven cfg price = r at *
  split
  next hstart =>
    refine ⟨hdir, ?_, ?_⟩
    · intro hcovers
      refine PositionSide.le_trans hfloor ?_
      show st.direction.le (r.2.floor cfg) (r.2.trailStop cfg)
      unfold floor
      rw [← hdir, hstart.1]
      exact PositionSide.ahead_le_behind (hcovers hstart.1 hstart.2)
    · rintro p ⟨⟩
      rfl
  · split
    next htrail =>
      refine ⟨hdir, fun _ => hfloor, ?_⟩
      rintro p ⟨⟩
      unfold floor
      rw [htrail]
    · exact ⟨hdir, fun _ => hfloor, hstop⟩

end PartialRunnerState

structure PartialRunnerManager (κ : Type) where
  states : Dict κ PartialRunnerState := .empty

namespace PartialRunnerManager

variable {κ : Type} [DecidableEq κ] (cfg : PartialRunnerConfig)

def registerPosition (positionId : κ) (entryPrice : ℚ) (direction : PositionSide) (atr : ℚ)
    (m : PartialRunnerManager κ) : PartialRunnerManager κ :=
  if cfg.enabled then { m with states := m.states.set positionId { entryPrice, direction, atr, bestPrice := entryPrice } }
  else m

def updatePosition (positionId : κ) (currentPrice : ℚ) (m : PartialRunnerManager κ) :
    RunnerUpdate × PartialRunnerManager κ :=
  match m.states.get? positionId with
  | some st =>
    if cfg.enabled then
      let (u, st) := st.update cfg currentPrice
      (u, { m with states := m.states.set positionId st })
    else ({}, m)
  | none => ({}, m)

/-- The update moves the floor of its own position, and a stop that it returns is the floor. -/
theorem updatePosition_floor (cfg : PartialRunnerConfig) (m : PartialRunnerManager κ) (positionId : κ) (price : ℚ) :
    let r := m.updatePosition cfg positionId price
    (∀ st' ∈ r.2.states.get? positionId, ∃ st ∈ m.states.get? positionId,
      st'.direction = st.direction ∧ (st.TrailCovers cfg price → st.direction.le (st.floor cfg) (st'.floor cfg))) ∧
    (∀ k, k ≠ positionId → r.2.states.get? k = m.states.get? k) ∧
    ∀ p ∈ r.1.newStop, ∃ st' ∈ r.2.states.get? positionId, st'.floor cfg = p := by
  dsimp only
  have hsame : (∀ st' ∈ m.states.get? positionId, ∃ st ∈ m.states.get? positionId,
      st'.direction = st.direction ∧ (st.TrailCovers cfg price → st.direction.le (st.floor cfg) (st'.floor cfg))) := by
    intro st hst
    exact ⟨st, hst, rfl, fun _ => PositionSide.le_refl _ _⟩
  unfold updatePosition
  split
  next st hst =>
    split
    · refine ⟨?_, fun k hk => Dict.get?_set_ne _ _ hk, ?_⟩
      · intro st' hst'
        rw [Dict.get?_set_self] at hst'
        obtain rfl := Option.some.inj hst'
        obtain ⟨hdir, hfloor, -⟩ := PartialRunnerState.update_spec cfg price st
        exact ⟨st, hst, hdir, hfloor⟩
      · intro p hp
        exact ⟨_, Dict.get?_set_self _ _ _, ((PartialRunnerState.update_spec cfg price st).2.2 p hp).symm⟩
    · exact ⟨hsame, fun _ _ => rfl, fun _ hp => absurd hp (Option.not_mem_none _)⟩
  · exact ⟨hsame, fun _ _ => rfl, fun _ hp => absurd hp (Option.not_mem_none _)⟩

end PartialRunnerManager

end PearlAlgo
