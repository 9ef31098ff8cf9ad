import Mathlib.Data.List.Sort
import PearlAlgo.PositionSide
import PearlAlgo.Py.Dict
import PearlAlgo.Py.Number

/-!
# The trailing stop manager (`execution/tradovate/trailing_stop.py`)

Phases that tighten the stop as the position moves in its favour, and overrides that scale them. An override's
reason, which no code reads, and the views `get_override`, `get_state` and `get_all_states` are left out.
-/

namespace PearlAlgo
open Py

def MULTIPLIER_MIN : ℚ := 1 / 2
def MULTIPLIER_MAX : ℚ := 2

def clamp (value lo hi : ℚ) : ℚ := max lo (min hi value)

structure TrailingOverride where
  trailAtrMultiplier : ℚ := 1
  activationAtrMultiplier : ℚ := 1
  forcePhase : Option String := none
  minMoveOverride : Option ℚ := none
  expiresAt : Option ℚ := none
  source : String := "default"
deriving DecidableEq

def TrailingOverride.isExpired (o : TrailingOverride) (now : ℚ) : Bool := o.expiresAt.any fun t => t ≤ now

def REGIME_PRESETS : List (String × TrailingOverride) :=
  [("trending", { trailAtrMultiplier := 6 / 5, source := "regime" }),
    ("volatile", { trailAtrMultiplier := 7 / 10, source := "regime" }),
    ("ranging", { trailAtrMultiplier := 17 / 20, source := "regime" })]

structure TrailingPhase where
  name : String
  activationAtr : ℚ
  trailAtr : ℚ
deriving DecidableEq

structure TrailingStopConfig where
  enabled : Bool := false
  minMovePoints : ℚ := 1 / 2
  allowExternalOverride : Bool := true
  regimeAdaptive : Bool := true
  maxOverrideTtlMinutes : Int := 120
  trailMultBounds : ℚ × ℚ := (MULTIPLIER_MIN, MULTIPLIER_MAX)
  actMultBounds : ℚ × ℚ := (MULTIPLIER_MIN, MULTIPLIER_MAX)
  /-- As the configuration lists them. -/
  rawPhases : List TrailingPhase := []

/-- `self.phases`: the highest activation first. -/
def TrailingStopConfig.phases (cfg : TrailingStopConfig) : List TrailingPhase :=
  cfg.rawPhases.insertionSort fun p q => q.activationAtr ≤ p.activationAtr

structure TrailingState where
  entryPrice : ℚ
  direction : PositionSide
  currentStop : ℚ
  bestPrice : ℚ
  currentPhase : Option String := none
  lastModifiedStop : ℚ
deriving DecidableEq

/-- What an override changes for one check. -/
structure TrailingParams where
  trailMult : ℚ
  actMult : ℚ
  forcedPhase : Option String
  minMove : ℚ

def TrailingStopConfig.params (cfg : TrailingStopConfig) : Option TrailingOverride → TrailingParams
  | none => ⟨1, 1, none, cfg.minMovePoints⟩
  | some o => ⟨o.trailAtrMultiplier, o.activationAtrMultiplier, o.forcePhase, o.minMoveOverride.getD cfg.minMovePoints⟩

/-- The phase that a favourable move activates; the empty name forces none. -/
def TrailingParams.activePhase (par : TrailingParams) (atr favorableMove : ℚ) (phases : List TrailingPhase) :
    Option TrailingPhase :=
  phases.find? fun phase =>
    (par.forcedPhase.all fun name => name = "" ∨ phase.name = name) ∧
      phase.activationAtr * par.actMult * atr ≤ favorableMove

namespace TrailingState

/-- One tick of MNQ from the entry at breakeven, and a trail behind the best price otherwise. -/
def candidate (par : TrailingParams) (atr : ℚ) (phase : TrailingPhase) (st : TrailingState) : ℚ :=
  if phase.trailAtr = 0 then st.direction.ahead st.entryPrice (1 / 4)
  else st.direction.behind st.bestPrice (phase.trailAtr * par.trailMult * atr)

/-- `check_and_update` of a registered position, from the update of the best price on. -/
def update (phases : List TrailingPhase) (par : TrailingParams) (price atr : ℚ) (st : TrailingState) :
    Option ℚ × TrailingState :=
  let st := { st with bestPrice := st.direction.best st.bestPrice price }
  let favorableMove := st.direction.move st.entryPrice st.bestPrice
  if favorableMove ≤ 0 then (none, st)
  else
    match par.activePhase atr favorableMove phases with
    | none => (none, st)
    | some phase =>
      let newStop := st.candidate par atr phase
      if st.direction.le newStop st.currentStop then (none, st)
      else if |newStop - st.lastModifiedStop| < par.minMove then (none, st)
      else
        (some newStop, { st with currentStop := newStop, lastModifiedStop := newStop, currentPhase := some phase.name })

end TrailingState

/-- The states by position, and the active override. -/
structure TrailingStopManager (κ : Type) where
  states : Dict κ TrailingState := .empty
  override : Option TrailingOverride := none
deriving DecidableEq

namespace TrailingStopManager

variable {κ : Type} [DecidableEq κ] (cfg : TrailingStopConfig)

def applyOverride (o : TrailingOverride) (m : TrailingStopManager κ) : TrailingStopManager κ :=
  { m with
    override := some
      { o with
        trailAtrMultiplier := clamp o.trailAtrMultiplier cfg.trailMultBounds.1 cfg.trailMultBounds.2
        activationAtrMultiplier := clamp o.activationAtrMultiplier cfg.actMultBounds.1 cfg.actMultBounds.2 } }

def applyRegimePreset (regime : String) (m : TrailingStopManager κ) : TrailingStopManager κ :=
  if ¬ cfg.regimeAdaptive then m
  else if m.override.any fun o => o.source ∉ ["regime", "default"] then m
  else
    match REGIME_PRESETS.lookup regime with
    | some preset => { m with override := some preset }
    | none => m

def clearOverride (m : TrailingStopManager κ) : TrailingStopManager κ := { m with override := none }

/-- `_get_effective_override`, which drops an override that has expired -/
def getEffectiveOverride (now : ℚ) (m : TrailingStopManager κ) : Option TrailingOverride × TrailingStopManager κ :=
  match m.override with
  | none => (none, m)
  | some o => if o.isExpired now then (none, m.clearOverride) else (some o, m)

def registerPosition (positionId : κ) (entryPrice : ℚ) (direction : PositionSide) (initialStop : ℚ)
    (m : TrailingStopManager κ) : TrailingStopManager κ :=
  { m with
    states := m.states.set positionId
      { entryPrice, direction, currentStop := initialStop, bestPrice := entryPrice, lastModifiedStop := initialStop } }

def removePosition (positionId : κ) (m : TrailingStopManager κ) : TrailingStopManager κ :=
  { m with states := m.states.pop positionId }

def checkAndUpdate (now : ℚ) (positionId : κ) (currentPrice currentAtr : ℚ) (m : TrailingStopManager κ) :
    Option ℚ × TrailingStopManager κ :=
  if cfg.enabled = false ∨ cfg.phases = [] then (none, m)
  else
    match m.states.get? positionId with
    | none => (none, m)
    | some st =>
      if currentAtr ≤ 0 then (none, m)
      else
        let (override, m) := m.getEffectiveOverride now
        let (newStop, st) := st.update cfg.phases (cfg.params override) currentPrice currentAtr
        (newStop, { m with states := m.states.set positionId st })

end TrailingStopManager

/-! ### The ratchet -/

namespace TrailingState

variable {phases : List TrailingPhase} {par : TrailingParams} {price atr : ℚ} {st : TrailingState}

/-- A check that returns a stop makes it the current one, and it is better than the one before. -/
theorem update_cases (phases : List TrailingPhase) (par : TrailingParams) (price atr : ℚ) (st : TrailingState) :
    (∃ b, st.update phases par price atr = (none, { st with bestPrice := b })) ∨
    ∃ b p name, st.update phases par price atr =
      (some p, { st with bestPrice := b, currentStop := p, lastModifiedStop := p, currentPhase := some name }) ∧
      ¬ st.direction.le p st.currentStop ∧ par.minMove ≤ |p - st.lastModifiedStop| := by
  unfold update
  dsimp only
  split
  · exact .inl ⟨_, rfl⟩
  · split
    · exact .inl ⟨_, rfl⟩
    next phase hphase =>
      split
      · exact .inl ⟨_, rfl⟩
      next hratchet =>
        split
        · exact .inl ⟨_, rfl⟩
        next hmove => exact .inr ⟨_, _, phase.name, rfl, hratchet, not_lt.1 hmove⟩

/-- The current stop moves in the favourable direction only. -/
theorem update_ratchet : (st.update phases par price atr).2.direction = st.direction ∧
    st.direction.le st.currentStop (st.update phases par price atr).2.currentStop := by
  rcases update_cases phases par price atr st with ⟨b, h⟩ | ⟨b, p, name, h, hratchet, -⟩
  · rw [h]
    exact ⟨rfl, PositionSide.le_refl _ _⟩
  · rw [h]
    exact ⟨rfl, PositionSide.le_of_not_le hratchet⟩

theorem update_returned {p : ℚ} (h : (st.update phases par price atr).1 = some p) :
    (st.update phases par price atr).2.currentStop = p := by
  rcases update_cases phases par price atr st with ⟨b, heq⟩ | ⟨b, q, name, heq, -⟩
  · rw [heq] at h
    cases h
  · rw [heq] at h ⊢
    exact Option.some.inj h

end TrailingState

namespace TrailingStopManager

variable {κ : Type} [DecidableEq κ] {cfg : TrailingStopConfig} {m : TrailingStopManager κ} {now price atr : ℚ}
  {positionId k : κ}

omit [DecidableEq κ] in
theorem getEffectiveOverride_states : (m.getEffectiveOverride now).2.states = m.states := by
  unfold getEffectiveOverride
  split
  · rfl
  · split <;> rfl

omit [DecidableEq κ] in
theorem applyRegimePreset_states (regime : String) : (m.applyRegimePreset cfg regime).states = m.states := by
  unfold applyRegimePreset
  split
  · rfl
  · split
    · rfl
    · split <;> rfl

/-- A check changes nothing but the override, or else it updates the state of its position. -/
theorem checkAndUpdate_cases (cfg : TrailingStopConfig) (m : TrailingStopManager κ) (now : ℚ) (positionId : κ) (price atr : ℚ) :
    m.checkAndUpdate cfg now positionId price atr = (none, m) ∨
    ∃ st par, m.states.get? positionId = some st ∧
      (m.checkAndUpdate cfg now positionId price atr).1 = (st.update cfg.phases par price atr).1 ∧
      (m.checkAndUpdate cfg now positionId price atr).2.states =
        m.states.set positionId (st.update cfg.phases par price atr).2 := by
  unfold checkAndUpdate
  split
  · exact .inl rfl
  · split
    · exact .inl rfl
    next st hst =>
      split
      · exact .inl rfl
      · refine .inr ⟨st, cfg.params (m.getEffectiveOverride now).1, hst, rfl, ?_⟩
        dsimp only
        rw [getEffectiveOverride_states]

/-- The check moves the stop of its own position in the favourable direction, and a stop that it returns is the
current one. -/
theorem checkAndUpdate_ratchet (cfg : TrailingStopConfig) (m : TrailingStopManager κ) (now : ℚ) (positionId : κ) (price atr : ℚ) :
    let r := m.checkAndUpdate cfg now positionId price atr
    (∀ st' ∈ r.2.states.get? positionId, ∃ st ∈ m.states.get? positionId,
      st'.direction = st.direction ∧ st.direction.le st.currentStop st'.currentStop) ∧
    (∀ k, k ≠ positionId → r.2.states.get? k = m.states.get? k) ∧
    ∀ p ∈ r.1, ∃ st' ∈ r.2.states.get? positionId, st'.currentStop = p := by
  dsimp only
  rcases checkAndUpdate_cases cfg m now positionId price atr with h | ⟨st, par, hst, hstop, hstates⟩
  · rw [h]
    refine ⟨?_, fun _ _ => rfl, nofun⟩
    intro st' hst'
    exact ⟨st', hst', rfl, PositionSide.le_refl _ _⟩
  · rw [hstop, hstates]
    refine ⟨?_, fun k hk => Dict.get?_set_ne _ _ hk, ?_⟩
    · intro st' hst'
      rw [Dict.get?_set_self] at hst'
      obtain rfl := Option.some.inj hst'
      exact ⟨st, hst, TrailingState.update_ratchet⟩
    · intro p hp
      exact ⟨_, Dict.get?_set_self _ _ _, TrailingState.update_returned hp⟩

end TrailingStopManager

end PearlAlgo
