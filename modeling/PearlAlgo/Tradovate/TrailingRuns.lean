import PearlAlgo.Tradovate.TrailingStop

/-!
# Runs of the trailing stop manager (`execution/tradovate/trailing_stop.py`)

A run is any sequence of calls, for any positions; the clock that a check reads may have passed the end of the
override. Between two registrations of a position its stop only moves in its favour (`steps_ratchet`). A stop trails
the best price and not the current one, so it may be beyond the market (`returned_protective_iff`).
-/

namespace PearlAlgo
open Py

inductive TrailingOp (κ : Type)
  | registerPosition (positionId : κ) (entryPrice : ℚ) (direction : PositionSide) (initialStop : ℚ)
  | removePosition (positionId : κ)
  | checkAndUpdate (now : ℚ) (positionId : κ) (currentPrice currentAtr : ℚ)
  | applyOverride (o : TrailingOverride)
  | applyRegimePreset (regime : String)
  | clearOverride
deriving DecidableEq

/-- A stop that a check returned, and the minimum move in force. -/
structure ReturnedStop where
  stop : ℚ
  minMove : ℚ
deriving DecidableEq

section
variable {κ : Type}

namespace TrailingOp

def positionId : TrailingOp κ → Option κ
  | registerPosition id _ _ _ | removePosition id | checkAndUpdate _ id _ _ => some id
  | applyOverride _ | applyRegimePreset _ | clearOverride => none

/-- The position is neither registered by this call nor removed. -/
def Keeps (id : κ) : TrailingOp κ → Prop
  | registerPosition k _ _ _ | removePosition k => k ≠ id
  | _ => True

variable [DecidableEq κ]

instance (id : κ) (op : TrailingOp κ) : Decidable (op.Keeps id) :=
  match op with
  | registerPosition _ _ _ _ | removePosition _ => inferInstanceAs (Decidable (_ ≠ id))
  | checkAndUpdate _ _ _ _ | applyOverride _ | applyRegimePreset _ | clearOverride => inferInstanceAs (Decidable True)

def apply (cfg : TrailingStopConfig) (m : TrailingStopManager κ) : TrailingOp κ → Option ℚ × TrailingStopManager κ
  | registerPosition id entryPrice direction initialStop => (none, m.registerPosition id entryPrice direction initialStop)
  | removePosition id => (none, m.removePosition id)
  | checkAndUpdate now id currentPrice currentAtr => m.checkAndUpdate cfg now id currentPrice currentAtr
  | applyOverride o => (none, m.applyOverride cfg o)
  | applyRegimePreset regime => (none, m.applyRegimePreset cfg regime)
  | clearOverride => (none, m.clearOverride)

/-- The stop that the call returns for the position. -/
def returned (cfg : TrailingStopConfig) (id : κ) (m : TrailingStopManager κ) : TrailingOp κ → Option ReturnedStop
  | checkAndUpdate now k currentPrice currentAtr =>
    if k = id then
      (m.checkAndUpdate cfg now k currentPrice currentAtr).1.map fun p =>
        ⟨p, (cfg.params (m.getEffectiveOverride now).1).minMove⟩
    else none
  | _ => none

/-- The price that the call shows of the position. -/
def price? (id : κ) : TrailingOp κ → Option ℚ
  | checkAndUpdate _ k currentPrice currentAtr => if k = id ∧ 0 < currentAtr then some currentPrice else none
  | _ => none

end TrailingOp

/-- A call, and the manager that it finds. -/
structure TrailingStep (κ : Type) where
  before : TrailingStopManager κ
  op : TrailingOp κ

variable [DecidableEq κ]

def TrailingStep.after (cfg : TrailingStopConfig) (s : TrailingStep κ) : TrailingStopManager κ :=
  (s.op.apply cfg s.before).2

namespace TrailingStopManager

def steps (cfg : TrailingStopConfig) (m : TrailingStopManager κ) : List (TrailingOp κ) → List (TrailingStep κ)
  | [] => []
  | op :: ops => ⟨m, op⟩ :: (op.apply cfg m).2.steps cfg ops

def run (cfg : TrailingStopConfig) (m : TrailingStopManager κ) (ops : List (TrailingOp κ)) : TrailingStopManager κ :=
  ops.foldl (fun m op => (op.apply cfg m).2) m

end TrailingStopManager

def currentStops (cfg : TrailingStopConfig) (id : κ) (steps : List (TrailingStep κ)) : List ℚ :=
  steps.filterMap fun s => ((s.after cfg).states.get? id).map TrailingState.currentStop

def returnedStops (cfg : TrailingStopConfig) (id : κ) (steps : List (TrailingStep κ)) : List ReturnedStop :=
  steps.filterMap fun s => s.op.returned cfg id s.before

def pricesSeen (id : κ) (ops : List (TrailingOp κ)) : List ℚ := ops.filterMap (TrailingOp.price? id)

end

/-! ### One step -/

section step
variable {κ : Type} [DecidableEq κ] {cfg : TrailingStopConfig} {m : TrailingStopManager κ} {id : κ} {st : TrailingState}
  {op : TrailingOp κ} {now price atr : ℚ}

theorem TrailingStopConfig.checks_cases (cfg : TrailingStopConfig) (atr : ℚ) :
    (cfg.enabled = true ∧ cfg.phases ≠ [] ∧ 0 < atr) ∨ (cfg.enabled = false ∨ cfg.phases = []) ∨ atr ≤ 0 := by
  rcases Bool.eq_false_or_eq_true cfg.enabled with henabled | henabled
  · rcases em (cfg.phases = []) with hphases | hphases
    · exact .inr (.inl (.inr hphases))
    · rcases lt_or_ge 0 atr with hatr | hatr
      · exact .inl ⟨henabled, hphases, hatr⟩
      · exact .inr (.inr hatr)
  · exact .inr (.inl (.inl henabled))

theorem checkAndUpdate_skipped (hst : m.states.get? id = some st)
    (hskip : (cfg.enabled = false ∨ cfg.phases = []) ∨ atr ≤ 0) : m.checkAndUpdate cfg now id price atr = (none, m) := by
  unfold TrailingStopManager.checkAndUpdate
  rcases em (cfg.enabled = false ∨ cfg.phases = []) with hoff | hon
  · rw [if_pos hoff]
  · rw [if_neg hon, hst]
    exact if_pos (hskip.resolve_left hon)

theorem checkAndUpdate_checked (hst : m.states.get? id = some st)
    (hcheck : cfg.enabled = true ∧ cfg.phases ≠ [] ∧ 0 < atr) :
    let r := st.update cfg.phases (cfg.params (m.getEffectiveOverride now).1) price atr
    (m.checkAndUpdate cfg now id price atr).1 = r.1 ∧
      (m.checkAndUpdate cfg now id price atr).2.states = m.states.set id r.2 := by
  obtain ⟨henabled, hphases, hatr⟩ := hcheck
  unfold TrailingStopManager.checkAndUpdate
  rw [if_neg (by simp [henabled, hphases]), hst]
  dsimp only
  rw [if_neg (not_le.2 hatr)]
  dsimp only
  rw [TrailingStopManager.getEffectiveOverride_states]
  exact ⟨rfl, rfl⟩

theorem apply_states_ne (cfg : TrailingStopConfig) (m : TrailingStopManager κ) (op : TrailingOp κ) {k : κ}
    (hk : op.positionId ≠ some k) : (op.apply cfg m).2.states.get? k = m.states.get? k := by
  cases op with
  | registerPosition id entryPrice direction initialStop =>
    exact Dict.get?_set_ne _ _ fun h => hk (congrArg some h.symm)
  | removePosition id => exact Dict.get?_pop_ne _ fun h => hk (congrArg some h.symm)
  | checkAndUpdate now id price atr =>
    exact (TrailingStopManager.checkAndUpdate_ratchet cfg m now id price atr).2.1 k fun h => hk (congrArg some h.symm)
  | applyOverride o => rfl
  | applyRegimePreset regime =>
    show (m.applyRegimePreset cfg regime).states.get? k = _
    rw [TrailingStopManager.applyRegimePreset_states]
  | clearOverride => rfl

/-- The state of a position after a call that neither registers nor removes it: the stop stays, or the call returned
one that is more favourable and far enough from the last. -/
structure Ratchets (st st' : TrailingState) (returned : Option ReturnedStop) : Prop where
  direction : st'.direction = st.direction
  stop : returned = none ∧ st'.currentStop = st.currentStop ∧ st'.lastModifiedStop = st.lastModifiedStop ∨
    ∃ r, returned = some r ∧ st.direction.lt st.currentStop r.stop ∧ r.minMove ≤ |r.stop - st.lastModifiedStop| ∧
      st'.currentStop = r.stop ∧ st'.lastModifiedStop = r.stop

theorem Ratchets.le {st st' : TrailingState} {r : Option ReturnedStop} (h : Ratchets st st' r) :
    st.direction.le st.currentStop st'.currentStop := by
  rcases h.stop with ⟨-, hstop, -⟩ | ⟨r, -, hlt, -, hstop, -⟩
  · rw [hstop]
    exact PositionSide.le_refl _ _
  · rw [hstop]
    exact PositionSide.le_of_lt hlt

theorem Ratchets.refl (st : TrailingState) : Ratchets st st none := ⟨rfl, .inl ⟨rfl, rfl, rfl⟩⟩

theorem update_ratchets (phases : List TrailingPhase) (par : TrailingParams) (price atr : ℚ) (st : TrailingState) :
    Ratchets st (st.update phases par price atr).2 ((st.update phases par price atr).1.map fun p => ⟨p, par.minMove⟩) := by
  rcases TrailingState.update_cases phases par price atr st with ⟨b, h⟩ | ⟨b, p, name, h, hratchet, hmove⟩
  · rw [h]
    exact ⟨rfl, .inl ⟨rfl, rfl, rfl⟩⟩
  · rw [h]
    exact ⟨rfl, .inr ⟨_, rfl, PositionSide.lt_of_not_le hratchet, hmove, rfl, rfl⟩⟩

theorem returned_of_ne (h : op.positionId ≠ some id) : op.returned cfg id m = none := by
  cases op with
  | checkAndUpdate now k price atr => exact if_neg fun hk => h (congrArg some hk)
  | _ => rfl

omit [DecidableEq κ] in
/-- The call on a registered position that leaves it registered is a check. -/
theorem TrailingOp.check_of_keeps (hid : op.positionId = some id) (hkeep : op.Keeps id) :
    ∃ now price atr, op = .checkAndUpdate now id price atr := by
  cases op with
  | registerPosition k entryPrice direction initialStop => exact absurd (Option.some.inj hid) hkeep
  | removePosition k => exact absurd (Option.some.inj hid) hkeep
  | checkAndUpdate now k price atr =>
    obtain rfl := Option.some.inj hid
    exact ⟨now, price, atr, rfl⟩
  | applyOverride o => cases hid
  | applyRegimePreset regime => cases hid
  | clearOverride => cases hid

variable (cfg) in
theorem apply_ratchets (hst : m.states.get? id = some st) (hkeep : op.Keeps id) :
    ∃ st', (op.apply cfg m).2.states.get? id = some st' ∧ Ratchets st st' (op.returned cfg id m) := by
  by_cases hid : op.positionId = some id
  · obtain ⟨now, price, atr, rfl⟩ := TrailingOp.check_of_keeps hid hkeep
    simp only [TrailingOp.apply, TrailingOp.returned, if_pos]
    rcases cfg.checks_cases atr with hcheck | hskip
    · obtain ⟨hstop, hstates⟩ := checkAndUpdate_checked hst hcheck
      rw [hstop, hstates]
      exact ⟨_, Dict.get?_set_self _ _ _, update_ratchets _ _ _ _ st⟩
    · rw [checkAndUpdate_skipped hst hskip]
      exact ⟨st, hst, .refl st⟩
  · refine ⟨st, (apply_states_ne cfg m op hid).trans hst, ?_⟩
    rw [returned_of_ne hid]
    exact .refl st

end step

/-! ### Runs -/

section runs
variable {κ : Type} [DecidableEq κ] {cfg : TrailingStopConfig} {m : TrailingStopManager κ} {id : κ} {st : TrailingState}
  {ops : List (TrailingOp κ)}

theorem steps_direction (hst : m.states.get? id = some st) (hops : ∀ op ∈ ops, op.Keeps id) :
    ∀ s ∈ m.steps cfg ops, ∃ st', (s.after cfg).states.get? id = some st' ∧ st'.direction = st.direction := by
  induction ops generalizing m st with
  | nil => simp [TrailingStopManager.steps]
  | cons op ops ih =>
    obtain ⟨st', hst', hr⟩ := apply_ratchets cfg hst (hops op (List.mem_cons_self ..))
    intro s hs
    rcases List.mem_cons.1 hs with rfl | hs
    · exact ⟨st', hst', hr.direction⟩
    · obtain ⟨st'', hst'', hdir⟩ := ih hst' (fun op hop => hops op (List.mem_cons_of_mem _ hop)) s hs
      exact ⟨st'', hst'', hdir.trans hr.direction⟩

theorem currentStops_cons {st' : TrailingState} {op : TrailingOp κ}
    (hst' : (op.apply cfg m).2.states.get? id = some st') :
    currentStops cfg id (m.steps cfg (op :: ops)) = st'.currentStop :: currentStops cfg id ((op.apply cfg m).2.steps cfg ops) := by
  show List.filterMap _ (_ :: _) = _
  rw [List.filterMap_cons_some (b := st'.currentStop)]
  · rfl
  · show ((op.apply cfg m).2.states.get? id).map TrailingState.currentStop = _
    rw [hst', Option.map_some]

theorem returnedStops_cons (op : TrailingOp κ) : returnedStops cfg id (m.steps cfg (op :: ops)) =
    (op.returned cfg id m).toList ++ returnedStops cfg id ((op.apply cfg m).2.steps cfg ops) := by
  show List.filterMap _ (_ :: _) = _
  rw [List.filterMap_cons]
  dsimp only
  cases op.returned cfg id m <;> rfl

/-- The stops of a run, from a stop that none of them gives up. -/
theorem le_currentStops (hst : m.states.get? id = some st) (hops : ∀ op ∈ ops, op.Keeps id) :
    (st.currentStop :: currentStops cfg id (m.steps cfg ops)).Pairwise st.direction.le := by
  induction ops generalizing m st with
  | nil => exact List.pairwise_singleton _ _
  | cons op ops ih =>
    obtain ⟨st', hst', hr⟩ := apply_ratchets cfg hst (hops op (List.mem_cons_self ..))
    have hrest := ih hst' fun op hop => hops op (List.mem_cons_of_mem _ hop)
    rw [hr.direction] at hrest
    have hle : st.direction.le st.currentStop st'.currentStop := hr.le
    rw [currentStops_cons hst', List.pairwise_cons]
    refine ⟨fun p hp => ?_, hrest⟩
    rcases List.mem_cons.1 hp with rfl | hp
    · exact hle
    · exact PositionSide.le_trans hle ((List.pairwise_cons.1 hrest).1 p hp)

/-- Each stop that a run returns is more favourable than the stop before the run and the stops returned before. -/
theorem lt_returnedStops (hst : m.states.get? id = some st) (hops : ∀ op ∈ ops, op.Keeps id) :
    (st.currentStop :: (returnedStops cfg id (m.steps cfg ops)).map ReturnedStop.stop).Pairwise st.direction.lt := by
  induction ops generalizing m st with
  | nil => exact List.pairwise_singleton _ _
  | cons op ops ih =>
    obtain ⟨st', hst', hr⟩ := apply_ratchets cfg hst (hops op (List.mem_cons_self ..))
    have hrest := ih hst' fun op hop => hops op (List.mem_cons_of_mem _ hop)
    rw [hr.direction] at hrest
    rw [returnedStops_cons]
    rcases hr.stop with ⟨hnone, hstop, -⟩ | ⟨r, hsome, hlt, -, hstop, -⟩
    · rw [hnone, ← hstop]
      exact hrest
    · rw [hsome, Option.toList_some, List.singleton_append, List.map_cons, ← hstop, List.pairwise_cons]
      rw [← hstop] at hlt
      refine ⟨fun p hp => ?_, hrest⟩
      rcases List.mem_cons.1 hp with rfl | hp
      · exact hlt
      · exact PositionSide.lt_of_le_of_lt (PositionSide.le_of_lt hlt) ((List.pairwise_cons.1 hrest).1 p hp)

/-- Each stop that a run returns is at least the minimum move away from the one before. -/
theorem chain_returnedStops (hst : m.states.get? id = some st) (hops : ∀ op ∈ ops, op.Keeps id) (minMove : ℚ) :
    (⟨st.lastModifiedStop, minMove⟩ :: returnedStops cfg id (m.steps cfg ops)).IsChain
      fun r r' => r'.minMove ≤ |r'.stop - r.stop| := by
  induction ops generalizing m st minMove with
  | nil => exact .singleton _
  | cons op ops ih =>
    obtain ⟨st', hst', hr⟩ := apply_ratchets cfg hst (hops op (List.mem_cons_self ..))
    have hrest := ih hst' fun op hop => hops op (List.mem_cons_of_mem _ hop)
    rw [returnedStops_cons]
    rcases hr.stop with ⟨hnone, -, hlast⟩ | ⟨r, hsome, -, hmove, -, hlast⟩
    · rw [hnone, ← hlast]
      exact hrest minMove
    · rw [hsome, Option.toList_some, List.singleton_append, List.isChain_cons_cons]
      refine ⟨hmove, ?_⟩
      have hchain := hrest r.minMove
      rw [hlast] at hchain
      exact hchain

end runs

/-- While a position is registered its stop only moves in its favour, in every run: each stop that a check returns is
more favourable than all before it and at least the minimum move from the last, and no call for another position
changes anything. -/
theorem steps_ratchet {κ : Type} [DecidableEq κ] (cfg : TrailingStopConfig) (m : TrailingStopManager κ) (id : κ)
    (st : TrailingState) (hst : m.states.get? id = some st) (ops : List (TrailingOp κ))
    (hops : ∀ op ∈ ops, op.Keeps id) :
    let steps := m.steps cfg ops
    let returned := returnedStops cfg id steps
    (∀ s ∈ steps, ∃ st', (s.after cfg).states.get? id = some st' ∧ st'.direction = st.direction) ∧
      (st.currentStop :: currentStops cfg id steps).Pairwise st.direction.le ∧
      (st.currentStop :: returned.map ReturnedStop.stop).Pairwise st.direction.lt ∧
      (⟨st.lastModifiedStop, 0⟩ :: returned).IsChain (fun r r' => r'.minMove ≤ |r'.stop - r.stop|) ∧
      ∀ s ∈ steps, ∀ k, s.op.positionId ≠ some k → (s.after cfg).states.get? k = s.before.states.get? k := by
  intro steps returned
  refine ⟨steps_direction hst hops, le_currentStops hst hops, lt_returnedStops hst hops,
    chain_returnedStops hst hops 0, ?_⟩
  intro s _ k hk
  exact apply_states_ne cfg s.before s.op hk

/-- The phases of the manager's docstring. -/
def threePhases : TrailingStopConfig :=
  { enabled := true
    rawPhases := [⟨"breakeven", 1, 0⟩, ⟨"lock_profit", 2, 3 / 2⟩, ⟨"tight_trail", 3, 1⟩] }

/-- A long position from 20000, with its stop 50 points below. -/
def sampleManager : TrailingStopManager Nat := ({} : TrailingStopManager Nat).registerPosition 1 20000 .long 19950

/-- The trail widens under the preset and stays where it was. -/
def sampleOps : List (TrailingOp Nat) :=
  [.checkAndUpdate 0 1 20020 10, .applyRegimePreset "trending", .registerPosition 2 100 .short 110,
    .checkAndUpdate 1 1 20030 20, .clearOverride, .checkAndUpdate 2 1 20040 10]

theorem steps_ratchet_sample :
    currentStops threePhases 1 (sampleManager.steps threePhases sampleOps) = [20005, 20005, 20005, 20005, 20005, 20030] ∧
      (19950 :: currentStops threePhases 1 (sampleManager.steps threePhases sampleOps)).Pairwise PositionSide.long.le := by
  refine ⟨by decide +kernel, ?_⟩
  exact (steps_ratchet threePhases sampleManager 1 _ rfl sampleOps (by decide)).2.1

/-! ### The side of the market -/

namespace TrailingState
variable {phases : List TrailingPhase} {par : TrailingParams} {price atr p : ℚ} {st : TrailingState}

theorem update_bestPrice (phases : List TrailingPhase) (par : TrailingParams) (price atr : ℚ) (st : TrailingState) :
    (st.update phases par price atr).2.bestPrice = st.direction.best st.bestPrice price ∧
      (st.update phases par price atr).2.entryPrice = st.entryPrice := by
  unfold update
  dsimp only
  split
  · exact ⟨rfl, rfl⟩
  · split
    · exact ⟨rfl, rfl⟩
    · split
      · exact ⟨rfl, rfl⟩
      · split <;> exact ⟨rfl, rfl⟩

/-- A returned stop is the candidate of the phase that the best price activates. -/
theorem update_candidate (h : (st.update phases par price atr).1 = some p) :
    let best := st.direction.best st.bestPrice price
    ∃ phase, par.activePhase atr (st.direction.move st.entryPrice best) phases = some phase ∧
      p = candidate par atr phase { st with bestPrice := best } := by
  unfold update at h
  dsimp only at h
  split at h
  · cases h
  · split at h
    · cases h
    next phase hphase =>
      split at h
      · cases h
      · split at h
        · cases h
        · exact ⟨phase, hphase, (Option.some.inj h).symm⟩

end TrailingState

section market
variable {κ : Type} [DecidableEq κ] {cfg : TrailingStopConfig} {m : TrailingStopManager κ} {id : κ} {st : TrailingState}
  {op : TrailingOp κ} {ops : List (TrailingOp κ)} {now price atr p : ℚ}

theorem apply_bestPrice (hon : cfg.enabled = true ∧ cfg.phases ≠ []) (hst : m.states.get? id = some st)
    (hkeep : op.Keeps id) :
    ∃ st', (op.apply cfg m).2.states.get? id = some st' ∧ st'.direction = st.direction ∧
      st'.entryPrice = st.entryPrice ∧ st'.bestPrice = (op.price? id).elim st.bestPrice (st.direction.best st.bestPrice) := by
  by_cases hid : op.positionId = some id
  · obtain ⟨now, price, atr, rfl⟩ := TrailingOp.check_of_keeps hid hkeep
    simp only [TrailingOp.apply, TrailingOp.price?, true_and]
    rcases lt_or_ge 0 atr with hatr | hatr
    · obtain ⟨-, hstates⟩ := @checkAndUpdate_checked κ _ cfg m id st now price atr hst ⟨hon.1, hon.2, hatr⟩
      rw [hstates, if_pos hatr]
      obtain ⟨hbest, hentry⟩ := TrailingState.update_bestPrice cfg.phases
        (cfg.params (m.getEffectiveOverride now).1) price atr st
      exact ⟨_, Dict.get?_set_self _ _ _, (update_ratchets _ _ _ _ st).direction, hentry, hbest⟩
    · rw [checkAndUpdate_skipped hst (.inr hatr), if_neg (not_lt.2 hatr)]
      exact ⟨st, hst, rfl, rfl, rfl⟩
  · refine ⟨st, (apply_states_ne cfg m op hid).trans hst, rfl, rfl, ?_⟩
    cases op with
    | checkAndUpdate now k price atr =>
      rw [TrailingOp.price?, if_neg fun h => hid (congrArg some h.1)]
      rfl
    | _ => rfl

/-- The best price is the best of the entry and the prices that the run has shown. -/
theorem run_bestPrice (hon : cfg.enabled = true ∧ cfg.phases ≠ []) (hst : m.states.get? id = some st)
    (hops : ∀ op ∈ ops, op.Keeps id) :
    ∃ st', (m.run cfg ops).states.get? id = some st' ∧ st'.direction = st.direction ∧ st'.entryPrice = st.entryPrice ∧
      st'.bestPrice = (pricesSeen id ops).foldl st.direction.best st.bestPrice := by
  induction ops generalizing m st with
  | nil => exact ⟨st, hst, rfl, rfl, rfl⟩
  | cons op ops ih =>
    obtain ⟨st', hst', hdir, hentry, hbest⟩ := apply_bestPrice hon hst (hops op (List.mem_cons_self ..))
    obtain ⟨st'', hst'', hdir', hentry', hbest'⟩ := ih hst' fun op hop => hops op (List.mem_cons_of_mem _ hop)
    refine ⟨st'', hst'', hdir'.trans hdir, hentry'.trans hentry, ?_⟩
    rw [hbest', hdir, hbest]
    unfold pricesSeen
    rw [List.filterMap_cons]
    cases op.price? id <;> rfl

theorem checked_of_returned (hst : m.states.get? id = some st) (h : (m.checkAndUpdate cfg now id price atr).1 = some p) :
    cfg.enabled = true ∧ cfg.phases ≠ [] ∧ 0 < atr := by
  rcases cfg.checks_cases atr with hcheck | hskip
  · exact hcheck
  · rw [checkAndUpdate_skipped hst hskip] at h
    cases h

end market

/-- The stop that a check returns lies on the protective side of the price it was computed from exactly when the price
has come back from the best one by less than the trail distance, or, at breakeven, is more than a tick beyond the
entry. -/
theorem returned_protective_iff {κ : Type} [DecidableEq κ] (cfg : TrailingStopConfig) (m : TrailingStopManager κ) (id : κ)
    (entryPrice : ℚ) (side : PositionSide) (initialStop : ℚ) (ops : List (TrailingOp κ)) (hops : ∀ op ∈ ops, op.Keeps id)
    (now price atr p : ℚ) :
    let m' := (m.registerPosition id entryPrice side initialStop).run cfg ops
    let par := cfg.params (m'.getEffectiveOverride now).1
    let best := side.best ((pricesSeen id ops).foldl side.best entryPrice) price
    (m'.checkAndUpdate cfg now id price atr).1 = some p →
      ∃ phase, par.activePhase atr (side.move entryPrice best) cfg.phases = some phase ∧
        (side.lt p price ↔
          if phase.trailAtr = 0 then 1 / 4 < side.move entryPrice price
          else side.move price best < phase.trailAtr * par.trailMult * atr) := by
  intro m' par best hp
  have hregistered := Dict.get?_set_self m.states id (TrailingState.mk entryPrice side initialStop entryPrice none initialStop)
  have hon : cfg.enabled = true ∧ cfg.phases ≠ [] := by
    by_contra hoff
    have hskip : cfg.enabled = false ∨ cfg.phases = [] := by
      rcases Bool.eq_false_or_eq_true cfg.enabled with henabled | henabled
      · exact .inr (by_contra fun hphases => hoff ⟨henabled, hphases⟩)
      · exact .inl henabled
    rw [TrailingStopManager.checkAndUpdate, if_pos hskip] at hp
    cases hp
  obtain ⟨st, hst, rfl, rfl, hbest⟩ :=
    run_bestPrice (m := m.registerPosition id entryPrice side initialStop) hon hregistered hops
  obtain ⟨hreturned, -⟩ := @checkAndUpdate_checked κ _ cfg m' id st now price atr hst (checked_of_returned hst hp)
  rw [hreturned] at hp
  obtain ⟨phase, hphase, rfl⟩ := TrailingState.update_candidate hp
  rw [hbest] at hphase ⊢
  refine ⟨phase, hphase, ?_⟩
  unfold TrailingState.candidate
  split
  · exact PositionSide.ahead_lt_iff
  · exact PositionSide.behind_lt_iff

theorem returned_protective_sample :
    ((sampleManager.run threePhases [.checkAndUpdate 0 1 20020 10]).checkAndUpdate threePhases 1 1 20016 5).1 =
      some 20015 ∧ PositionSide.long.lt 20015 20016 := by
  refine ⟨by decide +kernel, ?_⟩
  obtain ⟨phase, hphase, hiff⟩ := returned_protective_iff threePhases ({} : TrailingStopManager Nat) 1 20000 .long 19950
    [.checkAndUpdate 0 1 20020 10] (by decide) 1 20016 5 20015 (by decide +kernel)
  obtain rfl : (⟨"tight_trail", 3, 1⟩ : TrailingPhase) = phase :=
    Option.some.inj (hphase.symm.trans (by decide +kernel)).symm
  exact hiff.2 (by decide +kernel)

/-- The price falls below the entry, and as the range narrows the move that is over activates the breakeven stop. -/
theorem not_returned_protective : ¬ ∀ (cfg : TrailingStopConfig) (entryPrice initialStop : ℚ) (side : PositionSide)
    (ops : List (TrailingOp Nat)) (now price atr p : ℚ),
    (∀ phase ∈ cfg.phases, 0 ≤ phase.trailAtr) → (∀ op ∈ ops, ∃ t q a, op = .checkAndUpdate t 1 q a ∧ 0 < q ∧ 0 < a) →
      0 < price → 0 < atr → 0 < entryPrice →
      (((({} : TrailingStopManager Nat).registerPosition 1 entryPrice side initialStop).run cfg ops).checkAndUpdate
        cfg now 1 price atr).1 = some p → side.lt p price := by
  intro h
  have hlt := h threePhases 20000 19950 .long [.checkAndUpdate 0 1 20015 20] 1 19990 10 (20000 + 1 / 4) (by decide +kernel)
    (by simp) (by norm_num) (by norm_num) (by norm_num) (by decide +kernel)
  exact absurd hlt (by decide +kernel)

end PearlAlgo
