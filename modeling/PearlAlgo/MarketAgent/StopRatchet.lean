import PearlAlgo.Lts.Reach
import PearlAlgo.MarketAgent.PositionMonitor

/-!
# The stops of an open position (`market_agent/position_monitor.py`)

A run is any sequence of cycles of the monitor. While a position stays open on one side, the stops sent for it never
move against it, as long as no registration gives up a better stop, the states are on the side of their positions, and
no stop goes to the order of another open position (`stops_keep`).
-/

namespace PearlAlgo
open Py Lts

/-- A time for which a position stays open on one side, and the last stop that was sent for it. -/
structure Episode where
  side : PositionSide
  lastSent : Option ℚ := none
deriving DecidableEq

/-- A stop sent for an open position, with the one sent before it in the same episode. -/
structure LoggedStop where
  contract : PositionId
  side : PositionSide
  previous : Option ℚ
  price : ℚ
deriving DecidableEq

def LoggedStop.Keeps (k : LoggedStop) : Prop := ∀ p ∈ k.previous, k.side.le p k.price

instance (k : LoggedStop) : Decidable k.Keeps := inferInstanceAs (Decidable (∀ p ∈ k.previous, _))

/-- No code reads the episodes and the log. -/
structure MonitorRun where
  monitor : PositionMonitor := {}
  episodes : PositionId → Option Episode := fun _ => none
  sent : List LoggedStop := []

/-- The side on which a position is open in this cycle. -/
def Cycle.side? (c : Cycle) (id : PositionId) : Option PositionSide :=
  (c.positions.get? id).bind fun v => v.position.side?

namespace MonitorRun

/-- The episodes that go on in this cycle, and those that start. -/
def observe (c : Cycle) (s : MonitorRun) : MonitorRun :=
  { s with
    episodes := fun id =>
      (c.side? id).map fun side =>
        match s.episodes id with
        | some e => if e.side = side then e else { side }
        | none => { side } }

def record (sent : Option StopSend) (s : MonitorRun) : MonitorRun :=
  match sent with
  | none => s
  | some m =>
    match s.episodes m.contract with
    | none => s
    | some e =>
      { s with
        episodes := Function.update s.episodes m.contract (some { e with lastSent := some m.price })
        sent := s.sent ++ [{ contract := m.contract, side := e.side, previous := e.lastSent, price := m.price }] }

def visit (env : MonitorEnv) (c : Cycle) (id : PositionId) (v : Visit) (s : MonitorRun) : MonitorRun :=
  { s with monitor := (s.monitor.visit env c id v).2 }.record (s.monitor.visit env c id v).1

def visitAll (env : MonitorEnv) (c : Cycle) : List (PositionId × Visit) → MonitorRun → MonitorRun
  | [], s => s
  | (id, v) :: rest, s => if v.ends then s.visit env c id v else visitAll env c rest (s.visit env c id v)

def monitorOpenPosition (env : MonitorEnv) (c : Cycle) (s : MonitorRun) : MonitorRun :=
  let s := s.observe c
  if c.positions.isEmpty then { s with monitor := s.monitor.reset }
  else if c.price ≤ 0 then s
  else s.visitAll env c c.positions.entries

def step (env : MonitorEnv) (s : MonitorRun) (c : Cycle) : Option MonitorRun := some (s.monitorOpenPosition env c)

end MonitorRun

/-! ### When the stops keep -/

namespace PositionMonitor

/-- The side of the state that moves a position's stop, and the stop behind which it does not fall. -/
def floor (env : MonitorEnv) (id : PositionId) (m : PositionMonitor) : Option (PositionSide × ℚ) :=
  if env.runner.enabled then (m.runner.states.get? id).map fun st => (st.direction, st.floor env.runner)
  else (m.trailing.states.get? id).map fun st => (st.direction, st.currentStop)

/-- The stop from which a position starts that this visit registers. -/
def firstStop (env : MonitorEnv) (c : Cycle) (v : Visit) (side : PositionSide) (m : PositionMonitor) : Option ℚ :=
  if m.posMonitor = some v.position.netPrice then none
  else if env.runner.enabled then
    if 0 < c.atr then some (side.ahead v.position.netPrice env.runner.breakevenOffset) else none
  else if env.trailing.enabled ∧ 0 < initialStop c v side then some (initialStop c v side)
  else none

/-- The position whose order gets a new stop. -/
def target (env : MonitorEnv) (v : Visit) (side : PositionSide) (m : PositionMonitor) : Option PositionId :=
  match v.stopOrder side with
  | some orderId => some (.contract (env.contractOf orderId))
  | none =>
    if env.runner.enabled = false ∧ m.stopOrderMissCount = 2 then v.placeContract.map .contract else none

/-- A stop that was sent for the position stands: a registration starts from one no worse, and otherwise the state is
on the side of the position. -/
def StopStands (env : MonitorEnv) (c : Cycle) (id : PositionId) (v : Visit) (side : PositionSide) (p : ℚ)
    (m : PositionMonitor) : Prop :=
  (∀ q ∈ m.firstStop env c v side, side.le p q) ∧
    (m.firstStop env c v side = none → ∀ f ∈ m.floor env id, f.1 = side)

instance (env : MonitorEnv) (c : Cycle) (id : PositionId) (v : Visit) (side : PositionSide) (p : ℚ)
    (m : PositionMonitor) : Decidable (m.StopStands env c id v side p) :=
  inferInstanceAs (Decidable ((∀ q ∈ m.firstStop env c v side, _) ∧ (_ → ∀ f ∈ m.floor env id, _)))

/-- A tight trail that starts in this visit is not behind the breakeven stop. -/
def TrailCovers (env : MonitorEnv) (c : Cycle) (id : PositionId) (m : PositionMonitor) : Prop :=
  env.runner.enabled = true → ∀ st ∈ m.runner.states.get? id, st.TrailCovers env.runner c.price

instance (env : MonitorEnv) (c : Cycle) (id : PositionId) (m : PositionMonitor) : Decidable (m.TrailCovers env c id) :=
  inferInstanceAs (Decidable (_ → ∀ st ∈ m.runner.states.get? id, _))

end PositionMonitor

namespace MonitorRun

/-- The last stop sent for the position while it has been open. -/
def lastSent (id : PositionId) (s : MonitorRun) : Option ℚ := (s.episodes id).bind Episode.lastSent

/-- The visit gives up no stop that was sent, and the new one does not go to another open position. -/
def SafeVisit (env : MonitorEnv) (c : Cycle) (id : PositionId) (v : Visit) (s : MonitorRun) : Prop :=
  0 < v.position.netPrice → ∀ side ∈ v.position.side?,
    (∀ p ∈ s.lastSent id, s.monitor.StopStands env c id v side p ∧ (s.monitor.register env c id v side).TrailCovers env c id) ∧
    ∀ owner ∈ s.monitor.target env v side, (s.episodes owner).isSome = true → owner = id

instance (env : MonitorEnv) (c : Cycle) (id : PositionId) (v : Visit) (s : MonitorRun) :
    Decidable (s.SafeVisit env c id v) :=
  inferInstanceAs (Decidable (_ → ∀ side ∈ v.position.side?,
    (∀ p ∈ s.lastSent id, _) ∧ ∀ owner ∈ s.monitor.target env v side, _))

def SafeVisits (env : MonitorEnv) (c : Cycle) : List (PositionId × Visit) → MonitorRun → Prop
  | [], _ => True
  | (id, v) :: rest, s => s.SafeVisit env c id v ∧ (v.ends = false → SafeVisits env c rest (s.visit env c id v))

instance decidableSafeVisits (env : MonitorEnv) (c : Cycle) :
    (visits : List (PositionId × Visit)) → (s : MonitorRun) → Decidable (s.SafeVisits env c visits)
  | [], _ => .isTrue trivial
  | (id, v) :: rest, s =>
    have := decidableSafeVisits env c rest (s.visit env c id v)
    inferInstanceAs (Decidable (s.SafeVisit env c id v ∧ (_ → _)))

def SafeCycle (env : MonitorEnv) (s : MonitorRun) (c : Cycle) : Prop :=
  0 < c.price → (s.observe c).SafeVisits env c c.positions.entries

instance (env : MonitorEnv) (s : MonitorRun) (c : Cycle) : Decidable (SafeCycle env s c) :=
  inferInstanceAs (Decidable (_ → _))

end MonitorRun

/-! ### One visit -/

namespace PositionMonitor

variable {env : MonitorEnv} {c : Cycle} {id k : PositionId} {v : Visit} {side : PositionSide} {m : PositionMonitor}

theorem register_floor_self : (m.register env c id v side).floor env id =
    match m.firstStop env c v side with
    | some q => some (side, q)
    | none => m.floor env id := by
  unfold register firstStop floor
  by_cases hnew : m.posMonitor = some v.position.netPrice
  · simp only [if_pos hnew]
  · simp only [if_neg hnew]
    by_cases hrunner : env.runner.enabled = true
    · simp only [if_pos hrunner]
      by_cases hatr : 0 < c.atr
      · simp only [if_pos hatr, PartialRunnerManager.registerPosition, if_pos hrunner, Dict.get?_set_self]
        rfl
      · simp only [if_neg hatr]
    · simp only [if_neg hrunner]
      by_cases hstop : env.trailing.enabled = true ∧ 0 < initialStop c v side
      · simp only [if_pos hstop, TrailingStopManager.registerPosition, Dict.get?_set_self]
        rfl
      · simp only [if_neg hstop]

theorem register_floor_ne (hk : k ≠ id) : (m.register env c id v side).floor env k = m.floor env k := by
  unfold floor
  have hframe : ∀ hrunner : env.runner.enabled = true,
      (m.register env c id v side).runner.states.get? k = m.runner.states.get? k := by
    intro hrunner
    unfold register
    split
    · rfl
    · dsimp only
      split
      · rw [PartialRunnerManager.registerPosition, if_pos hrunner]
        exact Dict.get?_set_ne _ _ hk
      · rfl
  have hframe' : (m.register env c id v side).trailing.states.get? k = m.trailing.states.get? k := by
    unfold register
    split
    · rfl
    · dsimp only
      split
      · exact Dict.get?_set_ne _ _ hk
      · rfl
  split
  next hrunner => rw [hframe hrunner]
  · rw [hframe']

theorem register_target : (m.register env c id v side).target env v side = m.target env v side := by
  have hmiss : (m.register env c id v side).stopOrderMissCount = m.stopOrderMissCount := by
    unfold register
    split
    · rfl
    · rfl
  unfold target
  rw [hmiss]

theorem target_of_order {orderId : Int} (horder : v.stopOrder side = some orderId) :
    m.target env v side = some (.contract (env.contractOf orderId)) := by
  unfold target
  rw [horder]

theorem target_of_misses (hrunner : env.runner.enabled = false) (hmiss : m.stopOrderMissCount = 2)
    (horder : v.stopOrder side = none) : m.target env v side = v.placeContract.map .contract := by
  unfold target
  rw [horder]
  exact if_pos ⟨hrunner, hmiss⟩

/-- What the stop management of a visit may do. -/
structure Manages (env : MonitorEnv) (c : Cycle) (id : PositionId) (v : Visit) (side : PositionSide)
    (m : PositionMonitor) (r : Option StopSend × PositionMonitor) : Prop where
  /-- A stop that is sent is the new floor. -/
  sent : ∀ sd ∈ r.1, m.target env v side = some sd.contract ∧ ∃ f ∈ r.2.floor env id, f.2 = sd.price
  /-- The floor does not move against the position. -/
  floor : m.TrailCovers env c id → ∀ f' ∈ r.2.floor env id, ∃ f ∈ m.floor env id, f'.1 = f.1 ∧ f.1.le f.2 f'.2
  others : ∀ k, k ≠ id → r.2.floor env k = m.floor env k

theorem floor_runner (hrunner : env.runner.enabled = true) (m : PositionMonitor) (k : PositionId) :
    m.floor env k = (m.runner.states.get? k).map fun st => (st.direction, st.floor env.runner) := if_pos hrunner

theorem floor_trailing (hrunner : env.runner.enabled = false) (m : PositionMonitor) (k : PositionId) :
    m.floor env k = (m.trailing.states.get? k).map fun st => (st.direction, st.currentStop) :=
  if_neg (Bool.not_eq_true _ ▸ hrunner)

theorem runnerStop_cases (env : MonitorEnv) (c : Cycle) (id : PositionId) (v : Visit) (side : PositionSide)
    (m : PositionMonitor) :
    (∀ sd ∈ (m.runnerStop env c id v side).1, m.target env v side = some sd.contract ∧
      (m.runner.updatePosition env.runner id c.price).1.newStop = some sd.price) ∧
    (m.runnerStop env c id v side).2.runner = (m.runner.updatePosition env.runner id c.price).2 := by
  unfold runnerStop
  dsimp only
  split
  next newStop orderId hnew horder =>
    split
    · refine ⟨?_, ?_⟩
      · rintro sd ⟨⟩
        exact ⟨target_of_order horder, hnew⟩
      · dsimp only
        split <;> rfl
    · exact ⟨nofun, rfl⟩
  · exact ⟨nofun, rfl⟩

theorem manages_runnerStop (hrunner : env.runner.enabled = true) :
    Manages env c id v side m (m.runnerStop env c id v side) := by
  obtain ⟨hself, hothers, hstop⟩ := PartialRunnerManager.updatePosition_floor env.runner m.runner id c.price
  obtain ⟨hsent, hstates⟩ := runnerStop_cases env c id v side m
  rw [← hstates] at hself hothers hstop
  refine ⟨?_, ?_, ?_⟩
  · intro sd hsd
    obtain ⟨htarget, hnew⟩ := hsent sd hsd
    obtain ⟨st, hst, hfloor⟩ := hstop _ hnew
    rw [floor_runner hrunner, hst]
    exact ⟨htarget, _, rfl, hfloor⟩
  · intro hcovers f' hf'
    rw [floor_runner hrunner] at hf' ⊢
    obtain ⟨st', hst', rfl⟩ := Option.map_eq_some_iff.1 hf'
    obtain ⟨st, hst, hdir, hle⟩ := hself st' hst'
    rw [hst]
    exact ⟨_, rfl, hdir, hle (hcovers hrunner st hst)⟩
  · intro k hk
    rw [floor_runner hrunner, floor_runner hrunner, hothers k hk]

theorem sendStop_cases (hrunner : env.runner.enabled = false) (id : PositionId) (v : Visit) (side : PositionSide)
    (p : ℚ) (m : PositionMonitor) :
    (∀ sd ∈ (m.sendStop env id v side p).1, m.target env v side = some sd.contract ∧ sd.price = p) ∧
    ((m.sendStop env id v side p).2.trailing.states = m.trailing.states ∨
      (m.sendStop env id v side p).1 = none ∧
        (m.sendStop env id v side p).2.trailing.states = m.trailing.states.pop id) := by
  unfold sendStop
  split
  next orderId horder =>
    split
    · refine ⟨?_, .inl ?_⟩
      · rintro sd ⟨⟩
        exact ⟨target_of_order horder, rfl⟩
      · dsimp only
        split <;> rfl
    · exact ⟨nofun, .inl rfl⟩
  next horder =>
    dsimp only
    split
    next hmiss =>
      have hmiss : m.stopOrderMissCount = 2 := by omega
      split
      next contract hcontract =>
        split
        · refine ⟨?_, .inl ?_⟩
          · rintro sd ⟨⟩
            rw [target_of_misses hrunner hmiss horder, hcontract]
            exact ⟨rfl, rfl⟩
          · dsimp only
            split <;> rfl
        · exact ⟨nofun, .inl rfl⟩
      · exact ⟨nofun, .inl rfl⟩
    · split
      · exact ⟨nofun, .inr ⟨rfl, rfl⟩⟩
      · exact ⟨nofun, .inl rfl⟩

theorem retryStop_eq_some {p : ℚ} (h : m.retryStop id = some p) :
    ∃ st ∈ m.trailing.states.get? id, st.currentStop = p := by
  unfold retryStop at h
  split at h
  · cases h
  next st hst =>
    split at h
    · exact ⟨st, hst, Option.some.inj h⟩
    · cases h

theorem ingest_states (cfg : TrailingStopConfig) (t : TrailingStopManager PositionId) :
    (ingestTrailingStopOverride cfg v t).states = t.states := by
  unfold ingestTrailingStopOverride
  split
  · rfl
  · have hclear : (if v.clearFlag then t.clearOverride else t).states = t.states := by
      split <;> rfl
    dsimp only
    split
    · exact hclear
    · exact hclear

theorem applyRegime_states (cfg : TrailingStopConfig) (regime : Option String) (t : TrailingStopManager PositionId) :
    (applyRegimeTrailingPreset cfg regime t).states = t.states := by
  unfold applyRegimeTrailingPreset
  split
  · rfl
  · exact TrailingStopManager.applyRegimePreset_states _

theorem Manages.idle : Manages env c id v side m (none, m) := by
  refine ⟨nofun, ?_, fun _ _ => rfl⟩
  intro _ f hf
  exact ⟨f, hf, rfl, PositionSide.le_refl _ _⟩

/-- Sending the internal stop keeps what the check has come to. -/
theorem Manages.of_sendStop {t : TrailingStopManager PositionId} {p : ℚ} (hrunner : env.runner.enabled = false)
    (hcurrent : ∃ st ∈ t.states.get? id, st.currentStop = p)
    (hfloor : ∀ f' ∈ ({ m with trailing := t } : PositionMonitor).floor env id, ∃ f ∈ m.floor env id,
      f'.1 = f.1 ∧ f.1.le f.2 f'.2)
    (hframe : ∀ k, k ≠ id → ({ m with trailing := t } : PositionMonitor).floor env k = m.floor env k) :
    Manages env c id v side m (({ m with trailing := t } : PositionMonitor).sendStop env id v side p) := by
  obtain ⟨hsent, hstates⟩ := sendStop_cases hrunner id v side p { m with trailing := t }
  generalize ({ m with trailing := t } : PositionMonitor).sendStop env id v side p = r at *
  rcases hstates with hstates | ⟨hnone, hstates⟩
  · have hsame : ∀ k, r.2.floor env k = ({ m with trailing := t } : PositionMonitor).floor env k := by
      intro k
      rw [floor_trailing hrunner, floor_trailing hrunner, hstates]
    refine ⟨?_, ?_, ?_⟩
    · intro sd hsd
      obtain ⟨htarget, hprice⟩ := hsent sd hsd
      obtain ⟨st, hst, hstop⟩ := hcurrent
      have hst : t.states.get? id = some st := hst
      rw [hsame, floor_trailing hrunner, hst]
      exact ⟨htarget, _, rfl, hstop.trans hprice.symm⟩
    · intro _ f' hf'
      exact hfloor f' (hsame id ▸ hf')
    · intro k hk
      rw [hsame]
      exact hframe k hk
  · refine ⟨?_, ?_, ?_⟩
    · rw [hnone]
      nofun
    · intro _ f' hf'
      rw [floor_trailing hrunner, hstates, Dict.get?_pop_self] at hf'
      cases hf'
    · intro k hk
      rw [← hframe k hk, floor_trailing hrunner, floor_trailing hrunner, hstates]
      show ((t.states.pop id).get? k).map _ = _
      rw [Dict.get?_pop_ne _ hk]

theorem manages_trailingStop (hrunner : env.runner.enabled = false) :
    Manages env c id v side m (m.trailingStop env c id v side) := by
  unfold trailingStop
  split
  · exact .idle
  · have hstates : (applyRegimeTrailingPreset env.trailing c.regime
        (ingestTrailingStopOverride env.trailing v m.trailing)).states = m.trailing.states := by
      rw [applyRegime_states, ingest_states]
    dsimp only
    generalize applyRegimeTrailingPreset env.trailing c.regime
      (ingestTrailingStopOverride env.trailing v m.trailing) = t at *
    obtain ⟨hself, hothers, hstop⟩ :=
      TrailingStopManager.checkAndUpdate_ratchet env.trailing t v.now id c.price c.atr
    rw [hstates] at hself hothers
    generalize t.checkAndUpdate env.trailing v.now id c.price c.atr = r at *
    have hfloor : ∀ f' ∈ ({ m with trailing := r.2 } : PositionMonitor).floor env id, ∃ f ∈ m.floor env id,
        f'.1 = f.1 ∧ f.1.le f.2 f'.2 := by
      intro f' hf'
      rw [floor_trailing hrunner] at hf' ⊢
      obtain ⟨st', hst', rfl⟩ := Option.map_eq_some_iff.1 hf'
      obtain ⟨st, hst, hdir, hle⟩ := hself st' hst'
      rw [hst]
      exact ⟨_, rfl, hdir, hle⟩
    have hframe : ∀ k, k ≠ id → ({ m with trailing := r.2 } : PositionMonitor).floor env k = m.floor env k := by
      intro k hk
      rw [floor_trailing hrunner, floor_trailing hrunner]
      show (r.2.states.get? k).map _ = _
      rw [hothers k hk]
    split
    next p hp =>
      -- the stop is what the check returned, or else the internal one
      have hcurrent : ∃ st ∈ r.2.states.get? id, st.currentStop = p := by
        rcases hchecked : r.1 with _ | q
        · rw [hchecked] at hp
          exact retryStop_eq_some hp
        · rw [hchecked] at hp
          obtain rfl := Option.some.inj hp
          exact hstop _ hchecked
      exact .of_sendStop hrunner hcurrent hfloor hframe
    · exact ⟨nofun, fun _ => hfloor, hframe⟩

theorem manages_manageStop : Manages env c id v side m (m.manageStop env c id v side) := by
  unfold manageStop
  split
  next hrunner => exact manages_runnerStop hrunner
  next hrunner =>
    have hrunner : env.runner.enabled = false := Bool.not_eq_true _ ▸ hrunner
    split
    · exact manages_trailingStop hrunner
    · exact .idle

end PositionMonitor

namespace MonitorRun

variable {env : MonitorEnv} {c : Cycle} {id : PositionId} {v : Visit} {s : MonitorRun}

/-- A stop that was sent for an open position is not better than the state that moves it. -/
structure Behind (env : MonitorEnv) (s : MonitorRun) : Prop where
  floor : ∀ id e p, s.episodes id = some e → e.lastSent = some p → ∀ f ∈ s.monitor.floor env id, e.side.le p f.2
  keeps : ∀ k ∈ s.sent, k.Keeps

/-- The open episodes are on the sides of this cycle. -/
def Observed (c : Cycle) (s : MonitorRun) : Prop := ∀ id e, s.episodes id = some e → c.side? id = some e.side

theorem record_cases (sent : Option StopSend) (s : MonitorRun) :
    s.record sent = s ∨ ∃ m e, sent = some m ∧ s.episodes m.contract = some e ∧
      s.record sent =
        { s with
          episodes := Function.update s.episodes m.contract (some { e with lastSent := some m.price })
          sent := s.sent ++ [{ contract := m.contract, side := e.side, previous := e.lastSent, price := m.price }] } := by
  unfold record
  split
  · exact .inl rfl
  next m =>
    split
    · exact .inl rfl
    next e he => exact .inr ⟨m, e, rfl, he, rfl⟩

theorem update_cases {episodes : PositionId → Option Episode} {k : PositionId} {e e' : Episode}
    (h : Function.update episodes id (some e) k = some e') : k = id ∧ e' = e ∨ k ≠ id ∧ episodes k = some e' := by
  by_cases hk : k = id
  · subst hk
    rw [Function.update_self] at h
    exact .inl ⟨rfl, (Option.some.inj h).symm⟩
  · rw [Function.update_of_ne hk] at h
    exact .inr ⟨hk, h⟩

theorem visit_cases (env : MonitorEnv) (c : Cycle) (id : PositionId) (v : Visit) (m : PositionMonitor) :
    m.visit env c id v = (none, m) ∨
    ∃ side, v.position.side? = some side ∧ 0 < v.position.netPrice ∧
      m.visit env c id v = (m.register env c id v side).manageStop env c id v side := by
  unfold PositionMonitor.visit
  split
  · exact .inl rfl
  next side hside =>
    split
    · exact .inl rfl
    next hprice => exact .inr ⟨side, hside, not_le.1 hprice, rfl⟩

theorem Behind.registered {side : PositionSide} {e : Episode} {p : ℚ} (h : Behind env s) (he : s.episodes id = some e)
    (hp : e.lastSent = some p) (hside : e.side = side) (hstands : s.monitor.StopStands env c id v side p) :
    ∀ f ∈ (s.monitor.register env c id v side).floor env id, f.1 = side ∧ side.le p f.2 := by
  obtain ⟨hfirst, hkept⟩ := hstands
  intro f hf
  rw [PositionMonitor.register_floor_self] at hf
  rcases hstop : s.monitor.firstStop env c v side with _ | q <;> rw [hstop] at hf
  · exact ⟨hkept hstop f hf, hside ▸ h.floor id e p he hp f hf⟩
  · obtain rfl := Option.some.inj hf
    exact ⟨rfl, hfirst q hstop⟩

theorem Behind.record {sent : Option StopSend} (h : Behind env s) (hobs : Observed c s)
    (hsent : ∀ m ∈ sent, (s.episodes m.contract).isSome = true → ∃ f ∈ s.monitor.floor env m.contract, f.2 = m.price) :
    Behind env (s.record sent) ∧ Observed c (s.record sent) := by
  rcases record_cases sent s with hrec | ⟨m, e, hm, he, hrec⟩
  · rw [hrec]
    exact ⟨h, hobs⟩
  · rw [hrec]
    obtain ⟨f, hf, hfloor⟩ := hsent m hm (by rw [he]; rfl)
    refine ⟨⟨?_, ?_⟩, ?_⟩
    · intro k e' p he' hp f' hf'
      rcases update_cases he' with ⟨rfl, rfl⟩ | ⟨-, he'⟩
      · obtain rfl := Option.some.inj hp
        obtain rfl := Option.some.inj (hf.symm.trans hf')
        rw [hfloor]
        exact PositionSide.le_refl _ _
      · exact h.floor k e' p he' hp f' hf'
    · refine forall_mem_concat h.keeps ?_
      intro q hq
      show e.side.le q m.price
      rw [← hfloor]
      exact h.floor m.contract e q he hq f hf
    · intro k e' he'
      rcases update_cases he' with ⟨rfl, rfl⟩ | ⟨-, he'⟩
      · exact hobs m.contract e he
      · exact hobs k e' he'

theorem visit_behind (h : Behind env s) (hobs : Observed c s) (hv : c.positions.get? id = some v)
    (hsafe : s.SafeVisit env c id v) : Behind env (s.visit env c id v) ∧ Observed c (s.visit env c id v) := by
  unfold visit
  rcases visit_cases env c id v s.monitor with heq | ⟨side, hside, hprice, heq⟩
  · rw [heq]
    exact ⟨h, hobs⟩
  obtain ⟨hstands, howner⟩ := hsafe hprice side hside
  have hr : PositionMonitor.Manages env c id v side (s.monitor.register env c id v side) (s.monitor.visit env c id v) :=
    heq ▸ PositionMonitor.manages_manageStop
  generalize s.monitor.visit env c id v = r at *
  have hepisode : ∀ e, s.episodes id = some e → e.side = side := by
    intro e he
    have hc : c.side? id = some side := by
      rw [Cycle.side?, hv]
      exact hside
    exact Option.some.inj ((hobs id e he).symm.trans hc)
  -- the visit has moved the state of its own position only
  have hbehind : Behind env { s with monitor := r.2 } := by
    refine ⟨?_, h.keeps⟩
    intro k e p he hp f hf
    by_cases hk : k = id
    · subst hk
      have hlast : p ∈ s.lastSent k := by
        rw [lastSent, he]
        exact hp
      obtain ⟨hstands, hcovers⟩ := hstands p hlast
      obtain ⟨f₀, hf₀, -, hle⟩ := hr.floor hcovers f hf
      obtain ⟨hdir, hbefore⟩ := h.registered he hp (hepisode e he) hstands f₀ hf₀
      rw [hepisode e he]
      exact PositionSide.le_trans hbefore (hdir ▸ hle)
    · have hframe : r.2.floor env k = s.monitor.floor env k := by
        rw [hr.others k hk, PositionMonitor.register_floor_ne hk]
      exact h.floor k e p he hp f (hframe ▸ hf)
  refine hbehind.record hobs ?_
  intro m hm hopen
  obtain ⟨htarget, hfloor⟩ := hr.sent m hm
  rw [PositionMonitor.register_target] at htarget
  rw [howner m.contract htarget hopen]
  exact hfloor

theorem visitAll_behind {visits : List (PositionId × Visit)} (h : Behind env s) (hobs : Observed c s)
    (hvisits : ∀ e ∈ visits, c.positions.get? e.1 = some e.2) (hsafe : s.SafeVisits env c visits) :
    Behind env (s.visitAll env c visits) := by
  induction visits generalizing s with
  | nil => exact h
  | cons e visits ih =>
    obtain ⟨id, v⟩ := e
    obtain ⟨hvisit, hrest⟩ := hsafe
    obtain ⟨hb, ho⟩ := visit_behind h hobs (hvisits _ List.mem_cons_self) hvisit
    unfold visitAll
    split
    · exact hb
    next hends =>
      exact ih hb ho (fun e he => hvisits e (List.mem_cons_of_mem _ he)) (hrest (Bool.not_eq_true _ ▸ hends))

theorem observe_episode {e : Episode} (he : (s.observe c).episodes id = some e) :
    c.side? id = some e.side ∧ (s.episodes id = some e ∨ e.lastSent = none) := by
  obtain ⟨side, hside, hmatch⟩ := Option.map_eq_some_iff.1 he
  split at hmatch
  next e' he' =>
    split at hmatch
    next hsame =>
      subst hmatch
      exact ⟨hside.trans (congrArg some hsame.symm), .inl he'⟩
    · subst hmatch
      exact ⟨hside, .inr rfl⟩
  · subst hmatch
    exact ⟨hside, .inr rfl⟩

theorem step_behind {s' : MonitorRun} (h : Behind env s) (hsafe : SafeCycle env s c) (hs : step env s c = some s') :
    Behind env s' := by
  obtain rfl := Option.some.inj hs
  have hobs : Observed c (s.observe c) := fun id e he => (observe_episode he).1
  have hb : Behind env (s.observe c) := by
    refine ⟨?_, h.keeps⟩
    intro id e p he hp f hf
    rcases (observe_episode he).2 with he | hnone
    · exact h.floor id e p he hp f hf
    · rw [hnone] at hp
      cases hp
  unfold monitorOpenPosition
  dsimp only
  split
  next hempty =>
    refine ⟨?_, h.keeps⟩
    intro id e p he
    -- without a position no episode is open
    obtain ⟨v, hv, -⟩ := Option.bind_eq_some_iff.1 (hobs id e he)
    have hmem := Dict.get?_eq_some.1 hv
    rw [List.isEmpty_iff.1 hempty] at hmem
    cases hmem
  · split
    · exact hb
    next hprice => exact visitAll_behind hb hobs (fun e he => Dict.get?_eq_some.2 he) (hsafe (not_le.1 hprice))

/-- In every run whose cycles are safe, no stop sent for a position moves against it while the position stays open on
its side. -/
theorem stops_keep (h : Reach (step env) (SafeCycle env) {} s) : ∀ k ∈ s.sent, k.Keeps := by
  refine (h.invariant (I := Behind env) ?_ ?_).keeps
  · exact ⟨nofun, nofun⟩
  · intro s c s' hb hsafe hs
    exact step_behind hb hsafe hs

end MonitorRun

/-! ### A stop that falls back -/

namespace MonitorRun

/-- The live configuration; contract 1 has order 11 and contract 2 order 12. -/
def liveEnv : MonitorEnv where
  trailing := { enabled := true, rawPhases := [⟨"breakeven", 1, 0⟩, ⟨"lock_profit", 2, 3 / 2⟩, ⟨"tight_trail", 3, 1⟩] }
  runner := {}
  contractOf := fun orderId => some (orderId - 10)

def stopRow (contract : Int) (action : String) (stopPrice : ℚ) : RawOrder where
  id := some (contract + 10)
  contractId := some contract
  ordStatus := some "Working"
  action := some action
  orderType := some "Stop"
  stopPrice := some stopPrice

/-- A row that has `ordType` for its type. -/
def sparseRow (contract : Int) (action : String) (stopPrice : ℚ) : RawOrder :=
  { stopRow contract action stopPrice with orderType := none, ordType := some "Stop" }

/-- A position, and the orders that are listed while it is looked at. -/
def visitOf (netPos : Int) (netPrice : ℚ) (orders : List RawOrder) : Visit :=
  { position := ⟨netPos, netPrice, 0⟩, initialOrders := some orders, orders := some orders }

def contract (n : Int) : PositionId := .contract (some n)

def cycleOf (price : ℚ) (visits : List (Int × Visit)) : Cycle :=
  { live := visits.foldl (fun d e => d.set (contract e.1) e.2) .empty, price, atr := 10 }

/-- A second contract is bought at 20030. -/
def addToLong : List Cycle :=
  [cycleOf 20030 [(1, visitOf 1 20000 [sparseRow 1 "Sell" 19950])],
    cycleOf 20026 [(1, visitOf 2 20015 [sparseRow 1 "Sell" 20020])]]

/-- The add registers the position anew, and its stop falls from 20020 to 20015.25. -/
theorem stop_falls_back : ∃ s, Reach (step liveEnv) AnyStep {} s ∧ ¬ ∀ k ∈ s.sent, k.Keeps := by
  obtain ⟨s, hreach, hs⟩ := exists_reach (step liveEnv) AnyStep {} addToLong (fun s => ¬ ∀ k ∈ s.sent, k.Keeps)
    (by decide +kernel)
  exact ⟨s, hreach, of_decide_eq_true hs⟩

/-- A long position and a short one, which are registered anew in each cycle from their stops at the broker. -/
def longAndShort : List Cycle :=
  [cycleOf 20030
      [(1, visitOf 1 20000 [stopRow 1 "Sell" 19950, stopRow 2 "Buy" 20150]),
        (2, visitOf (-1) 20100 [stopRow 1 "Sell" 20020, stopRow 2 "Buy" 20150])],
    cycleOf 20040
      [(1, visitOf 1 20000 [stopRow 1 "Sell" 20020, stopRow 2 "Buy" 20040]),
        (2, visitOf (-1) 20100 [stopRow 1 "Sell" 20030, stopRow 2 "Buy" 20040])]]

theorem stops_keep_longAndShort : ∃ s, Reach (step liveEnv) (SafeCycle liveEnv) {} s ∧
    s.sent = [⟨contract 1, .long, none, 20020⟩, ⟨contract 2, .short, none, 20040⟩,
      ⟨contract 1, .long, some 20020, 20030⟩] ∧ ∀ k ∈ s.sent, k.Keeps := by
  obtain ⟨s, hreach, hs⟩ := exists_reach (step liveEnv) (SafeCycle liveEnv) {} longAndShort
    (fun s => s.sent = [⟨contract 1, .long, none, 20020⟩, ⟨contract 2, .short, none, 20040⟩,
      ⟨contract 1, .long, some 20020, 20030⟩]) (by decide +kernel)
  exact ⟨s, hreach, of_decide_eq_true hs, stops_keep hreach⟩

end MonitorRun

end PearlAlgo
