import PearlAlgo.Backtesting.BacktestEngine
import PearlAlgo.Py.LatestKeys
import PearlAlgo.Py.MemoCache
import PearlAlgo.TradingBots.SignalGenerator

/-!
# The globals of the signal generator (`trading_bots/signal_generator.py`)

What `generate_signals` keeps from one call to the next for as long as the process lives: the opening ranges by session,
the cache of the key levels, and the state of the opening range breakout. `generate` is `generate_signals` as the
backtest calls it, with the globals as its state. The levels of a window, the extended indicators and the texts of the
signals are arguments; a window is never empty.
-/

namespace PearlAlgo.SignalGenerator
open Py

/-- `{date}_rth` or `{date}_overnight`, in the order of these texts. -/
structure SessionKey where
  date : Int
  rth : Bool

instance : LinearOrder SessionKey :=
  LinearOrder.lift' (fun s => toLex (s.date, s.rth)) fun a b h => by
    obtain ⟨hdate, hrth⟩ := Prod.mk.inj (toLex.injective h)
    cases a
    cases b
    subst hdate hrth
    rfl

/-- `{date}_{len(df)}_{hash of the closes}` -/
structure LevelsKey where
  date : Int
  length : Nat
  closes : Int
deriving DecidableEq

abbrev KeyLevels := Dict String (Option ℚ)

/-- The Eastern clock with the instants of its times, the date that the text of a timestamp shows, the hash of a tuple,
and what a call takes from the frames beside the indicators of the model. Resampled levels are `none` where they
raise. -/
structure GeneratorEnv where
  et : ℚ → EtTime
  instant : Int → Nat → ℚ
  date : ℚ → Int
  hash : List ℚ → Int
  resampledLevels : List TimedBar → Option KeyLevels
  simpleLevels : List TimedBar → KeyLevels
  extended : Config → List TimedBar → KeyLevels → Extended
  regimeScore : List TimedBar → ℚ
  smc : Config → List TimedBar → SmcTables
  reason : Config → List TimedBar → Option (List TimedBar) → Environment → Signal → String

/-- `_opening_range_state`, `_key_levels_cache` and `_orb_state` -/
structure Globals where
  openingRange : Dict SessionKey OpeningRange := .empty
  keyLevels : Dict LevelsKey KeyLevels := .empty
  orb : OrbState := {}

/-! ### The opening range -/

/-- `_get_session_key`, with the arithmetic of the wall clock -/
def sessionKey (t : EtTime) : SessionKey :=
  if microsAt 9 30 ≤ t.micros ∧ t.micros < microsAt 16 0 then ⟨t.date, true⟩
  else if microsAt 18 0 ≤ t.micros then ⟨t.date, false⟩
  else ⟨if t.micros < microsAt 12 0 then t.date - 1 else t.date, false⟩

def orSeconds : ℚ := 15 * 60

/-- The state of a session after a call, with the bars of the window that lie in the opening range. -/
def OpeningRange.observe (sessionOpen now : ℚ) (window : List TimedBar) (state : OpeningRange) : OpeningRange :=
  if state.orDefined then state
  else
    let rangeBars := window.filter fun b => sessionOpen ≤ b.timestamp ∧ b.timestamp ≤ sessionOpen + orSeconds
    let state := match rangeBars with
      | [] => state
      | first :: _ =>
        { state with
          sessionOpenPrice := state.sessionOpenPrice <|> some first.opening
          orHigh := (rangeBars.map fun b : TimedBar => b.high).max?
          orLow := (rangeBars.map fun b : TimedBar => b.low).min?
          barCount := rangeBars.length }
    { state with orDefined := sessionOpen + orSeconds < now ∧ state.orHigh.isSome }

namespace GeneratorEnv
variable (gen : GeneratorEnv)

def session (now : ℚ) : SessionKey := sessionKey (gen.et now)

/-- `_get_session_open_time` -/
def sessionOpen (now : ℚ) : ℚ :=
  let t := gen.et now
  if (sessionKey t).rth then gen.instant t.date (microsAt 9 30)
  else if microsAt 18 0 ≤ t.micros then gen.instant t.date (microsAt 18 0)
  else gen.instant (t.date - 1) (microsAt 18 0)

/-- `update_opening_range`, `none` where the session is pruned as soon as it is entered: a `KeyError`. -/
def updateOpeningRange (window : List TimedBar) (now : ℚ) (ranges : Dict SessionKey OpeningRange) :
    Dict SessionKey OpeningRange × Option OpeningRange :=
  ranges.visit 4 (gen.session now) {} (OpeningRange.observe (gen.sessionOpen now) now window)

/-! ### The key levels -/

/-- `_get_key_levels_cache_key` -/
def levelsKey (window : List TimedBar) : LevelsKey where
  date := gen.date ((window.getLast?.map fun b => b.timestamp).getD 0)
  length := window.length
  closes := gen.hash ((lastN 5 window).map fun b => roundCents b.close)

def getKeyLevels (window : List TimedBar) (cache : Dict LevelsKey KeyLevels) : Dict LevelsKey KeyLevels × KeyLevels :=
  cache.memoize 10 (gen.levelsKey window) (gen.resampledLevels window) (gen.simpleLevels window)

/-- The levels of a window where nothing is cached for it. -/
def levelsOf (window : List TimedBar) : KeyLevels := (gen.resampledLevels window).getD (gen.simpleLevels window)

/-! ### The call -/

def frame (window : List TimedBar) : Frame := { bars := window.map TimedBar.toOhlcv }

def environment (config : Config) (window : List TimedBar) (df5m : Option (List TimedBar)) (orState : OpeningRange)
    (levels : KeyLevels) : Environment where
  orState := orState
  extended := { gen.extended config window levels with keyLevels := levels }
  regimeScore := (df5m.map gen.regimeScore).getD 5
  smc := gen.smc config window

/-- A signal with the keys that are added to it. -/
def backtestSignal (config : Config) (params : StrategyParams) (window : List TimedBar) (df5m : Option (List TimedBar))
    (env : Environment) (s : Signal) : BacktestSignal where
  direction := s.direction
  entryPrice := s.entryPrice
  stopLoss := s.stopLoss
  takeProfit := s.takeProfit
  confidence := s.confidence
  reason := gen.reason config window df5m env s
  marketRegime := (readyIndicators config params (frame window) (df5m.map frame) env).map fun ind => ind.regime.toDict

def minCoreBars (config : Config) (params : StrategyParams) : Nat := max (max params.emaSlow config.volumeMaLength) 20

/-- The key levels are asked for once there is an average range. -/
def indicatorLevels (params : StrategyParams) (window : List TimedBar) (cache : Dict LevelsKey KeyLevels) :
    Dict LevelsKey KeyLevels × KeyLevels :=
  if (calculateAtr (frame window) params.atrPeriod).any (0 < ·) then gen.getKeyLevels window cache else (cache, .empty)

/-- `generate_signals`, `none` where it raises -/
def generate (config : Config) : Generator Globals := fun g window now df5m =>
  match config.loadStrategyParams with
  | none => (g, none)
  | some params =>
    if window.length < minCoreBars config params then (g, some [])
    else
      let (openingRange, orState) := gen.updateOpeningRange window now g.openingRange
      let g := { g with openingRange }
      match orState with
      | none => (g, none)
      | some orState =>
        if orState.suppresses then (g, some [])
        else
          let (keyLevels, levels) := gen.indicatorLevels params window g.keyLevels
          let env := gen.environment config window df5m orState levels
          let (orb, signals) := generateSignals config (frame window) (df5m.map frame) (gen.et now) env g.orb
          ({ g with keyLevels, orb }, signals.map fun l => l.map (gen.backtestSignal config params window df5m env))

end GeneratorEnv

/-! ### The breakout state -/

/-- No range, no trade: only a date. -/
def OrbState.Idle (orb : OrbState) : Prop := ∃ date, orb = { date }

section Orb
variable {orb orb' : OrbState} {df : Frame} {now : EtTime} {params : StrategyParams} {ind : IndicatorResult}

/-- What an update returns of an idle state with a frame that has timestamps. -/
def idleRange (now : EtTime) (params : StrategyParams) : Option (Option ℚ × Option ℚ × Bool) :=
  (rangeEnd params.orbRangeMinutes).bind fun rangeEnd =>
    if microsAt 9 30 ≤ now.micros ∧ now.micros ≤ rangeEnd then none else some (none, none, false)

theorem OrbState.Idle.update (h : orb.Idle) (now : EtTime) (params : StrategyParams) (hdf : df.timestamped = true) :
    (updateOrbRange orb df now params).1.Idle ∧ (updateOrbRange orb df now params).2 = idleRange now params := by
  obtain ⟨date, rfl⟩ := h
  unfold updateOrbRange idleRange
  rcases rangeEnd params.orbRangeMinutes with _ | rangeEnd
  · exact ⟨⟨date, rfl⟩, rfl⟩
  have hreset : (if ({ date } : OrbState).date = some now.date then ({ date } : OrbState)
      else { date := some now.date }) = { date := some now.date } := by
    split
    next hdate => exact congrArg (fun date => ({ date } : OrbState)) hdate
    next => rfl
  dsimp only
  rw [hreset, hdf, Option.bind_some]
  by_cases hbefore : now.micros < microsAt 9 30
  · have hnot : ¬ (microsAt 9 30 ≤ now.micros ∧ now.micros ≤ rangeEnd) := fun hin => hin.1.not_gt hbefore
    rw [if_pos hbefore, if_neg hnot]
    exact ⟨⟨some now.date, rfl⟩, rfl⟩
  rw [if_neg hbefore]
  by_cases hin : now.micros ≤ rangeEnd
  · have hbuilding : microsAt 9 30 ≤ now.micros ∧ now.micros ≤ rangeEnd := ⟨not_lt.1 hbefore, hin⟩
    rw [if_pos hbuilding]
    simp only [hin, Bool.false_eq_true, not_false_eq_true, and_self, ↓reduceIte, and_true]
    exact ⟨some now.date, rfl⟩
  · simp only [hin, false_and, and_false, ↓reduceIte, Option.isSome_none, Bool.and_false, Bool.or_self, and_true]
    exact ⟨some now.date, rfl⟩

theorem idleRange_setup : orbSetup ind params orb (idleRange now params) = none := by
  unfold idleRange
  rcases rangeEnd params.orbRangeMinutes with _ | rangeEnd
  · rfl
  · rw [Option.bind_some]
    by_cases hin : microsAt 9 30 ≤ now.micros ∧ now.micros ≤ rangeEnd
    · rw [if_pos hin]
      rfl
    · rw [if_neg hin]
      rfl

theorem OrbState.Idle.check (h : orb.Idle) (hdf : df.timestamped = true) :
    (checkOrbSignal ind params orb df now).1.Idle ∧ (checkOrbSignal ind params orb df now).2 = none := by
  unfold checkOrbSignal
  split
  · obtain ⟨hidle, hrange⟩ := h.update now params hdf
    dsimp only
    rw [hrange, idleRange_setup]
    exact ⟨hidle, rfl⟩
  · exact ⟨h, rfl⟩

/-- With timestamps the breakout state stays idle, and an idle state is not seen in the signals. -/
theorem generateSignals_idle (config : Config) (df5m : Option Frame) (now : EtTime) (env : Environment) (h : orb.Idle)
    (h' : orb'.Idle) (hdf : df.timestamped = true) :
    (generateSignals config df df5m now env orb).2 = (generateSignals config df df5m now env orb').2 ∧
      (generateSignals config df df5m now env orb).1.Idle := by
  unfold generateSignals
  rcases config.loadStrategyParams with _ | params
  · exact ⟨rfl, h⟩
  dsimp only
  rcases readyIndicators config params df df5m env with _ | ind
  · exact ⟨rfl, h⟩
  dsimp only
  rcases directionalCandidate config params df df5m env ind .long with _ | long
  · exact ⟨rfl, h⟩
  rcases directionalCandidate config params df df5m env ind .short with _ | short
  · exact ⟨rfl, h⟩
  dsimp only
  have htracked : ∃ range, ∀ orb : OrbState, orb.Idle →
      let tracked :=
        if params.allowOrbEntries then updateOrbRange orb df now params else (orb, some (none, none, false))
      tracked.1.Idle ∧ tracked.2 = range := by
    by_cases hallow : params.allowOrbEntries
    · simp only [hallow, ↓reduceIte]
      exact ⟨idleRange now params, fun orb horb => horb.update now params hdf⟩
    · simp only [hallow, Bool.false_eq_true, ↓reduceIte]
      exact ⟨some (none, none, false), fun orb horb => ⟨horb, rfl⟩⟩
  obtain ⟨range, htracked⟩ := htracked
  obtain ⟨hidle, hrange⟩ := htracked orb h
  obtain ⟨hidle', hrange'⟩ := htracked orb' h'
  rw [hrange, hrange']
  by_cases hraised : range.isNone
  · rw [if_pos hraised, if_pos hraised]
    exact ⟨rfl, hidle⟩
  · rw [if_neg hraised, if_neg hraised]
    dsimp only
    rw [(hidle.check hdf).2, (hidle'.check hdf).2]
    exact ⟨rfl, (hidle.check hdf).1⟩

end Orb

/-! ### Two processes -/

/-- The cache of a process that found `found` tells the windows `requested` the same as one that found nothing: none of
them has a key that was found, or whatever is cached for a window are its own levels. -/
def GeneratorEnv.CachesAlike (gen : GeneratorEnv) (requested : List TimedBar → Prop)
    (cache fresh : Dict LevelsKey KeyLevels) : Prop :=
  Dict.Extends (fun k => ∃ w, requested w ∧ gen.levelsKey w = k) fresh cache ∨
    Dict.Coherent requested gen.levelsKey gen.levelsOf ∧ Dict.Honest requested gen.levelsKey gen.levelsOf cache ∧
      Dict.Honest requested gen.levelsKey gen.levelsOf fresh

/-- The globals of two processes that have visited the same sessions: of one that found `found`, and of a fresh one. -/
structure GeneratorEnv.Alike (gen : GeneratorEnv) (requested : List TimedBar → Prop) (found : Globals)
    (visited : Finset SessionKey) (g fresh : Globals) : Prop where
  ranges : Dict.Shadows 4 found.openingRange visited g.openingRange fresh.openingRange
  caches : gen.CachesAlike requested g.keyLevels fresh.keyLevels
  idle : g.orb.Idle
  freshIdle : fresh.orb.Idle

namespace GeneratorEnv
variable {gen : GeneratorEnv} {requested : List TimedBar → Prop} {found g fresh : Globals}
  {visited : Finset SessionKey} {config : Config} {params : StrategyParams} {window : List TimedBar} {now : ℚ}
  {df5m : Option (List TimedBar)}

theorem CachesAlike.getKeyLevels {cache fresh : Dict LevelsKey KeyLevels} (h : gen.CachesAlike requested cache fresh)
    (hw : requested window) : (gen.getKeyLevels window cache).2 = (gen.getKeyLevels window fresh).2 ∧
      gen.CachesAlike requested (gen.getKeyLevels window cache).1 (gen.getKeyLevels window fresh).1 := by
  unfold GeneratorEnv.getKeyLevels
  rcases h with h | ⟨hcoherent, h, h'⟩
  · have hkey : ∃ w, requested w ∧ gen.levelsKey w = gen.levelsKey window := ⟨window, hw, rfl⟩
    exact ⟨(h.memoize hkey).1, .inl (h.memoize hkey).2⟩
  · obtain ⟨heq, hnext⟩ := h.memoize (n := 10) hcoherent hw rfl
    obtain ⟨heq', hnext'⟩ := h'.memoize (n := 10) hcoherent hw rfl
    exact ⟨heq.trans heq'.symm, .inr ⟨hcoherent, hnext, hnext'⟩⟩

theorem CachesAlike.indicatorLevels {cache fresh : Dict LevelsKey KeyLevels} (h : gen.CachesAlike requested cache fresh)
    (params : StrategyParams) (hw : requested window) :
    (gen.indicatorLevels params window cache).2 = (gen.indicatorLevels params window fresh).2 ∧
      gen.CachesAlike requested (gen.indicatorLevels params window cache).1
        (gen.indicatorLevels params window fresh).1 := by
  unfold GeneratorEnv.indicatorLevels
  split
  · exact h.getKeyLevels hw
  · exact ⟨rfl, h⟩

/-- A bar finds the opening range of a fresh process: what was found pushes its session out only where a fresh process
loses it too, and makes no difference where the session is first visited. -/
def SameRange (gen : GeneratorEnv) (found : Globals) (visited : Finset SessionKey) (window : List TimedBar)
    (now : ℚ) : Prop :=
  Latest 4 (insert (gen.session now) visited) (gen.session now) →
    Latest 4 (found.openingRange.keySet ∪ insert (gen.session now) visited) (gen.session now) ∧
      (gen.session now ∉ visited → ∀ state, found.openingRange.get? (gen.session now) = some state →
        state.observe (gen.sessionOpen now) now window = ({} : OpeningRange).observe (gen.sessionOpen now) now window)

/-- A call that gets to the opening range answers alike in both processes. -/
theorem Alike.generate (h : gen.Alike requested found visited g fresh) (hw : requested window)
    (hrange : gen.SameRange found visited window now) (hparams : config.loadStrategyParams = some params)
    (hbars : minCoreBars config params ≤ window.length) :
    (gen.generate config g window now df5m).2 = (gen.generate config fresh window now df5m).2 ∧
      gen.Alike requested found (insert (gen.session now) visited) (gen.generate config g window now df5m).1
        (gen.generate config fresh window now df5m).1 := by
  obtain ⟨hstate, hranges⟩ := h.ranges.visit hrange
  unfold GeneratorEnv.generate
  rw [hparams]
  dsimp only
  rw [if_neg (not_lt.2 hbars), if_neg (not_lt.2 hbars)]
  unfold updateOpeningRange
  rw [hstate]
  generalize g.openingRange.visit 4 (gen.session now) {} (OpeningRange.observe (gen.sessionOpen now) now window) = visit
    at hranges ⊢
  generalize fresh.openingRange.visit 4 (gen.session now) {}
    (OpeningRange.observe (gen.sessionOpen now) now window) = freshVisit at hranges ⊢
  rcases freshVisit with ⟨freshRanges, _ | orState⟩
  · exact ⟨rfl, hranges, h.caches, h.idle, h.freshIdle⟩
  dsimp only
  split
  · exact ⟨rfl, hranges, h.caches, h.idle, h.freshIdle⟩
  obtain ⟨hlevels, hcaches⟩ := h.caches.indicatorLevels params hw
  rw [hlevels]
  generalize gen.environment config window df5m orState (gen.indicatorLevels params window fresh.keyLevels).2 = env
  have hdf : (frame window).timestamped = true := rfl
  obtain ⟨hsignals, hidle⟩ := generateSignals_idle config (df5m.map frame) (gen.et now) env h.idle h.freshIdle hdf
  have hidle' := (generateSignals_idle config (df5m.map frame) (gen.et now) env h.freshIdle h.idle hdf).2
  rw [hsignals]
  exact ⟨rfl, hranges, hcaches, hidle, hidle'⟩

end GeneratorEnv

end PearlAlgo.SignalGenerator
