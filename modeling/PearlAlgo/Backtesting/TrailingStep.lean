import PearlAlgo.Tradovate.TrailingStop

/-!
# The trailing step of the backtest (`scripts/backtesting/backtest_engine.py`)

The engine moves the stops of its open trades bar by bar, in the trade record itself, and walks the configured phases
backwards. `backtest_trails` compares it with the live manager.
-/

namespace PearlAlgo
open Py

/-- The high and the low of a bar. -/
structure BacktestBar where
  high : ℚ
  low : ℚ

/-- The keys of an open trade that the trailing step uses. -/
structure BacktestTrade where
  entryPrice : ℚ
  direction : PositionSide
  stopLoss : ℚ
  atr : Option ℚ := none
  bestPrice : Option ℚ := none
  trailingPhase : Option String := none
deriving DecidableEq

/-- The extreme of the bar in favour of the position. -/
def BacktestBar.favorable (b : BacktestBar) : PositionSide → ℚ
  | .long => b.high
  | .short => b.low

namespace BacktestTrade

def atrOr (t : BacktestTrade) : ℚ := t.atr.getD 1

/-- The first activated phase from the end. -/
def activated (cfg : TrailingStopConfig) (atr favorableMove : ℚ) : Option TrailingPhase :=
  cfg.rawPhases.reverse.find? fun phase => phase.activationAtr * atr ≤ favorableMove

/-- The stop of an activated phase, where it is better than the one of the trade. -/
def moveStop (t : BacktestTrade) (best atr : ℚ) : Option TrailingPhase → BacktestTrade
  | none => t
  | some phase =>
    let newStop :=
      if phase.trailAtr = 0 then t.direction.ahead t.entryPrice (1 / 4)
      else t.direction.behind best (phase.trailAtr * atr)
    if t.direction.lt t.stopLoss newStop then { t with stopLoss := newStop, trailingPhase := some phase.name } else t

/-- The trailing step of one bar. -/
def trail (cfg : TrailingStopConfig) (t : BacktestTrade) (b : BacktestBar) : BacktestTrade :=
  if cfg.enabled then
    let best := t.direction.best (t.bestPrice.getD t.entryPrice) (b.favorable t.direction)
    let favorableMove := t.direction.move t.entryPrice best
    { t with bestPrice := some best }.moveStop best t.atrOr (activated cfg t.atrOr favorableMove)
  else t

/-- The live state that the trade stands for. -/
def state (t : BacktestTrade) : TrailingState where
  entryPrice := t.entryPrice
  direction := t.direction
  currentStop := t.stopLoss
  bestPrice := t.bestPrice.getD t.entryPrice
  currentPhase := t.trailingPhase
  lastModifiedStop := t.stopLoss

end BacktestTrade

/-! ### The order of the phases -/

theorem orderedInsert_last {α : Type} {r : α → α → Prop} [DecidableRel r] {a : α} {l : List α} (h : ∀ b ∈ l, ¬ r a b) :
    l.orderedInsert r a = l ++ [a] := by
  induction l with
  | nil => rfl
  | cons b l ih =>
    rw [List.orderedInsert_cons, if_neg (h b (List.mem_cons_self ..)), ih fun c hc => h c (List.mem_cons_of_mem _ hc)]
    rfl

/-- Phases in ascending order are sorted by their reversal. -/
theorem phases_reverse {cfg : TrailingStopConfig}
    (hasc : cfg.rawPhases.Pairwise fun p q => p.activationAtr < q.activationAtr) : cfg.phases = cfg.rawPhases.reverse := by
  unfold TrailingStopConfig.phases
  generalize cfg.rawPhases = l at hasc
  induction l with
  | nil => rfl
  | cons p l ih =>
    obtain ⟨hp, hl⟩ := List.pairwise_cons.1 hasc
    rw [List.insertionSort_cons, ih hl, List.reverse_cons]
    refine orderedInsert_last fun q hq => ?_
    exact not_le.2 (hp q (List.mem_reverse.1 hq))

/-! ### The simulation -/

section simulation
variable {cfg : TrailingStopConfig} {t : BacktestTrade}

/-- The assumptions of the comparison: phases in ascending order with positive activations, and no minimum move. -/
structure TrailingStopConfig.Plain (cfg : TrailingStopConfig) : Prop where
  enabled : cfg.enabled = true
  minMove : cfg.minMovePoints = 0
  ascending : cfg.rawPhases.Pairwise fun p q => p.activationAtr < q.activationAtr
  positive : ∀ p ∈ cfg.rawPhases, 0 < p.activationAtr

/-- The phase that the live manager activates is the one that the engine finds. -/
theorem activePhase_plain (hcfg : cfg.Plain) (atr favorableMove : ℚ) :
    (cfg.params none).activePhase atr favorableMove cfg.phases = BacktestTrade.activated cfg atr favorableMove := by
  rw [phases_reverse hcfg.ascending]
  unfold TrailingParams.activePhase TrailingStopConfig.params BacktestTrade.activated
  simp

/-- Nothing is activated before the position has moved in its favour. -/
theorem activated_none (hcfg : cfg.Plain) {atr favorableMove : ℚ} (hatr : 0 < atr) (hmove : favorableMove ≤ 0) :
    BacktestTrade.activated cfg atr favorableMove = none := by
  unfold BacktestTrade.activated
  rw [List.find?_eq_none]
  intro phase hphase
  have hpos : 0 < phase.activationAtr * atr := mul_pos (hcfg.positive phase (List.mem_reverse.1 hphase)) hatr
  have hnot : ¬ phase.activationAtr * atr ≤ favorableMove := not_le.2 (hmove.trans_lt hpos)
  simpa using hnot

/-- One bar: the engine's step is a live check at the favourable extreme of the bar, and the check returns the stop
that the step has moved. -/
theorem trail_update (hcfg : cfg.Plain) (hatr : 0 < t.atrOr) (b : BacktestBar) :
    t.state.update cfg.phases (cfg.params none) (b.favorable t.direction) t.atrOr =
      (if (t.trail cfg b).stopLoss = t.stopLoss then none else some (t.trail cfg b).stopLoss, (t.trail cfg b).state) := by
  generalize ht' : t.trail cfg b = t'
  unfold TrailingState.update
  unfold BacktestTrade.trail at ht'
  rw [if_pos hcfg.enabled] at ht'
  dsimp only [BacktestTrade.state] at ht' ⊢
  generalize t.direction.best (t.bestPrice.getD t.entryPrice) (b.favorable t.direction) = best at ht' ⊢
  rw [activePhase_plain hcfg]
  by_cases hmove : t.direction.move t.entryPrice best ≤ 0
  · rw [activated_none hcfg hatr hmove] at ht'
    subst ht'
    rw [if_pos hmove]
    exact Prod.ext (if_pos rfl).symm rfl
  · rw [if_neg hmove]
    generalize BacktestTrade.activated cfg t.atrOr (t.direction.move t.entryPrice best) = found at ht' ⊢
    rcases found with _ | phase
    · subst ht'
      exact Prod.ext (if_pos rfl).symm rfl
    · have hstop : TrailingState.candidate (cfg.params none) t.atrOr phase { t.state with bestPrice := best } =
          if phase.trailAtr = 0 then t.direction.ahead t.entryPrice (1 / 4)
          else t.direction.behind best (phase.trailAtr * t.atrOr) := by
        unfold TrailingState.candidate TrailingStopConfig.params
        dsimp only [BacktestTrade.state]
        rw [mul_one]
      unfold BacktestTrade.moveStop at ht'
      dsimp only [BacktestTrade.state] at hstop ht' ⊢
      rw [hstop]
      generalize (if phase.trailAtr = 0 then t.direction.ahead t.entryPrice (1 / 4)
          else t.direction.behind best (phase.trailAtr * t.atrOr)) = newStop at ht' ⊢
      by_cases hratchet : t.direction.le newStop t.stopLoss
      · have hnot : ¬ t.direction.lt t.stopLoss newStop := PositionSide.not_lt_of_le hratchet
        rw [if_neg hnot] at ht'
        subst ht'
        rw [if_pos hratchet]
        exact Prod.ext (if_pos rfl).symm rfl
      · have hlt : t.direction.lt t.stopLoss newStop := PositionSide.lt_of_not_le hratchet
        have hmin : ¬ |newStop - t.stopLoss| < (cfg.params none).minMove := by
          show ¬ |newStop - t.stopLoss| < cfg.minMovePoints
          rw [hcfg.minMove]
          exact not_lt.2 (abs_nonneg _)
        have hne : newStop ≠ t.stopLoss := by
          rintro rfl
          exact hratchet (PositionSide.le_refl _ _)
        rw [if_pos hlt] at ht'
        subst ht'
        rw [if_neg hratchet, if_neg hmin]
        exact Prod.ext (if_neg hne).symm rfl

/-- The keys that the step leaves alone. -/
theorem trail_same (cfg : TrailingStopConfig) (t : BacktestTrade) (b : BacktestBar) :
    (t.trail cfg b).direction = t.direction ∧ (t.trail cfg b).atrOr = t.atrOr := by
  have hmove (t : BacktestTrade) (best atr : ℚ) (phase : Option TrailingPhase) :
      (t.moveStop best atr phase).direction = t.direction ∧ (t.moveStop best atr phase).atrOr = t.atrOr := by
    unfold BacktestTrade.moveStop
    rcases phase with _ | phase
    · exact ⟨rfl, rfl⟩
    · dsimp only
      generalize (if phase.trailAtr = 0 then t.direction.ahead t.entryPrice (1 / 4)
          else t.direction.behind best (phase.trailAtr * atr)) = newStop
      split
      · exact ⟨rfl, rfl⟩
      · exact ⟨rfl, rfl⟩
  unfold BacktestTrade.trail
  rcases cfg.enabled with _ | _
  · exact ⟨rfl, rfl⟩
  · exact hmove _ _ _ _

theorem foldl_trail_same (cfg : TrailingStopConfig) (bars : List (ℚ × BacktestBar)) (t : BacktestTrade) :
    (bars.foldl (fun t bar => t.trail cfg bar.2) t).direction = t.direction ∧
      (bars.foldl (fun t bar => t.trail cfg bar.2) t).atrOr = t.atrOr := by
  induction bars generalizing t with
  | nil => exact ⟨rfl, rfl⟩
  | cons bar bars ih =>
    obtain ⟨hdirection, hatr⟩ := trail_same cfg t bar.2
    rw [← hdirection, ← hatr]
    exact ih (t.trail cfg bar.2)

end simulation

namespace TrailingStopManager
variable {κ : Type} [DecidableEq κ] {cfg : TrailingStopConfig} {m : TrailingStopManager κ} {positionId : κ}
  {t : BacktestTrade}

/-- The manager has no override and holds the stop of the trade; with phases, it holds its whole state. -/
structure Simulates (cfg : TrailingStopConfig) (positionId : κ) (m : TrailingStopManager κ) (t : BacktestTrade) : Prop where
  override : m.override = none
  stop : (m.states.get? positionId).map TrailingState.currentStop = some t.stopLoss
  state : cfg.rawPhases ≠ [] → m.states.get? positionId = some t.state

/-- A check of the position is a step of the trade, and returns the stop that the step has moved. -/
theorem checkAndUpdate_trail (hcfg : cfg.Plain) (h : Simulates cfg positionId m t) (hatr : 0 < t.atrOr) (now : ℚ)
    (b : BacktestBar) :
    (m.checkAndUpdate cfg now positionId (b.favorable t.direction) t.atrOr).1 =
        (if (t.trail cfg b).stopLoss = t.stopLoss then none else some (t.trail cfg b).stopLoss) ∧
      Simulates cfg positionId (m.checkAndUpdate cfg now positionId (b.favorable t.direction) t.atrOr).2 (t.trail cfg b) := by
  have hphases := phases_reverse hcfg.ascending
  by_cases hnil : cfg.rawPhases = []
  · have hstop : (t.trail cfg b).stopLoss = t.stopLoss := by
      unfold BacktestTrade.trail BacktestTrade.activated
      rw [if_pos hcfg.enabled, hnil]
      rfl
    have hnone : m.checkAndUpdate cfg now positionId (b.favorable t.direction) t.atrOr = (none, m) := by
      refine if_pos (.inr ?_)
      rw [hphases, hnil]
      rfl
    rw [hnone, if_pos hstop]
    refine ⟨rfl, h.override, ?_, fun hne => absurd hnil hne⟩
    rw [hstop]
    exact h.stop
  · have hne : ¬ (cfg.enabled = false ∨ cfg.phases = []) := by
      rw [hphases]
      simp [hcfg.enabled, hnil]
    have heffective : m.getEffectiveOverride now = (none, m) := by
      unfold getEffectiveOverride
      rw [h.override]
    unfold checkAndUpdate
    rw [if_neg hne, h.state hnil]
    dsimp only
    rw [if_neg (not_le.2 hatr), heffective]
    dsimp only
    rw [trail_update hcfg hatr b]
    refine ⟨rfl, h.override, ?_, fun _ => Dict.get?_set_self _ _ _⟩
    dsimp only
    rw [Dict.get?_set_self]
    rfl

/-- The checks of a position at the favourable extremes of the bars, each at some time. -/
def checkBars (cfg : TrailingStopConfig) (positionId : κ) (direction : PositionSide) (atr : ℚ) (m : TrailingStopManager κ)
    (bars : List (ℚ × BacktestBar)) : TrailingStopManager κ :=
  bars.foldl (fun m bar => (m.checkAndUpdate cfg bar.1 positionId (bar.2.favorable direction) atr).2) m

theorem simulates_checkBars (hcfg : cfg.Plain) (h : Simulates cfg positionId m t) (hatr : 0 < t.atrOr)
    (bars : List (ℚ × BacktestBar)) :
    Simulates cfg positionId (m.checkBars cfg positionId t.direction t.atrOr bars)
      (bars.foldl (fun t bar => t.trail cfg bar.2) t) := by
  induction bars generalizing m t with
  | nil => exact h
  | cons bar bars ih =>
    obtain ⟨hdirection, hatr'⟩ := trail_same cfg t bar.2
    have hrest := ih (checkAndUpdate_trail hcfg h hatr bar.1 bar.2).2 (by rw [hatr']; exact hatr)
    rw [hdirection, hatr'] at hrest
    exact hrest

end TrailingStopManager

/-- After the bars the manager, at which the open trade was registered, holds the stop of the trade, and its next check
returns the stop that the next bar moves. -/
def StopsAgree {κ : Type} [DecidableEq κ] (cfg : TrailingStopConfig) (m : TrailingStopManager κ) (positionId : κ)
    (t : BacktestTrade) (bars : List (ℚ × BacktestBar)) (now : ℚ) (b : BacktestBar) : Prop :=
  let live := (m.registerPosition positionId t.entryPrice t.direction t.stopLoss).checkBars cfg positionId t.direction
    t.atrOr bars
  let trade := bars.foldl (fun t bar => t.trail cfg bar.2) t
  (live.states.get? positionId).map TrailingState.currentStop = some trade.stopLoss ∧
    (live.checkAndUpdate cfg now positionId (b.favorable t.direction) t.atrOr).1 =
      if (trade.trail cfg b).stopLoss = trade.stopLoss then none else some (trade.trail cfg b).stopLoss

/-- With ascending positive activations, no minimum move and no override, the stops of the backtest are the live ones. -/
theorem backtest_trails {κ : Type} [DecidableEq κ] {cfg : TrailingStopConfig} (hcfg : cfg.Plain)
    {m : TrailingStopManager κ} (hoverride : m.override = none) (positionId : κ) {t : BacktestTrade}
    (hnew : t.bestPrice = none ∧ t.trailingPhase = none) (hatr : 0 < t.atrOr) (bars : List (ℚ × BacktestBar)) (now : ℚ)
    (b : BacktestBar) : StopsAgree cfg m positionId t bars now b := by
  unfold StopsAgree
  intro live trade
  have hstate : (m.registerPosition positionId t.entryPrice t.direction t.stopLoss).states.get? positionId =
      some t.state := by
    unfold BacktestTrade.state
    rw [hnew.1, hnew.2]
    exact Dict.get?_set_self _ _ _
  have hstart : TrailingStopManager.Simulates cfg positionId
      (m.registerPosition positionId t.entryPrice t.direction t.stopLoss) t := by
    refine ⟨hoverride, ?_, fun _ => hstate⟩
    rw [hstate]
    rfl
  have hlive := TrailingStopManager.simulates_checkBars hcfg hstart hatr bars
  have hsame : trade.direction = t.direction ∧ trade.atrOr = t.atrOr := foldl_trail_same cfg bars t
  have hcheck := (TrailingStopManager.checkAndUpdate_trail hcfg hlive (by rw [hsame.2]; exact hatr) now b).1
  rw [hsame.1, hsame.2] at hcheck
  exact ⟨hlive.stop, hcheck⟩

def trailPhases : TrailingStopConfig where
  enabled := true
  minMovePoints := 0
  rawPhases := [⟨"breakeven", 1, 0⟩, ⟨"lock_profit", 2, 3 / 2⟩, ⟨"tight_trail", 3, 1⟩]

def shortTrade : BacktestTrade := { entryPrice := 100, direction := .short, stopLoss := 105, atr := some 2 }

/-- The second bar locks the profit of the trade in, and the third one trails it tightly. -/
theorem backtest_trails_short :
    StopsAgree trailPhases ({} : TrailingStopManager String) "s" shortTrade [(0, ⟨101, 98⟩), (60, ⟨99, 95⟩)] 120 ⟨96, 93⟩ :=
  backtest_trails ⟨rfl, rfl, by decide +kernel, by decide +kernel⟩ rfl "s" ⟨rfl, rfl⟩ (by decide +kernel) _ 120 ⟨96, 93⟩

example : [(⟨101, 98⟩ : BacktestBar), ⟨99, 95⟩, ⟨96, 93⟩].foldl (fun t b => t.trail trailPhases b) shortTrade =
    { shortTrade with stopLoss := 95, bestPrice := some 93, trailingPhase := some "tight_trail" } := by decide +kernel

end PearlAlgo
