import PearlAlgo.Backtesting.BacktestCircuitBreaker
import PearlAlgo.Backtesting.TrailingStep
import PearlAlgo.Py.Round
import PearlAlgo.TradingBots.Indicators

/-!
# The backtest engine (`run_backtest` of `scripts/backtesting/backtest_engine.py`)

The loop over the bars: exits of the open trades, then the signals of the bar. `generate_signals` is an argument: from a
state, the window, the time and the 5 minute bars it makes the signals, or raises (`none`). `log` records what the engine
does in the order in which it does it; the code has no such list. Prices, P&L and timestamps (in seconds) are rational.
-/

namespace PearlAlgo
open Py

/-- A row of `bars_df` or of `df_5m`. -/
structure TimedBar extends SignalGenerator.Ohlcv where
  timestamp : ℚ

def TimedBar.range (b : TimedBar) : BacktestBar := ⟨b.high, b.low⟩

/-- The price of the bar that is worst for the position. -/
def TimedBar.against (b : TimedBar) : PositionSide → ℚ
  | .long => b.low
  | .short => b.high

/-- The keys of a signal that the engine reads. -/
structure BacktestSignal where
  direction : PositionSide
  entryPrice : ℚ
  stopLoss : ℚ
  takeProfit : ℚ
  confidence : ℚ := 0
  reason : String := ""
  marketRegime : Option MarketRegime := none

def PositionSide.text : PositionSide → String
  | .long => "long"
  | .short => "short"

def BacktestSignal.gated (sig : BacktestSignal) : GatedSignal :=
  { entryPrice := sig.entryPrice, direction := some sig.direction.text, marketRegime := sig.marketRegime }

structure OpenBacktestTrade extends BacktestTrade where
  takeProfit : ℚ
  originalStop : ℚ
  confidence : ℚ
  reason : String
  regime : String
  entryTime : ℚ
  entryBarIdx : Nat
  maxPrice : ℚ
  minPrice : ℚ
deriving DecidableEq

inductive ExitReason
  | stopLoss  -- `stop_loss`
  | takeProfit  -- `take_profit`
  | endOfData  -- `end_of_data`
deriving DecidableEq

structure BacktestResult where
  entryTime : ℚ
  exitTime : ℚ
  direction : PositionSide
  entryPrice : ℚ
  exitPrice : ℚ
  stopLoss : ℚ
  takeProfit : ℚ
  exitReason : ExitReason
  pnlPoints : ℚ
  pnlDollars : ℚ
  mfePoints : ℚ
  maePoints : ℚ
  confidence : ℚ
  reason : String
  regime : String
  trailingPhase : Option String
  holdBars : Nat
deriving DecidableEq

/-- A trade is told from the others by its direction and the bar at which it was opened. -/
structure TradeId where
  direction : PositionSide
  entryBar : Nat
deriving DecidableEq

inductive BacktestEvent
  | considered (sig : BacktestSignal)
  | opened (t : OpenBacktestTrade)
  /-- Closed at the bar with this index, or at the end of the data after it. -/
  | closed (t : TradeId) (r : BacktestResult) (bar : Nat)
  /-- `circuit_breaker.record_trade` -/
  | told (t : TradeResult)

/-- The arguments of `run_backtest`; `minConfidence` is that of the overrides where they have one, and no 5 minute bars
are an empty list. -/
structure BacktestSetup where
  windowSize : Nat := 200
  pointValue : ℚ := 2
  trailing : TrailingStopConfig := {}
  breaker : Option BacktestBreakerConfig := none
  breakerState : BacktestCircuitBreaker := {}
  enableTod : Bool := true
  todMultipliers : Dict String ℚ := .empty
  minConfidence : ℚ := 4/10
  df5m : List TimedBar := []
  use5mRegime : Bool := false

/-- `str.lower`, and the calendar of an instant. -/
structure BacktestEnv where
  lower : String → String := id
  simTime : ℚ → SimTime

/-- `generate_signals` with a configuration. -/
abbrev Generator (γ : Type) :=
  γ → List TimedBar → ℚ → Option (List TimedBar) → γ × Option (List BacktestSignal)

structure BacktestState (γ : Type) where
  generator : γ
  openTrades : List OpenBacktestTrade := []
  results : List BacktestResult := []
  signalCooldown : PositionSide → Option ℚ := fun _ => none
  cbBlocked : Nat := 0
  todBlocked : Nat := 0
  totalSignalsGenerated : Nat := 0
  breaker : BacktestCircuitBreaker := {}
  log : List BacktestEvent := []

structure BacktestMetadata where
  totalSignalsGenerated : Nat
  cbBlocked : Nat
  todBlocked : Nat
  tradesTaken : Nat
  cbStats : Option BacktestCircuitBreaker

def DEFAULT_TOD_MULTIPLIERS : Dict String ℚ :=
  (((((Dict.empty.set "overnight" (60/100)).set "premarket_early" (75/100)).set "premarket_late" (85/100)).set
    "rth" 1).set "post_close" (85/100)).set "evening" (70/100)

/-- `get_tod_multiplier`; the minute matters in the hour of the open alone. -/
def getTodMultiplier (multipliers : Dict String ℚ) (t : SimTime) : ℚ :=
  let mults := if multipliers.isEmpty then DEFAULT_TOD_MULTIPLIERS else multipliers
  let h := (t.secondsEt / 3600).floor
  let m := ((t.secondsEt - h * 3600) / 60).floor
  if 0 ≤ h ∧ h < 4 then (mults.get? "overnight").getD (60/100)
  else if 4 ≤ h ∧ h < 6 then (mults.get? "premarket_early").getD (75/100)
  else if 6 ≤ h ∧ h < 9 ∨ (h = 9 ∧ m < 30) then (mults.get? "premarket_late").getD (85/100)
  else if (h = 9 ∧ 30 ≤ m) ∨ (10 ≤ h ∧ h < 16) then (mults.get? "rth").getD 1
  else if 16 ≤ h ∧ h < 18 then (mults.get? "post_close").getD (85/100)
  else (mults.get? "evening").getD (70/100)

/-! ### The 5 minute regimes -/

def SignalGenerator.Regime.text : SignalGenerator.Regime → String
  | .trendingUp => "trending_up"
  | .trendingDown => "trending_down"
  | .ranging => "ranging"
  | .volatile => "volatile"
  | .unknown => "unknown"

/-- The keys of `to_dict` that the breaker reads. -/
def SignalGenerator.MarketRegime.toDict (r : SignalGenerator.MarketRegime) : PearlAlgo.MarketRegime :=
  { regime := some r.regime.text, confidence := some r.confidence }

/-- The regime of a window of 5 minute bars, with the default lookback of `detect_market_regime`. -/
def windowRegime (window : List TimedBar) : MarketRegime :=
  (SignalGenerator.detectMarketRegime { bars := window.map TimedBar.toOhlcv } 50).toDict

def cacheRow (df5m : List TimedBar) (d : Dict ℚ MarketRegime) (i : Nat) : Dict ℚ MarketRegime :=
  match df5m[i]? with
  | some row => d.set row.timestamp (windowRegime ((df5m.take (i + 1)).drop (i - 50)))
  | none => d

/-- `regime_cache`, with a timestamp for its text. -/
def regimeCache (df5m : List TimedBar) : Dict ℚ MarketRegime :=
  (List.range' 50 (df5m.length - 50)).foldl (cacheRow df5m) .empty

def laterEntry (barTime : ℚ) (best : Option (ℚ × MarketRegime)) (e : ℚ × MarketRegime) : Option (ℚ × MarketRegime) :=
  if e.1 ≤ barTime ∧ best.all (fun b => b.1 < e.1) then some e else best

/-- `_find_5m_regime`: the latest entry that is not after the bar. -/
def find5mRegime (cache : Dict ℚ MarketRegime) (barTime : ℚ) : Option MarketRegime :=
  (cache.entries.foldl (laterEntry barTime) none).map Prod.snd

/-- What a bar shows `generate_signals` of the 5 minute bars: the last 100 rows that are labelled no later. -/
def visible5m (df5m : List TimedBar) (barTime : ℚ) : Option (List TimedBar) :=
  let rows := df5m.filter fun row => row.timestamp ≤ barTime
  if rows.isEmpty then none else some (lastN 100 rows)

/-! ### Exits -/

namespace OpenBacktestTrade

def tradeId (t : OpenBacktestTrade) : TradeId := ⟨t.direction, t.entryBarIdx⟩

/-- The trade after the trailing step of the bar. -/
def trailed (cfg : TrailingStopConfig) (bar : TimedBar) (t : OpenBacktestTrade) : OpenBacktestTrade :=
  { t with toBacktestTrade := t.toBacktestTrade.trail cfg bar.range }

/-- The extremes of a trade that stays open. -/
def tracked (bar : TimedBar) (t : OpenBacktestTrade) : OpenBacktestTrade :=
  { t with maxPrice := max t.maxPrice bar.high, minPrice := min t.minPrice bar.low }

/-- Why and at what price the bar closes the trade; the stop wins a tie. -/
def exitAt (t : OpenBacktestTrade) (bar : TimedBar) : Option (ExitReason × ℚ) :=
  if t.direction.le (bar.against t.direction) t.stopLoss then some (.stopLoss, t.stopLoss)
  else if t.direction.le t.takeProfit (bar.range.favorable t.direction) then some (.takeProfit, t.takeProfit)
  else none

/-- The entry of `results` for a trade that is closed. -/
def result (pointValue : ℚ) (t : OpenBacktestTrade) (i : Nat) (price time : ℚ) (exitReason : ExitReason) :
    BacktestResult :=
  let points := t.direction.move t.entryPrice price
  let (mfe, mae) := match t.direction with
    | .long => (t.maxPrice - t.entryPrice, t.entryPrice - t.minPrice)
    | .short => (t.entryPrice - t.minPrice, t.maxPrice - t.entryPrice)
  { entryTime := t.entryTime, exitTime := time, direction := t.direction, entryPrice := t.entryPrice, exitPrice := price
    stopLoss := t.originalStop, takeProfit := t.takeProfit, exitReason
    pnlPoints := roundHalfEven (points * 10000) / 10000, pnlDollars := roundCents (points * pointValue)
    mfePoints := roundHalfEven (mfe * 10000) / 10000, maePoints := roundHalfEven (mae * 10000) / 10000
    confidence := t.confidence, reason := t.reason, regime := t.regime, trailingPhase := t.trailingPhase
    holdBars := i - t.entryBarIdx }

end OpenBacktestTrade

/-- The P&L of a result before it is rounded. -/
def BacktestResult.pnl (pointValue : ℚ) (r : BacktestResult) : ℚ := r.direction.move r.entryPrice r.exitPrice * pointValue

def BacktestResult.told (pointValue : ℚ) (r : BacktestResult) : TradeResult :=
  ⟨0 < r.pnl pointValue, r.pnl pointValue⟩

namespace BacktestSetup
variable {γ : Type} (env : BacktestEnv) (setup : BacktestSetup)

/-- A trade that the bar closes. -/
def close (i : Nat) (t : OpenBacktestTrade) (r : BacktestResult) (s : BacktestState γ) : BacktestState γ :=
  let s := { s with results := s.results ++ [r], log := s.log ++ [.closed t.tradeId r i] }
  match setup.breaker with
  | some c =>
    { s with
      breaker := s.breaker.recordTrade c (r.told setup.pointValue)
      log := s.log ++ [.told (r.told setup.pointValue)] }
  | none => s

/-- One open trade at a bar; the trades that stay open are collected in `still_open`. -/
def exitStep (i : Nat) (bar : TimedBar) (acc : BacktestState γ × List OpenBacktestTrade) (t : OpenBacktestTrade) :
    BacktestState γ × List OpenBacktestTrade :=
  let (s, stillOpen) := acc
  let t := t.trailed setup.trailing bar
  match t.exitAt bar with
  | some (reason, price) => (setup.close i t (t.result setup.pointValue i price bar.timestamp reason) s, stillOpen)
  | none => (s, stillOpen ++ [t.tracked bar])

def exits (i : Nat) (bar : TimedBar) (s : BacktestState γ) : BacktestState γ :=
  let (s', stillOpen) := s.openTrades.foldl (setup.exitStep i bar) (s, [])
  { s' with openTrades := stillOpen }

/-! ### Entries -/

/-- The regime that the breaker sees: that of the 5 minute bars, else the signal's own. -/
def regimeOf (bar : TimedBar) (sig : BacktestSignal) : Option MarketRegime :=
  (if setup.use5mRegime then find5mRegime (regimeCache setup.df5m) bar.timestamp else none) <|> sig.marketRegime

def askBreaker (bar : TimedBar) (sig : BacktestSignal) (s : BacktestState γ) : Bool × BacktestState γ :=
  match setup.breaker with
  | some c =>
    let ((allowed, _), cb) := s.breaker.shouldAllow env.lower c sig.gated (env.simTime bar.timestamp) (setup.regimeOf bar sig)
    (allowed, { s with breaker := cb })
  | none => (true, s)

/-- The mean true range of the last 14 bars of the window. -/
def atrVal (window : List TimedBar) : ℚ :=
  if 14 ≤ window.length then
    SignalGenerator.mean (lastN 14 (SignalGenerator.trueRanges (window.map TimedBar.toOhlcv)))
  else 1

def newTrade (i : Nat) (bar : TimedBar) (window : List TimedBar) (sig : BacktestSignal) (confidence : ℚ) :
    OpenBacktestTrade where
  entryPrice := sig.entryPrice
  direction := sig.direction
  stopLoss := sig.stopLoss
  atr := some (atrVal window)
  takeProfit := sig.takeProfit
  originalStop := sig.stopLoss
  confidence := confidence
  reason := sig.reason
  regime := ((setup.regimeOf bar sig).bind MarketRegime.regime).getD "unknown"
  entryTime := bar.timestamp
  entryBarIdx := i
  maxPrice := sig.entryPrice
  minPrice := sig.entryPrice

def enter (bar : TimedBar) (t : OpenBacktestTrade) (s : BacktestState γ) : BacktestState γ :=
  { s with
    signalCooldown := fun side => if side = t.direction then some bar.timestamp else s.signalCooldown side
    openTrades := s.openTrades ++ [t]
    log := s.log ++ [.opened t] }

/-- A signal that is neither cooling down nor against an open trade. -/
def entryDecision (i : Nat) (bar : TimedBar) (window : List TimedBar) (sig : BacktestSignal) (s : BacktestState γ) :
    BacktestState γ :=
  let scaled := sig.confidence * getTodMultiplier setup.todMultipliers (env.simTime bar.timestamp)
  if setup.enableTod ∧ scaled < setup.minConfidence then { s with todBlocked := s.todBlocked + 1 }
  else
    let confidence := if setup.enableTod then scaled else sig.confidence
    let (allowed, s) := setup.askBreaker env bar sig s
    if allowed then enter bar (setup.newTrade i bar window sig confidence) s
    else { s with cbBlocked := s.cbBlocked + 1 }

def cooldownSeconds : ℚ := 60

def signalStep (i : Nat) (bar : TimedBar) (window : List TimedBar) (s : BacktestState γ) (sig : BacktestSignal) :
    BacktestState γ :=
  let s := { s with totalSignalsGenerated := s.totalSignalsGenerated + 1, log := s.log ++ [.considered sig] }
  if (s.signalCooldown sig.direction).any fun last => bar.timestamp - last < cooldownSeconds then s
  else if s.openTrades.any fun t => t.direction = sig.direction then s
  else setup.entryDecision env i bar window sig s

/-! ### The run -/

/-- `bars_df.iloc[max(0, i - window_size):i + 1]` -/
def window (bars : List TimedBar) (i : Nat) : List TimedBar := (bars.take (i + 1)).drop (i - setup.windowSize)

def sig5m (bar : TimedBar) : Option (List TimedBar) :=
  if setup.use5mRegime then visible5m setup.df5m bar.timestamp else none

def barStep (gen : Generator γ) (bars : List TimedBar) (i : Nat) (bar : TimedBar) (s : BacktestState γ) : BacktestState γ :=
  let s := setup.exits i bar s
  let (generator, signals) := gen s.generator (setup.window bars i) bar.timestamp (setup.sig5m bar)
  let s := { s with generator }
  match signals with
  | some signals => signals.foldl (setup.signalStep env i bar (setup.window bars i)) s
  | none => s  -- `except Exception: continue`

def indexStep (gen : Generator γ) (bars : List TimedBar) (s : BacktestState γ) (i : Nat) : BacktestState γ :=
  match bars[i]? with
  | some bar => setup.barStep env gen bars i bar s
  | none => s

def start (generator : γ) : BacktestState γ := { generator, breaker := setup.breakerState }

def loop (gen : Generator γ) (bars : List TimedBar) (generator : γ) (n : Nat) : BacktestState γ :=
  (List.range' setup.windowSize (n - setup.windowSize)).foldl (setup.indexStep env gen bars) (setup.start generator)

theorem loop_succ (gen : Generator γ) (bars : List TimedBar) (generator : γ) (n : Nat) :
    setup.loop env gen bars generator (n + 1) =
      if setup.windowSize ≤ n then setup.indexStep env gen bars (setup.loop env gen bars generator n) n
      else setup.start generator := by
  unfold loop
  split
  next h =>
    rw [Nat.succ_sub h, List.range'_1_concat, List.foldl_append, show setup.windowSize + (n - setup.windowSize) = n by omega]
    rfl
  next h =>
    rw [show n + 1 - setup.windowSize = 0 by omega]
    rfl

/-- Closes one of the trades that are open at the end; the breaker is not told. -/
def endStep (i : Nat) (bar : TimedBar) (s : BacktestState γ) (t : OpenBacktestTrade) : BacktestState γ :=
  let r := t.result setup.pointValue i bar.close bar.timestamp .endOfData
  { s with results := s.results ++ [r], log := s.log ++ [.closed t.tradeId r i] }

def finish (bars : List TimedBar) (s : BacktestState γ) : BacktestState γ :=
  match bars.getLast? with
  | some bar => s.openTrades.foldl (setup.endStep (bars.length - 1) bar) s
  | none => s

def runBacktest (gen : Generator γ) (bars : List TimedBar) (generator : γ) : BacktestState γ :=
  setup.finish bars (setup.loop env gen bars generator bars.length)

def metadata (s : BacktestState γ) : BacktestMetadata where
  totalSignalsGenerated := s.totalSignalsGenerated
  cbBlocked := s.cbBlocked
  todBlocked := s.todBlocked
  tradesTaken := s.results.length
  cbStats := setup.breaker.map fun _ => s.breaker

end BacktestSetup

end PearlAlgo
