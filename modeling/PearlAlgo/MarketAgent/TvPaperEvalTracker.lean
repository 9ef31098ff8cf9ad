import Mathlib.Algebra.BigOperators.Group.List.Basic
import PearlAlgo.Py.Dict
import PearlAlgo.Py.Round

/-!
# The evaluation tracker (`market_agent/tv_paper_eval_tracker.py`)

An attempt at the evaluation account: its trades are booked, its drawdown floor may trail, and it ends with a pass or
a fail. The tracker keeps the current attempt, and writes it to its state file and each ended attempt to its history.
Amounts are exact rationals, and writing the files succeeds. The configuration section and the time stamp of the state
file, which nothing reads back, are left out, and so is the status for the web page.
-/

namespace PearlAlgo
open Py

structure TvPaperEvalConfig where
  enabled : Bool := true
  stage : String := "evaluation"
  startBalance : ℚ := 50000
  profitTarget : ℚ := 3000
  maxLossDistance : ℚ := 2000
  drawdownLockThreshold : ℚ := 100
  maxContractsMini : Int := 5
  consistencyPct : ℚ := 1 / 2
  minTradingDays : Int := 2
  autoResetOnPass : Bool := true
  autoResetOnFail : Bool := true

inductive AttemptOutcome
  | active
  | pass
  | fail
  | resetManual
deriving DecidableEq

structure EvalAttempt where
  attemptId : Int := 1
  startedAt : String := ""
  endedAt : Option String := none
  outcome : AttemptOutcome := .active
  startingBalance : ℚ := 50000
  pnl : ℚ := 0
  eodHighWaterMark : ℚ := 50000
  currentDrawdownFloor : ℚ := 48000
  drawdownLocked : Bool := false
  dailyPnlByDate : Dict String ℚ := .empty
  tradingDays : List String := []
  trades : Int := 0
  wins : Int := 0
  losses : Int := 0
  maxDrawdownHit : ℚ := 0
  profitPeak : ℚ := 0
deriving DecidableEq

/-- An attempt as a dictionary. -/
structure AttemptRecord where
  attemptId : Option Int := none
  startedAt : Option String := none
  endedAt : Option String := none
  outcome : Option AttemptOutcome := none
  startingBalance : Option ℚ := none
  endingBalance : Option ℚ := none
  pnl : Option ℚ := none
  eodHighWaterMark : Option ℚ := none
  currentDrawdownFloor : Option ℚ := none
  drawdownLocked : Option Bool := none
  dailyPnlByDate : Option (Dict String ℚ) := none
  tradingDays : Option (List String) := none
  trades : Option Int := none
  wins : Option Int := none
  losses : Option Int := none
  winRate : Option ℚ := none
  maxDrawdownHit : Option ℚ := none
  profitPeak : Option ℚ := none
deriving DecidableEq

namespace EvalAttempt

def toDict (a : EvalAttempt) : AttemptRecord where
  attemptId := a.attemptId
  startedAt := a.startedAt
  endedAt := a.endedAt
  outcome := a.outcome
  startingBalance := a.startingBalance
  endingBalance := a.startingBalance + a.pnl
  pnl := a.pnl
  eodHighWaterMark := a.eodHighWaterMark
  currentDrawdownFloor := a.currentDrawdownFloor
  drawdownLocked := a.drawdownLocked
  dailyPnlByDate := a.dailyPnlByDate
  tradingDays := a.tradingDays
  trades := a.trades
  wins := a.wins
  losses := a.losses
  winRate := roundCents (if 0 < a.trades then a.wins / a.trades * 100 else 0)
  maxDrawdownHit := a.maxDrawdownHit
  profitPeak := a.profitPeak

/-- `from_dict`, at the time `now`. -/
def fromDict (data : AttemptRecord) (now : String) : EvalAttempt where
  attemptId := data.attemptId.getD 1
  startedAt := data.startedAt.getD now
  endedAt := data.endedAt
  outcome := data.outcome.getD .active
  startingBalance := data.startingBalance.getD 50000
  pnl := data.pnl.getD 0
  eodHighWaterMark := data.eodHighWaterMark.getD 50000
  currentDrawdownFloor := data.currentDrawdownFloor.getD 48000
  drawdownLocked := data.drawdownLocked.getD false
  dailyPnlByDate := data.dailyPnlByDate.getD .empty
  tradingDays := data.tradingDays.getD []
  trades := data.trades.getD 0
  wins := data.wins.getD 0
  losses := data.losses.getD 0
  maxDrawdownHit := data.maxDrawdownHit.getD 0
  profitPeak := data.profitPeak.getD 0

@[simp] theorem fromDict_toDict (a : EvalAttempt) (now : String) : fromDict a.toDict now = a := rfl

end EvalAttempt

structure ConsistencyCheck where
  met : Bool
  bestDayPnl : ℚ
  bestDayPct : ℚ
  bestDayDate : Option String
deriving DecidableEq

structure MinDaysCheck where
  met : Bool
  daysTraded : Nat
  daysRequired : Int
deriving DecidableEq

/-- The best day so far: the first one of the highest profit. -/
def betterDay (best : Option (String × ℚ)) (day : String × ℚ) : Option (String × ℚ) :=
  match best with
  | none => some day
  | some b => if b.2 < day.2 then some day else some b

def bestDay (daily : Dict String ℚ) : Option (String × ℚ) := daily.entries.foldl betterDay none

def checkConsistency (config : TvPaperEvalConfig) (a : EvalAttempt) : ConsistencyCheck :=
  match bestDay a.dailyPnlByDate with
  | none => ⟨true, 0, 0, none⟩
  | some (bestDayDate, bestDayPnl) =>
    if a.pnl ≤ 0 then ⟨true, 0, 0, none⟩
    else
      let bestDayPct := if 0 < a.pnl then bestDayPnl / a.pnl else 0
      ⟨bestDayPct ≤ config.consistencyPct, roundCents bestDayPnl, roundTenths (bestDayPct * 100), bestDayDate⟩

def checkMinDays (config : TvPaperEvalConfig) (a : EvalAttempt) : MinDaysCheck :=
  let daysTraded := a.tradingDays.length
  ⟨config.minTradingDays ≤ daysTraded, daysTraded, config.minTradingDays⟩

/-- The section `tv_paper` of the state file. -/
structure TvPaperSection where
  stage : String
  eodHighWaterMark : ℚ
  currentDrawdownFloor : ℚ
  drawdownLocked : Bool
  consistency : ConsistencyCheck
  minDays : MinDaysCheck
  tradingDaysCount : Nat
  maxContractsMini : Int
deriving DecidableEq

/-- The section for an attempt, with the rules checked on `current`. -/
def tvPaperSection (config : TvPaperEvalConfig) (attempt current : EvalAttempt) : TvPaperSection where
  stage := config.stage
  eodHighWaterMark := attempt.eodHighWaterMark
  currentDrawdownFloor := attempt.currentDrawdownFloor
  drawdownLocked := attempt.drawdownLocked
  consistency := checkConsistency config current
  minDays := checkMinDays config current
  tradingDaysCount := attempt.tradingDays.length
  maxContractsMini := config.maxContractsMini

structure EvalStateFile where
  currentAttempt : AttemptRecord
  tvPaper : TvPaperSection
deriving DecidableEq

/-- `written` are the state files that this tracker has written, the latest first. -/
structure TvPaperEvalTracker where
  config : TvPaperEvalConfig
  currentAttempt : EvalAttempt
  stateFile : Option EvalStateFile
  history : List AttemptRecord
  written : List EvalStateFile := []

structure EvalClock where
  today : String
  endedAt : String
  startedAt : String

structure EvalResult where
  triggered : Bool
  outcome : Option AttemptOutcome
  attempt : Option AttemptRecord

/-- The attempt that `_create_new_attempt` makes. -/
def newAttempt (config : TvPaperEvalConfig) (attemptId : Int) (startedAt : String) : EvalAttempt where
  attemptId
  startedAt
  startingBalance := config.startBalance
  eodHighWaterMark := config.startBalance
  currentDrawdownFloor := config.startBalance - config.maxLossDistance

/-- The attempt that `_load_or_create_attempt` comes to, and whether it is a new one. -/
def loadOrCreateAttempt (config : TvPaperEvalConfig) (file : Option EvalStateFile) (now : String) : EvalAttempt × Bool :=
  match file with
  | some f =>
    let attempt := EvalAttempt.fromDict f.currentAttempt now
    if attempt.outcome ≠ .active then (newAttempt config (attempt.attemptId + 1) now, true) else (attempt, false)
  | none => (newAttempt config 1 now, true)

namespace TvPaperEvalTracker

/-- The constructor: while there is no current attempt yet, the save of a new one raises `AttributeError`, which is
caught. -/
def init (config : TvPaperEvalConfig) (file : Option EvalStateFile) (history : List AttemptRecord) (now : String) :
    TvPaperEvalTracker where
  config
  currentAttempt := (loadOrCreateAttempt config file now).1
  stateFile := file
  history

/-- `_save_state`: the two rules are checked on the current attempt, whichever attempt is saved. -/
def saveState (t : TvPaperEvalTracker) (attempt : EvalAttempt) : TvPaperEvalTracker :=
  let file : EvalStateFile := ⟨attempt.toDict, tvPaperSection t.config attempt t.currentAttempt⟩
  { t with stateFile := some file, written := file :: t.written }

def save (t : TvPaperEvalTracker) : TvPaperEvalTracker := t.saveState t.currentAttempt

/-- `_create_new_attempt`, and its result made the current attempt. -/
def startAttempt (t : TvPaperEvalTracker) (attemptId : Int) (startedAt : String) : TvPaperEvalTracker :=
  let attempt := newAttempt t.config attemptId startedAt
  { t.saveState attempt with currentAttempt := attempt }

def autoResets (config : TvPaperEvalConfig) : AttemptOutcome → Bool
  | .pass => config.autoResetOnPass
  | .fail => config.autoResetOnFail
  | _ => false

def close (a : EvalAttempt) (outcome : AttemptOutcome) (clock : EvalClock) : EvalAttempt :=
  { a with outcome, endedAt := some clock.endedAt }

def endAttempt (t : TvPaperEvalTracker) (outcome : AttemptOutcome) (clock : EvalClock) : EvalResult × TvPaperEvalTracker :=
  let attempt := close t.currentAttempt outcome clock
  let t := { t with currentAttempt := attempt }.save
  let t := { t with history := t.history ++ [attempt.toDict] }
  (⟨true, some outcome, some attempt.toDict⟩,
    if autoResets t.config outcome then t.startAttempt (attempt.attemptId + 1) clock.startedAt else t)

/-- `daily[date] += pnl`, from zero where the day is new. -/
def addDaily (daily : Dict String ℚ) (date : String) (pnl : ℚ) : Dict String ℚ :=
  match daily.get? date with
  | some sum => daily.set date (sum + pnl)
  | none => daily.set date pnl

def book (a : EvalAttempt) (pnl : ℚ) (isWin : Bool) (date : String) : EvalAttempt :=
  let total := a.pnl + pnl
  { a with
    pnl := total
    trades := a.trades + 1
    wins := if isWin then a.wins + 1 else a.wins
    losses := if isWin then a.losses else a.losses + 1
    dailyPnlByDate := addDaily a.dailyPnlByDate date pnl
    tradingDays := if date ∈ a.tradingDays then a.tradingDays else a.tradingDays ++ [date]
    profitPeak := if a.profitPeak < total then total else a.profitPeak
    maxDrawdownHit := if total < a.maxDrawdownHit then total else a.maxDrawdownHit }

/-- The checks of `record_trade` on the booked attempt. -/
def verdict (config : TvPaperEvalConfig) (a : EvalAttempt) : Option AttemptOutcome :=
  if a.startingBalance + a.pnl < a.currentDrawdownFloor then some .fail
  else if config.profitTarget ≤ a.pnl ∧ (checkConsistency config a).met = true ∧ (checkMinDays config a).met = true then
    some .pass
  else none

def recordTrade (t : TvPaperEvalTracker) (pnl : ℚ) (isWin : Bool) (tradeDate : Option String) (clock : EvalClock) :
    EvalResult × TvPaperEvalTracker :=
  if ¬ t.config.enabled ∨ t.currentAttempt.outcome ≠ .active then (⟨false, none, none⟩, t)
  else
    let date := (tradeDate.filter (· ≠ "")).getD clock.today
    let t := { t with currentAttempt := book t.currentAttempt pnl isWin date }
    match verdict t.config t.currentAttempt with
    | some outcome => t.endAttempt outcome clock
    | none => (⟨false, none, none⟩, t.save)

/-- The floor after a balance: in the funded stages it trails the high-water mark, and locks. -/
def trailFloor (config : TvPaperEvalConfig) (a : EvalAttempt) : EvalAttempt :=
  if config.stage = "sim_funded" ∨ config.stage = "live" then
    let newFloor := a.eodHighWaterMark - config.maxLossDistance
    let a := if a.currentDrawdownFloor < newFloor then { a with currentDrawdownFloor := newFloor } else a
    if ¬ a.drawdownLocked ∧ config.drawdownLockThreshold ≤ a.currentDrawdownFloor then
      { a with drawdownLocked := true, currentDrawdownFloor := config.drawdownLockThreshold }
    else a
  else a

def raiseMark (a : EvalAttempt) (eodBalance : ℚ) : EvalAttempt :=
  if a.eodHighWaterMark < eodBalance then { a with eodHighWaterMark := eodBalance } else a

def updateEodHwm (t : TvPaperEvalTracker) (eodBalance : Option ℚ) : TvPaperEvalTracker :=
  if t.currentAttempt.outcome ≠ .active then t
  else
    let balance := eodBalance.getD (t.currentAttempt.startingBalance + t.currentAttempt.pnl)
    { t with currentAttempt := trailFloor t.config (raiseMark t.currentAttempt balance) }.save

def checkIntradayBreach (t : TvPaperEvalTracker) (currentEquity : ℚ) (clock : EvalClock) : Bool × TvPaperEvalTracker :=
  if t.currentAttempt.outcome ≠ .active then (false, t)
  else if currentEquity < t.currentAttempt.currentDrawdownFloor then (true, (t.endAttempt .fail clock).2)
  else (false, t)

/-- `refresh`: here there is a current attempt while a new one is saved. -/
def refresh (t : TvPaperEvalTracker) (now : String) : TvPaperEvalTracker :=
  match t.stateFile with
  | none => t
  | some f =>
    let (attempt, created) := loadOrCreateAttempt t.config (some f) now
    { (if created then t.saveState attempt else t) with currentAttempt := attempt }

end TvPaperEvalTracker

/-! ### Runs -/

/-- The calls that book and check. -/
inductive EvalCall
  | recordTrade (pnl : ℚ) (isWin : Bool) (tradeDate : Option String) (clock : EvalClock)
  | updateEodHwm (eodBalance : Option ℚ)
  | checkIntradayBreach (currentEquity : ℚ) (clock : EvalClock)

def EvalCall.apply (t : TvPaperEvalTracker) : EvalCall → TvPaperEvalTracker
  | .recordTrade pnl isWin tradeDate clock => (t.recordTrade pnl isWin tradeDate clock).2
  | .updateEodHwm eodBalance => t.updateEodHwm eodBalance
  | .checkIntradayBreach currentEquity clock => (t.checkIntradayBreach currentEquity clock).2

def TvPaperEvalTracker.run (t : TvPaperEvalTracker) (calls : List EvalCall) : TvPaperEvalTracker :=
  calls.foldl EvalCall.apply t

end PearlAlgo
