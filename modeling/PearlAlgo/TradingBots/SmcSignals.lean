import PearlAlgo.Py.Number
import PearlAlgo.TradingBots.Strategy

/-!
# Smart money concepts (`trading_bots/smc_signals.py`)

The tables of the `smartmoneyconcepts` library are arguments, with a float in every cell. A row that cannot be read is
skipped, as is one whose flag is `nan`. `int` of an infinite flag raises, and the caller then takes the check for no
signal.
-/

namespace PearlAlgo.SignalGenerator
open Py

structure FvgRow where
  fvg : Number
  top : Number
  bottom : Number
  mitigatedIndex : Number

structure ObRow where
  ob : Number
  top : Number
  bottom : Number

structure StructureRow where
  bos : Number
  choch : Number

structure LiquidityRow where
  liquidity : Number
  level : Number
  swept : Number

/-- What the library gives in one call, `none` for a call that fails: whether it is installed, the frame can be indexed
by time and swings are found, and the tables. -/
structure SmcTables where
  installed : Bool := true
  indexed : Bool := true
  swings : Bool := true
  fvg : Option (List FvgRow) := none
  bosChoch : Option (List StructureRow) := none
  ob : Option (List ObRow) := none
  liquidity : Option (List LiquidityRow) := none

structure Zone where
  direction : PositionSide
  top : Number
  bottom : Number

/-- Not `pd.isna(x)` and not zero -/
def flagged (x : Number) : Bool := x ≠ .nan ∧ x ≠ .fin 0

/-- `not pd.isna(x) and float(x) > 0` -/
def marked (x : Number) : Bool := .fin 0 < x

/-- `int(x)`, `none` where it raises -/
def toInt : Number → Option Int
  | .fin q => some (truncInt q)
  | _ => none

def insideOrNear (top bottom : Number) (price : ℚ) : Bool :=
  let tolerance := (top.sub bottom).scale (1/4)
  bottom.sub tolerance ≤ .fin price ∧ .fin price ≤ top.add tolerance

/-- The zone of a row with the flag `flag`: `none` where the check raises, `some none` where the row is skipped. -/
def activeZone (flag top bottom : Number) (price : ℚ) : Option (Option Zone) :=
  if flagged flag ∧ bottom < top then
    (toInt flag).map fun n =>
      if insideOrNear top bottom price then some ⟨if n = 1 then .long else .short, top, bottom⟩ else none
  else some none

def detectActiveFvgs (rows : Option (List FvgRow)) (price : ℚ) (lookback : Nat) : Option (List Zone) :=
  ((lastN lookback (rows.getD [])).mapM fun row =>
    if marked row.mitigatedIndex then some none else activeZone row.fvg row.top row.bottom price).map (List.filterMap id)

def detectActiveObs (rows : Option (List ObRow)) (price : ℚ) (lookback : Nat) : Option (List Zone) :=
  ((lastN lookback (rows.getD [])).mapM fun row =>
    activeZone row.ob row.top row.bottom price).map (List.filterMap id)

/-- The element replaces the best one so far if it is strictly closer. -/
def closer {α : Type} (dist : α → Number) (best : Option α × Number) (a : α) : Option α × Number :=
  if dist a < best.2 then (some a, dist a) else best

/-- The first element of the least distance, among those whose distance is below infinity. -/
def closest {α : Type} (dist : α → Number) (l : List α) : Option α := (l.foldl (closer dist) (none, .posInf)).1

theorem lt_posInf_of_lt {a b : Number} (h : a < b) : a < .posInf := by
  cases a with
  | nan => exact absurd h (Number.not_nan_lt b)
  | posInf => cases b <;> exact absurd h Bool.false_ne_true
  | negInf => exact rfl
  | fin q => exact rfl

theorem foldl_closer {α : Type} {dist : α → Number} {a : α} {l : List α} {best : Option α × Number}
    (h : (l.foldl (closer dist) best).1 = some a) : best.1 = some a ∨ a ∈ l ∧ dist a < .posInf := by
  induction l generalizing best with
  | nil => exact .inl h
  | cons b l ih =>
    rcases ih h with hb | ⟨hmem, hlt⟩
    · unfold closer at hb
      split at hb
      next hlt =>
        have hab : b = a := Option.some.inj hb
        rw [hab] at hlt
        exact .inr ⟨by simp [hab], lt_posInf_of_lt hlt⟩
      · exact .inl hb
    · exact .inr ⟨List.mem_cons_of_mem b hmem, hlt⟩

theorem closest_eq_some {α : Type} {dist : α → Number} {l : List α} {a : α} (h : closest dist l = some a) :
    a ∈ l ∧ dist a < .posInf := by
  rcases foldl_closer h with h | h
  · simp at h
  · exact h

def Zone.distance (price : ℚ) (z : Zone) : Number :=
  ((Number.fin price).sub ((z.top.add z.bottom).scale (1/2))).abs

def pickBestFvg (fvgs : List Zone) (price : ℚ) : Option Zone := closest (Zone.distance price) fvgs

/-- An infinite edge puts the middle of a gap at an infinite distance, or nowhere. -/
theorem pickBestFvg_fin {fvgs : List Zone} {price : ℚ} {z : Zone} (h : pickBestFvg fvgs price = some z) :
    ∃ top bottom, z.top = .fin top ∧ z.bottom = .fin bottom := by
  have hlt := (closest_eq_some h).2
  obtain ⟨side, top, bottom⟩ := z
  rcases top with _ | _ | top | _ <;> rcases bottom with _ | _ | bottom | _ <;>
    first
    | exact ⟨_, _, rfl, rfl⟩
    | exact absurd hlt Bool.false_ne_true

def checkObConfluence (fvg : Zone) (activeObs : List Zone) : Bool :=
  activeObs.any fun ob => ob.direction = fvg.direction ∧ fvg.bottom ≤ ob.top ∧ ob.bottom ≤ fvg.top

/-- `not pd.isna(x) and int(x) == target` -/
def isInt (target : Int) (x : Number) : Option Bool :=
  if x = .nan then some false else (toInt x).map fun n => n = target

/-- A break of the structure in one of the rows; a row is read only where the rows before it have none. -/
def confirms (target : Int) : List StructureRow → Option Bool
  | [] => some false
  | row :: rows =>
    (isInt target row.bos).bind fun bos =>
      if bos then some true
      else (isInt target row.choch).bind fun choch => if choch then some true else confirms target rows

def checkBosChochConfirmation (rows : Option (List StructureRow)) (direction : PositionSide) : Option Bool :=
  confirms (if direction = .long then 1 else -1) (lastN 5 (rows.getD []))

def checkKeyLevelAlignment (keyLevels : Dict String (Option ℚ)) (price atr : ℚ) : Bool :=
  keyLevels.values.any fun level => level.any fun l => |price - l| ≤ atr * (15/10)

def LiquidityRow.distance (direction : PositionSide) (price : ℚ) (row : LiquidityRow) : Number :=
  match direction with
  | .long => row.level.sub (.fin price)
  | .short => (Number.fin price).sub row.level

def LiquidityRow.eligible (direction : PositionSide) (price : ℚ) (row : LiquidityRow) : Bool :=
  flagged row.liquidity && !marked row.swept &&
    match direction with
    | .long => Number.fin price < row.level
    | .short => row.level < Number.fin price

def findLiquidityTarget (rows : Option (List LiquidityRow)) (direction : PositionSide) (price : ℚ) : Option Number :=
  (closest (LiquidityRow.distance direction price) ((rows.getD []).filter (LiquidityRow.eligible direction price))).map
    LiquidityRow.level

/-- The level that is found is finite and ahead of the price. -/
theorem findLiquidityTarget_fin {rows : Option (List LiquidityRow)} {side : PositionSide} {price : ℚ} {x : Number}
    (h : findLiquidityTarget rows side price = some x) : ∃ level, x = .fin level ∧ side.lt price level := by
  obtain ⟨row, hrow, rfl⟩ := Option.map_eq_some_iff.1 h
  obtain ⟨hmem, hlt⟩ := closest_eq_some hrow
  have heligible := (Bool.and_eq_true_iff.1 (List.mem_filter.1 hmem).2).2
  obtain ⟨liquidity, level, swept⟩ := row
  cases side with
  | long =>
    rcases level with _ | _ | level | _
    · exact absurd hlt Bool.false_ne_true
    · exact absurd heligible Bool.false_ne_true
    · exact ⟨level, rfl, Number.fin_lt_fin.1 (of_decide_eq_true heligible)⟩
    · exact absurd hlt Bool.false_ne_true
  | short =>
    rcases level with _ | _ | level | _
    · exact absurd hlt Bool.false_ne_true
    · exact absurd hlt Bool.false_ne_true
    · exact ⟨level, rfl, Number.fin_lt_fin.1 (of_decide_eq_true heligible)⟩
    · exact absurd heligible Bool.false_ne_true

def inSilverBulletWindow (now : EtTime) (windows : List (Nat × Nat)) : Bool :=
  windows.any fun (first, last) => first ≤ now.hour ∧ now.hour < last

def smcStopLoss (direction : PositionSide) (top bottom : ℚ) (distance : ℚ) : ℚ :=
  match direction with
  | .long => bottom - distance
  | .short => top + distance

/-- The liquidity level, or the target by the range. A level that is chosen is finite (`findLiquidityTarget_fin`). -/
def smcTakeProfit (direction : PositionSide) (level : Option Number) (price distance : ℚ) : ℚ :=
  match level with
  | some (.fin l) => l
  | _ => direction.ahead price distance

structure SmcBoosts where
  obConfluence : Bool
  bosChoch : Bool
  volumeConfirmed : Bool
  keyLevel : Bool
  vwapAligned : Bool

namespace SmcBoosts
variable (b : SmcBoosts) (params : StrategyParams)

def confidence : ℚ :=
  min (params.smcFvgBaseConfidence + (if b.obConfluence then params.smcObBoost else 0) +
    (if b.bosChoch then params.smcBosBoost else 0) + (if b.volumeConfirmed then params.smcVolumeBoost else 0) +
    (if b.keyLevel then params.smcKeyLevelBoost else 0) + (if b.vwapAligned then params.smcVwapBoost else 0)) (99/100)

def activeCount : Nat :=
  1 + b.obConfluence.toNat + b.bosChoch.toNat + b.volumeConfirmed.toNat + b.keyLevel.toNat + b.vwapAligned.toNat

/-- The type inside a silver bullet window, where alone the check gets this far. -/
def signalType : SmcType :=
  if b.obConfluence ∨ 3 ≤ b.activeCount then .smcSilverBullet else .smcFvg

end SmcBoosts

variable (df : Frame) (ind : IndicatorResult) (params : StrategyParams) (now : EtTime) (smc : SmcTables)

def SmcReady : Prop :=
  params.allowSmcEntries ∧ smc.installed ∧ inSilverBulletWindow now params.smcSilverBulletWindows ∧ smc.indexed ∧
    5 ≤ df.bars.length ∧ params.smcSwingLength + 5 ≤ df.bars.length ∧ smc.swings ∧ 0 < ind.atr

instance SmcReady.decidable : Decidable (SmcReady df ind params now smc) := inferInstanceAs (Decidable (_ ∧ _))

/-- The gap that the check chooses, with the boosts that it finds. -/
def smcSetup : Option (Zone × SmcBoosts) :=
  if SmcReady df ind params now smc then
    (detectActiveFvgs smc.fvg ind.close params.smcFvgLookback).bind fun fvgs =>
      (pickBestFvg fvgs ind.close).bind fun fvg =>
        (detectActiveObs smc.ob ind.close params.smcObLookback).bind fun obs =>
          (checkBosChochConfirmation smc.bosChoch fvg.direction).map fun bosChoch =>
            (fvg, {
              obConfluence := checkObConfluence fvg obs, bosChoch, volumeConfirmed := ind.volumeConfirmed,
              keyLevel := checkKeyLevelAlignment ind.keyLevels ind.close ind.atr,
              vwapAligned := ind.vwapVal.any fun vwap => fvg.direction.lt vwap ind.close })
  else none

/-- `_check_smc_signal`, `none` also where it raises. The gap that is chosen has finite edges (`pickBestFvg_fin`). -/
def checkSmcSignal : Option Signal :=
  (smcSetup df ind params now smc).bind fun (fvg, boosts) =>
    match fvg.top, fvg.bottom with
    | .fin top, .fin bottom =>
      let stopLoss := smcStopLoss fvg.direction top bottom (params.smcSlAtrMult * ind.atr)
      let level := findLiquidityTarget smc.liquidity fvg.direction ind.close
      let takeProfit := smcTakeProfit fvg.direction level ind.close (params.smcTpAtrMult * ind.atr)
      let slDistance := |ind.close - stopLoss|
      let tpDistance := |takeProfit - ind.close|
      if slDistance ≤ 0 ∨ tpDistance ≤ 0 then none
      else
        some { direction := fvg.direction, entryPrice := ind.close, stopLoss, takeProfit,
               confidence := boosts.confidence params, riskReward := tpDistance / slDistance,
               entryTrigger := .smc boosts.signalType }
    | _, _ => none

end PearlAlgo.SignalGenerator
