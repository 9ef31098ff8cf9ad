import Mathlib.Data.List.Forall2
import Mathlib.Data.List.Induction
import Mathlib.Data.List.Nodup
import Mathlib.Data.List.ReduceOption
import PearlAlgo.ExecutionBase
import PearlAlgo.Yaml.Datum

/-!
# Trade attribution (`api/tradovate_helpers.py`)

`_attribute_trades_to_pearl_signals` gives each trade in turn the nearest candidate that is left. The rows and the trades are
dictionaries. Every comparison with `nan` is false, so a candidate whose price is not a number passes for one that is near.
-/

namespace PearlAlgo.TradovateHelpers

open Py Yaml

/-! ### Conversions -/

/-- What the conversions of Python make of texts. -/
structure Builtins where
  lower : String → String
  /-- `str(v)` of what is no text -/
  strOther : Datum → String
  floatText : String → Option Number
  intText : String → Option Int
  /-- `parse_trade_timestamp`: what the clock of New York shows, in seconds. -/
  parseTradeTimestamp : String → Except Err ℚ

/-- Integers from here on are too large for a float. -/
def FLOAT_LIMIT : Int := 2 ^ 1024 - 2 ^ 970

namespace Builtins
variable (b : Builtins)

def str : Datum → String
  | .scalar (.str s) => s
  | v => b.strOther v

def float : Datum → Except Err Number
  | .scalar (.bool x) => .ok (.fin (if x then 1 else 0))
  | .scalar (.int n) => if |n| < FLOAT_LIMIT then .ok (.fin n) else .error .overflow
  | .scalar (.float x) => .ok x
  | .scalar (.str s) => (b.floatText s).elim (.error .value) .ok
  | .scalar .null | .scalar (.other _) | .list _ | .map _ => .error .type

def int : Datum → Except Err Int
  | .scalar (.bool x) => .ok (if x then 1 else 0)
  | .scalar (.int n) => .ok n
  | .scalar (.float (.fin q)) => .ok (truncInt q)
  | .scalar (.float .nan) => .error .value
  | .scalar (.float _) => .error .overflow
  | .scalar (.str s) => (b.intText s).elim (.error .value) .ok
  | .scalar .null | .scalar (.other _) | .list _ | .map _ => .error .type

end Builtins

/-- `d.get(key) or default` -/
def getOr (key : Key) (default : Datum) (d : Mapping) : Datum := ((d.get? key).filter Datum.truthy).getD default

/-- `except (TypeError, ValueError)` -/
def isParseError : Err → Bool
  | .type | .value => true
  | _ => false

/-! ### The candidates -/

/-- An entry of `gen_meta`. -/
structure SignalMeta where
  direction : String
  positionSize : Int
  entryPrice : Number
  signalType : Option Datum
  stopLoss : Option Datum
  takeProfit : Option Datum

structure Candidate where
  signalId : String
  direction : String
  entryPrice : Number
  positionSize : Int
  timestamp : ℚ
  signalType : Option Datum := none
  stopLoss : Option Datum := none
  takeProfit : Option Datum := none
deriving DecidableEq

/-- `gen_meta` and `entered_rows` -/
structure SignalScan where
  genMeta : Dict String SignalMeta := .empty
  enteredRows : List Mapping := []

section
variable (b : Builtins)

def signalIdOf (row : Mapping) : String := b.str (getOr "signal_id" (.str "") row)

/-- The metadata of a `generated` row; `none` is a `continue`. -/
def signalMeta (signal : Mapping) : Except Err (Option SignalMeta) :=
  let direction := b.lower (b.str (getOr "direction" (.str "") signal))
  if direction ≠ "long" ∧ direction ≠ "short" then .ok none
  else
    match (do return (← b.float ((signal.get? "entry_price").getD .null), ← b.int (getOr "position_size" (.int 1) signal)) :
        Except Err (Number × Int)) with
    | .error e => if isParseError e then .ok none else .error e
    | .ok (entryPrice, positionSize) =>
      .ok (some {
        direction
        positionSize
        entryPrice
        signalType := ((signal.get? "type").filter Datum.truthy).or (signal.get? "signal_source")
        stopLoss := signal.get? "stop_loss"
        takeProfit := signal.get? "take_profit" })

/-- A line of the file; `none` is no JSON, and a row that is no object raises. -/
def SignalScan.step (s : SignalScan) : Option Datum → Except Err SignalScan
  | none => .ok s
  | some (.map row) =>
    if signalIdOf b row = "" then .ok s
    else if Mapping.get? "status" row = some (.str "generated") then
      match Mapping.get? "signal" row with
      | some (.map signal) => do
        match ← signalMeta b signal with
        | none => return s
        | some info => return { s with genMeta := s.genMeta.set (signalIdOf b row) info }
      | _ => .ok s
    else if Mapping.get? "status" row = some (.str "entered") then .ok { s with enteredRows := s.enteredRows ++ [row] }
    else .ok s
  | some _ => .error .attribute

/-- The first of the values that is a time. -/
def firstTime : List (Option Datum) → Except Err (Option ℚ)
  | [] => .ok none
  | v :: vs =>
    match v.filter Datum.truthy with
    | none => firstTime vs
    | some v =>
      match b.parseTradeTimestamp (b.str v) with
      | .ok t => .ok (some t)
      | .error e => if isParseError e then firstTime vs else .error e

/-- `_parse_signal_timestamp`; the metadata has no times. -/
def parseSignalTimestamp (row : Mapping) : Except Err (Option ℚ) :=
  firstTime b [row.get? "entry_time", row.get? "timestamp", none, none]

/-- The price of an `entered` row, or else that of its metadata. -/
def enteredPrice (info : SignalMeta) (row : Mapping) : Except Err Number :=
  match row.get? "entry_price" with
  | none | some (.scalar .null) => .ok info.entryPrice
  | some v =>
    match b.float v with
    | .ok x => .ok x
    | .error e => if isParseError e then .ok info.entryPrice else .error e

/-- The candidate of an `entered` row; `none` is a `continue`. -/
def candidateOf (genMeta : Dict String SignalMeta) (row : Mapping) : Except Err (Option Candidate) :=
  match genMeta.get? (signalIdOf b row) with
  | none => .ok none
  | some info => do
    let entryPrice ← enteredPrice b info row
    return (← parseSignalTimestamp b row).map fun timestamp =>
      { signalId := signalIdOf b row, direction := info.direction, entryPrice, positionSize := info.positionSize, timestamp,
        signalType := info.signalType, stopLoss := info.stopLoss, takeProfit := info.takeProfit }

/-- `_load_signal_trade_candidates`. What the first pass raises is caught. -/
def loadSignalTradeCandidates (lines : List (Option Datum)) : Except Err (List Candidate) :=
  match lines.foldlM (SignalScan.step b) {} with
  | .error _ => .ok []
  | .ok scan => do return (← scan.enteredRows.mapM (candidateOf b scan.genMeta)).reduceOption

/-! ### The attribution -/

/-- What the loop reads of a trade. -/
structure TradeRead where
  time : ℚ
  price : Number
  size : Int
  direction : String
deriving DecidableEq

def readTrade (trade : Mapping) : Except Err TradeRead := do
  let time ← b.parseTradeTimestamp (b.str (getOr "entry_time" (.str "") trade))
  let price ← b.float (getOr "entry_price" (.float 0) trade)
  let size ← b.int (getOr "position_size" (.int 0) trade)
  return { time, price, size, direction := b.lower (b.str (getOr "direction" (.str "") trade)) }

def PRICE_DELTA_TOL : ℚ := 10

def TIME_DELTA_TOL_S : ℚ := 180

def priceDelta (r : TradeRead) (c : Candidate) : Number := (c.entryPrice.sub r.price).abs

def timeDelta (r : TradeRead) (c : Candidate) : ℚ := |c.timestamp - r.time|

/-- `eligible`: time difference, price difference and place of the candidates that no test skips. -/
def eligible (r : TradeRead) (remaining : List Candidate) : List (ℚ × Number × Nat) :=
  remaining.zipIdx.filterMap fun (c, idx) =>
    if c.direction = r.direction ∧ c.positionSize = r.size ∧ ¬ .fin PRICE_DELTA_TOL < priceDelta r c ∧
        timeDelta r c ≤ TIME_DELTA_TOL_S then some (timeDelta r c, priceDelta r c, idx)
    else none

/-- `==` of floats -/
def numberEq (x y : Number) : Bool := x ≠ .nan ∧ x = y

/-- `<` of tuples: the first items that differ decide. -/
def tupleLt (x y : ℚ × Number × Nat) : Bool :=
  if x.1 ≠ y.1 then x.1 < y.1
  else if numberEq x.2.1 y.2.1 then x.2.2 < y.2.2
  else x.2.1 < y.2.1

def minTuple : List (ℚ × Number × Nat) → Option (ℚ × Number × Nat)
  | [] => none
  | x :: l => some (l.foldl (fun best y => if tupleLt y best then y else best) x)

/-- The key gets the value where it has none. -/
def fillIn (key : Key) (v : Option Datum) (trade : Mapping) : Mapping :=
  match v.filter Datum.truthy with
  | none => trade
  | some v => if (trade.get? key).any Datum.truthy then trade else trade.assign key v

def enrich (trade : Mapping) (c : Candidate) : Mapping :=
  let enriched := if c.signalId = "" then trade else trade.assign "signal_id" (.str c.signalId)
  fillIn "take_profit" c.takeProfit (fillIn "stop_loss" c.stopLoss (fillIn "signal_type" c.signalType enriched))

/-- A trade of the result, and the candidate that it was given with its place in the list of all. No code reads the
second. -/
structure Attributed where
  trade : Mapping
  candidate : Option (Candidate × Nat) := none

/-- The place among the candidates that are left of the one that is taken, and that one. -/
def best (r : TradeRead) (remaining : List (Candidate × Nat)) : Option (Nat × Candidate × Nat) := do
  let (_, _, idx) ← minTuple (eligible r (remaining.map Prod.fst))
  return (idx, ← remaining[idx]?)

/-- The loop over the trades. -/
def attributeLoop : List Mapping → List (Candidate × Nat) → Except Err (List Attributed)
  | [], _ => .ok []
  | trade :: trades, remaining =>
    match readTrade b trade with
    | .error e =>
      if isParseError e then (attributeLoop trades remaining).map ({ trade } :: ·) else .error e
    | .ok r =>
      match best r remaining with
      | some (idx, c) =>
        (attributeLoop trades (remaining.eraseIdx idx)).map ({ trade := enrich trade c.1, candidate := some c } :: ·)
      | none => (attributeLoop trades remaining).map ({ trade } :: ·)

/-- `_attribute_trades_to_pearl_signals` -/
def attributeTradesToPearlSignals (trades : List Mapping) (candidates : List Candidate) : Except Err (List Attributed) :=
  if trades = [] then .ok []
  else if candidates = [] then .ok (trades.map fun trade => { trade })
  else attributeLoop b trades candidates.zipIdx

end

/-! ### The least tuple -/

section
variable {α : Type} {x y m : ℚ × Number × Nat} {l l₁ l₂ : List (ℚ × Number × Nat)}

theorem number_lt_spec {x y : Number} (h : x < y) : x ≠ .nan ∧ y ≠ .nan := by
  constructor
  · rintro rfl
    exact Number.not_nan_lt y h
  · rintro rfl
    exact Number.not_lt_nan x h

theorem number_le_of_lt {x y : Number} (h : x < y) : x ≤ y := by
  cases x <;> cases y <;> first | exact absurd h Bool.false_ne_true | exact rfl | exact Number.fin_le_fin.2 (Number.fin_lt_fin.1 h).le

theorem number_le_refl {x : Number} (h : x ≠ .nan) : x ≤ x := by
  cases x
  · exact absurd rfl h
  · exact rfl
  · exact Number.fin_le_fin.2 le_rfl
  · exact rfl

theorem number_le_trans {x y z : Number} (hxy : x ≤ y) (hyz : y ≤ z) : x ≤ z := by
  cases x <;> cases y <;> cases z <;>
    first
      | exact absurd hxy Bool.false_ne_true
      | exact absurd hyz Bool.false_ne_true
      | exact rfl
      | exact Number.fin_le_fin.2 ((Number.fin_le_fin.1 hxy).trans (Number.fin_le_fin.1 hyz))

theorem number_le_or_lt {x y : Number} (hx : x ≠ .nan) (hy : y ≠ .nan) : x ≤ y ∨ y < x := by
  cases x <;> cases y <;>
    first
      | exact absurd rfl hx
      | exact absurd rfl hy
      | exact .inl rfl
      | exact .inr rfl
      | exact (le_or_gt _ _).imp Number.fin_le_fin.2 Number.fin_lt_fin.2

/-- A tuple that is less is nearer in time, or as near and with a price difference that is not greater. -/
theorem tupleLt_spec (h : tupleLt y x = true) :
    y.1 < x.1 ∨ y.1 = x.1 ∧ y.2.1 ≠ .nan ∧ x.2.1 ≠ .nan ∧ y.2.1 ≤ x.2.1 := by
  unfold tupleLt at h
  split at h
  · exact .inl (of_decide_eq_true h)
  next htime =>
    right
    refine ⟨not_not.1 htime, ?_⟩
    split at h
    next heq =>
      obtain ⟨hnan, hsame⟩ : y.2.1 ≠ .nan ∧ y.2.1 = x.2.1 := of_decide_eq_true heq
      rw [← hsame]
      exact ⟨hnan, hnan, number_le_refl hnan⟩
    next =>
      have hlt : y.2.1 < x.2.1 := of_decide_eq_true h
      exact ⟨(number_lt_spec hlt).1, (number_lt_spec hlt).2, number_le_of_lt hlt⟩

theorem tupleLt_false_spec (h : tupleLt y x = false) :
    x.1 ≤ y.1 ∧ (y.1 = x.1 → y.2.1 ≠ .nan → x.2.1 ≠ .nan → x.2.1 ≤ y.2.1) := by
  unfold tupleLt at h
  split at h
  next htime =>
    exact ⟨not_lt.1 (of_decide_eq_false h), fun heq => absurd heq htime⟩
  next htime =>
    refine ⟨(not_not.1 htime).ge, fun _ hy hx => ?_⟩
    split at h
    next heq =>
      obtain ⟨-, hsame⟩ : y.2.1 ≠ .nan ∧ y.2.1 = x.2.1 := of_decide_eq_true heq
      rw [hsame]
      exact number_le_refl hx
    next =>
      rcases number_le_or_lt hx hy with hle | hlt
      · exact hle
      · exact absurd hlt (of_decide_eq_false h)

/-- The first of the tuples that are nearest in time. -/
def IsNearest (l₁ : List (ℚ × Number × Nat)) (x : ℚ × Number × Nat) (l₂ : List (ℚ × Number × Nat)) : Prop :=
  (∀ y ∈ l₁, x.1 < y.1) ∧ ∀ y ∈ l₂, x.1 ≤ y.1

/-- What the least tuple is: nearest in time, a number if the first of the nearest is one, and then least in price. -/
structure IsMin (l : List (ℚ × Number × Nat)) (m : ℚ × Number × Nat) : Prop where
  mem : m ∈ l
  nearest : ∃ l₁ x l₂, l = l₁ ++ x :: l₂ ∧ IsNearest l₁ x l₂ ∧ x.1 = m.1 ∧ (m.2.1 = .nan ↔ x.2.1 = .nan)
  least : m.2.1 ≠ .nan → ∀ y ∈ l, y.1 = m.1 → y.2.1 ≠ .nan → m.2.1 ≤ y.2.1

theorem IsMin.time_le (h : IsMin l m) (hy : y ∈ l) : m.1 ≤ y.1 := by
  obtain ⟨l₁, x, l₂, rfl, ⟨hbefore, hafter⟩, htime, -⟩ := h.nearest
  rw [← htime]
  rcases List.mem_append.1 hy with hy | hy
  · exact (hbefore y hy).le
  · rcases List.mem_cons.1 hy with rfl | hy
    · exact le_rfl
    · exact hafter y hy

theorem IsMin.concat (h : IsMin l m) (y : ℚ × Number × Nat) : IsMin (l ++ [y]) (if tupleLt y m then y else m) := by
  obtain ⟨l₁, x, l₂, rfl, hnearest, htime, hnan⟩ := h.nearest
  by_cases hlt : tupleLt y m = true
  · rw [if_pos hlt]
    rcases tupleLt_spec hlt with hearlier | ⟨hsame, hy, hm, hle⟩
    · -- `y` is the only one that is so near.
      have hall : ∀ z ∈ l₁ ++ x :: l₂, y.1 < z.1 := fun z hz => hearlier.trans_le (h.time_le hz)
      refine ⟨by simp, ⟨l₁ ++ x :: l₂, y, [], by simp, ⟨hall, ?_⟩, rfl, Iff.rfl⟩, ?_⟩
      · intro z hz
        cases hz
      · intro hnumber z hz hz' _
        rcases List.mem_append.1 hz with hz | hz
        · exact absurd hz' (hall z hz).ne'
        · rw [List.mem_singleton.1 hz]
          exact number_le_refl hnumber
    · refine ⟨by simp, ⟨l₁, x, l₂ ++ [y], by simp, ⟨hnearest.1, ?_⟩, htime.trans hsame.symm, ?_⟩, ?_⟩
      · intro z hz
        rcases List.mem_append.1 hz with hz | hz
        · exact hnearest.2 z hz
        · rw [List.mem_singleton.1 hz, htime, hsame]
      · exact iff_of_false hy fun hx => hm (hnan.2 hx)
      · intro _ z hz hz' hznan
        rcases List.mem_append.1 hz with hz | hz
        · exact number_le_trans hle (h.least hm z hz (hz'.trans hsame) hznan)
        · rw [List.mem_singleton.1 hz]
          exact number_le_refl hy
  · rw [if_neg hlt]
    obtain ⟨hle, hprice⟩ := tupleLt_false_spec (Bool.eq_false_of_not_eq_true hlt)
    refine ⟨List.mem_append_left _ h.mem, ⟨l₁, x, l₂ ++ [y], by simp, ⟨hnearest.1, ?_⟩, htime, hnan⟩, ?_⟩
    · intro z hz
      rcases List.mem_append.1 hz with hz | hz
      · exact hnearest.2 z hz
      · rw [List.mem_singleton.1 hz, htime]
        exact hle
    · intro hm z hz hz' hznan
      rcases List.mem_append.1 hz with hz | hz
      · exact h.least hm z hz hz' hznan
      · rw [List.mem_singleton.1 hz] at hz' hznan ⊢
        exact hprice hz' hznan hm

theorem minTuple_spec : match minTuple l with
    | none => l = []
    | some m => IsMin l m := by
  rcases l with _ | ⟨x, l⟩
  · rfl
  show IsMin (x :: l) (l.foldl (fun best y => if tupleLt y best then y else best) x)
  induction l using List.reverseRecOn with
  | nil =>
    refine ⟨List.mem_cons_self, ⟨[], x, [], rfl, ⟨?_, ?_⟩, rfl, Iff.rfl⟩, ?_⟩
    · intro y hy
      cases hy
    · intro y hy
      cases hy
    · intro hnumber y hy _ _
      rw [List.mem_singleton.1 hy]
      exact number_le_refl hnumber
  | append_singleton l y ih =>
    rw [List.foldl_append, ← List.cons_append]
    exact ih.concat y

/-- The first of the tuples that are nearest in time, if there are any. -/
def firstNearest (l : List (ℚ × Number × Nat)) : Option (ℚ × Number × Nat) := l.find? fun x => l.all fun y => x.1 ≤ y.1

theorem IsMin.firstNearest_iff (h : IsMin l m) : (∃ x, firstNearest l = some x ∧ x.2.1 = .nan) ↔ m.2.1 = .nan := by
  obtain ⟨l₁, x, l₂, heq, ⟨hbefore, hafter⟩, htime, hnan⟩ := h.nearest
  have hfind : firstNearest l = some x := by
    unfold firstNearest
    rw [List.find?_eq_some_iff_append]
    refine ⟨?_, l₁, l₂, heq, fun y hy => ?_⟩
    · rw [List.all_eq_true]
      intro y hy
      rw [htime]
      exact decide_eq_true (h.time_le hy)
    · have hx : x ∈ l := by
        rw [heq]
        simp
      have hlt := hbefore y hy
      rw [Bool.not_eq_true', List.all_eq_false]
      exact ⟨x, hx, by simpa using hlt⟩
  rw [hfind, hnan]
  constructor
  · rintro ⟨y, hy, hynan⟩
    cases hy
    exact hynan
  · intro hx
    exact ⟨x, rfl, hx⟩

end

/-! ### Right attributions -/

/-- The candidate has the trade's direction and size, and is within ten points and three minutes of it. -/
def Suits (r : TradeRead) (c : Candidate) : Prop :=
  c.direction = r.direction ∧ c.positionSize = r.size ∧ (∃ p, priceDelta r c = .fin p ∧ p ≤ PRICE_DELTA_TOL) ∧
    timeDelta r c ≤ TIME_DELTA_TOL_S

/-- The first candidate is not farther from the trade, in time and then in price. -/
def NoFarther (r : TradeRead) (c c' : Candidate) : Prop :=
  timeDelta r c < timeDelta r c' ∨ timeDelta r c = timeDelta r c' ∧ priceDelta r c ≤ priceDelta r c'

/-- Each trade in turn is given a nearest one of the candidates that suit it and are left, and none only where there are
none or the trade cannot be read. -/
inductive RightFrom (b : Builtins) : List (Candidate × Nat) → List Mapping → List Attributed → Prop
  | nil {left : List (Candidate × Nat)} : RightFrom b left [] []
  | unread {left : List (Candidate × Nat)} {trade : Mapping} {trades : List Mapping} {out : List Attributed} {e : Err}
      (hread : readTrade b trade = .error e) (hrest : RightFrom b left trades out) :
      RightFrom b left (trade :: trades) ({ trade } :: out)
  | unmatched {left : List (Candidate × Nat)} {trade : Mapping} {trades : List Mapping} {out : List Attributed} {r : TradeRead}
      (hread : readTrade b trade = .ok r) (hnone : ∀ c ∈ left, ¬ Suits r c.1) (hrest : RightFrom b left trades out) :
      RightFrom b left (trade :: trades) ({ trade } :: out)
  | matched {left : List (Candidate × Nat)} {trade : Mapping} {trades : List Mapping} {out : List Attributed} {r : TradeRead}
      {c : Candidate × Nat} (hread : readTrade b trade = .ok r) (hmem : c ∈ left) (hsuits : Suits r c.1)
      (hnearest : ∀ c' ∈ left, Suits r c'.1 → NoFarther r c.1 c'.1)
      (hrest : RightFrom b (left.filter fun c' => c'.2 ≠ c.2) trades out) :
      RightFrom b left (trade :: trades) ({ trade := enrich trade c.1, candidate := some c } :: out)

/-- The keys that the attribution may change. -/
def enrichedKeys : List Key := ["signal_id", "signal_type", "stop_loss", "take_profit"]

/-- The same trade in all other keys. -/
def Unchanged (trade : Mapping) (a : Attributed) : Prop :=
  ∀ key, key ∉ enrichedKeys → a.trade.get? key = trade.get? key

/-- The places of the candidates that were given. -/
def places (out : List Attributed) : List Nat := out.filterMap fun a => a.candidate.map Prod.snd

/-- The trades come back in order, no candidate is given twice, and each trade gets its own. -/
def IsRight (b : Builtins) (trades : List Mapping) (candidates : List Candidate) (out : List Attributed) : Prop :=
  List.Forall₂ Unchanged trades out ∧ (places out).Nodup ∧ RightFrom b candidates.zipIdx trades out

/-- The trade can be read, or what it raises is caught. -/
def Readable (b : Builtins) (trade : Mapping) : Prop := ∀ e, readTrade b trade = .error e → isParseError e = true

/-- Before each turn: the trade is readable, and the first of the candidates left that are nearest to it in time, of those
that no test skips, has a price difference that is a number. -/
def Sound (b : Builtins) : List Mapping → List (Candidate × Nat) → Prop
  | [], _ => True
  | trade :: trades, left =>
    Readable b trade ∧
      match readTrade b trade with
      | .error _ => Sound b trades left
      | .ok r => (∀ x, firstNearest (eligible r (left.map Prod.fst)) = some x → x.2.1 ≠ .nan) ∧
          Sound b trades (match best r left with
            | some (idx, _) => left.eraseIdx idx
            | none => left)

section
variable {b : Builtins} {r : TradeRead} {left : List (Candidate × Nat)} {trade : Mapping} {trades : List Mapping}
  {out : List Attributed} {c : Candidate × Nat} {candidates : List Candidate}

theorem mem_eligible {x : ℚ × Number × Nat} : x ∈ eligible r candidates ↔ ∃ c, candidates[x.2.2]? = some c ∧
    (c.direction = r.direction ∧ c.positionSize = r.size ∧ ¬ .fin PRICE_DELTA_TOL < priceDelta r c ∧
      timeDelta r c ≤ TIME_DELTA_TOL_S) ∧ x.1 = timeDelta r c ∧ x.2.1 = priceDelta r c := by
  unfold eligible
  rw [List.mem_filterMap]
  constructor
  · rintro ⟨⟨c, idx⟩, hmem, h⟩
    dsimp only at h
    split at h
    next hpass =>
      cases h
      exact ⟨c, List.mem_zipIdx_iff_getElem?.1 hmem, hpass, rfl, rfl⟩
    · cases h
  · rintro ⟨c, hget, hpass, ht, hd⟩
    refine ⟨(c, x.2.2), List.mem_zipIdx_iff_getElem?.2 hget, ?_⟩
    dsimp only
    rw [if_pos hpass, ← ht, ← hd]

theorem not_lt_abs {x : Number} {q : ℚ} (h : ¬ .fin q < x.abs) (hnan : x.abs ≠ .nan) : ∃ p, x.abs = .fin p ∧ p ≤ q := by
  cases x with
  | nan => exact absurd rfl hnan
  | negInf => exact absurd rfl h
  | fin a => exact ⟨|a|, rfl, not_lt.1 fun hlt => h (Number.fin_lt_fin.2 hlt)⟩
  | posInf => exact absurd rfl h

theorem suits_iff {c : Candidate} : Suits r c ↔
    (c.direction = r.direction ∧ c.positionSize = r.size ∧ ¬ .fin PRICE_DELTA_TOL < priceDelta r c ∧
      timeDelta r c ≤ TIME_DELTA_TOL_S) ∧ priceDelta r c ≠ .nan := by
  constructor
  · rintro ⟨hdir, hsize, ⟨p, hp, hle⟩, htime⟩
    rw [hp]
    exact ⟨⟨hdir, hsize, fun hlt => absurd (Number.fin_lt_fin.1 hlt) (not_lt.2 hle), htime⟩, Number.noConfusion⟩
  · rintro ⟨⟨hdir, hsize, hprice, htime⟩, hnan⟩
    exact ⟨hdir, hsize, not_lt_abs hprice hnan, htime⟩

/-- What is taken: none where no candidate passes the tests, or else one that is least. -/
theorem best_spec (r : TradeRead) (left : List (Candidate × Nat)) :
    match best r left with
    | none => eligible r (left.map Prod.fst) = []
    | some (idx, c) => left[idx]? = some c ∧ (c.1.direction = r.direction ∧ c.1.positionSize = r.size ∧
          ¬ .fin PRICE_DELTA_TOL < priceDelta r c.1 ∧ timeDelta r c.1 ≤ TIME_DELTA_TOL_S) ∧
        ∃ m, IsMin (eligible r (left.map Prod.fst)) m ∧ m.1 = timeDelta r c.1 ∧ m.2.1 = priceDelta r c.1 := by
  have hmin := minTuple_spec (l := eligible r (left.map Prod.fst))
  unfold best
  rcases hm : minTuple (eligible r (left.map Prod.fst)) with _ | m
  · rw [hm] at hmin
    exact hmin
  · rw [hm] at hmin
    obtain ⟨c, hget, hpass, htime, hprice⟩ := mem_eligible.1 hmin.mem
    rw [List.getElem?_map, Option.map_eq_some_iff] at hget
    obtain ⟨c, hget, rfl⟩ := hget
    simp only [Option.bind_eq_bind, Option.bind_some, hget]
    exact ⟨hget, hpass, m, hmin, htime, hprice⟩

theorem best_none (h : best r left = none) : (∀ c ∈ left, ¬ Suits r c.1) ∧ eligible r (left.map Prod.fst) = [] := by
  have hspec := best_spec r left
  rw [h] at hspec
  refine ⟨fun c hc hsuits => ?_, hspec⟩
  obtain ⟨idx, hidx⟩ := List.mem_iff_getElem?.1 hc
  have hmem : (timeDelta r c.1, priceDelta r c.1, idx) ∈ eligible r (left.map Prod.fst) := by
    refine mem_eligible.2 ⟨c.1, ?_, (suits_iff.1 hsuits).1, rfl, rfl⟩
    rw [List.getElem?_map, hidx, Option.map_some]
  have hnil : eligible r (left.map Prod.fst) = [] := hspec
  rw [hnil] at hmem
  cases hmem

/-- The candidate that is taken is right if and only if the first of the nearest has a price. -/
theorem best_some {idx : Nat} (h : best r left = some (idx, c)) :
    left[idx]? = some c ∧
      (Suits r c.1 ↔ ∀ x, firstNearest (eligible r (left.map Prod.fst)) = some x → x.2.1 ≠ .nan) ∧
      (Suits r c.1 → ∀ c' ∈ left, Suits r c'.1 → NoFarther r c.1 c'.1) := by
  have hspec := best_spec r left
  rw [h] at hspec
  obtain ⟨hget, hpass, m, hmin, htime, hprice⟩ := hspec
  have hnan := hmin.firstNearest_iff
  refine ⟨hget, ?_, ?_⟩
  · constructor
    · intro hsuits x hx hxnan
      have hmnan := hnan.1 ⟨x, hx, hxnan⟩
      rw [hprice] at hmnan
      exact (suits_iff.1 hsuits).2 hmnan
    · intro hnumber
      refine suits_iff.2 ⟨hpass, fun hcnan => ?_⟩
      obtain ⟨x, hx, hxnan⟩ := hnan.2 (hprice.trans hcnan)
      exact hnumber x hx hxnan
  · intro hsuits c' hc' hsuits'
    obtain ⟨idx', hidx'⟩ := List.mem_iff_getElem?.1 hc'
    have hmem : (timeDelta r c'.1, priceDelta r c'.1, idx') ∈ eligible r (left.map Prod.fst) := by
      refine mem_eligible.2 ⟨c'.1, ?_, (suits_iff.1 hsuits').1, rfl, rfl⟩
      rw [List.getElem?_map, hidx', Option.map_some]
    have hle := hmin.time_le hmem
    rw [htime] at hle
    rcases hle.lt_or_eq with hlt | heq
    · exact .inl hlt
    · right
      refine ⟨heq, ?_⟩
      have hleast := hmin.least (by rw [hprice]; exact (suits_iff.1 hsuits).2) _ hmem (by rw [htime]; exact heq.symm)
        (suits_iff.1 hsuits').2
      rw [hprice] at hleast
      exact hleast

theorem eraseIdx_eq_filter {idx : Nat} (hnodup : (left.map Prod.snd).Nodup) (hget : left[idx]? = some c) :
    left.eraseIdx idx = left.filter fun c' => c'.2 ≠ c.2 := by
  induction left generalizing idx with
  | nil => cases hget
  | cons c' left ih =>
    rw [List.map_cons, List.nodup_cons] at hnodup
    rcases idx with _ | idx
    · cases hget
      have hall : left.filter (fun c'' => c''.2 ≠ c.2) = left := by
        refine List.filter_eq_self.2 fun c'' hc'' => decide_eq_true fun heq => hnodup.1 ?_
        rw [← heq]
        exact List.mem_map_of_mem hc''
      rw [List.eraseIdx_cons_zero, List.filter_cons, if_neg (by simp), hall]
    · rw [List.getElem?_cons_succ] at hget
      have hne : c'.2 ≠ c.2 := by
        intro heq
        refine hnodup.1 ?_
        rw [heq]
        exact List.mem_map_of_mem (List.mem_of_getElem? hget)
      rw [List.eraseIdx_cons_succ, ih hnodup.2 hget, List.filter_cons, if_pos (decide_eq_true hne)]

theorem places_filter_nodup (hnodup : (left.map Prod.snd).Nodup) (p : Candidate × Nat → Bool) :
    ((left.filter p).map Prod.snd).Nodup := hnodup.sublist (List.filter_sublist.map _)

theorem map_ok_iff {α β : Type} {x : Except Err α} {f : α → β} {y : β} : x.map f = .ok y ↔ ∃ a, x = .ok a ∧ f a = y := by
  cases x with
  | error e =>
    constructor
    · intro h
      cases h
    · rintro ⟨a, h, -⟩
      cases h
  | ok a =>
    constructor
    · intro h
      cases h
      exact ⟨a, rfl, rfl⟩
    · rintro ⟨a', h, rfl⟩
      cases h
      rfl

/-- The turn of a trade that can be read: its candidate suits it, or there is none for it. -/
theorem RightFrom.of_read {a : Attributed} (h : RightFrom b left (trade :: trades) (a :: out)) (hread : readTrade b trade = .ok r) :
    (a.candidate = none ∧ RightFrom b left trades out) ∨
      ∃ c, a.candidate = some c ∧ Suits r c.1 ∧ RightFrom b (left.filter fun c' => c'.2 ≠ c.2) trades out := by
  cases h with
  | unread hr _ =>
    rw [hread] at hr
    cases hr
  | unmatched _ _ hrest => exact .inl ⟨rfl, hrest⟩
  | matched hr _ hs _ hrest =>
    rw [hread] at hr
    cases hr
    exact .inr ⟨_, rfl, hs, hrest⟩

theorem RightFrom.of_unread {a : Attributed} {e : Err} (h : RightFrom b left (trade :: trades) (a :: out))
    (hread : readTrade b trade = .error e) : RightFrom b left trades out := by
  cases h with
  | unread _ hrest => exact hrest
  | unmatched hr _ _ =>
    rw [hread] at hr
    cases hr
  | matched hr _ _ _ _ =>
    rw [hread] at hr
    cases hr

/-- The loop is right if and only if all of its turns are sound. -/
theorem attributeLoop_iff (b : Builtins) (trades : List Mapping) (left : List (Candidate × Nat))
    (hnodup : (left.map Prod.snd).Nodup) :
    (∃ out, attributeLoop b trades left = .ok out ∧ RightFrom b left trades out) ↔ Sound b trades left := by
  induction trades generalizing left with
  | nil => exact iff_of_true ⟨[], rfl, .nil⟩ trivial
  | cons trade trades ih =>
    rw [attributeLoop, Sound, Readable]
    rcases hread : readTrade b trade with e | r
    · -- a trade that cannot be read
      dsimp only
      rw [← ih left hnodup]
      by_cases hparse : isParseError e
      · rw [if_pos hparse]
        constructor
        · rintro ⟨out, hout, hright⟩
          obtain ⟨out', hout', rfl⟩ := map_ok_iff.1 hout
          refine ⟨fun e' he' => ?_, out', hout', hright.of_unread hread⟩
          cases he'
          exact hparse
        · rintro ⟨-, out, hout, hright⟩
          exact ⟨_, map_ok_iff.2 ⟨out, hout, rfl⟩, .unread hread hright⟩
      · rw [if_neg hparse]
        constructor
        · rintro ⟨out, hout, -⟩
          cases hout
        · rintro ⟨hcaught, -⟩
          exact absurd (hcaught e rfl) hparse
    · have hreadable : ∀ e, (.ok r : Except Err TradeRead) = .error e → isParseError e = true := by
        intro e he
        cases he
      dsimp only
      rcases hbest : best r left with _ | ⟨idx, c⟩
      · obtain ⟨hnone, hnil⟩ := best_none hbest
        dsimp only
        rw [← ih left hnodup, hnil]
        constructor
        · rintro ⟨out, hout, hright⟩
          obtain ⟨out', hout', rfl⟩ := map_ok_iff.1 hout
          refine ⟨hreadable, fun x hx => ?_, out', hout', ?_⟩
          · cases hx
          · rcases hright.of_read hread with ⟨-, hrest⟩ | ⟨c, hc, -⟩
            · exact hrest
            · cases hc
        · rintro ⟨-, -, out, hout, hright⟩
          exact ⟨_, map_ok_iff.2 ⟨out, hout, rfl⟩, .unmatched hread hnone hright⟩
      · obtain ⟨hget, hsuits, hnearest⟩ := best_some hbest
        dsimp only
        rw [← hsuits, eraseIdx_eq_filter hnodup hget, ← ih _ (places_filter_nodup hnodup _)]
        constructor
        · rintro ⟨out, hout, hright⟩
          obtain ⟨out', hout', rfl⟩ := map_ok_iff.1 hout
          rcases hright.of_read hread with ⟨hc, -⟩ | ⟨c', hc', hs, hrest⟩
          · cases hc
          · cases hc'
            exact ⟨hreadable, hs, out', hout', hrest⟩
        · rintro ⟨-, hs, out, hout, hright⟩
          exact ⟨_, map_ok_iff.2 ⟨out, hout, rfl⟩,
            .matched hread (List.mem_of_getElem? hget) hs (hnearest hs) hright⟩

theorem get?_fillIn {key k : Key} {v : Option Datum} (h : k ≠ key) : (fillIn key v trade).get? k = trade.get? k := by
  unfold fillIn
  split
  · rfl
  · split
    · rfl
    · rw [Mapping.get?_assign, if_neg h]

theorem unchanged_enrich (trade : Mapping) (c : Candidate × Nat) :
    Unchanged trade { trade := enrich trade c.1, candidate := some c } := by
  intro key hkey
  simp only [enrichedKeys, List.mem_cons, List.not_mem_nil, or_false, not_or] at hkey
  obtain ⟨hid, htype, hstop, htarget⟩ := hkey
  unfold enrich
  rw [get?_fillIn htarget, get?_fillIn hstop, get?_fillIn htype]
  split
  · rfl
  · rw [Mapping.get?_assign, if_neg hid]

theorem RightFrom.unchanged (h : RightFrom b left trades out) : List.Forall₂ Unchanged trades out := by
  induction h with
  | nil => exact .nil
  | unread _ _ ih => exact .cons (fun _ _ => rfl) ih
  | unmatched _ _ _ ih => exact .cons (fun _ _ => rfl) ih
  | matched _ _ _ _ _ ih => exact .cons (unchanged_enrich _ _) ih

theorem RightFrom.places_spec (h : RightFrom b left trades out) :
    (places out).Nodup ∧ ∀ i ∈ places out, i ∈ left.map Prod.snd := by
  induction h with
  | nil => exact ⟨List.nodup_nil, fun i hi => by cases hi⟩
  | unread _ _ ih => exact ih
  | unmatched _ _ _ ih => exact ih
  | @matched left trade trades out r c _ hmem _ _ _ ih =>
    have hplaces : places ({ trade := enrich trade c.1, candidate := some c } :: out) = c.2 :: places out := rfl
    rw [hplaces, List.nodup_cons]
    refine ⟨⟨fun hc => ?_, ih.1⟩, fun i hi => ?_⟩
    · obtain ⟨c', hc', heq⟩ := List.mem_map.1 (ih.2 _ hc)
      exact of_decide_eq_true (List.mem_filter.1 hc').2 heq
    · rcases List.mem_cons.1 hi with rfl | hi
      · exact List.mem_map_of_mem hmem
      · obtain ⟨c', hc', rfl⟩ := List.mem_map.1 (ih.2 i hi)
        exact List.mem_map_of_mem (List.mem_filter.1 hc').1

theorem rightFrom_nil (b : Builtins) (trades : List Mapping) :
    RightFrom b [] trades (trades.map fun trade => { trade }) := by
  induction trades with
  | nil => exact .nil
  | cons trade trades ih =>
    rcases hread : readTrade b trade with e | r
    · exact .unread hread ih
    · exact .unmatched hread (fun c hc => by cases hc) ih

theorem isRight_iff_rightFrom : IsRight b trades candidates out ↔ RightFrom b candidates.zipIdx trades out :=
  ⟨fun h => h.2.2, fun h => ⟨h.unchanged, h.places_spec.1, h⟩⟩

/-- The trades are attributed rightly if and only if there are none, there are no candidates, or all turns are sound. -/
theorem isRight_iff (b : Builtins) (trades : List Mapping) (candidates : List Candidate) :
    (∃ out, attributeTradesToPearlSignals b trades candidates = .ok out ∧ IsRight b trades candidates out) ↔
      trades = [] ∨ candidates = [] ∨ Sound b trades candidates.zipIdx := by
  simp only [isRight_iff_rightFrom]
  unfold attributeTradesToPearlSignals
  split
  next hnil =>
    rw [hnil]
    exact iff_of_true ⟨[], rfl, .nil⟩ (.inl rfl)
  next hne =>
    split
    next hnil =>
      rw [hnil]
      exact iff_of_true ⟨_, rfl, rightFrom_nil b trades⟩ (.inr (.inl rfl))
    next hne' =>
      have hnodup : (candidates.zipIdx.map Prod.snd).Nodup := by
        rw [List.zipIdx_map_snd]
        exact List.nodup_range'
      rw [attributeLoop_iff b trades _ hnodup, or_iff_right hne, or_iff_right hne']

end

/-! ### A price that is not a number -/

/-- The conversions of the texts below. -/
def plainTexts : Builtins where
  lower := String.toLower
  strOther _ := ""
  floatText _ := none
  intText _ := none
  parseTradeTimestamp text := if text = "2026-04-23T09:30:00" then .ok 1776936600 else .error .value

/-- A long whose price is `NaN`, generated and then entered at half past nine. -/
def nanSignal : List (Option Datum) :=
  [some (.map [("signal_id", .str "s1"), ("status", .str "generated"),
      ("signal", .map [("direction", .str "long"), ("entry_price", .scalar (.float .nan))])]),
    some (.map [("signal_id", .str "s1"), ("status", .str "entered"), ("timestamp", .str "2026-04-23T09:30:00")])]

def nanCandidate : Candidate where
  signalId := "s1"
  direction := "long"
  entryPrice := .nan
  positionSize := 1
  timestamp := 1776936600

/-- A long at 100, entered at half past nine. -/
def pairedLong : Mapping :=
  [("direction", .str "long"), ("position_size", .int 1), ("entry_price", .float 100),
    ("entry_time", .str "2026-04-23T09:30:00")]

def pairedRead : TradeRead where
  time := 1776936600
  price := .fin 100
  size := 1
  direction := "long"

theorem load_nanSignal : loadSignalTradeCandidates plainTexts nanSignal = .ok [nanCandidate] := by
  decide +kernel

theorem read_pairedLong : readTrade plainTexts pairedLong = .ok pairedRead := by
  decide +kernel

theorem not_isRight : ¬ ∀ (b : Builtins) (lines : List (Option Datum)) (trades : List Mapping) (candidates : List Candidate),
    loadSignalTradeCandidates b lines = .ok candidates →
      ∃ out, attributeTradesToPearlSignals b trades candidates = .ok out ∧ IsRight b trades candidates out := by
  intro h
  obtain ⟨out, hout, hright⟩ := h plainTexts nanSignal [pairedLong] [nanCandidate] load_nanSignal
  have hnodup : ([nanCandidate].zipIdx.map Prod.snd).Nodup := by decide
  have hsound : Sound plainTexts [pairedLong] [nanCandidate].zipIdx :=
    (attributeLoop_iff _ _ _ hnodup).1 ⟨out, hout, hright.2.2⟩
  rw [Sound, read_pairedLong] at hsound
  exact hsound.2.1 (0, .nan, 0) (by decide +kernel) rfl

end PearlAlgo.TradovateHelpers
