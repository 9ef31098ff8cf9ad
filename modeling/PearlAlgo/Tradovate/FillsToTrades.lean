import Mathlib.Data.List.Sort
import Mathlib.Data.List.ReduceOption
import Mathlib.Data.String.Basic
import PearlAlgo.Fifo.Lots
import PearlAlgo.Py.Round
import PearlAlgo.Tradovate.Client

/-!
# Trades from fills (`execution/tradovate/utils.py`)

`tradovate_fills_to_trades` sorts the fills by time and matches them first in, first out. Prices are finite
numbers in exact arithmetic. `process_eq` relates its loop to `Fifo.LotQueue.fill`, whose conservation law gives
`fifo_conservation`, in money and in contracts.
-/

namespace PearlAlgo
open Py Fifo

/-- What the matchers read in a price or a quantity: `bool(x)`, `float(x)` and `int(x)`. -/
structure Value where
  truthy : Bool
  float : Except Err ℚ
  int : Except Err Int

namespace Value

def null : Value := ⟨false, .error .type, .error .type⟩

def ofInt (n : Int) : Value := ⟨n ≠ 0, .ok n, .ok n⟩

def ofFloat (q : ℚ) : Value := ⟨q ≠ 0, .ok q, .ok (if 0 ≤ q then q.floor else q.ceil)⟩

end Value

/-- A fill. An absent key is `none`, and so are `null` and other falsy values of the texts. The second group is
read by the reconciliation only. -/
structure Fill where
  id : Ident := none
  action : Option String := none
  price : Option Value := none
  qty : Option Value := none
  timestamp : Option String := none
  capitalAction : Option String := none
  capitalPrice : Option Value := none
  capitalQty : Option Value := none
  capitalTimestamp : Option String := none

/-- What a lot remembers of its fill. -/
structure FillLeg where
  price : ℚ
  time : Option String
  id : Ident
  side : Action
deriving DecidableEq

abbrev OpenLot : Type := Lot FillLeg

inductive TradeDirection
  | long
  | short
deriving DecidableEq

structure Trade where
  signalId : Ident × Ident
  symbol : String
  direction : TradeDirection
  positionSize : Nat
  entryTime : Option String
  entryPrice : ℚ
  exitTime : Option String
  exitPrice : ℚ
  pnl : ℚ
  isWin : Bool
  exitReason : String
deriving DecidableEq

def POINT_VALUE : ℚ := 2

namespace Fill

def sortKey (f : Fill) : String := f.timestamp.getD ""

def side (f : Fill) : Option Action :=
  match (f.action.getD "").toLower with
  | "buy" => some .buy
  | "sell" => some .sell
  | _ => none

/-- The price and the quantity, in the order in which they are converted. -/
def numbers (f : Fill) : Except Err (ℚ × Int) := do
  let price ← (f.price.getD (.ofInt 0)).float
  let remaining ← (f.qty.getD (.ofInt 1)).int
  return (price, remaining)

/-- The fill as the loop uses it; `none` is a `continue`. -/
def read (f : Fill) : Except Err (Option OpenLot) :=
  match f.side with
  | none => .ok none
  | some side =>
    match f.numbers with
    | .error .type | .error .value => .ok none
    | .error e => .error e
    | .ok (price, remaining) =>
      .ok (if h : remaining ≤ 0 then none else some ⟨⟨price, f.timestamp, f.id, side⟩, remaining.toNat, by omega⟩)

end Fill

/-- The trade of a match of the open lot with a closing fill. -/
def tradeOf (lot : FillLeg) (matchQty : Nat) (fill : FillLeg) : Trade :=
  let direction := if lot.side = .buy then .long else .short
  let pnl := if direction = .long then roundCents ((fill.price - lot.price) * matchQty * POINT_VALUE)
    else roundCents ((lot.price - fill.price) * matchQty * POINT_VALUE)
  { signalId := (lot.id, fill.id), symbol := "MNQ", direction, positionSize := matchQty, entryTime := lot.time,
    entryPrice := lot.price, exitTime := fill.time, exitPrice := fill.price, pnl, isWin := 0 < pnl,
    exitReason := if 0 < pnl then "take_profit" else "stop_loss" }

/-- The `while` loop of a closing fill: the trades, what remains of the fill, and the open lots. -/
def closeLots (fill : FillLeg) : Nat → List OpenLot → List Trade × Nat × List OpenLot
  | remaining, [] => ([], remaining, [])
  | remaining, lot :: lots =>
    if remaining = 0 then ([], remaining, lot :: lots)
    else
      let matchQty := min remaining lot.qty
      let trade := tradeOf lot.item matchQty fill
      if h : lot.qty - matchQty = 0 then
        let r := closeLots fill (remaining - matchQty) lots
        (trade :: r.1, r.2)
      else
        -- the lot is larger than the fill, so nothing remains and the loop ends
        ([trade], remaining - matchQty, ⟨lot.item, lot.qty - matchQty, Nat.pos_of_ne_zero h⟩ :: lots)

structure Matching where
  trades : List Trade := []
  openLots : List OpenLot := []
deriving DecidableEq

namespace Matching

/-- A turn of the loop over the fills. -/
def process (m : Matching) (fill : OpenLot) : Matching :=
  if ∀ lot ∈ m.openLots.head?, lot.item.side = fill.item.side then { m with openLots := m.openLots ++ [fill] }
  else
    let r := closeLots fill.item fill.qty m.openLots
    let openLots := if h : 0 < r.2.1 then r.2.2 ++ [⟨fill.item, r.2.1, h⟩] else r.2.2
    ⟨m.trades ++ r.1, openLots⟩

def step (m : Matching) (f : Fill) : Except Err Matching := do
  match ← f.read with
  | none => return m
  | some fill => return m.process fill

end Matching

def sortedFills (fills : List Fill) : List Fill := fills.insertionSort fun f g => f.sortKey ≤ g.sortKey

/-- The loop over fills that are sorted. -/
def matchFills (fills : List Fill) : Except Err Matching := fills.foldlM Matching.step {}

def tradovateFillsToTrades (fills : List Fill) : Except Err (List Trade) := do
  let m ← matchFills (sortedFills fills)
  return m.trades

/-! ### The loop as a queue of lots -/

abbrev FillQueue : Type := LotQueue FillLeg.side

def ofMatch (m : Match FillLeg) : Trade := tradeOf m.opened m.qty m.closed

theorem closeLots_eq (fill : FillLeg) (remaining : Nat) (lots : List OpenLot) :
    closeLots fill remaining lots =
      ((consume fill remaining lots).1.map ofMatch, (consume fill remaining lots).2) := by
  induction lots generalizing remaining with
  | nil => rfl
  | cons lot lots ih =>
    have hpos := lot.pos
    rw [closeLots, consume]
    by_cases hr : remaining = 0
    · simp [hr, hpos]
    · rw [if_neg hr]
      by_cases hq : remaining < lot.qty
      · have hmin : min remaining lot.qty = remaining := by omega
        have hkeep : lot.qty - min remaining lot.qty ≠ 0 := by omega
        rw [dif_neg hkeep, dif_pos hq, if_neg hr]
        simp [hmin, ofMatch, Lot.reduce]
      · have hmin : min remaining lot.qty = lot.qty := by omega
        have hpop : lot.qty - min remaining lot.qty = 0 := by omega
        rw [dif_pos hpop, dif_neg hq]
        simp [hmin, ih, ofMatch]

/-- Both halves of what the loop holds are those of a queue. -/
def Matching.ofQueue (r : List (Match FillLeg) × FillQueue) : Matching := ⟨r.1.map ofMatch, r.2.lots⟩

theorem process_eq (ms : List (Match FillLeg)) (b : FillQueue) (fill : OpenLot) :
    (Matching.ofQueue (ms, b)).process fill = .ofQueue (ms ++ (b.fill fill).1, (b.fill fill).2) := by
  have hside : (∀ lot ∈ b.lots.head?, lot.item.side = fill.item.side) ↔
      ∀ lot ∈ b.lots, lot.item.side = fill.item.side := by
    constructor
    · intro h lot hlot
      cases hlots : b.lots with
      | nil =>
        rw [hlots] at hlot
        exact absurd hlot List.not_mem_nil
      | cons l ls =>
        rw [b.oneSided lot hlot l (by rw [hlots]; exact List.mem_cons_self)]
        exact h l (by rw [hlots]; rfl)
    · exact fun h lot hlot => h lot (List.mem_of_mem_head? hlot)
  unfold LotQueue.fill
  by_cases h : ∀ lot ∈ b.lots, lot.item.side = fill.item.side
  · rw [dif_pos h]
    refine (if_pos (hside.2 h)).trans ?_
    simp [Matching.ofQueue, LotQueue.add]
  · rw [dif_neg h]
    refine (if_neg (mt hside.1 h)).trans ?_
    simp only [Matching.ofQueue, closeLots_eq, LotQueue.reopen, LotQueue.matched, List.map_append]
    by_cases hq : (consume fill.item fill.qty b.lots).2.1 = 0
    · rw [dif_neg (by omega), dif_pos hq]
    · rw [dif_pos (by omega), dif_neg hq]
      rfl

theorem foldl_process_eq (ms : List (Match FillLeg)) (b : FillQueue) (fills : List OpenLot) :
    fills.foldl Matching.process (.ofQueue (ms, b)) = .ofQueue (ms ++ (b.run fills).1, (b.run fills).2) := by
  induction fills generalizing ms b with
  | nil => simp [LotQueue.run]
  | cons fill fills ih => simp only [List.foldl_cons, process_eq, ih, LotQueue.run, List.append_assoc]

def usedFills (fills : List Fill) : Except Err (List OpenLot) := do
  let rows ← fills.mapM Fill.read
  return rows.reduceOption

theorem foldlM_step_eq (m : Matching) (fills : List Fill) :
    fills.foldlM Matching.step m = (usedFills fills).map fun used => used.foldl Matching.process m := by
  induction fills generalizing m with
  | nil => rfl
  | cons f fills ih =>
    rw [List.foldlM_cons, usedFills, List.mapM_cons, Matching.step]
    cases hread : f.read with
    | error e => rfl
    | ok row =>
      have hstep : (fills.mapM Fill.read).map List.reduceOption = usedFills fills := rfl
      cases row with
      | none =>
        show fills.foldlM Matching.step m = _
        rw [ih, ← hstep]
        cases fills.mapM Fill.read <;> rfl
      | some fill =>
        show fills.foldlM Matching.step (m.process fill) = _
        rw [ih, ← hstep]
        cases fills.mapM Fill.read <;> rfl

/-- The loop is the run of a queue. -/
theorem matchFills_eq (fills : List Fill) :
    matchFills fills = (usedFills fills).map fun used => .ofQueue ((LotQueue.empty : FillQueue).run used) := by
  rw [matchFills, foldlM_step_eq]
  congr 1
  funext used
  exact foldl_process_eq [] .empty used

/-! ### Conservation -/

/-- The contracts of lots on one side. -/
def quantityOf (side : Action) (lots : List OpenLot) : Nat :=
  (lots.map fun l => if l.item.side = side then l.qty else 0).sum

def FillLeg.sign (l : FillLeg) : Int := if l.side = .buy then 1 else -1

/-- Bought minus sold. -/
def netQuantity (lots : List OpenLot) : Int := (lots.map fun l => l.item.sign * (l.qty : Int)).sum

/-- What the fills pay out, in dollars: a sale its price, and a purchase the negative of it. -/
def cashFlow (fills : List OpenLot) : ℚ :=
  (fills.map fun l => -(l.item.sign : ℚ) * l.item.price * l.qty * POINT_VALUE).sum

/-- What the open lots have cost, in dollars; a short lot its negative price. -/
def costOf (lots : List OpenLot) : ℚ :=
  (lots.map fun l => (l.item.sign : ℚ) * l.item.price * l.qty * POINT_VALUE).sum

/-- The profit before it is rounded to cents. -/
def Trade.exactPnl (t : Trade) : ℚ :=
  (if t.direction = .long then t.exitPrice - t.entryPrice else t.entryPrice - t.exitPrice) * t.positionSize * POINT_VALUE

/-- Prices that lie whole half-cents apart, so that a profit is a whole number of cents. -/
def TickPrices (fills : List OpenLot) : Prop :=
  ∀ l ∈ fills, ∀ l' ∈ fills, WholeCents ((l.item.price - l'.item.price) * POINT_VALUE)

/-- Ticks of a quarter point lie whole half-cents apart. -/
theorem tickPrices_of_quarters {fills : List OpenLot} (h : ∀ l ∈ fills, ∃ n : ℤ, l.item.price = n / 4) :
    TickPrices fills := by
  intro l hl l' hl'
  obtain ⟨n, hn⟩ := h l hl
  obtain ⟨n', hn'⟩ := h l' hl'
  refine ⟨50 * (n - n'), ?_⟩
  rw [hn, hn', POINT_VALUE]
  push_cast
  ring

/-- A trade closes as many contracts of a purchase as of a sale, so its size counts on either side. -/
structure Conserved (fills : List OpenLot) (m : Matching) : Prop where
  oneSided : ∀ l ∈ m.openLots, ∀ l' ∈ m.openLots, l.item.side = l'.item.side
  quantity : ∀ side, quantityOf side fills = (m.trades.map Trade.positionSize).sum + quantityOf side m.openLots
  net : netQuantity m.openLots = (quantityOf .buy fills : Int) - quantityOf .sell fills
  cash : (m.trades.map Trade.exactPnl).sum = cashFlow fills + costOf m.openLots
  rounded : ∀ t ∈ m.trades, t.pnl = roundCents t.exactPnl
  pnl : TickPrices fills → (m.trades.map Trade.pnl).sum = cashFlow fills + costOf m.openLots

/-- One contract of a fill pays this out. -/
def FillLeg.payout (l : FillLeg) : ℚ := -(l.sign : ℚ) * l.price * POINT_VALUE

theorem carried_side (side : Action) (lots : List OpenLot) :
    carried (fun l : FillLeg => if l.side = side then 1 else 0) lots = quantityOf side lots := by
  simp [carried, quantityOf]

theorem carried_payout (lots : List OpenLot) : carried FillLeg.payout lots = cashFlow lots := by
  unfold carried cashFlow
  congr 1
  refine List.map_congr_left fun l _ => ?_
  rw [nsmul_eq_mul, FillLeg.payout]
  ring

theorem cashFlow_eq_neg (lots : List OpenLot) : cashFlow lots = -costOf lots := by
  unfold cashFlow costOf
  induction lots with
  | nil => simp
  | cons l lots ih =>
    simp only [List.map_cons, List.sum_cons, ih]
    ring

theorem netQuantity_eq (lots : List OpenLot) :
    netQuantity lots = (quantityOf .buy lots : Int) - quantityOf .sell lots := by
  unfold netQuantity quantityOf
  induction lots with
  | nil => simp
  | cons l lots ih =>
    simp only [List.map_cons, List.sum_cons]
    rw [ih]
    cases h : l.item.side <;> simp [h, FillLeg.sign] <;> omega

theorem Action.ne_iff {s s' : Action} : s ≠ s' ↔ s = .buy ∧ s' = .sell ∨ s = .sell ∧ s' = .buy := by
  cases s <;> cases s' <;> simp

theorem ofMatch_exactPnl (m : Match FillLeg) (h : m.opened.side ≠ m.closed.side) :
    m.qty • (m.opened.payout + m.closed.payout) = (ofMatch m).exactPnl := by
  simp only [nsmul_eq_mul, FillLeg.payout, FillLeg.sign, Trade.exactPnl, ofMatch, tradeOf]
  rcases Action.ne_iff.1 h with ⟨ho, hc⟩ | ⟨ho, hc⟩
  · simp [ho, hc]
    ring
  · simp [ho, hc]
    ring

theorem ofMatch_size (m : Match FillLeg) (h : m.opened.side ≠ m.closed.side) (side : Action) :
    m.qty * ((if m.opened.side = side then 1 else 0) + if m.closed.side = side then 1 else 0) =
      (ofMatch m).positionSize := by
  simp only [ofMatch, tradeOf]
  rcases Action.ne_iff.1 h with ⟨ho, hc⟩ | ⟨ho, hc⟩ <;> cases side <;> simp [ho, hc]

theorem ofMatch_rounded (m : Match FillLeg) : (ofMatch m).pnl = roundCents (ofMatch m).exactPnl := by
  simp only [ofMatch, tradeOf, Trade.exactPnl]
  by_cases ho : m.opened.side = .buy <;> simp [ho]

theorem ofMatch_wholeCents {fills : List OpenLot} (hticks : TickPrices fills) {m : Match FillLeg}
    (ho : ∃ l ∈ fills, l.item = m.opened) (hc : ∃ l ∈ fills, l.item = m.closed) : WholeCents (ofMatch m).exactPnl := by
  obtain ⟨l, hl, ho⟩ := ho
  obtain ⟨l', hl', hc⟩ := hc
  have hlong := (hticks l' hl' l hl).mul_natCast m.qty
  have hshort := (hticks l hl l' hl').mul_natCast m.qty
  rw [ho, hc] at hlong hshort
  simp only [ofMatch, tradeOf, Trade.exactPnl]
  by_cases ho : m.opened.side = .buy
  · simpa [ho, mul_right_comm] using hlong
  · simpa [ho, mul_right_comm] using hshort

/-- Profits of prices that lie whole half-cents apart need no rounding. -/
theorem run_wholeCents {fills : List OpenLot} (hticks : TickPrices fills) :
    ∀ m ∈ ((LotQueue.empty : FillQueue).run fills).1, WholeCents (ofMatch m).exactPnl := by
  have hitems := (LotQueue.run_items (LotQueue.empty : FillQueue) (P := fun i => ∃ l ∈ fills, l.item = i)
    (fun l hl => absurd hl List.not_mem_nil) fun l hl => ⟨l, hl, rfl⟩).2
  exact fun m hm => ofMatch_wholeCents hticks (hitems m hm).1 (hitems m hm).2

theorem conserved_run (fills : List OpenLot) : Conserved fills (.ofQueue ((LotQueue.empty : FillQueue).run fills)) := by
  generalize hrun : (LotQueue.empty : FillQueue).run fills = r
  have hsides : ∀ m ∈ r.1, m.opened.side ≠ m.closed.side := by
    rw [← hrun]
    exact LotQueue.run_sides .empty fills
  have hquantity (side : Action) : quantityOf side fills =
      ((Matching.ofQueue r).trades.map Trade.positionSize).sum + quantityOf side r.2.lots := by
    have h := LotQueue.run_conserves_of_empty (fun l : FillLeg => if l.side = side then 1 else 0) (.empty : FillQueue) rfl fills
    rw [hrun] at h
    have hsettled : settled (fun l : FillLeg => if l.side = side then 1 else 0) r.1 =
        ((Matching.ofQueue r).trades.map Trade.positionSize).sum := by
      simp only [settled, Matching.ofQueue, List.map_map, nsmul_eq_mul, Nat.cast_id]
      exact congrArg List.sum (List.map_congr_left fun m hm => ofMatch_size m (hsides m hm) side)
    rw [hsettled, carried_side, carried_side] at h
    exact h
  have hcash : ((Matching.ofQueue r).trades.map Trade.exactPnl).sum = cashFlow fills + costOf r.2.lots := by
    have h := LotQueue.run_conserves_of_empty FillLeg.payout (.empty : FillQueue) rfl fills
    rw [hrun] at h
    have hsettled : settled FillLeg.payout r.1 = ((Matching.ofQueue r).trades.map Trade.exactPnl).sum := by
      simp only [settled, Matching.ofQueue, List.map_map]
      exact congrArg List.sum (List.map_congr_left fun m hm => ofMatch_exactPnl m (hsides m hm))
    rw [hsettled, carried_payout, carried_payout, cashFlow_eq_neg r.2.lots] at h
    linarith
  have hrounded : ∀ t ∈ (Matching.ofQueue r).trades, t.pnl = roundCents t.exactPnl := by
    intro t ht
    obtain ⟨m, -, rfl⟩ := List.mem_map.1 ht
    exact ofMatch_rounded m
  refine ⟨r.2.oneSided, hquantity, ?_, hcash, hrounded, fun hticks => ?_⟩
  · have hbuy := hquantity .buy
    have hsell := hquantity .sell
    rw [netQuantity_eq]
    simp only [Matching.ofQueue] at hbuy hsell ⊢
    omega
  · refine Eq.trans ?_ hcash
    refine congrArg List.sum (List.map_congr_left fun t ht => ?_)
    rw [hrounded t ht]
    obtain ⟨m, hm, rfl⟩ := List.mem_map.1 ht
    exact (run_wholeCents hticks m (by rwa [hrun])).roundCents

theorem process_takesOldest (ms : List (Match FillLeg)) (b : FillQueue) (fill : OpenLot) :
    ∃ ms' ls new, TakesOldest fill.item b.lots ms' ls ∧ (∀ l ∈ new, l.item = fill.item) ∧
      (Matching.ofQueue (ms, b)).process fill = ⟨ms.map ofMatch ++ ms'.map ofMatch, ls ++ new⟩ := by
  obtain ⟨ls, new, ht, hlots, hnew⟩ := b.fill_takesOldest fill
  refine ⟨_, ls, new, ht, hnew, ?_⟩
  rw [process_eq]
  simp [Matching.ofQueue, hlots]

/-- After every part `fs` of the sorted rows, contracts and money are conserved, and the trades of the next fill
take the oldest open lots; when no row is left these are the trades that are returned. -/
theorem fifo_conservation (fills fs rest : List Fill) (hfs : sortedFills fills = fs ++ rest) (m : Matching)
    (hm : matchFills fs = .ok m) :
    (∃ used, usedFills fs = .ok used ∧ Conserved used m) ∧
      (∀ fill : OpenLot, ∃ ms ls new, TakesOldest fill.item m.openLots ms ls ∧ (∀ l ∈ new, l.item = fill.item) ∧
        m.process fill = ⟨m.trades ++ ms.map ofMatch, ls ++ new⟩) ∧
      (rest = [] → tradovateFillsToTrades fills = .ok m.trades) := by
  have hrun := matchFills_eq fs
  rw [hm] at hrun
  cases hused : usedFills fs with
  | error e =>
    rw [hused] at hrun
    cases hrun
  | ok used =>
    rw [hused] at hrun
    have hm' : m = .ofQueue ((LotQueue.empty : FillQueue).run used) := Except.ok.inj hrun
    refine ⟨⟨used, rfl, ?_⟩, fun fill => ?_, fun hrest => ?_⟩
    · rw [hm']
      exact conserved_run used
    · rw [hm']
      exact process_takesOldest _ _ fill
    · rw [tradovateFillsToTrades, hfs, hrest, List.append_nil, hm]
      rfl

/-- Two contracts bought and three sold, in the wrong order in the list. -/
def flippedFills : List Fill :=
  [{ id := some 2, action := some "Sell", price := some (.ofFloat 101), qty := some (.ofInt 3), timestamp := some "2026-01-02" },
    { id := some 1, action := some "Buy", price := some (.ofFloat 100), qty := some (.ofInt 2), timestamp := some "2026-01-01" }]

theorem fifo_conservation_flipped : ∃ m used, usedFills (sortedFills flippedFills) = .ok used ∧ Conserved used m ∧
    m.trades.map Trade.pnl = [4] ∧ netQuantity m.openLots = -1 ∧ tradovateFillsToTrades flippedFills = .ok m.trades := by
  obtain ⟨⟨used, hused, hconserved⟩, -, hreturned⟩ := fifo_conservation flippedFills (sortedFills flippedFills) []
    (List.append_nil _).symm
    ⟨[tradeOf ⟨100, some "2026-01-01", some 1, .buy⟩ 2 ⟨101, some "2026-01-02", some 2, .sell⟩],
      [⟨⟨101, some "2026-01-02", some 2, .sell⟩, 1, by decide⟩]⟩ (by decide +kernel)
  exact ⟨_, used, hused, hconserved, by decide +kernel, by decide +kernel, hreturned rfl⟩

end PearlAlgo
