import PearlAlgo.MarketAgent.SignalLifecycle
import PearlAlgo.MarketAgent.VirtualTradeManager
import PearlAlgo.Py.Arrays

/-!
# What a virtual exit reports (`market_agent/virtual_trade_manager.py`)

`_check_single_trade_exit` finds its bar with masks over the whole arrays and `argmax`. `firstTouch_of_brackets` says
that this is the first touch of a scan bar by bar, and what the excursions up to that bar cover of the move that the
exit realises. `round(x, 4)` is `roundPoints`; prices are exact.
-/

namespace PearlAlgo
open Py

structure ExcursionData where
  maxPrice : Number
  minPrice : Number
  mfePoints : Number
  maePoints : Number

/-- The bars after the entry up to the first one that ends the trade: `hold_mask`. -/
def heldBars (ends : Bar → Bool) (entry : Option ℚ) (bars : List Bar) : List Bar :=
  (bars.take (bars.findIdx ends + 1)).filter fun b => entry.all (· < b.timestamp)

/-- `rec.get("entry_price") or sig.get("entry_price") or exit_price` -/
def SignalRecord.entryPriceOr (exitPrice : Number) (r : SignalRecord) : Number :=
  (orNum r.own.entryPrice (orNum (r.signal.getD {}).entryPrice none)).getD exitPrice

def excursionData (side : String) (entryPrice : Number) (held : List Bar) : Option ExcursionData :=
  if held.isEmpty then none
  else
    let maxPrice := arrayMax (held.map fun b => fillNa b.high b.close)
    let minPrice := arrayMin (held.map fun b => fillNa b.low b.close)
    let above := roundPoints (maxPrice.sub entryPrice)
    let below := roundPoints (entryPrice.sub minPrice)
    some
      { maxPrice, minPrice
        mfePoints := if side = "long" then above else below
        maePoints := if side = "long" then below else above }

/-- `_check_single_trade_exit` with the excursions. -/
def VirtualTradeManager.checkTrade (r : SignalRecord) (bars : List Bar) (vtm : VirtualTradeManager) :
    Option (VirtualExit × Option ExcursionData) := do
  let e ← vtm.checkSingleTradeExit r bars
  let sig := r.signal.getD {}
  let (stop, target) ← sig.bracket
  let entry ← match r.entryTime with
    | none => some none
    | some t => (vtm.zone.toUtc t).map some
  some (e, excursionData sig.side (r.entryPriceOr e.price) (heldBars (Bar.exits sig.side stop target entry) entry bars))

/-! ### The first touch -/

def Bar.Touches (side : String) (stop target : Number) (b : Bar) : Prop :=
  b.hitsTarget side target = true ∨ b.hitsStop side stop = true

/-- The bar is strictly after the entry. Where the wall clock does not tell the time, the clock readings are compared. -/
def Zone.After (z : Zone) (t : ℚ) (b : Bar) : Prop :=
  match z.toUtc t with
  | some u => u < b.timestamp
  | none => t < z.ofUtc b.timestamp

/-- An entered long or short record whose stop and target bracket its entry price. -/
structure Brackets (r : SignalRecord) (t : ℚ) (stop entryPrice target : Number) : Prop where
  status : r.status = .entered
  entryTime : r.entryTime = some t
  stopLoss : (r.signal.getD {}).stopLoss = some stop
  takeProfit : (r.signal.getD {}).takeProfit = some target
  entry : r.entryPrice = entryPrice
  side : (r.signal.getD {}).side = "long" ∧ stop < entryPrice ∧ entryPrice < target ∨
    (r.signal.getD {}).side = "short" ∧ target < entryPrice ∧ entryPrice < stop

/-- The exit is at the first bar of the array that touches the stop or the target after the entry, at its time and
price. -/
structure FirstTouch (vtm : VirtualTradeManager) (side : String) (stop target : Number) (t : ℚ) (bars : List Bar) (b : Bar)
    (e : VirtualExit) : Prop where
  after : vtm.zone.After t b
  touches : b.Touches side stop target
  first : ∃ before rest, bars = before ++ b :: rest ∧ ∀ b' ∈ before, vtm.zone.After t b' → ¬ b'.Touches side stop target
  earliest : ∀ b' ∈ bars, vtm.zone.After t b' → b'.Touches side stop target → b.timestamp ≤ b'.timestamp
  time : e.time = vtm.zone.ofUtc b.timestamp
  onlyTarget : b.hitsStop side stop = false → e.price = target ∧ e.reason = "take_profit"
  onlyStop : b.hitsTarget side target = false → e.price = stop ∧ e.reason = "stop_loss"
  both : b.hitsTarget side target = true → b.hitsStop side stop = true →
    match vtm.tiebreak with
    | .takeProfit => e.price = target ∧ e.reason = "take_profit"
    | .stopLoss => e.price = stop ∧ e.reason = "stop_loss"

/-- The moves that an exit realises, for the trade and against it. -/
def favourableMove (side : String) (entryPrice price : Number) : Number :=
  if side = "long" then price.sub entryPrice else entryPrice.sub price

def adverseMove (side : String) (entryPrice price : Number) : Number :=
  if side = "long" then entryPrice.sub price else price.sub entryPrice

/-- There is an exit exactly when a bar after the entry touches, it is at the first one, and the excursions are as `Covers`
says. -/
structure ExitsAtTouch (vtm : VirtualTradeManager) (r : SignalRecord) (t : ℚ) (stop target : Number) (bars : List Bar)
    (Covers : Bar → VirtualExit → ExcursionData → Prop) : Prop where
  exits_iff : (vtm.checkTrade r bars).isSome = true ↔
    ∃ b ∈ bars, vtm.zone.After t b ∧ b.Touches (r.signal.getD {}).side stop target
  exit : ∀ e x, vtm.checkTrade r bars = some (e, x) →
    ∃ b, FirstTouch vtm (r.signal.getD {}).side stop target t bars b e ∧ ∃ x' ∈ x, Covers b e x'

/-- The excursions are at least the moves that the exit realises. -/
def CoversMoves (side : String) (entryPrice : Number) (_ : Bar) (e : VirtualExit) (x : ExcursionData) : Prop :=
  favourableMove side entryPrice e.price ≤ x.mfePoints ∧ adverseMove side entryPrice e.price ≤ x.maePoints

/-- The excursions are at least the rounded moves: the favourable one at the target, the adverse one at the stop, and both
where the bar trades at the price of the exit. -/
structure CoversRounded (side : String) (entryPrice : Number) (b : Bar) (e : VirtualExit) (x : ExcursionData) : Prop where
  target : e.reason = "take_profit" → roundPoints (favourableMove side entryPrice e.price) ≤ x.mfePoints
  stop : e.reason = "stop_loss" → roundPoints (adverseMove side entryPrice e.price) ≤ x.maePoints
  inRange : fillNa b.low b.close ≤ e.price → e.price ≤ fillNa b.high b.close →
    roundPoints (favourableMove side entryPrice e.price) ≤ x.mfePoints ∧
      roundPoints (adverseMove side entryPrice e.price) ≤ x.maePoints

/-- The exit at a bar. -/
def VirtualTradeManager.exitAt (side : String) (stop target : Number) (bar : Bar) (vtm : VirtualTradeManager) : VirtualExit :=
  let atTarget : VirtualExit := ⟨target, "take_profit", vtm.zone.ofUtc bar.timestamp⟩
  let atStop : VirtualExit := ⟨stop, "stop_loss", vtm.zone.ofUtc bar.timestamp⟩
  if bar.hitsTarget side target ∧ bar.hitsStop side stop then
    match vtm.tiebreak with
    | .takeProfit => atTarget
    | .stopLoss => atStop
  else if bar.hitsStop side stop then atStop
  else atTarget

/-! ### The bar of the exit -/

section held
variable {ends : Bar → Bool} {entry : Option ℚ} {bars before rest : List Bar} {b : Bar}

theorem findIdx_append_cons (hbefore : ∀ b' ∈ before, ends b' = false) (hb : ends b = true) :
    (before ++ b :: rest).findIdx ends = before.length := by
  induction before with
  | nil => simp [List.findIdx_cons, hb]
  | cons b' before ih =>
    have hb' := hbefore b' List.mem_cons_self
    rw [List.cons_append, List.findIdx_cons, hb', ih fun b hb => hbefore b (List.mem_cons_of_mem _ hb)]
    rfl

theorem mem_heldBars (hbefore : ∀ b' ∈ before, ends b' = false) (hb : ends b = true)
    (hafter : entry.all (· < b.timestamp) = true) : b ∈ heldBars ends entry (before ++ b :: rest) := by
  unfold heldBars
  rw [findIdx_append_cons hbefore hb]
  refine List.mem_filter.2 ⟨?_, hafter⟩
  simp [List.take_append]

theorem heldBars_subset (h : b ∈ heldBars ends entry bars) : b ∈ bars :=
  List.mem_of_mem_take (List.mem_filter.1 h).1

end held

section exit
variable {vtm : VirtualTradeManager} {r : SignalRecord} {t u : ℚ} {stop entryPrice target : Number} {bars : List Bar}
  {b : Bar} {e : VirtualExit} {side : String}

theorem bracket_eq {sig : SignalData} (hstop : sig.stopLoss = some stop) (htarget : sig.takeProfit = some target)
    (hpos : .fin 0 < stop) (hpos' : .fin 0 < target) : sig.bracket = some (stop, target) := by
  have hvalue {x : Number} (hx : .fin 0 < x) : (orNum (some x) none).getD (.fin 0) = x ∧ ¬ x ≤ .fin 0 := by
    refine ⟨?_, Number.not_le_of_lt hx⟩
    have hne : x ≠ .fin 0 := by
      rintro rfl
      exact lt_irrefl _ (Number.fin_lt_fin.1 hx)
    unfold orNum
    simp [hne]
  unfold SignalData.bracket
  rw [hstop, htarget]
  dsimp only
  rw [(hvalue hpos).1, (hvalue hpos').1, if_neg (not_or.2 ⟨(hvalue hpos).2, (hvalue hpos').2⟩)]

/-- With positive prices and an entry time that has its UTC, the mask is the touch of a bar after the entry. -/
theorem exits_eq_true_iff (hu : vtm.zone.toUtc t = some u) (hvalid : b.isValid = true) :
    b.exits side stop target (some u) = true ↔ vtm.zone.After t b ∧ b.Touches side stop target := by
  unfold Bar.exits Zone.After Bar.Touches
  rw [hu, hvalid]
  simp [and_comm]

theorem checkTrade_eq (hbracket : (r.signal.getD {}).bracket = some (stop, target)) (ht : r.entryTime = some t)
    (hu : vtm.zone.toUtc t = some u) :
    vtm.checkTrade r bars =
      let ends := Bar.exits (r.signal.getD {}).side stop target (some u)
      (bars.find? ends).map fun b =>
        let e := vtm.exitAt (r.signal.getD {}).side stop target b
        (e, excursionData (r.signal.getD {}).side (r.entryPriceOr e.price) (heldBars ends (some u) bars)) := by
  have hexit : vtm.checkSingleTradeExit r bars =
      (bars.find? (Bar.exits (r.signal.getD {}).side stop target (some u))).map
        (vtm.exitAt (r.signal.getD {}).side stop target) := by
    unfold VirtualTradeManager.checkSingleTradeExit
    simp only [hbracket, ht, hu, Option.map_some, Option.bind_eq_bind, Option.bind_some]
    rcases bars.find? (Bar.exits (r.signal.getD {}).side stop target (some u)) with _ | b
    · rfl
    · unfold VirtualTradeManager.exitAt
      dsimp only [Option.bind_some, Option.map_some]
      split
      · rfl
      · split
        · rfl
        · rfl
  unfold VirtualTradeManager.checkTrade
  rw [hexit]
  simp only [hbracket, ht, hu, Option.map_some, Option.bind_eq_bind, Option.bind_some]
  rcases bars.find? (Bar.exits (r.signal.getD {}).side stop target (some u)) with _ | b
  · rfl
  · rfl

theorem find?_exits (hu : vtm.zone.toUtc t = some u) (hpos : ∀ b ∈ bars, b.isValid = true)
    (hb : bars.find? (Bar.exits side stop target (some u)) = some b) :
    (vtm.zone.After t b ∧ b.Touches side stop target) ∧ ∃ before rest, bars = before ++ b :: rest ∧
      (∀ b' ∈ before, Bar.exits side stop target (some u) b' = false) ∧
      ∀ b' ∈ before, vtm.zone.After t b' → ¬ b'.Touches side stop target := by
  obtain ⟨hends, before, rest, hsplit, hbefore⟩ := List.find?_eq_some_iff_append.1 hb
  have hmem : b ∈ bars := List.mem_of_find?_eq_some hb
  refine ⟨(exits_eq_true_iff hu (hpos b hmem)).1 hends, before, rest, hsplit, ?_, ?_⟩
  · intro b' hb'
    simpa using hbefore b' hb'
  · intro b' hb' hafter htouches
    have hmem' : b' ∈ bars := by
      rw [hsplit]
      exact List.mem_append_left _ hb'
    have hends' := (exits_eq_true_iff hu (hpos b' hmem')).2 ⟨hafter, htouches⟩
    simpa [hends'] using hbefore b' hb'

/-- The exit at the first bar that the scan finds. -/
theorem firstTouch_exitAt (hu : vtm.zone.toUtc t = some u) (hpos : ∀ b ∈ bars, b.isValid = true)
    (hsorted : bars.Pairwise fun a b => a.timestamp ≤ b.timestamp)
    (hb : bars.find? (Bar.exits side stop target (some u)) = some b) :
    FirstTouch vtm side stop target t bars b (vtm.exitAt side stop target b) := by
  obtain ⟨⟨hafter, htouches⟩, before, rest, hsplit, -, hbefore⟩ := find?_exits hu hpos hb
  refine ⟨hafter, htouches, ⟨before, rest, hsplit, hbefore⟩, ?_, ?_, ?_, ?_, ?_⟩
  · intro b' hb' hafter' htouches'
    rw [hsplit] at hb' hsorted
    rcases List.mem_append.1 hb' with hb' | hb'
    · exact absurd htouches' (hbefore b' hb' hafter')
    · rcases List.mem_cons.1 hb' with rfl | hb'
      · exact le_rfl
      · exact (List.pairwise_cons.1 (List.pairwise_append.1 hsorted).2.1).1 b' hb'
  · unfold VirtualTradeManager.exitAt
    dsimp only
    split
    · split
      · rfl
      · rfl
    · split
      · rfl
      · rfl
  · intro hstop
    unfold VirtualTradeManager.exitAt
    simp [hstop]
  · intro htarget
    have hstop : b.hitsStop side stop = true := htouches.resolve_left fun h => by
      rw [htarget] at h
      cases h
    unfold VirtualTradeManager.exitAt
    simp [hstop, htarget]
  · intro htarget hstop
    unfold VirtualTradeManager.exitAt
    rw [if_pos ⟨htarget, hstop⟩]
    rcases vtm.tiebreak with _ | _
    · exact ⟨rfl, rfl⟩
    · exact ⟨rfl, rfl⟩

theorem FirstTouch.atTarget (h : FirstTouch vtm side stop target t bars b e) (hreason : e.reason = "take_profit") :
    b.hitsTarget side target = true ∧ e.price = target := by
  rcases htarget : b.hitsTarget side target with _ | _
  · rw [(h.onlyStop htarget).2] at hreason
    exact absurd hreason (by decide)
  · rcases hstop : b.hitsStop side stop with _ | _
    · exact ⟨rfl, (h.onlyTarget hstop).1⟩
    · have hboth := h.both htarget hstop
      split at hboth
      · exact ⟨rfl, hboth.1⟩
      · rw [hboth.2] at hreason
        exact absurd hreason (by decide)

theorem FirstTouch.atStop (h : FirstTouch vtm side stop target t bars b e) (hreason : e.reason = "stop_loss") :
    b.hitsStop side stop = true ∧ e.price = stop := by
  rcases hstop : b.hitsStop side stop with _ | _
  · rw [(h.onlyTarget hstop).2] at hreason
    exact absurd hreason (by decide)
  · rcases htarget : b.hitsTarget side target with _ | _
    · exact ⟨rfl, (h.onlyStop htarget).1⟩
    · have hboth := h.both htarget hstop
      split at hboth
      · rw [hboth.2] at hreason
        exact absurd hreason (by decide)
      · exact ⟨rfl, hboth.1⟩

/-! ### The excursions -/

theorem Brackets.entry_pos (h : Brackets r t stop entryPrice target) (hstop : .fin 0 < stop) (htarget : .fin 0 < target) :
    ∃ q : ℚ, 0 < q ∧ entryPrice = .fin q := by
  rcases h.side with ⟨-, hbelow, habove⟩ | ⟨-, hbelow, habove⟩
  · exact Number.fin_of_between hstop hbelow habove
  · exact Number.fin_of_between htarget hbelow habove

/-- The entry price of the excursions is that of the P&L. -/
theorem Brackets.entryPriceOr (h : Brackets r t stop entryPrice target) (hpos : entryPrice ≠ .fin 0) (exitPrice : Number) :
    r.entryPriceOr exitPrice = entryPrice := by
  have hentry := h.entry
  have hdata : r.data = r.signal.getD {} := by
    rcases hsignal : r.signal with _ | sig
    · have hstop := h.stopLoss
      rw [hsignal] at hstop
      cases hstop
    · unfold SignalRecord.data
      rw [hsignal]
      rfl
  unfold SignalRecord.entryPrice at hentry
  unfold SignalRecord.entryPriceOr
  rw [hdata] at hentry
  rcases ho : orNum r.own.entryPrice (orNum (r.signal.getD {}).entryPrice none) with _ | price
  · rw [ho] at hentry
    exact absurd hentry.symm hpos
  · rw [ho] at hentry
    exact hentry

theorem excursionData_covers {held : List Bar} {q : ℚ} (hb : b ∈ held) (hvalid : ∀ b ∈ held, b.isValid = true)
    (price : Number) : ∃ x ∈ excursionData side (.fin q) held,
      (price ≤ fillNa b.high b.close → roundPoints (price.sub (.fin q)) ≤ if side = "long" then x.mfePoints else x.maePoints) ∧
      (fillNa b.low b.close ≤ price → roundPoints ((Number.fin q).sub price) ≤
        if side = "long" then x.maePoints else x.mfePoints) := by
  have hprices (b : Bar) (hb : b ∈ held) : fillNa b.high b.close ≠ .nan ∧ fillNa b.low b.close ≠ .nan := by
    have hv : .fin 0 < fillNa b.high b.close ∧ .fin 0 < fillNa b.low b.close := of_decide_eq_true (hvalid b hb)
    exact ⟨Number.ne_nan_of_lt hv.1, Number.ne_nan_of_lt hv.2⟩
  have hmax : fillNa b.high b.close ≤ arrayMax (held.map fun b => fillNa b.high b.close) := by
    refine le_arrayMax ?_ _ (List.mem_map_of_mem hb)
    intro x hx
    obtain ⟨b, hb, rfl⟩ := List.mem_map.1 hx
    exact (hprices b hb).1
  have hmin : arrayMin (held.map fun b => fillNa b.low b.close) ≤ fillNa b.low b.close := by
    refine arrayMin_le ?_ _ (List.mem_map_of_mem (f := fun b => fillNa b.low b.close) hb)
    intro x hx
    obtain ⟨b, hb, rfl⟩ := List.mem_map.1 hx
    exact (hprices b hb).2
  unfold excursionData
  rw [if_neg (by simpa using List.ne_nil_of_mem hb)]
  refine ⟨_, rfl, fun hle => ?_, fun hle => ?_⟩
  · have hmove := Number.roundPoints_mono (Number.sub_le_sub q (Number.le_trans hle hmax))
    split
    · exact hmove
    · exact hmove
  · have hmove := Number.roundPoints_mono (Number.sub_le_sub_left q (Number.le_trans hmin hle))
    split
    · exact hmove
    · exact hmove

theorem FirstTouch.coversRounded {x : ExcursionData} {q : ℚ} (h : FirstTouch vtm side stop target t bars b e)
    (hside : side = "long" ∨ side = "short")
    (habove : e.price ≤ fillNa b.high b.close →
      roundPoints (e.price.sub (.fin q)) ≤ if side = "long" then x.mfePoints else x.maePoints)
    (hbelow : fillNa b.low b.close ≤ e.price →
      roundPoints ((Number.fin q).sub e.price) ≤ if side = "long" then x.maePoints else x.mfePoints) :
    CoversRounded side (.fin q) b e x := by
  rcases hside with rfl | rfl
  · refine ⟨fun hreason => habove ?_, fun hreason => hbelow ?_, fun hlow hhigh => ⟨habove hhigh, hbelow hlow⟩⟩
    · rw [(h.atTarget hreason).2]
      exact of_decide_eq_true (h.atTarget hreason).1
    · rw [(h.atStop hreason).2]
      exact of_decide_eq_true (h.atStop hreason).1
  · refine ⟨fun hreason => hbelow ?_, fun hreason => habove ?_, fun hlow hhigh => ⟨hbelow hlow, habove hhigh⟩⟩
    · rw [(h.atTarget hreason).2]
      exact of_decide_eq_true (h.atTarget hreason).1
    · rw [(h.atStop hreason).2]
      exact of_decide_eq_true (h.atStop hreason).1

end exit

/-- With a positive stop and target, and an entry time that the clock shows once, the exit is the first touch, and the
excursions cover the move up to their rounding. -/
theorem firstTouch_of_brackets (vtm : VirtualTradeManager) (r : SignalRecord) (bars : List Bar) {t u : ℚ}
    {stop entryPrice target : Number} (h : Brackets r t stop entryPrice target) (hstop : .fin 0 < stop)
    (htarget : .fin 0 < target) (hu : vtm.zone.toUtc t = some u)
    (hsorted : bars.Pairwise fun a b => a.timestamp ≤ b.timestamp) (hpos : ∀ b ∈ bars, b.isValid = true) :
    ExitsAtTouch vtm r t stop target bars (CoversRounded (r.signal.getD {}).side entryPrice) := by
  have heq := @checkTrade_eq vtm r t u stop target bars (bracket_eq h.stopLoss h.takeProfit hstop htarget) h.entryTime hu
  dsimp only at heq
  refine ⟨?_, ?_⟩
  · rw [heq, Option.isSome_map, List.find?_isSome]
    constructor
    · rintro ⟨b, hb, hends⟩
      exact ⟨b, hb, (exits_eq_true_iff hu (hpos b hb)).1 hends⟩
    · rintro ⟨b, hb, htouch⟩
      exact ⟨b, hb, (exits_eq_true_iff hu (hpos b hb)).2 htouch⟩
  · intro e x hresult
    rw [heq] at hresult
    obtain ⟨b, hb, hpair⟩ := Option.map_eq_some_iff.1 hresult
    obtain ⟨rfl, rfl⟩ := Prod.mk.inj hpair
    have hfirst := firstTouch_exitAt hu hpos hsorted hb
    refine ⟨b, hfirst, ?_⟩
    obtain ⟨q, hq, rfl⟩ := h.entry_pos hstop htarget
    have hne : (Number.fin q) ≠ .fin 0 := fun heq => hq.ne' (Number.fin.inj heq)
    rw [h.entryPriceOr hne]
    obtain ⟨-, before, rest, hsplit, hbefore, -⟩ := find?_exits hu hpos hb
    have hends := (List.find?_eq_some_iff_append.1 hb).1
    have hafter : (some u).all (· < b.timestamp) = true := by
      unfold Bar.exits at hends
      rw [Bool.and_eq_true, Bool.and_eq_true] at hends
      exact hends.1.2
    have hheld : b ∈ heldBars (Bar.exits (r.signal.getD {}).side stop target (some u)) (some u) (before ++ b :: rest) :=
      mem_heldBars hbefore hends hafter
    rw [← hsplit] at hheld
    obtain ⟨x, hx, habove, hbelow⟩ := @excursionData_covers b (r.signal.getD {}).side _ q hheld
      (fun b hb => hpos b (heldBars_subset hb)) (vtm.exitAt (r.signal.getD {}).side stop target b).price
    exact ⟨x, hx, hfirst.coversRounded (h.side.imp And.left And.left) habove hbelow⟩

/-- The night on which New York sets its clock back at two: the hour from one to two comes twice. -/
def clockBack : Zone where
  toUtc t := if t < 3600 then some (t + 14400) else if t < 7200 then none else some (t + 18000)
  ofUtc u := if u < 21600 then u - 14400 else u - 18000

def clockBackManager : VirtualTradeManager := { executionAdapter := none, zone := clockBack }

/-- A long trade entered at 100. -/
def bracketTrade (t stop target : ℚ) : SignalRecord where
  signalId := "s1"
  status := .entered
  signal := some { direction := some "long", stopLoss := some (.fin stop), takeProfit := some (.fin target) }
  own := { entryPrice := some (.fin 100) }
  entryTime := some t

theorem side_bracketTrade (t stop target : ℚ) : ((bracketTrade t stop target).signal.getD {}).side = "long" := by
  have hlower : "long".toLower = "long" := by decide +kernel
  exact hlower

theorem brackets_bracketTrade {t stop target : ℚ} (hstop : stop < 100) (htarget : 100 < target) :
    Brackets (bracketTrade t stop target) t (.fin stop) (.fin 100) (.fin target) :=
  ⟨rfl, rfl, rfl, rfl, by simp [SignalRecord.entryPrice, bracketTrade, orNum],
    .inl ⟨side_bracketTrade t stop target, Number.fin_lt_fin.2 hstop, Number.fin_lt_fin.2 htarget⟩⟩

/-- A bar that falls through the stop at 95. -/
def gapBar : Bar := { timestamp := 40000, high := .fin 90, low := .fin 85 }

theorem firstTouch_of_brackets_gap :
    ExitsAtTouch clockBackManager (bracketTrade 10000 95 110) 10000 (.fin 95) (.fin 110) [gapBar]
    (CoversRounded ((bracketTrade 10000 95 110).signal.getD {}).side (.fin 100)) :=
  firstTouch_of_brackets clockBackManager (bracketTrade 10000 95 110) [gapBar]
    (brackets_bracketTrade (by norm_num) (by norm_num))
    (by decide +kernel) (by decide +kernel) (u := 28000) (by decide +kernel) (List.pairwise_singleton _ _)
    fun b hb => by rw [List.mem_singleton.1 hb]; decide +kernel

/-- The exit law without the conditions of `firstTouch_of_brackets`, at one record. -/
def TouchLaw (r : SignalRecord) (t stop target : ℚ) (b : Bar) : Prop :=
  Brackets r t (.fin stop) (.fin 100) (.fin target) → b.isValid = true →
    ExitsAtTouch clockBackManager r t (.fin stop) (.fin target) [b] (CoversMoves (r.signal.getD {}).side (.fin 100))

theorem not_touchLaw_of_none {t stop target : ℚ} {b : Bar} (hstop : stop < 100) (htarget : 100 < target)
    (hvalid : b.isValid = true) (htouch : clockBack.After t b ∧ b.Touches "long" (.fin stop) (.fin target))
    (hnone : (clockBackManager.checkTrade (bracketTrade t stop target) [b]).isSome = false) :
    ¬ TouchLaw (bracketTrade t stop target) t stop target b := by
  intro h
  have hiff := (h (brackets_bracketTrade hstop htarget) hvalid).exits_iff
  rw [hnone, side_bracketTrade] at hiff
  exact Bool.false_ne_true (hiff.2 ⟨b, List.mem_singleton_self b, htouch⟩)

theorem not_touchLaw_of_small {stop target : ℚ} {b : Bar} (hstop : stop < 100) (htarget : 100 < target)
    (hvalid : b.isValid = true)
    (hsmall : (clockBackManager.checkTrade (bracketTrade 10000 stop target) [b]).any fun e =>
      e.2.all fun x => ¬ favourableMove "long" (.fin 100) e.1.price ≤ x.mfePoints) :
    ¬ TouchLaw (bracketTrade 10000 stop target) 10000 stop target b := by
  intro h
  rcases hexit : clockBackManager.checkTrade (bracketTrade 10000 stop target) [b] with _ | ⟨e, x⟩
  · rw [hexit] at hsmall
    cases hsmall
  · obtain ⟨_, _, x, rfl, hcovers⟩ := (h (brackets_bracketTrade hstop htarget) hvalid).exit e x hexit
    rw [side_bracketTrade] at hcovers
    rw [hexit] at hsmall
    exact of_decide_eq_true hsmall hcovers.1

/-- The law fails for a stop at zero, in the hour that comes twice, for a move below the rounding and for a bar that
falls through the stop. -/
theorem not_touchLaw :
    ¬ TouchLaw (bracketTrade 10000 0 110) 10000 0 110 { timestamp := 40000, high := .fin 111, low := .fin 99 } ∧
    ¬ TouchLaw (bracketTrade 5400 95 110) 5400 95 110 { timestamp := 90000, high := .fin 111, low := .fin 99 } ∧
    ¬ TouchLaw (bracketTrade 10000 95 (100 + 1/50000)) 10000 95 (100 + 1/50000)
      { timestamp := 40000, high := .fin (100 + 1/50000), low := .fin 99 } ∧
    ¬ TouchLaw (bracketTrade 10000 95 110) 10000 95 110 gapBar := by
  refine ⟨?_, ?_, ?_, ?_⟩
  · refine not_touchLaw_of_none (by norm_num) (by norm_num) (by decide +kernel) ⟨?_, .inl (by decide +kernel)⟩
      (by decide +kernel)
    unfold Zone.After
    rw [show clockBack.toUtc 10000 = some 28000 by decide +kernel]
    norm_num
  · refine not_touchLaw_of_none (by norm_num) (by norm_num) (by decide +kernel) ⟨?_, .inl (by decide +kernel)⟩
      (by decide +kernel)
    unfold Zone.After
    rw [show clockBack.toUtc 5400 = none by decide +kernel]
    decide +kernel
  · exact not_touchLaw_of_small (by norm_num) (by norm_num) (by decide +kernel) (by decide +kernel)
  · exact not_touchLaw_of_small (by norm_num) (by norm_num) (by decide +kernel) (by decide +kernel)

end PearlAlgo
