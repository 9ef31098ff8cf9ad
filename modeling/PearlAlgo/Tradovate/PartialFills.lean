import PearlAlgo.Tradovate.EventLoop

/-!
# Partial fills (`_handle_ws_event` of `execution/tradovate/adapter.py`)

The fill and order events of a new adapter, with the orders that `place_bracket` records between them. What the handler
should keep of an order is read off the events alone (`filled`, `terminal`, `size?`); it reads the size under a key
that the record does not have, so each fill of a recorded order is taken for the last one.
-/

namespace PearlAlgo.PartialFills
open Py

/-- A WebSocket event, or `place_bracket` recording an accepted order. -/
inductive Step
  | wsEvent (e : WsEvent)
  | placed (sig : Signal) (sid : String) (o : EntryOrder) (symbol : String) (orderId : Int)

def Step.apply (w : World) : Step → World
  | .wsEvent e => w.handleWsEvent e
  | .placed sig sid o symbol orderId => w.trackOrder sig sid o symbol orderId

/-- The world after the steps, the latest first. -/
def after (w : World) : List Step → World
  | [] => w
  | e :: h => e.apply (after w h)

/-! ### The fill handler's report -/

inductive FillReport
  | overfill
  | partialFill
deriving DecidableEq

/-- What the handler logs of a fill. -/
def fillReport (w : World) (orderId : Ident) (qty : ℚ) : Option FillReport :=
  if orderId = none then none
  else
    match w.openOrders.get? orderId with
    | none => none
    | some o =>
      let filled := (w.pendingFills.get? orderId).getD 0 + |qty|
      if |o.quantity| ≤ filled then none
      else if |o.quantity| < filled then some .overfill
      else some .partialFill

/-! ### The history of an order -/

section history
variable (n : Int)

/-- The size under which the order was recorded. -/
def size? : List Step → Option ℚ
  | [] => none
  | .placed _ _ o _ orderId :: h => if orderId = n then some (o.positionSize : ℚ) else size? h
  | .wsEvent _ :: h => size? h

/-- The sum of its fill quantities. -/
def filled : List Step → ℚ
  | [] => 0
  | .wsEvent (.fill orderId qty) :: h => filled h + if orderId = some n then |qty| else 0
  | _ :: h => filled h

/-- One of its status events was terminal. -/
def terminal : List Step → Bool
  | [] => false
  | .wsEvent (.order id ordStatus) :: h =>
    (id = some n ∧ ordStatus ∈ ["Filled", "Cancelled", "Rejected", "Expired"]) || terminal h
  | _ :: h => terminal h

end history

/-- The entry of an order of size `q`: the sum of its fills while it is below `q`, and none from then on or after a
terminal status. -/
def EntryOf (q sum : ℚ) (terminal : Bool) (entry : Option ℚ) : Prop :=
  if terminal ∨ q ≤ sum then entry = none else entry.getD 0 = sum

/-- Every recorded order has its entry. -/
def Kept (h : List Step) (w : World) : Prop :=
  ∀ n, ∀ q ∈ size? n h, EntryOf q (filled n h) (terminal n h) (w.pendingFills.get? (some n))

/-- A step that fills a recorded order above its size is reported. -/
def Reported (h : List Step) (w : World) : Step → Prop
  | .wsEvent (.fill (some n) qty) =>
    ∀ q ∈ size? n h, q < filled n h + |qty| → fillReport w (some n) qty = some .overfill
  | _ => True

/-- Every state has every entry, and every overfill is reported. -/
def TracksFills (w : World) : List Step → Prop
  | [] => Kept [] w
  | e :: h => (Kept (e :: h) (after w (e :: h)) ∧ Reported h (after w h) e) ∧ TracksFills w h

/-- A fill of a recorded order completes it exactly (or adds nothing to no fill, or comes while the order is still tracked
after a terminal status), and an order is recorded with the entry that its earlier fills give it. -/
def Exact (h : List Step) (w : World) : Step → Prop
  | .wsEvent (.fill (some n) qty) =>
    ∀ q ∈ size? n h, w.openOrders.contains (some n) = true ∧ filled n h + |qty| ≤ q ∧
      (terminal n h ∨ filled n h + |qty| = 0 ∨ filled n h + |qty| = q)
  | .placed _ _ o _ n => EntryOf o.positionSize (filled n h) (terminal n h) (w.pendingFills.get? (some n))
  | _ => True

/-- Every step of the run is so. -/
def ExactAll (w : World) : List Step → Prop
  | [] => True
  | e :: h => Exact h (after w h) e ∧ ExactAll w h

/-! ### One event -/

section event
variable {w : World} {k orderId : Ident}

theorem openOrders_onFill (orderId : Ident) (qty : ℚ) (w : World) : (w.onFill orderId qty).openOrders = w.openOrders := by
  unfold World.onFill
  split
  · rfl
  · dsimp only
    split
    · rfl
    · rfl

theorem get?_onFill_ne (hk : k ≠ orderId) (qty : ℚ) :
    (w.onFill orderId qty).pendingFills.get? k = w.pendingFills.get? k := by
  unfold World.onFill
  split
  · rfl
  · dsimp only
    split
    · exact Dict.get?_set_ne _ _ hk
    · dsimp only
      split
      · rw [Dict.get?_pop_ne _ hk, Dict.get?_set_ne _ _ hk]
      · rw [Dict.get?_set_ne _ _ hk]

/-- A fill of a tracked order leaves no entry: the size that the handler reads is 0. -/
theorem get?_onFill_tracked {n : Int} {o : OpenOrder} (hfills : ∀ k, 0 ≤ (w.pendingFills.get? k).getD 0)
    (ho : w.openOrders.get? (some n) = some o) (qty : ℚ) :
    (w.onFill (some n) qty).pendingFills.get? (some n) = none := by
  have hle : |o.quantity| ≤ (w.pendingFills.get? (some n)).getD 0 + |qty| := by
    have hn := hfills (some n)
    have hqty := abs_nonneg qty
    have hzero : |o.quantity| = 0 := abs_zero
    linarith
  unfold World.onFill
  rw [if_neg nofun]
  simp only [ho]
  rw [if_pos hle]
  exact Dict.get?_pop_self _ _

theorem get?_onFill_untracked {n : Int} (ho : w.openOrders.get? (some n) = none) (qty : ℚ) :
    (w.onFill (some n) qty).pendingFills.get? (some n) = some ((w.pendingFills.get? (some n)).getD 0 + |qty|) := by
  unfold World.onFill
  rw [if_neg nofun]
  simp only [ho]
  exact Dict.get?_set_self _ _ _

/-- No fill is ever reported as an overfill. -/
theorem fillReport_ne_overfill (hfills : ∀ k, 0 ≤ (w.pendingFills.get? k).getD 0) (qty : ℚ) :
    fillReport w orderId qty ≠ some .overfill := by
  unfold fillReport
  split
  · intro h
    cases h
  · split
    · intro h
      cases h
    next o ho =>
      have hn := hfills orderId
      have hqty := abs_nonneg qty
      have hzero : |o.quantity| = 0 := abs_zero
      have hle : |o.quantity| ≤ (w.pendingFills.get? orderId).getD 0 + |qty| := by linarith
      dsimp only
      rw [if_pos hle]
      intro h
      cases h

end event

/-! ### The run -/

/-- An order that is recorded and no longer tracked has had a terminal status, and a tracked one has its size. -/
structure Inv (h : List Step) (w : World) : Prop where
  fills : ∀ k, 0 ≤ (w.pendingFills.get? k).getD 0
  untracked : ∀ n, (size? n h).isSome = true → w.openOrders.get? (some n) = none → terminal n h = true
  sized : ∀ n o, w.openOrders.get? (some n) = some o → size? n h = some (o.qty : ℚ)

section step
variable {w : World} {h : List Step}

theorem inv_onFill (hi : Inv h w) (orderId : Ident) (qty : ℚ) :
    Inv (.wsEvent (.fill orderId qty) :: h) (w.onFill orderId qty) := by
  refine ⟨fun k => ?_, fun n hsize ho => ?_, fun n o ho => ?_⟩
  · by_cases hk : k = orderId
    · subst hk
      cases k with
      | none => exact hi.fills none
      | some n =>
        cases ho : w.openOrders.get? (some n) with
        | none =>
          rw [get?_onFill_untracked ho qty]
          exact add_nonneg (hi.fills _) (abs_nonneg _)
        | some o =>
          rw [get?_onFill_tracked hi.fills ho qty]
          exact le_rfl
    · rw [get?_onFill_ne hk qty]
      exact hi.fills k
  · rw [openOrders_onFill] at ho
    exact hi.untracked n hsize ho
  · rw [openOrders_onFill] at ho
    exact hi.sized n o ho

theorem inv_onOrder (hi : Inv h w) (id : Ident) (ordStatus : String) :
    Inv (.wsEvent (.order id ordStatus) :: h) (w.onOrder id ordStatus) := by
  unfold World.onOrder
  split
  next hterminal =>
    refine ⟨fun k => ?_, fun n hsize ho => ?_, fun n o ho => ?_⟩
    · by_cases hk : k = id
      · subst hk
        show 0 ≤ ((w.pendingFills.pop k).get? k).getD 0
        rw [Dict.get?_pop_self]
        exact le_rfl
      · show 0 ≤ ((w.pendingFills.pop id).get? k).getD 0
        rw [Dict.get?_pop_ne _ hk]
        exact hi.fills k
    · by_cases hn : id = some n
      · simp only [terminal, hn, hterminal, true_and, decide_true, Bool.true_or]
      · have hold := hi.untracked n hsize ((Dict.get?_pop_ne _ (Ne.symm hn)).symm.trans ho)
        simp only [terminal, hold, Bool.or_true]
    · by_cases hn : some n = id
      · subst hn
        have hgone : (w.openOrders.pop (some n)).get? (some n) = none := Dict.get?_pop_self _ _
        cases hgone.symm.trans ho
      · exact hi.sized n o ((Dict.get?_pop_ne _ hn).symm.trans ho)
  next hterminal =>
    refine ⟨hi.fills, fun n hsize ho => ?_, hi.sized⟩
    simp only [terminal, hi.untracked n hsize ho, Bool.or_true]

theorem Inv.apply (hi : Inv h w) (e : Step) : Inv (e :: h) (e.apply w) := by
  cases e with
  | wsEvent e =>
    cases e with
    | order id ordStatus => exact inv_onOrder hi id ordStatus
    | fill orderId qty => exact inv_onFill hi orderId qty
    | position row => exact ⟨hi.fills, hi.untracked, hi.sized⟩
  | placed sig sid o symbol orderId =>
    refine ⟨hi.fills, fun n hsize ho => ?_, fun n o' ho => ?_⟩
    · by_cases hn : orderId = n
      · subst hn
        cases ho.symm.trans (Dict.get?_set_self _ _ _)
      · have hne : some n ≠ some orderId := fun h => hn (Option.some.inj h).symm
        simp only [size?, if_neg hn] at hsize
        exact hi.untracked n hsize ((Dict.get?_set_ne _ _ hne).symm.trans ho)
    · by_cases hn : orderId = n
      · subst hn
        obtain rfl := Option.some.inj (ho.symm.trans (Dict.get?_set_self _ _ _))
        simp only [size?, if_pos]
      · have hne : some n ≠ some orderId := fun h => hn (Option.some.inj h).symm
        simp only [size?, if_neg hn]
        exact hi.sized n o' ((Dict.get?_set_ne _ _ hne).symm.trans ho)

end step

section run
variable {w : World} {h : List Step}

/-- One order's entry after a fill of it: tracked, it has none, and otherwise it has had a terminal status. -/
theorem entryOf_onFill (hi : Inv h w) {n : Int} {q : ℚ} (hq : size? n h = some q) (qty : ℚ) :
    EntryOf q (filled n h + |qty|) (terminal n h) ((w.onFill (some n) qty).pendingFills.get? (some n)) ∧
        filled n h + |qty| ≤ q ↔
      w.openOrders.contains (some n) = true ∧ filled n h + |qty| ≤ q ∧
        (terminal n h ∨ filled n h + |qty| = 0 ∨ filled n h + |qty| = q) := by
  unfold EntryOf
  cases ho : w.openOrders.get? (some n) with
  | none =>
    have hterminal := hi.untracked n (Option.isSome_of_eq_some hq) ho
    rw [get?_onFill_untracked ho, if_pos (.inl hterminal), Dict.contains, ho]
    constructor
    · rintro ⟨hnone, -⟩
      cases hnone
    · rintro ⟨htracked, -⟩
      cases htracked
  | some o =>
    rw [get?_onFill_tracked hi.fills ho, Dict.contains, ho]
    by_cases hterminal : terminal n h = true
    · rw [if_pos (.inl hterminal)]
      exact ⟨fun hle => ⟨rfl, hle.2, .inl hterminal⟩, fun hle => ⟨rfl, hle.2.1⟩⟩
    · by_cases hle : q ≤ filled n h + |qty|
      · rw [if_pos (.inr hle)]
        exact ⟨fun hge => ⟨rfl, hge.2, .inr (.inr (le_antisymm hge.2 hle))⟩, fun hge => ⟨rfl, hge.2.1⟩⟩
      · rw [if_neg (not_or.2 ⟨hterminal, hle⟩), Option.getD_none]
        constructor
        · rintro ⟨hzero, hge⟩
          exact ⟨rfl, hge, .inr (.inl hzero.symm)⟩
        · rintro ⟨-, hge, hdone | hzero | hfull⟩
          · exact absurd hdone hterminal
          · exact ⟨hzero.symm, hge⟩
          · exact absurd hfull.ge hle

/-- A step changes the history and the entry of the order it is about alone. -/
theorem kept_congr {e : Step} {w' : World} {n : Int} (hkept : Kept h w)
    (hhist : ∀ m, m ≠ n → size? m (e :: h) = size? m h ∧ filled m (e :: h) = filled m h ∧ terminal m (e :: h) = terminal m h ∧
      w'.pendingFills.get? (some m) = w.pendingFills.get? (some m)) :
    Kept (e :: h) w' ↔
      ∀ q ∈ size? n (e :: h), EntryOf q (filled n (e :: h)) (terminal n (e :: h)) (w'.pendingFills.get? (some n)) := by
  constructor
  · intro hall q hq
    exact hall n q hq
  · intro hone m q hq
    by_cases hm : m = n
    · subst hm
      exact hone q hq
    · obtain ⟨hsize, hfilled, hterminal, hentry⟩ := hhist m hm
      rw [hfilled, hterminal, hentry]
      exact hkept m q (hsize ▸ hq)

theorem kept_onOrder (hkept : Kept h w) (id : Ident) (ordStatus : String) :
    Kept (.wsEvent (.order id ordStatus) :: h) (w.onOrder id ordStatus) := by
  intro n q hq
  have hq' : q ∈ size? n h := hq
  have hold := hkept n q hq'
  unfold World.onOrder
  by_cases hterminal : ordStatus ∈ ["Filled", "Cancelled", "Rejected", "Expired"]
  · rw [if_pos hterminal]
    by_cases hn : id = some n
    · have hdone : terminal n (.wsEvent (.order id ordStatus) :: h) = true := by
        simp only [terminal, hn, hterminal, true_and, decide_true, Bool.true_or]
      subst hn
      unfold EntryOf
      rw [if_pos (.inl hdone)]
      exact Dict.get?_pop_self _ _
    · have hsame : terminal n (.wsEvent (.order id ordStatus) :: h) = terminal n h := by
        simp only [terminal, hn, false_and, decide_false, Bool.false_or]
      have hentry : (w.pendingFills.pop id).get? (some n) = w.pendingFills.get? (some n) :=
        Dict.get?_pop_ne _ (Ne.symm hn)
      rw [hsame]
      simp only [hentry]
      exact hold
  · have hsame : terminal n (.wsEvent (.order id ordStatus) :: h) = terminal n h := by
      simp only [terminal, hterminal, and_false, decide_false, Bool.false_or]
    rw [if_neg hterminal, hsame]
    exact hold

theorem filled_fill_ne {n : Int} {orderId : Ident} (hn : orderId ≠ some n) (qty : ℚ) :
    filled n (.wsEvent (.fill orderId qty) :: h) = filled n h := by
  simp only [filled, if_neg hn, add_zero]

theorem kept_onFill (hi : Inv h w) (hkept : Kept h w) (n : Int) (qty : ℚ) :
    Kept (.wsEvent (.fill (some n) qty) :: h) (w.onFill (some n) qty) ∧ Reported h w (.wsEvent (.fill (some n) qty)) ↔
      Exact h w (.wsEvent (.fill (some n) qty)) := by
  have hfilled : filled n (.wsEvent (.fill (some n) qty) :: h) = filled n h + |qty| := by
    simp only [filled, if_pos]
  have hreported : Reported h w (.wsEvent (.fill (some n) qty)) ↔ ∀ q ∈ size? n h, filled n h + |qty| ≤ q := by
    refine forall₂_congr fun q _ => ⟨fun hreport => ?_, fun hle hlt => absurd hlt (not_lt.2 hle)⟩
    exact not_lt.1 fun hlt => fillReport_ne_overfill hi.fills qty (hreport hlt)
  rw [hreported, kept_congr (n := n) hkept, hfilled]
  · constructor
    · rintro ⟨hentry, hle⟩ q hq
      exact (entryOf_onFill hi hq qty).1 ⟨hentry q hq, hle q hq⟩
    · intro hexact
      exact ⟨fun q hq => ((entryOf_onFill hi hq qty).2 (hexact q hq)).1, fun q hq => (hexact q hq).2.1⟩
  · intro m hm
    have hne : some n ≠ some m := fun h => hm (Option.some.inj h).symm
    exact ⟨rfl, filled_fill_ne hne qty, rfl, get?_onFill_ne (Ne.symm hne) qty⟩

/-- Where all entries are as they should be, a step keeps them so and reports its overfill exactly when it is exact. -/
theorem kept_step (hi : Inv h w) (hkept : Kept h w) (e : Step) :
    Kept (e :: h) (e.apply w) ∧ Reported h w e ↔ Exact h w e := by
  cases e with
  | wsEvent e =>
    cases e with
    | order id ordStatus => exact iff_of_true ⟨kept_onOrder hkept id ordStatus, trivial⟩ trivial
    | fill orderId qty =>
      cases orderId with
      | none =>
        refine iff_of_true ⟨fun n q hq => ?_, trivial⟩ trivial
        have hne : (none : Ident) ≠ some n := nofun
        rw [filled_fill_ne hne]
        exact hkept n q hq
      | some n => exact kept_onFill hi hkept n qty
    | position row => exact iff_of_true ⟨hkept, trivial⟩ trivial
  | placed sig sid o symbol n =>
    have hsize : size? n (.placed sig sid o symbol n :: h) = some (o.positionSize : ℚ) := if_pos rfl
    rw [kept_congr (n := n) hkept, hsize]
    · constructor
      · rintro ⟨hentry, -⟩
        exact hentry _ rfl
      · intro hexact
        refine ⟨fun q hq => ?_, trivial⟩
        obtain rfl := Option.some.inj hq
        exact hexact
    · intro m hm
      exact ⟨if_neg (Ne.symm hm), rfl, rfl, rfl⟩

end run

theorem inv_after (cfg : ExecutionConfig) (t : ℚ) (h : List Step) : Inv h (after (World.init cfg t) h) := by
  induction h with
  | nil => exact ⟨fun _ => le_rfl, nofun, nofun⟩
  | cons e h ih => exact ih.apply e

theorem TracksFills.kept {w : World} {h : List Step} (ht : TracksFills w h) : Kept h (after w h) := by
  cases h with
  | nil => exact ht
  | cons e h => exact ht.1.1

/-- The fills of a new adapter's orders are tracked as they should be exactly in the runs whose fills complete their orders. -/
theorem tracksFills_iff (cfg : ExecutionConfig) (t : ℚ) (h : List Step) :
    TracksFills (World.init cfg t) h ↔ ExactAll (World.init cfg t) h := by
  induction h with
  | nil => exact iff_of_true nofun trivial
  | cons e h ih =>
    show (_ ∧ TracksFills _ h) ↔ Exact _ _ e ∧ ExactAll _ h
    rw [← ih]
    exact and_congr_left fun ht => kept_step (inv_after cfg t h) ht.kept e

/-- An order for two contracts. -/
def sampleOrder : Step :=
  .placed (sampleSignal "s1") "s1" ⟨"long", .fin 100, .fin 90, .fin 120, 2⟩ "MNQH6" 1

/-- One contract of it leaves no entry, and three contracts of it are not reported. -/
theorem not_tracksFills :
    ¬ TracksFills (World.init sampleConfig 0) [.wsEvent (.fill (some 1) 1), sampleOrder] ∧
      ¬ TracksFills (World.init sampleConfig 0) [.wsEvent (.fill (some 1) 3), sampleOrder] := by
  constructor
  · rintro ⟨⟨hkept, -⟩, -⟩
    have hentry := hkept 1 2 rfl
    unfold EntryOf at hentry
    revert hentry
    decide +kernel
  · rintro ⟨⟨-, hreported⟩, -⟩
    have hover := hreported 2 rfl (by decide +kernel)
    revert hover
    decide +kernel

end PearlAlgo.PartialFills
