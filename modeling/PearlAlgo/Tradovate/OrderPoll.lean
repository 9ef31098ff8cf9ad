import Mathlib.Data.List.Induction
import PearlAlgo.Tradovate.Adapter

/-!
# The poll of the tracked orders (`execution/tradovate/adapter.py`)

`_poll_order_status` asks the broker for its orders and stops tracking those that it does not list, those that it lists
as ended, and those that were placed more than ten minutes ago.
-/

namespace PearlAlgo
open Py Coop

/-- The states in which an order has ended. -/
def endedStates : List String := ["Filled", "Cancelled", "Rejected", "Expired"]

/-- `_STALE_ORDER_THRESHOLD`, ten minutes. -/
def STALE_ORDER_THRESHOLD : ℚ := 600

/-- The rows by their identifiers; one without is skipped. -/
def restOrderMap (rows : List OrderRow) : Dict Ident OrderRow :=
  rows.foldl (fun d row => if row.id = none then d else d.set row.id row) .empty

/-- Absent from the listing, or ended there. -/
def restResolved (listed : Dict Ident OrderRow) (orderId : Ident) : Bool :=
  match listed.get? orderId with
  | none => true
  | some row => row.ordStatus.getD "" ∈ endedStates

def staleTracked (now : ℚ) (o : OpenOrder) : Bool := STALE_ORDER_THRESHOLD < now - o.placedAt

/-- `for order_id in list(orders.keys())`: pop the orders that are gone. -/
def popGone (gone : Ident → OpenOrder → Bool) (ids : List Ident) (orders : Dict Ident OpenOrder) :
    Dict Ident OpenOrder :=
  ids.foldl
    (fun orders orderId => if (orders.get? orderId).any (gone orderId) then orders.pop orderId else orders) orders

namespace World

def dropTracked (gone : Ident → OpenOrder → Bool) (w : World) : World :=
  { w with openOrders := popGone gone w.openOrders.keys w.openOrders }

/-- What `_poll_order_status` does with the broker's answer. -/
def onOrderList (r : Answer .getOrders) (w : World) : World × Except Err Unit :=
  match r with
  | .ok none => (w, .ok ())
  | .ok (some rows) =>
    if rows.all Option.isSome then
      let listed := restOrderMap (rows.filterMap id)
      ((w.dropTracked fun orderId _ => restResolved listed orderId).dropTracked fun _ o => staleTracked w.now o, .ok ())
    else (w, .error .attribute)
  | .error (.api .rateLimit) => (w.backOff, .ok ())
  | .error (.api _) | .error .timeout | .error .os | .error .value | .error .type | .error .key => (w, .ok ())
  | .error e => (w, .error e)

end World

def pollOrderStatus : Flow (Except Err Unit) := do
  let w ← Proc.read
  if w.monotonic < w.rateLimitUntil then return .ok ()
  else do
    let r ← Proc.ask Request.getOrders
    step (World.onOrderList r)

/-! ### What the listing says of an order -/

/-- The last row with the identifier. -/
def lastRow (rows : List OrderRow) (orderId : Ident) : Option OrderRow :=
  rows.reverse.find? fun row => row.id ≠ none ∧ row.id = orderId

theorem get?_restOrderMap (rows : List OrderRow) (orderId : Ident) :
    (restOrderMap rows).get? orderId = lastRow rows orderId := by
  induction rows using List.reverseRecOn with
  | nil => rfl
  | append_singleton rows row ih =>
    rw [restOrderMap, List.foldl_concat, ← restOrderMap, lastRow, List.reverse_concat, List.find?_cons, ← lastRow, ← ih]
    split
    next hnone => simp [hnone]
    next hsome =>
      rw [Dict.get?_set]
      by_cases heq : row.id = orderId
      · simp [heq, heq ▸ hsome]
      · simp [heq, Ne.symm heq]

/-- The listing has the order as not ended, and it was placed at most ten minutes ago. -/
structure StillWorking (rows : List OrderRow) (now : ℚ) (orderId : Ident) (o : OpenOrder) : Prop where
  listed : ∃ row, lastRow rows orderId = some row ∧ row.ordStatus.getD "" ∉ endedStates
  recent : now - o.placedAt ≤ STALE_ORDER_THRESHOLD

theorem get?_popGone (gone : Ident → OpenOrder → Bool) (ids : List Ident) (orders : Dict Ident OpenOrder) (k : Ident) :
    (popGone gone ids orders).get? k =
      if k ∈ ids then (orders.get? k).filter (fun o => !gone k o) else orders.get? k := by
  induction ids generalizing orders with
  | nil => rfl
  | cons i ids ih =>
    rw [popGone, List.foldl_cons, ← popGone, ih]
    by_cases hk : k = i
    · -- the first visit decides: a second one finds the order gone, or keeps it again
      subst hk
      cases ho : orders.get? k with
      | none => simp [ho]
      | some o => by_cases hg : gone k o <;> simp [hg, ho, Dict.get?_pop_self, Option.filter_some]
    · have hsame : (if (orders.get? i).any (gone i) then orders.pop i else orders).get? k = orders.get? k := by
        split
        next => exact Dict.get?_pop_ne orders hk
        next => rfl
      rw [hsame]
      simp [hk]

namespace World
variable {w : World}

theorem get?_dropTracked (gone : Ident → OpenOrder → Bool) (k : Ident) :
    (w.dropTracked gone).openOrders.get? k = (w.openOrders.get? k).filter fun o => !gone k o := by
  refine (get?_popGone gone _ _ k).trans ?_
  split
  next => rfl
  next hk =>
    have hnone : w.openOrders.get? k = none := by
      rw [Option.eq_none_iff_forall_not_mem]
      intro o ho
      exact hk (List.mem_map.2 ⟨(k, o), Dict.get?_eq_some.1 ho, rfl⟩)
    simp [hnone]

end World

theorem restResolved_eq_false {rows : List OrderRow} {k : Ident} :
    restResolved (restOrderMap rows) k = false ↔
      ∃ row, lastRow rows k = some row ∧ row.ordStatus.getD "" ∉ endedStates := by
  rw [restResolved, get?_restOrderMap]
  cases lastRow rows k with
  | none => simp
  | some row => simp

theorem staleTracked_eq_false {now : ℚ} {o : OpenOrder} :
    staleTracked now o = false ↔ now - o.placedAt ≤ STALE_ORDER_THRESHOLD := by
  simp [staleTracked]

/-- What a poll with the answer `r` has done. -/
structure Polled (r : Answer .getOrders) (before after : World) (value : Except Err Unit) : Prop where
  tracked : ∀ k o, after.openOrders.get? k = some o ↔
    before.openOrders.get? k = some o ∧
      ∀ rows : List OrderRow, r = .ok (some (rows.map some)) → StillWorking rows before.now k o
  frame : { after with
    openOrders := before.openOrders, rateLimitBackoff := before.rateLimitBackoff
    rateLimitUntil := before.rateLimitUntil } = before
  raised : value ≠ .ok () → after = before

theorem Polled.of_same {r : Answer .getOrders} {w w' : World} {value : Except Err Unit}
    (hr : ∀ rows : List OrderRow, r ≠ .ok (some (rows.map some))) (horders : w'.openOrders = w.openOrders)
    (hframe : { w' with
      openOrders := w.openOrders, rateLimitBackoff := w.rateLimitBackoff, rateLimitUntil := w.rateLimitUntil } = w)
    (hvalue : value ≠ .ok () → w' = w) : Polled r w w' value where
  tracked k o := by
    rw [horders]
    exact ⟨fun h => ⟨h, fun rows hrows => absurd hrows (hr rows)⟩, And.left⟩
  frame := hframe
  raised := hvalue

theorem exists_eq_map_some {α : Type} {l : List (Option α)} (h : l.all Option.isSome) :
    ∃ l' : List α, l = l'.map some := by
  induction l with
  | nil => exact ⟨[], rfl⟩
  | cons a l ih =>
    rw [List.all_cons, Bool.and_eq_true] at h
    obtain ⟨a, rfl⟩ := Option.isSome_iff_exists.1 h.1
    obtain ⟨l', rfl⟩ := ih h.2
    exact ⟨a :: l', rfl⟩

theorem polled_onOrderList (r : Answer .getOrders) (w : World) :
    Polled r w (w.onOrderList r).1 (w.onOrderList r).2 := by
  unfold World.onOrderList
  split
  next => exact .of_same (by simp) rfl rfl (by simp)
  next rows =>
    split
    next hrows =>
      obtain ⟨rows, rfl⟩ := exists_eq_map_some hrows
      refine ⟨fun k o => ?_, rfl, fun h => absurd rfl h⟩
      have hid : (rows.map some).filterMap id = rows := by simp
      simp only [hid, World.get?_dropTracked, Option.filter_eq_some_iff, Bool.not_eq_true', restResolved_eq_false,
        staleTracked_eq_false, and_assoc]
      constructor
      · rintro ⟨ho, hlisted, hrecent⟩
        refine ⟨ho, fun rows' hrows' => ?_⟩
        have heq : rows = rows' :=
          List.map_injective_iff.2 (Option.some_injective _) (Option.some.inj (Except.ok.inj hrows'))
        exact heq ▸ ⟨hlisted, hrecent⟩
      · rintro ⟨ho, hkept⟩
        obtain ⟨hlisted, hrecent⟩ := hkept rows rfl
        exact ⟨ho, hlisted, hrecent⟩
    next hrows =>
      refine .of_same (fun l hl => hrows ?_) rfl rfl fun _ => rfl
      have heq : rows = l.map some := by simpa using hl
      simp [heq]
  all_goals exact .of_same (by simp) rfl rfl (by simp)

/-- A poll keeps the orders that the listing shows as not ended and that are recent, and drops the others; without a
proper listing it keeps all. -/
theorem poll_tracks (env : Nat → Proc.Interval World Answer) (w : World) :
    let o := pollOrderStatus.play env w
    (w.monotonic < w.rateLimitUntil ∧ o = ⟨[], w, .ok ()⟩) ∨
    (w.rateLimitUntil ≤ w.monotonic ∧ o.trace = [⟨.getOrders, (env 0).answer .getOrders⟩] ∧
      Polled ((env 0).answer .getOrders) ((env 0).others w) o.state o.value) := by
  simp only [pollOrderStatus, Proc.play_read_bind]
  by_cases hwait : w.monotonic < w.rateLimitUntil
  · exact .inl ⟨hwait, by rw [if_pos hwait]; rfl⟩
  · refine .inr ⟨le_of_not_gt hwait, ?_⟩
    rw [if_neg hwait]
    exact ⟨rfl, polled_onOrderList _ _⟩

end PearlAlgo
