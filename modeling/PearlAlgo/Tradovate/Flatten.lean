import PearlAlgo.Tradovate.PlaceBracket

/-!
# Success of a flatten

`flatten_all_positions` reports success when `liquidate_all_positions` returns, and that collects the
failures of single orders in its result, which the adapter only counts. `flatten_sound_iff` says when its
two callers, the reversal path of `place_bracket` and the advanced exit of the position monitor, can trust
the report, for every list of positions and every pattern of failures.
-/

namespace PearlAlgo
open Py Coop

/-- The call returned, and its first result is a success. -/
def reportsSuccess (r : Except Err (List ExecutionResult)) : Bool :=
  match r with
  | .ok results => firstSucceeded results
  | .error _ => false

/-- A broker with these positions: the listing fails with `listing`, if it does, and the `n`-th request is
answered by `order n` when it is an order. -/
def brokerAnswers (positions : List PositionRow) (listing : Option Err) (order : Nat → Except Err Unit) :
    Nat → (q : Request) → Answer q
  | _, .getPositions _ => match listing with
    | none => .ok (some (positions.map some))
    | some e => .error e
  | n, .placeOrder _ => order n
  | _, .getOrders => .ok none
  | _, .placeOso _ => .error .os
  | _, .cancelOrder _ => .error .os
  | _, .suggestContracts _ => .error .os
  | _, .rollContract _ => .error .os
  | _, .findContract _ => .error .os

def openRows (positions : List PositionRow) : List PositionRow := positions.filter fun p => p.net ≠ 0

def acceptedOrders (trace : List ((q : Request) × Answer q)) : List OrderBody :=
  trace.filterMap fun
    | ⟨.placeOrder b, .ok _⟩ => some b
    | _ => none

/-- A liquidation order was accepted for every position that was not flat. -/
def AllLiquidated (positions : List PositionRow) (trace : List ((q : Request) × Answer q)) : Prop :=
  acceptedOrders trace = (openRows positions).map liquidationOrder

/-- What `flatten_all_positions` reports is true for both callers: the advanced exit takes the position to
be closed, and the reversal of an opposite position goes on, only when all are liquidated. -/
structure FlattenSound (cfg : ExecutionConfig) (s : World) (positions : List PositionRow)
    (listing : Option Err) (order : Nat → Except Err Unit) : Prop where
  monitor :
    let o := (advancedExit cfg).eval (brokerAnswers positions listing order) s
    o.value = .ok true → AllLiquidated positions o.trace
  reversal : ∀ sid direction netPos, existingDir netPos ≠ direction →
    cfg.allowReversalOnOppositeSignal = true →
    let o := (reverseOpposite cfg sid direction [netPos]).eval (brokerAnswers positions listing order) s
    o.value = .ok () → AllLiquidated positions o.trace

section
variable {positions : List PositionRow} {listing : Option Err} {order : Nat → Except Err Unit} {s : World}

theorem openRows_cons_of_ne {p : PositionRow} {rows : List PositionRow} (h : p.net ≠ 0) :
    openRows (p :: rows) = p :: openRows rows := List.filter_cons_of_pos (by simpa using h)

theorem openRows_cons_of_eq {p : PositionRow} (rows : List PositionRow) (h : p.net = 0) :
    openRows (p :: rows) = openRows rows := List.filter_cons_of_neg (by simpa using h)

/-- The loop of `liquidate_all_positions`, asked from the `k`-th request on. -/
structure Liquidated (order : Nat → Except Err Unit) (k : Nat) (rows : List PositionRow) (s : World)
    (o : Proc.Outcome World Answer (Except Err (List (Except Err Unit)))) : Prop where
  state : o.state = s
  /-- Only a cancellation gets out of the loop. -/
  value : (∃ results, o.value = .ok results) ∧ (∀ i < (openRows rows).length, order (k + i) ≠ .error .cancelled) ∨
    o.value = .error .cancelled ∧ ∃ i < (openRows rows).length, order (k + i) = .error .cancelled
  accepted : (acceptedOrders o.trace).Sublist ((openRows rows).map liquidationOrder)
  all : o.value ≠ .error .cancelled →
    (acceptedOrders o.trace = (openRows rows).map liquidationOrder ↔
      ∀ i < (openRows rows).length, order (k + i) = .ok ())

theorem Liquidated.cons_ok {k : Nat} {pos : PositionRow} {rows : List PositionRow}
    {o : Proc.Outcome World Answer (Except Err (List (Except Err Unit)))} (h : Liquidated order (k + 1) rows s o)
    (hp : pos.net ≠ 0) (hk : order k ≠ .error .cancelled) (q : OrderBody) (hq : q = liquidationOrder pos) :
    Liquidated order k (pos :: rows) s
      { o with trace := ⟨.placeOrder q, order k⟩ :: o.trace, value := o.value.map (order k :: ·) } := by
  subst hq
  have hforall {p : Nat → Prop} : (∀ i < (openRows (pos :: rows)).length, p (k + i)) ↔
      p k ∧ ∀ i < (openRows rows).length, p (k + 1 + i) := by
    rw [openRows_cons_of_ne hp, List.length_cons, Nat.forall_lt_succ_left]
    simp only [Nat.add_zero, Nat.add_assoc, Nat.add_comm 1]
  have hlen := h.accepted.length_le
  simp only [List.length_map] at hlen
  refine ⟨h.state, ?_, ?_, ?_⟩
  · rcases h.value with ⟨⟨results, hv⟩, hc⟩ | ⟨hv, i, hi, hc⟩
    · refine .inl ⟨⟨order k :: results, by simp [hv, Except.map]⟩, ?_⟩
      exact (hforall (p := fun n => order n ≠ .error .cancelled)).2 ⟨hk, hc⟩
    · refine .inr ⟨by simp [hv, Except.map], i + 1, ?_, by rw [← hc]; congr 1; omega⟩
      rw [openRows_cons_of_ne hp]
      exact Nat.succ_lt_succ hi
  · rw [openRows_cons_of_ne hp, List.map_cons]
    cases horder : order k with
    | ok _ => exact h.accepted.cons_cons _
    | error e => exact h.accepted.cons _
  · intro hv
    have hv' : o.value ≠ .error .cancelled := fun hc => hv (by simp [hc, Except.map])
    rw [hforall (p := fun n => order n = .ok ()), openRows_cons_of_ne hp, List.map_cons, ← h.all hv']
    cases horder : order k with
    | ok _ => simp [acceptedOrders]
    | error e =>
      -- one order fewer was accepted than there are open positions
      constructor
      · intro hall
        have := congrArg List.length hall
        simp [acceptedOrders] at this hlen
        omega
      · rintro ⟨hne, -⟩
        cases hne

theorem liquidateEach_eval {k : Nat} {ans : Nat → (q : Request) → Answer q} (rows : List PositionRow)
    (hans : ∀ n b, ans n (.placeOrder b) = order (k + n)) :
    Liquidated order k rows s ((liquidateEach (rows.map some)).eval ans s) := by
  induction rows generalizing k ans with
  | nil => exact ⟨rfl, .inl ⟨⟨[], rfl⟩, fun i hi => absurd hi (Nat.not_lt_zero i)⟩, List.Sublist.refl _,
      fun _ => ⟨fun _ i hi => absurd hi (Nat.not_lt_zero i), fun _ => rfl⟩⟩
  | cons pos rows ih =>
    rw [List.map_cons, liquidateEach]
    by_cases hp : pos.net = 0
    · rw [if_pos hp]
      have h := ih hans
      obtain ⟨hs, hv, ha, hall⟩ := h
      rw [← openRows_cons_of_eq rows hp] at hv ha hall
      exact ⟨hs, hv, ha, hall⟩
    · rw [if_neg hp, Proc.eval_ask_bind]
      have hk : ans 0 (.placeOrder (liquidationOrder pos)) = order k := hans 0 _
      rw [hk]
      have hrest := @ih (k + 1) (fun n => ans (n + 1)) fun n b => by
        rw [hans, Nat.add_assoc, Nat.add_comm 1]
      split
      next hc =>
        refine ⟨rfl, .inr ⟨rfl, 0, ?_, hc⟩, ?_, fun hv => absurd rfl hv⟩
        · rw [openRows_cons_of_ne hp]; exact Nat.succ_pos _
        · rw [hc]; exact List.nil_sublist _
      next hc =>
        rw [Proc.eval_bind]
        simp only [Proc.eval_pure, List.append_nil]
        exact hrest.cons_ok hp hc _ rfl

theorem liquidateAllPositions_eval :
    let o := liquidateAllPositions.eval (brokerAnswers positions listing order) s
    (∀ e, listing = some e → o.value = .error e) ∧ (listing = none → Liquidated order 1 positions s o) := by
  simp only [liquidateAllPositions, Proc.eval_ask_bind]
  cases listing with
  | some e => exact ⟨fun e' he => by cases he; rfl, nofun⟩
  | none =>
    refine ⟨nofun, fun _ => ?_⟩
    have h : Liquidated order 1 positions s
        ((liquidateEach (positions.map some)).eval (fun n => brokerAnswers positions none order (n + 1)) s) :=
      liquidateEach_eval positions fun n b => by rw [Nat.add_comm 1 n]; rfl
    exact ⟨h.state, h.value, h.accepted, h.all⟩

theorem advancedExit_eval (cfg : ExecutionConfig) (ans : Nat → (q : Request) → Answer q) :
    let o := (advancedExit cfg).eval ans s
    let o' := (flattenAllPositions cfg).eval ans s
    o.trace = o'.trace ∧ (o.value = .ok true ↔ reportsSuccess o'.value = true) := by
  simp only [advancedExit, Proc.eval_bind]
  cases ((flattenAllPositions cfg).eval ans s).value with
  | ok results => simp [reportsSuccess]
  | error e => cases e <;> simp [reportsSuccess]

theorem reverseOpposite_eval {cfg : ExecutionConfig} (sid : String) {direction : String} {netPos : Int}
    (hdir : existingDir netPos ≠ direction) (hrev : cfg.allowReversalOnOppositeSignal = true)
    (ans : Nat → (q : Request) → Answer q) :
    let o := (reverseOpposite cfg sid direction [netPos]).eval ans s
    let o' := (flattenAllPositions cfg).eval ans s
    o.trace = o'.trace ∧ (o.value = .ok () ↔ reportsSuccess o'.value = true) := by
  simp only [reverseOpposite, if_neg hdir, hrev, not_true_eq_false, ↓reduceIte, Proc.eval_bind]
  cases ((flattenAllPositions cfg).eval ans s).value with
  | ok results =>
    cases hs : firstSucceeded results <;>
      simp [reportsSuccess, hs, Proc.eval_modify_bind]
  | error e => simp [reportsSuccess]

theorem flattenSound_iff_reports {cfg : ExecutionConfig} :
    FlattenSound cfg s positions listing order ↔
      let o := (flattenAllPositions cfg).eval (brokerAnswers positions listing order) s
      reportsSuccess o.value = true → AllLiquidated positions o.trace := by
  obtain ⟨htrace, hvalue⟩ := @advancedExit_eval s cfg (brokerAnswers positions listing order)
  dsimp only
  constructor
  · intro h hr
    rw [← htrace]
    exact h.monitor (hvalue.2 hr)
  · refine fun h => ⟨fun hv => ?_, fun sid direction netPos hdir hrev hv => ?_⟩
    · rw [htrace]
      exact h (hvalue.1 hv)
    · obtain ⟨htrace, hvalue⟩ := @reverseOpposite_eval s cfg sid direction netPos hdir hrev
        (brokerAnswers positions listing order)
      rw [htrace]
      exact h (hvalue.1 hv)

end

end PearlAlgo
