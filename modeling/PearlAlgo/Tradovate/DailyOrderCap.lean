import PearlAlgo.Tradovate.Segments

/-!
# The daily order cap

A call reads the order counter once, in its preconditions, and counts its own order when the broker has
accepted it. So calls in flight are not counted when another one is checked, and an order whose request
timed out is never counted. `orders_le_cap` says that the cap holds when neither matters: each call is
let through only while the orders counted and the calls in flight are below it, and nothing times out.
-/

namespace PearlAlgo
open Py Coop

/-- The segment begins with a bracket that timed out. -/
def timesOut : From Answer → Bool
  | .answer (.placeOso _) r =>
    match (r : Except Err OsoReply) with
    | .error .timeout => true
    | _ => false
  | _ => false

/-- The turn learns that the broker accepted a bracket, or that its outcome is unknown. -/
def mayHaveCreated : AdapterTurn → Bool
  | .seg (.placeBracket _ _) w _ _ _ => acceptsOso w || timesOut w
  | _ => false

def isReset : AdapterTurn → Bool
  | .env .resetDailyCounters _ _ => true
  | _ => false

/-- The brackets since the last daily reset that may have created an order. -/
def ordersSinceReset (log : List AdapterTurn) : Nat :=
  (log.takeWhile fun turn => !isReset turn).countP mayHaveCreated

def inFlightCall (e : Call × To Request Returned) : Bool :=
  match e with
  | (.placeBracket _ _, t) => t.isWaiting
  | _ => false

/-- The calls of `place_bracket` that have passed their checks and not ended. -/
def callsInFlight (calls : List (Call × To Request Returned)) : Nat := calls.countP inFlightCall

/-- A call is let through only while the orders counted and the calls in flight are below the cap, and no
bracket times out. -/
def BelowCap (cfg : ExecutionConfig) (v : AdapterView) : AdapterAct → Prop
  | .spawn (.placeBracket sig uuid) => Admitted cfg sig (sig.idOr uuid) v.shared →
    (v.shared.base.ordersToday + callsInFlight v.calls : Int) < cfg.maxOrdersPerDay
  | .resume i ans =>
    match v.calls[i]? with
    | some (.placeBracket _ _, .waiting q) => timesOut (.answer q (ans q)) = false
    | _ => True
  | _ => True

instance (cfg : ExecutionConfig) (v : AdapterView) (a : AdapterAct) : Decidable (BelowCap cfg v a) :=
  match a with
  | .spawn (.placeBracket sig uuid) => inferInstanceAs (Decidable (Admitted cfg sig (sig.idOr uuid) v.shared →
    (v.shared.base.ordersToday + callsInFlight v.calls : Int) < cfg.maxOrdersPerDay))
  | .resume i ans =>
    match h : v.calls[i]? with
    | some (.placeBracket _ _, .waiting q) =>
      decidable_of_iff (timesOut (.answer q (ans q)) = false) (by simp only [BelowCap, h])
    | some (.placeBracket _ _, .done _) | some (.cancelAll, _) | some (.flattenAllPositions, _)
      | some (.getPositions _, _) | none => .isTrue (by simp only [BelowCap, h])
  | .spawn .cancelAll | .spawn .flattenAllPositions | .spawn (.getPositions _) | .env _ => .isTrue trivial

structure CapInv (cfg : ExecutionConfig) (v : AdapterView) : Prop where
  counted : ordersSinceReset v.log ≤ v.shared.base.ordersToday
  bound : (v.shared.base.ordersToday + callsInFlight v.calls : Int) ≤ cfg.maxOrdersPerDay

section
variable {cfg : ExecutionConfig} {v : AdapterView} {s' : World} {t : To Request Returned} {c : Call}
  {w : From Answer}

theorem ordersSinceReset_cons (log : List AdapterTurn) {turn : AdapterTurn} (h : isReset turn = false) :
    ordersSinceReset (turn :: log) = ordersSinceReset log + (mayHaveCreated turn).toNat := by
  rw [ordersSinceReset, List.takeWhile_cons_of_pos (by rw [h]; rfl), List.countP_cons]
  cases mayHaveCreated turn <;> rfl

theorem callsInFlight_append (calls : List (Call × To Request Returned)) (e : Call × To Request Returned) :
    callsInFlight (calls ++ [e]) = callsInFlight calls + (inFlightCall e).toNat := by
  rw [callsInFlight, List.countP_append, List.countP_singleton]
  cases inFlightCall e <;> rfl

theorem callsInFlight_set {calls : List (Call × To Request Returned)} {i : Nat}
    {e₀ : Call × To Request Returned} (hi : calls[i]? = some e₀) (e : Call × To Request Returned) :
    callsInFlight (calls.set i e) + (inFlightCall e₀).toNat = callsInFlight calls + (inFlightCall e).toNat :=
  countP_set_add hi e

theorem CapInv.spawn {sig : Signal} {uuid : String} (h : CapInv cfg v)
    (hk : BracketSeg cfg sig (sig.idOr uuid) .start v.shared s' t)
    (hP : BelowCap cfg v (.spawn (.placeBracket sig uuid))) :
    CapInv cfg ⟨s', v.calls ++ [(.placeBracket sig uuid, t)],
      .seg (.placeBracket sig uuid) .start v.shared s' t :: v.log⟩ := by
  refine ⟨?_, ?_⟩
  · rw [ordersSinceReset_cons _ rfl]
    exact h.counted.trans hk.ordersMono
  · have hbound := h.bound
    have hle := hk.ordersLe
    show (s'.base.ordersToday + callsInFlight (v.calls ++ [(.placeBracket sig uuid, t)]) : Int) ≤ _
    rw [callsInFlight_append]
    show (s'.base.ordersToday + (callsInFlight v.calls + t.isWaiting.toNat : Nat) : Int) ≤ _
    rcases hk.ordersStart rfl with hstart | hadm
    · omega
    · have := hP hadm
      omega

theorem CapInv.resume {sig : Signal} {uuid : String} (h : CapInv cfg v) {i : Nat} {q : Request}
    {r : Answer q} (hi : v.calls[i]? = some (.placeBracket sig uuid, .waiting q))
    (hk : BracketSeg cfg sig (sig.idOr uuid) (.answer q r) v.shared s' t)
    (hP : timesOut (.answer q r) = false) :
    CapInv cfg ⟨s', v.calls.set i (.placeBracket sig uuid, t),
      .seg (.placeBracket sig uuid) (.answer q r) v.shared s' t :: v.log⟩ := by
  refine ⟨?_, ?_⟩
  · rw [ordersSinceReset_cons _ rfl, mayHaveCreated, hP, Bool.or_false]
    cases hacc : acceptsOso (.answer q r) with
    | true => exact (Nat.succ_le_succ h.counted).trans (hk.ordersAccepted hacc).ge
    | false => exact h.counted.trans hk.ordersMono
  · have hbound := h.bound
    have hle := hk.ordersLe
    have hset : callsInFlight (v.calls.set i (.placeBracket sig uuid, t)) + 1 =
        callsInFlight v.calls + t.isWaiting.toNat := callsInFlight_set hi _
    show (s'.base.ordersToday + callsInFlight (v.calls.set i (.placeBracket sig uuid, t)) : Int) ≤ _
    omega

theorem CapInv.quiet (h : CapInv cfg v) {turn : AdapterTurn} {calls : List (Call × To Request Returned)}
    (hturn : mayHaveCreated turn = false) (hcalls : callsInFlight calls = callsInFlight v.calls)
    (horders : s'.base.ordersToday = v.shared.base.ordersToday) :
    CapInv cfg ⟨s', calls, turn :: v.log⟩ := by
  refine ⟨?_, ?_⟩
  · cases hreset : isReset turn with
    | true =>
      rw [ordersSinceReset, List.takeWhile_cons_of_neg (by simp [hreset])]
      exact Nat.zero_le _
    | false =>
      rw [ordersSinceReset_cons _ hreset, hturn]
      exact h.counted.trans horders.ge
  · show (s'.base.ordersToday + callsInFlight calls : Int) ≤ _
    rw [hcalls, horders]
    exact h.bound

end

theorem envStep_orders (cfg : ExecutionConfig) {e : EnvEvent} (he : e ≠ .resetDailyCounters) (w : World) :
    (envStep cfg e w).base.ordersToday = w.base.ordersToday := by
  cases e with
  | resetDailyCounters => exact absurd rfl he
  | arm => unfold envStep AdapterBase.arm; dsimp only; split <;> rfl
  | wsEvent e => rw [envStep, (handleWsEvent_frame e w).1]
  | _ => rfl

theorem capInv_step {cfg : ExecutionConfig} (v : AdapterView) (a : AdapterAct) (v' : AdapterView)
    (h : CapInv cfg v) (hP : BelowCap cfg v a) (hm : (machine cfg).Move (contract cfg) v a v') :
    CapInv cfg v' := by
  cases hm with
  | @spawn s' c t hk =>
    have other (hc : inFlightCall (c, t) = false) :
        callsInFlight (v.calls ++ [(c, t)]) = callsInFlight v.calls := by
      rw [callsInFlight_append, hc]; rfl
    cases c with
    | placeBracket sig uuid => exact h.spawn hk hP
    | cancelAll => exact h.quiet rfl (other rfl) hk.orders
    | flattenAllPositions => exact h.quiet rfl (other rfl) hk.orders
    | getPositions forceRest => exact h.quiet rfl (other rfl) hk.orders
  | @resume s' i ans c q t hi hk =>
    have other (hc : ∀ t, inFlightCall (c, t) = false) :
        callsInFlight (v.calls.set i (c, t)) = callsInFlight v.calls := by
      have := callsInFlight_set hi (c, t)
      rw [hc, hc] at this
      exact this
    cases c with
    | placeBracket sig uuid =>
      simp only [BelowCap, hi] at hP
      exact h.resume hi hk hP
    | cancelAll => exact h.quiet rfl (other fun _ => rfl) hk.orders
    | flattenAllPositions => exact h.quiet rfl (other fun _ => rfl) hk.orders
    | getPositions forceRest => exact h.quiet rfl (other fun _ => rfl) hk.orders
  | @env e =>
    by_cases he : e = .resetDailyCounters
    · subst he
      refine ⟨?_, ?_⟩
      · rw [ordersSinceReset, List.takeWhile_cons_of_neg (by simp [isReset])]
        exact Nat.zero_le _
      · have := h.bound
        show ((0 : Nat) + callsInFlight v.calls : Int) ≤ _
        omega
    · exact h.quiet rfl rfl (envStep_orders cfg he v.shared)

theorem capInv_start {cfg : ExecutionConfig} (hcfg : cfg.Valid) (t : ℚ) : CapInv cfg (start cfg t).view :=
  ⟨Nat.zero_le _, by simpa [start, Machine.init, Sys.view, callsInFlight, World.init, AdapterBase.init] using
    hcfg.maxOrdersPerDay.le⟩

/-- In every run whose calls are let through within the cap and whose brackets do not time out, the brackets
since the last reset that may have created an order stay within the cap. -/
theorem orders_le_cap {cfg : ExecutionConfig} (hcfg : cfg.Valid) {t : ℚ} {acts : List AdapterAct}
    {s : Sys World Answer Returned Call EnvEvent} (hr : Runs cfg t acts s)
    (hP : Machine.Admits (machine cfg) (BelowCap cfg) (start cfg t) acts) :
    (ordersSinceReset s.log : Int) ≤ cfg.maxOrdersPerDay := by
  have h := (Machine.invariant (machine_obeys cfg) capInv_step (Machine.ok_init _)
    (capInv_start hcfg t) hP hr).2
  have hcounted : ordersSinceReset s.log ≤ s.shared.base.ordersToday := h.counted
  have hbound : (s.shared.base.ordersToday + callsInFlight s.view.calls : Int) ≤ cfg.maxOrdersPerDay := h.bound
  omega

theorem orders_le_cap_placeOne : ∃ s, Runs sampleConfig 0 placeOne s ∧ (ordersSinceReset s.log : Int) ≤ 20 := by
  obtain ⟨s, hs, -⟩ := exists_runs sampleConfig 0 placeOne (fun _ => true) (by decide +kernel)
  exact ⟨s, hs, orders_le_cap (ExecutionConfig.valid_fromDict _) hs (by decide +kernel)⟩

def timeOut : (q : Request) → Answer q
  | .placeOso _ => .error .timeout
  | q => acceptAll q

/-- With a cap of one order: after a bracket that timed out the next one is sent as well; and two calls
that overlap both pass the check. -/
theorem orders_exceed_cap :
    (∃ s, Runs { sampleConfig with maxOrdersPerDay := 1 } 0 (connect ++
        [.spawn (.placeBracket (sampleSignal "s1") ""), .resume 0 acceptAll, .resume 0 acceptAll,
          .resume 0 timeOut, .spawn (.placeBracket (sampleSignal "s2") ""), .resume 1 acceptAll,
          .resume 1 acceptAll]) s ∧ 1 < ordersSinceReset s.log) ∧
    ∃ s, Runs { sampleConfig with maxOrdersPerDay := 1 } 0 (connect ++
        [.spawn (.placeBracket (sampleSignal "s1") ""), .spawn (.placeBracket (sampleSignal "s2") ""),
          .resume 0 acceptAll, .resume 1 acceptAll, .resume 0 acceptAll, .resume 0 acceptAll,
          .resume 1 acceptAll, .resume 1 acceptAll]) s ∧ 1 < ordersSinceReset s.log := by
  have exceeds {cfg acts} (h : ((machine cfg).run (start cfg 0) acts).map
      (fun s => decide (1 < ordersSinceReset s.log)) = some true) :
      ∃ s, Runs cfg 0 acts s ∧ 1 < ordersSinceReset s.log := by
    obtain ⟨s, hs, h⟩ := exists_runs cfg 0 acts _ h
    exact ⟨s, hs, of_decide_eq_true h⟩
  exact ⟨exceeds (by decide +kernel), exceeds (by decide +kernel)⟩

end PearlAlgo
