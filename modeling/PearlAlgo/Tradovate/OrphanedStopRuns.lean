import PearlAlgo.Tradovate.OrphanedStops

/-!
# Recovering orphaned stops (`execution/tradovate/adapter.py`)

What the check of the stops leaves behind, and what its retry wrapper reports. `branchTaken` is where the first attempt
goes, from the replies to its calls; `check_serve` is what it then knows of the working orders. `stops_recovered_iff`
says when each open position ends up with a stop, and when a success of the wrapper means that it does.
-/

namespace PearlAlgo
open Py Coop

/-- A working stop order on the other side of the position, for the whole of it. -/
def CoversInFull (o : RawOrder) (p : AccountPosition) : Prop :=
  Closes o p ∧ o.isStop = true ∧ extractOrderQty o = p.netPos.natAbs

instance (o : RawOrder) (p : AccountPosition) : Decidable (CoversInFull o p) := inferInstanceAs (Decidable (_ ∧ _ ∧ _))

def openListed (rows : List PositionRow) : List AccountPosition := accountPositions (some rows) .empty

def AllCovered (rows : List PositionRow) (orders : List ListedOrder) : Prop :=
  ∀ p ∈ openListed rows, ∃ o ∈ orders, CoversInFull o.toRawOrder p

instance (rows : List PositionRow) (orders : List ListedOrder) : Decidable (AllCovered rows orders) :=
  inferInstanceAs (Decidable (∀ p ∈ openListed rows, ∃ o ∈ orders, _))

abbrev BrokerEvent : Type := (q : BrokerCall) × Except CallError (BrokerReply q)

/-- What the caller knows of the working orders after a call. -/
def learn (contracts : String → Ident) (known : List ListedOrder) : BrokerEvent → List ListedOrder
  | ⟨.orders, .ok rows⟩ => rows
  | ⟨q, .ok _⟩ => q.effect contracts known
  | ⟨_, .error _⟩ => known

/-- The attempt was told the positions, and knows a stop for each of them. -/
def Verified (contracts : String → Ident) (trace : List BrokerEvent) : Prop :=
  ∃ rows, ⟨.positions, .ok rows⟩ ∈ trace ∧ AllCovered rows (trace.foldl (learn contracts) [])

/-- When the check finishes and no call has failed, each open position has its stop. -/
def CheckLaw (w : World) (b : Broker) : Prop :=
  let o := reattachOrphanedStopOnConnect.serve (Broker.serving fun _ => none) w (0, b)
  o.value = .ok () → AllCovered o.server.2.positions o.server.2.orders

/-- A success that the wrapper reports is that of an attempt. -/
def RetryLaw (fails : Nat → Option CallError) (maxAttempts : Nat) (w : World) (b : Broker) : Prop :=
  let r := reattachWithRetry fails maxAttempts w (0, b)
  r.value = .ok true → ∃ o ∈ r.attempts, Verified b.contracts o.trace

def StopsRecovered (fails : Nat → Option CallError) (maxAttempts : Nat) (w : World) (b : Broker) : Prop :=
  CheckLaw w b ∧ RetryLaw fails maxAttempts w b

/-! ### Where the first attempt goes -/

section branches
variable (fails : Nat → Option CallError) (w : World) (b : Broker)

def summaryFound : AccountSummary :=
  if w.isConnected then summaryFrom w (attempted fails 1 b.positions) (attempted fails 3 b.orders)
  else getAccountSummary w none none

def positionsFound : List AccountPosition := (summaryFound fails w b).positions.filter fun p => p.netPos ≠ 0

def summaryCalls : Nat := if w.isConnected then 4 else 0

inductive Branch
  | idle  -- no position is found, or something that looks protective
  | clean  -- a live stop is found, and its duplicates are cancelled
  | place
deriving DecidableEq

def branchTaken : Branch :=
  match positionsFound fails w b with
  | [] => .idle
  | first :: _ =>
    if (summaryFound fails w b).workingOrders.any (WorkingOrder.looksProtective first.side) then .idle
    else if fails (summaryCalls w) = none ∧
        hasExistingStopForPosition first.side (b.orders.map ListedOrder.toRawOrder) = true then .clean
    else .place

/-- The positions that the check can place a stop for. -/
def stopsToPlace : List AccountPosition := (positionsFound fails w b).filter fun p => 0 < p.netPrice

/-- The duplicates that the loop comes to cancel. -/
def cancelIds : List ListedOrder → List Int
  | [] => []
  | o :: rest =>
    match o.id with
    | none => []
    | some id => id :: cancelIds rest

def PositionsTold : Prop :=
  w.isConnected = true ∧ fails 1 = none ∨
    branchTaken fails w b = .clean ∧ fails (summaryCalls w + 1) = none ∧ b.orders ≠ [] ∧ fails (summaryCalls w + 2) = none

def OrdersTold : Prop :=
  w.isConnected = true ∧ fails 3 = none ∨ branchTaken fails w b ≠ .idle ∧ fails (summaryCalls w) = none

instance : Decidable (OrdersTold fails w b) := inferInstanceAs (Decidable (_ ∧ _ ∨ _ ∧ _))

/-- The attempt cancels the order as a duplicate. -/
def CancelsDuplicate (o : ListedOrder) : Prop :=
  branchTaken fails w b = .clean ∧ fails (summaryCalls w + 1) = none ∧ fails (summaryCalls w + 2) = none ∧
    AtCall (summaryCalls w + 3) (cancelIds (duplicateStops b.orders b.positions)) fun n id =>
      fails n = none ∧ o.id = some id

def PlacesStop (o : ListedOrder) : Prop :=
  branchTaken fails w b = .place ∧ AtCall (summaryCalls w + 1) (stopsToPlace fails w b) fun n p =>
    fails n = none ∧ o = (emergencyStop w.contractSymbol p).row b.contracts

/-- The attempt ends in an exception that no clause lists. -/
def Raises : Prop :=
  branchTaken fails w b = .place ∧ AtCall (summaryCalls w + 1) (stopsToPlace fails w b) fun n _ => fails n = some .other

/-- Each open position has its stop, among those listed that are not cancelled and those placed. -/
def StopsStand (listed : List ListedOrder) : Prop :=
  ∀ p ∈ openListed b.positions, ∃ o, (o ∈ listed ∧ ¬ CancelsDuplicate fails w b o ∨ PlacesStop fails w b o) ∧
    CoversInFull o.toRawOrder p

end branches

/-! ### Runs -/

section runs
variable {fails : Nat → Option CallError} {w : World} {n : Nat} {b : Broker}

def Broker.after (fails : Nat → Option CallError) (n : Nat) (b : Broker) (q : BrokerCall) : Broker :=
  { b with orders := learn b.contracts b.orders ⟨q, attempted fails n (b.reply q)⟩ }

theorem serving_eq (q : BrokerCall) :
    Broker.serving fails q (n, b) = (attempted fails n (b.reply q), (n + 1, b.after fails n q)) := by
  show (attempted fails n (b.reply q), (n + 1, if fails n = none then _ else b)) = _
  unfold Broker.after attempted
  rcases fails n with _ | e
  · rw [if_pos rfl]
    cases q <;> rfl
  · rw [if_neg nofun]
    cases q <;> rfl

theorem serve_call {α : Type} (q : BrokerCall) (f : Except CallError (BrokerReply q) → BrokerProc α) :
    (Proc.ask q >>= f).serve (Broker.serving fails) w (n, b) =
      let o := (f (attempted fails n (b.reply q))).serve (Broker.serving fails) w (n + 1, b.after fails n q)
      { o with trace := ⟨q, attempted fails n (b.reply q)⟩ :: o.trace } := by
  rw [Proc.serve_ask_bind, serving_eq]

theorem after_eq {q : BrokerCall} (h : ∀ orders, q.effect b.contracts orders = orders) : b.after fails n q = b := by
  have hlearn : learn b.contracts b.orders ⟨q, attempted fails n (b.reply q)⟩ = b.orders := by
    unfold attempted
    rcases fails n with _ | e
    · cases q with
      | orders => rfl
      | _ => exact h b.orders
    · cases q <;> rfl
  unfold Broker.after
  rw [hlearn]

theorem serve_broker {α : Type} (p : BrokerProc α) : (p.serve (Broker.serving fails) w (n, b)).server.2 =
    { b with orders := (p.serve (Broker.serving fails) w (n, b)).trace.foldl (learn b.contracts) b.orders } := by
  induction p generalizing w n b with
  | ret a => rfl
  | get k ih => exact ih w
  | put s p ih => exact ih
  | await q k ih =>
    unfold Proc.serve
    rw [serving_eq]
    exact ih _

def TellsPositions (trace : List BrokerEvent) : Prop := ∃ rows, ⟨.positions, .ok rows⟩ ∈ trace

theorem tellsPositions_nil : ¬ TellsPositions [] := by
  rintro ⟨rows, h⟩
  cases h

theorem tellsPositions_cons {q : BrokerCall} {trace : List BrokerEvent} :
    TellsPositions (⟨q, attempted fails n (b.reply q)⟩ :: trace) ↔
      q = .positions ∧ fails n = none ∨ TellsPositions trace := by
  constructor
  · rintro ⟨rows, hmem⟩
    rcases List.mem_cons.1 hmem with h | h
    · cases q with
      | positions =>
        have hreply : (.ok rows : Except CallError (List PositionRow)) = attempted fails n b.positions :=
          eq_of_heq (Sigma.mk.inj h).2
        exact .inl ⟨rfl, (attempted_eq_ok.1 hreply.symm).1⟩
      | _ => cases (Sigma.mk.inj h).1
    · exact .inr ⟨rows, h⟩
  · rintro (⟨rfl, hn⟩ | ⟨rows, h⟩)
    · exact ⟨b.positions, List.mem_cons.2 (.inl (congrArg _ (attempted_eq_ok.2 ⟨hn, rfl⟩).symm))⟩
    · exact ⟨rows, List.mem_cons_of_mem _ h⟩

theorem tellsPositions_cons_of_ne {q : BrokerCall} {r : Except CallError (BrokerReply q)} {trace : List BrokerEvent}
    (hq : q ≠ .positions) : TellsPositions (⟨q, r⟩ :: trace) ↔ TellsPositions trace := by
  constructor
  · rintro ⟨rows, hmem⟩
    rcases List.mem_cons.1 hmem with h | h
    · exact absurd (congrArg Sigma.fst h).symm hq
    · exact ⟨rows, h⟩
  · rintro ⟨rows, h⟩
    exact ⟨rows, List.mem_cons_of_mem _ h⟩

theorem tellsPositions_append {trace trace' : List BrokerEvent} :
    TellsPositions (trace ++ trace') ↔ TellsPositions trace ∨ TellsPositions trace' := by
  simp only [TellsPositions, List.mem_append, exists_or]

theorem serve_positions {α : Type} (p : BrokerProc α) {rows : List PositionRow}
    (h : ⟨.positions, .ok rows⟩ ∈ (p.serve (Broker.serving fails) w (n, b)).trace) : rows = b.positions := by
  induction p generalizing w n b with
  | ret a => cases h
  | get k ih => exact ih w h
  | put s p ih => exact ih h
  | await q k ih =>
    unfold Proc.serve at h
    rw [serving_eq] at h
    rcases List.mem_cons.1 h with h | h
    · cases q with
      | positions =>
        have hreply : (.ok rows : Except CallError (List PositionRow)) = attempted fails n b.positions :=
          eq_of_heq (Sigma.mk.inj h).2
        exact (attempted_eq_ok.1 hreply.symm).2.symm
      | _ => cases (Sigma.mk.inj h).1
    · exact @ih _ w (n + 1) (b.after fails n q) h

theorem serve_cancelStops (l : List ListedOrder) :
    ((cancelStops l).serve (Broker.serving fails) w (n, b)).state = w ∧
      ¬ TellsPositions ((cancelStops l).serve (Broker.serving fails) w (n, b)).trace ∧
      ∀ known o, o ∈ ((cancelStops l).serve (Broker.serving fails) w (n, b)).trace.foldl (learn b.contracts) known ↔
        o ∈ known ∧ ¬ AtCall n (cancelIds l) fun m id => fails m = none ∧ o.id = some id := by
  induction l generalizing n b with
  | nil => exact ⟨rfl, tellsPositions_nil, fun known o => by simp [cancelStops, cancelIds, atCall_nil]⟩
  | cons d rest ih =>
    unfold cancelStops cancelIds
    rcases d.id with _ | id
    · exact ⟨rfl, tellsPositions_nil, fun known o => by simp [atCall_nil]⟩
    dsimp only
    rw [serve_call]
    obtain ⟨hstate, hpositions, hknown⟩ := @ih (n + 1) (b.after fails n (.cancelOrder id))
    refine ⟨hstate, fun h => ?_, fun known o => ?_⟩
    · rcases tellsPositions_cons.1 h with ⟨hcall, -⟩ | h
      · cases hcall
      · exact hpositions h
    · have hlearn : o ∈ learn b.contracts known ⟨.cancelOrder id, attempted fails n ()⟩ ↔
          o ∈ known ∧ ¬ (fails n = none ∧ o.id = some id) := by
        unfold attempted
        rcases fails n with _ | e
        · simp [learn, BrokerCall.effect]
        · simp [learn]
      rw [atCall_cons, not_or, ← and_assoc]
      exact (hknown _ o).trans (and_congr_left' hlearn)

theorem afterPlacement_eq (next : BrokerProc (Except CallError Unit)) :
    afterPlacement (attempted fails n ()) next = if fails n = some .other then return .error .other else next := by
  unfold attempted
  rcases fails n with _ | e
  · rfl
  · cases e <;> rfl

theorem serve_placeEmergencyStops_raises {symbol : Option String} {l : List AccountPosition}
    (h : AtCall n (l.filter fun p => 0 < p.netPrice) fun m _ => fails m = some .other) :
    ((placeEmergencyStops symbol l).serve (Broker.serving fails) w (n, b)).value = .error .other := by
  induction l generalizing n b with
  | nil => exact absurd h atCall_nil
  | cons p rest ih =>
    unfold placeEmergencyStops
    by_cases hprice : p.netPrice ≤ 0
    · rw [if_pos hprice]
      rw [List.filter_cons_of_neg (by simpa using hprice)] at h
      exact ih h
    · rw [if_neg hprice, serve_call]
      rw [List.filter_cons_of_pos (by simpa using hprice), atCall_cons] at h
      show ((afterPlacement (attempted fails n ()) _).serve _ w _).value = _
      rw [afterPlacement_eq]
      by_cases hn : fails n = some .other
      · rw [if_pos hn]
        rfl
      · rw [if_neg hn]
        exact ih (h.resolve_left hn)

theorem serve_placeEmergencyStops {symbol : Option String} {l : List AccountPosition}
    (h : ¬ AtCall n (l.filter fun p => 0 < p.netPrice) fun m _ => fails m = some .other) :
    let o := (placeEmergencyStops symbol l).serve (Broker.serving fails) w (n, b)
    o.value = .ok () ∧ ¬ TellsPositions o.trace ∧
      ∀ known x, x ∈ o.trace.foldl (learn b.contracts) known ↔
        x ∈ known ∨ AtCall n (l.filter fun p => 0 < p.netPrice) fun m p =>
          fails m = none ∧ x = (emergencyStop symbol p).row b.contracts := by
  induction l generalizing n b with
  | nil => exact ⟨rfl, tellsPositions_nil, fun known x => by simp [placeEmergencyStops, atCall_nil]⟩
  | cons p rest ih =>
    unfold placeEmergencyStops
    by_cases hprice : p.netPrice ≤ 0
    · rw [if_pos hprice]
      rw [List.filter_cons_of_neg (by simpa using hprice)] at h ⊢
      exact ih h
    · rw [if_neg hprice, serve_call]
      rw [List.filter_cons_of_pos (by simpa using hprice)] at h ⊢
      obtain ⟨hn, hrest⟩ := not_or.1 (atCall_cons.not.1 h)
      have hgo : afterPlacement (attempted fails n (b.reply (.placeOrder (emergencyStop symbol p))))
          (placeEmergencyStops symbol rest) = placeEmergencyStops symbol rest :=
        (afterPlacement_eq _).trans (if_neg hn)
      rw [hgo]
      obtain ⟨hvalue, hpositions, hknown⟩ := @ih (n + 1) (b.after fails n (.placeOrder (emergencyStop symbol p))) hrest
      refine ⟨hvalue, fun h => ?_, fun known x => ?_⟩
      · rcases tellsPositions_cons.1 h with ⟨hcall, -⟩ | h
        · cases hcall
        · exact hpositions h
      · have hlearn : x ∈ learn b.contracts known ⟨.placeOrder (emergencyStop symbol p), attempted fails n ()⟩ ↔
            x ∈ known ∨ fails n = none ∧ x = (emergencyStop symbol p).row b.contracts := by
          unfold attempted
          rcases fails n with _ | e
          · simp [learn, BrokerCall.effect]
          · simp [learn]
        rw [atCall_cons, ← or_assoc]
        exact (hknown _ x).trans (or_congr_left hlearn)

theorem learn_orders (known : List ListedOrder) : learn b.contracts known ⟨.orders, attempted fails n b.orders⟩ =
    if fails n = none then b.orders else known := by
  unfold attempted
  rcases fails n with _ | e <;> rfl

theorem learn_read {q : BrokerCall} (hq : q ≠ .orders) (h : ∀ orders, q.effect b.contracts orders = orders)
    (known : List ListedOrder) : learn b.contracts known ⟨q, attempted fails n (b.reply q)⟩ = known := by
  unfold attempted
  rcases fails n with _ | e
  · cases q with
    | orders => exact absurd rfl hq
    | _ => exact h known
  · cases q <;> rfl

theorem serve_fetchAccountSummary :
    let o := fetchAccountSummary.serve (Broker.serving fails) w (0, b)
    o.value = summaryFound fails w b ∧ o.state = w ∧ o.server = (summaryCalls w, b) ∧
      (TellsPositions o.trace ↔ w.isConnected = true ∧ fails 1 = none) ∧
      ∀ known, o.trace.foldl (learn b.contracts) known =
        if w.isConnected = true ∧ fails 3 = none then b.orders else known := by
  unfold fetchAccountSummary summaryFound summaryCalls
  rw [Proc.serve_read_bind]
  by_cases hconnected : w.isConnected = true
  · rw [if_pos hconnected, if_pos hconnected, if_pos hconnected, serve_call, after_eq fun _ => rfl, serve_call,
      after_eq fun _ => rfl, serve_call, after_eq fun _ => rfl, serve_call, after_eq fun _ => rfl]
    refine ⟨rfl, rfl, rfl, ?_, fun known => ?_⟩
    · show TellsPositions (_ :: _ :: _ :: _ :: []) ↔ _
      rw [tellsPositions_cons, tellsPositions_cons, tellsPositions_cons, tellsPositions_cons]
      simp [tellsPositions_nil, hconnected]
    · show learn _ (learn _ (learn _ (learn _ known _) _) _) ⟨.orders, attempted fails 3 b.orders⟩ = _
      have hne : ∀ q : BrokerCall, q.effect b.contracts = id → q ≠ .orders →
          ∀ m known, learn b.contracts known ⟨q, attempted fails m (b.reply q)⟩ = known :=
        fun q hq hne m known => learn_read hne (fun orders => congrFun hq orders) known
      rw [learn_orders, hne .fills rfl (by simp), hne .positions rfl (by simp), hne .cashBalance rfl (by simp)]
      simp only [hconnected, true_and]
  · rw [if_neg hconnected, if_neg hconnected, if_neg hconnected]
    exact ⟨rfl, rfl, rfl, by simp [hconnected, tellsPositions_nil], by simp [hconnected]⟩

theorem duplicateStops_nil (rows : List PositionRow) : duplicateStops [] rows = [] := by
  cases rows <;> rfl

theorem serve_cancelDuplicatesAmong (rows : Except CallError (List PositionRow)) (orders : List ListedOrder) :
    let o := (cancelDuplicatesAmong orders rows).serve (Broker.serving fails) w (n, b)
    ¬ TellsPositions o.trace ∧ ∀ known x, x ∈ o.trace.foldl (learn b.contracts) known ↔ x ∈ known ∧
      ¬ ∃ positions, rows = .ok positions ∧ AtCall n (cancelIds (duplicateStops orders positions)) fun m id =>
        fails m = none ∧ x.id = some id := by
  rcases rows with e | positions
  · exact ⟨tellsPositions_nil, fun known x => ⟨fun h => ⟨h, by simp⟩, fun h => h.1⟩⟩
  · obtain ⟨-, htells, hknown⟩ := @serve_cancelStops fails w n b (duplicateStops orders positions)
    refine ⟨htells, fun known x => (hknown known x).trans (and_congr_right' (not_congr ?_))⟩
    exact ⟨fun h => ⟨positions, rfl, h⟩, fun ⟨_, hrows, h⟩ => by cases hrows; exact h⟩

theorem serve_cancelDuplicateStops :
    let o := cancelDuplicateStops.serve (Broker.serving fails) w (n, b)
    (TellsPositions o.trace ↔ fails n = none ∧ b.orders ≠ [] ∧ fails (n + 1) = none) ∧
      ∀ known x, x ∈ o.trace.foldl (learn b.contracts) known ↔
        x ∈ (if fails n = none then b.orders else known) ∧
          ¬ (fails n = none ∧ fails (n + 1) = none ∧
            AtCall (n + 2) (cancelIds (duplicateStops b.orders b.positions)) fun m id =>
              fails m = none ∧ x.id = some id) := by
  have hother : BrokerCall.orders ≠ .positions := by simp
  unfold cancelDuplicateStops
  rw [serve_call, after_eq fun _ => rfl]
  rcases hn : fails n with _ | e
  · have hreply : attempted fails n (b.reply .orders) = .ok b.orders := attempted_eq_ok.2 ⟨hn, rfl⟩
    rw [hreply]
    dsimp only
    by_cases horders : b.orders.isEmpty = true
    · rw [if_pos horders]
      refine ⟨(tellsPositions_cons_of_ne hother).trans ?_, fun known x => ?_⟩
      · exact ⟨fun h => absurd h tellsPositions_nil, fun h => absurd (List.isEmpty_iff.1 horders) h.2.1⟩
      · rw [List.isEmpty_iff.1 horders, duplicateStops_nil]
        exact ⟨fun h => ⟨h, fun hc => atCall_nil hc.2.2⟩, fun h => h.1⟩
    · rw [if_neg horders, serve_call, after_eq fun _ => rfl]
      obtain ⟨htells, hknown⟩ := @serve_cancelDuplicatesAmong fails w (n + 2) b (attempted fails (n + 1) b.positions) b.orders
      refine ⟨(tellsPositions_cons_of_ne hother).trans (tellsPositions_cons.trans ?_), fun known x => ?_⟩
      · exact ⟨fun h => ⟨rfl, fun hnil => horders (List.isEmpty_iff.2 hnil), (h.resolve_right htells).2⟩,
          fun h => .inl ⟨rfl, h.2.2⟩⟩
      · refine (hknown _ x).trans (and_congr ?_ (not_congr ?_))
        · rw [if_pos rfl]
          refine Eq.to_iff (congrArg (x ∈ ·) ?_)
          exact learn_read (by simp) (fun _ => rfl) b.orders
        · constructor
          · rintro ⟨positions, hrows, hat⟩
            obtain ⟨hn', rfl⟩ := attempted_eq_ok.1 hrows
            exact ⟨rfl, hn', hat⟩
          · rintro ⟨-, hn', hat⟩
            exact ⟨b.positions, attempted_eq_ok.2 ⟨hn', rfl⟩, hat⟩
  · have hreply : attempted fails n (b.reply .orders) = .error e := by
      unfold attempted
      rw [hn]
    rw [hreply]
    refine ⟨(tellsPositions_cons_of_ne hother).trans ?_, fun known x => ?_⟩
    · exact ⟨fun h => absurd h tellsPositions_nil, fun h => by cases h.1⟩
    · exact ⟨fun h => ⟨h, fun hc => by cases hc.1⟩, fun h => h.1⟩

theorem serve_checkExistingStop (side : PositionSide) :
    (checkExistingStop side).serve (Broker.serving fails) w (n, b) =
      ⟨⟨[⟨.orders, attempted fails n b.orders⟩], w,
        decide (fails n = none ∧ hasExistingStopForPosition side (b.orders.map ListedOrder.toRawOrder) = true)⟩,
        (n + 1, b)⟩ := by
  unfold checkExistingStop
  rw [serve_call, after_eq fun _ => rfl]
  rcases hn : fails n with _ | e
  · have hreply : attempted fails n b.orders = .ok b.orders := attempted_eq_ok.2 ⟨hn, rfl⟩
    rw [show attempted fails n (b.reply .orders) = .ok b.orders from hreply, hreply]
    simp
  · have hreply : attempted fails n b.orders = .error e := by
      unfold attempted
      rw [hn]
    rw [show attempted fails n (b.reply .orders) = .error e from hreply, hreply]
    simp

/-- What the attempt does after the summary. -/
structure Protects (fails : Nat → Option CallError) (w : World) (b : Broker) (o : Attempt) : Prop where
  raises : Raises fails w b → o.value = .error .other
  value : ¬ Raises fails w b → o.value = .ok ()
  tells : ¬ Raises fails w b → (TellsPositions o.trace ↔ branchTaken fails w b = .clean ∧
    fails (summaryCalls w + 1) = none ∧ b.orders ≠ [] ∧ fails (summaryCalls w + 2) = none)
  knows : ¬ Raises fails w b → ∀ known x, x ∈ o.trace.foldl (learn b.contracts) known ↔
    x ∈ (if branchTaken fails w b ≠ .idle ∧ fails (summaryCalls w) = none then b.orders else known) ∧
      ¬ CancelsDuplicate fails w b x ∨ PlacesStop fails w b x

theorem protects_idle (h : branchTaken fails w b = .idle) : Protects fails w b
    ((pure (.ok ()) : BrokerProc (Except CallError Unit)).serve (Broker.serving fails) w (summaryCalls w, b)) where
  raises hraises := by
    rw [hraises.1] at h
    cases h
  value _ := rfl
  tells _ := by
    rw [h]
    exact ⟨fun htells => absurd htells tellsPositions_nil, fun hclean => by cases hclean.1⟩
  knows _ known x := by
    unfold CancelsDuplicate PlacesStop
    simp [h]

theorem branchTaken_cons {first : AccountPosition} {rest : List AccountPosition}
    (hfound : positionsFound fails w b = first :: rest) : branchTaken fails w b =
      if (summaryFound fails w b).workingOrders.any (WorkingOrder.looksProtective first.side) then .idle
      else if fails (summaryCalls w) = none ∧
          hasExistingStopForPosition first.side (b.orders.map ListedOrder.toRawOrder) = true then .clean
      else .place := by
  unfold branchTaken
  rw [hfound]

theorem protects_clean (h : branchTaken fails w b = .clean) (hlisted : fails (summaryCalls w) = none) :
    Protects fails w b
      (let o := (do cancelDuplicateStops; pure (.ok ()) : BrokerProc (Except CallError Unit)).serve (Broker.serving fails) w
        (summaryCalls w + 1, b)
       { o with trace := ⟨.orders, attempted fails (summaryCalls w) b.orders⟩ :: o.trace }) := by
  obtain ⟨htells, hknows⟩ := @serve_cancelDuplicateStops fails w (summaryCalls w + 1) b
  rw [Proc.serve_bind]
  dsimp only
  rw [Proc.serve_pure, List.append_nil]
  refine ⟨fun hraises => ?_, fun _ => rfl, fun _ => ?_, fun _ known x => ?_⟩
  · rw [hraises.1] at h
    cases h
  · refine (tellsPositions_cons_of_ne (by simp)).trans ?_
    rw [htells, h]
    simp
  · have hlearn : learn b.contracts known ⟨.orders, attempted fails (summaryCalls w) b.orders⟩ = b.orders := by
      rw [learn_orders, if_pos hlisted]
    have hplaces : ¬ PlacesStop fails w b x := fun hplaces => by
      rw [hplaces.1] at h
      cases h
    unfold CancelsDuplicate
    rw [or_iff_left hplaces, h, if_pos ⟨nofun, hlisted⟩]
    rw [List.foldl_cons, hlearn, hknows, ite_self]
    simp

theorem protects_place {l : List AccountPosition} (h : branchTaken fails w b = .place) (hl : positionsFound fails w b = l) :
    Protects fails w b
      (let o := (placeEmergencyStops w.contractSymbol l).serve (Broker.serving fails) w (summaryCalls w + 1, b)
       { o with trace := ⟨.orders, attempted fails (summaryCalls w) b.orders⟩ :: o.trace }) := by
  subst hl
  have hplaced := fun hraises : ¬ Raises fails w b => @serve_placeEmergencyStops fails w (summaryCalls w + 1) b
    w.contractSymbol (positionsFound fails w b) fun hat => hraises ⟨h, hat⟩
  refine ⟨fun hraises => serve_placeEmergencyStops_raises hraises.2, fun hraises => (hplaced hraises).1,
    fun hraises => ?_, fun hraises known x => ?_⟩
  · refine (tellsPositions_cons_of_ne (by simp)).trans ?_
    rw [h]
    exact ⟨fun hpositions => absurd hpositions (hplaced hraises).2.1, fun hclean => by cases hclean.1⟩
  · have hkept : ¬ CancelsDuplicate fails w b x := fun hcancels => by
      rw [hcancels.1] at h
      cases h
    unfold PlacesStop
    rw [and_iff_left hkept, h]
    dsimp only
    rw [List.foldl_cons, (hplaced hraises).2.2, learn_orders]
    simp [stopsToPlace]

theorem serve_protectPositions :
    Protects fails w b ((protectPositions (summaryFound fails w b)).serve (Broker.serving fails) w (summaryCalls w, b)) := by
  unfold protectPositions
  rcases hfound : positionsFound fails w b with _ | ⟨first, rest⟩
  · rw [show (summaryFound fails w b).positions.filter (fun p => p.netPos ≠ 0) = [] from hfound]
    refine protects_idle ?_
    unfold branchTaken
    rw [hfound]
  · rw [show (summaryFound fails w b).positions.filter (fun p => p.netPos ≠ 0) = first :: rest from hfound]
    have hbranch := branchTaken_cons hfound
    dsimp only
    by_cases hprotective : (summaryFound fails w b).workingOrders.any (WorkingOrder.looksProtective first.side) = true
    · rw [if_pos hprotective] at hbranch ⊢
      exact protects_idle hbranch
    · rw [if_neg hprotective] at hbranch ⊢
      rw [Proc.serve_bind, serve_checkExistingStop]
      dsimp only
      by_cases hlive : fails (summaryCalls w) = none ∧
          hasExistingStopForPosition first.side (b.orders.map ListedOrder.toRawOrder) = true
      · rw [if_pos hlive] at hbranch
        rw [if_pos (decide_eq_true hlive)]
        exact protects_clean hbranch hlive.1
      · rw [if_neg hlive] at hbranch
        rw [if_neg (by simpa using hlive), Proc.serve_read_bind]
        exact protects_place hbranch hfound

theorem serve_afterCheck (r : Except CallError Unit) :
    (afterCheck r).serve (Broker.serving fails) w (n, b) = ⟨⟨[], w, if r = .error .other then r else .ok ()⟩, (n, b)⟩ := by
  rcases r with e | u
  · cases e <;> rfl
  · rfl

/-- The first attempt: what it ends in, and what it is told and knows at its end. -/
theorem serve_check :
    let o := reattachOrphanedStopOnConnect.serve (Broker.serving fails) w (0, b)
    (Raises fails w b → o.value = .error .other) ∧
    (¬ Raises fails w b → o.value = .ok () ∧ (TellsPositions o.trace ↔ PositionsTold fails w b) ∧
      ∀ known x, x ∈ o.trace.foldl (learn b.contracts) known ↔
        x ∈ (if OrdersTold fails w b then b.orders else known) ∧ ¬ CancelsDuplicate fails w b x ∨
          PlacesStop fails w b x) := by
  obtain ⟨hvalue, hstate, hserver, htells, hknown⟩ := @serve_fetchAccountSummary fails w b
  have hprotects := @serve_protectPositions fails w b
  unfold reattachOrphanedStopOnConnect
  rw [Proc.serve_bind]
  dsimp only
  rw [hvalue, hstate, hserver, Proc.serve_bind]
  dsimp only
  rw [serve_afterCheck]
  dsimp only
  generalize (protectPositions (summaryFound fails w b)).serve (Broker.serving fails) w (summaryCalls w, b) = o at hprotects
  refine ⟨fun hraises => ?_, fun hraises => ⟨?_, ?_, fun known x => ?_⟩⟩
  · rw [hprotects.raises hraises]
    rfl
  · rw [hprotects.value hraises]
    rfl
  · rw [List.append_nil, tellsPositions_append, htells, hprotects.tells hraises]
    rfl
  · rw [List.append_nil, List.foldl_append, hprotects.knows hraises, hknown]
    refine or_congr_left (and_congr_left' (Eq.to_iff (congrArg (x ∈ ·) ?_)))
    by_cases hlisted : branchTaken fails w b ≠ .idle ∧ fails (summaryCalls w) = none
    · have htold : OrdersTold fails w b := .inr hlisted
      rw [if_pos hlisted, if_pos htold]
    · have htold : OrdersTold fails w b ↔ w.isConnected = true ∧ fails 3 = none := or_iff_left hlisted
      rw [if_neg hlisted, if_congr htold rfl rfl]

/-! ### The laws -/

theorem checkLaw_iff : CheckLaw w b ↔ StopsStand (fun _ => none) w b b.orders := by
  have hraises : ¬ Raises (fun _ => none) w b := by
    rintro ⟨-, k, p, -, h⟩
    cases h
  obtain ⟨hvalue, -, hknown⟩ := (@serve_check (fun _ => none) w b).2 hraises
  unfold CheckLaw
  dsimp only
  rw [serve_broker, forall_prop_of_true hvalue]
  refine forall₂_congr fun p hp => exists_congr fun o => and_congr_left' ?_
  exact (hknown b.orders o).trans (by rw [ite_self])

theorem retryLaw_iff (maxAttempts : Nat) : RetryLaw fails maxAttempts w b ↔
    maxAttempts = 0 ∨ Raises fails w b ∨
      PositionsTold fails w b ∧ StopsStand fails w b (if OrdersTold fails w b then b.orders else []) := by
  unfold RetryLaw
  rcases maxAttempts with _ | n
  · exact iff_of_true (fun h => by cases h) (.inl rfl)
  obtain ⟨hother, hreturn⟩ := @serve_check fails w b
  unfold reattachWithRetry
  dsimp only
  by_cases hraises : Raises fails w b
  · rw [hother hraises]
    exact iff_of_true (fun h => by cases h) (.inr (.inl hraises))
  · obtain ⟨hvalue, htells, hknown⟩ := hreturn hraises
    rw [hvalue]
    dsimp only
    rw [forall_prop_of_true rfl]
    simp only [List.mem_singleton, exists_eq_left]
    rw [or_iff_right (Nat.succ_ne_zero n), or_iff_right hraises]
    have hcovered : AllCovered b.positions (List.foldl (learn b.contracts) []
        (reattachOrphanedStopOnConnect.serve (Broker.serving fails) w (0, b)).trace) ↔
          StopsStand fails w b (if OrdersTold fails w b then b.orders else []) :=
      forall₂_congr fun p hp => exists_congr fun o => and_congr_left' (hknown [] o)
    rw [← htells, ← hcovered]
    constructor
    · rintro ⟨rows, htold, hrows⟩
      rw [serve_positions _ htold] at hrows
      exact ⟨⟨rows, htold⟩, hrows⟩
    · rintro ⟨⟨rows, htold⟩, hrows⟩
      refine ⟨rows, htold, ?_⟩
      rw [serve_positions _ htold]
      exact hrows

end runs

/-- Orphaned stops are recovered if and only if two things hold. Without failures each open position has its stop among
those listed that the check does not cancel as duplicates, or the check comes to placing stops and places it. And the
first attempt, unless there is none or it raises, is told the positions, and either is told of such a stop for each or
places it with success. -/
theorem stops_recovered_iff (fails : Nat → Option CallError) (maxAttempts : Nat) (w : World) (b : Broker) :
    StopsRecovered fails maxAttempts w b ↔
      StopsStand (fun _ => none) w b b.orders ∧
        (maxAttempts = 0 ∨ Raises fails w b ∨
          PositionsTold fails w b ∧ StopsStand fails w b (if OrdersTold fails w b then b.orders else [])) :=
  and_congr checkLaw_iff (retryLaw_iff maxAttempts)

/-- A long position whose only order is the take-profit of its bracket. -/
def takeProfitOnly : Broker where
  contracts _ := some 1
  positions := [longOne 1]
  orders := [{ sellLimit 1 with parentId := some 7 }]

/-- The listing of the positions meets the maintenance window. -/
def positionsUnavailable (n : Nat) : Option CallError := if n = 1 then some (.api .maintenance) else none

/-- The take-profit passes for a stop, and a listing that fails for a flat account. -/
theorem stops_not_recovered :
    ¬ CheckLaw connectedWorld takeProfitOnly ∧
      ¬ RetryLaw positionsUnavailable 10 connectedWorld { takeProfitOnly with orders := [] } := by
  constructor
  · intro h
    exact absurd (h (by decide +kernel)) (by decide +kernel)
  · rw [retryLaw_iff]
    rintro (h | ⟨h, -⟩ | ⟨⟨-, h⟩ | ⟨h, -⟩, -⟩)
    · cases h
    · exact absurd h (by decide +kernel)
    · cases h
    · exact absurd h (by decide +kernel)

end PearlAlgo
