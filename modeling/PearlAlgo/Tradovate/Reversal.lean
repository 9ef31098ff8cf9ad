import PearlAlgo.Tradovate.Segments

/-!
# Reversal, all or nothing

A call that reverses flattens the account, which disarms the adapter, before the guards that may still
reject the new entry: the pending and max-position guards, which use the position total from before the
flatten, and the size and price guards. `allOrNothing_iff` says for which states, signals and broker
answers a call run alone either goes through with its entry or leaves the account and the armed flag alone.
-/

namespace PearlAlgo
open Py Coop

/-- The messages of the pending, max-position, size and price guards. -/
def ErrorMessage.isGuard : ErrorMessage → Bool
  | .pendingOrdersLimit _ _ | .maxPositionSize _ _ | .invalidPositionSize _ | .stopLossInvalid _ _ _
  | .takeProfitInvalid _ _ _ | .tpDistance _ => true
  | _ => false

/-- The call was rejected by one of the guards. -/
def guardRejects : Exit → Bool
  | .ok r => r.errorMessage.any ErrorMessage.isGuard
  | .error _ => false

abbrev Answers : Type := Nat → (q : Request) → Answer q

/-- The answers from the `k`-th on. -/
def Answers.from (ans : Answers) (k : Nat) : Answers := fun n => ans (n + k)

section defs
variable (cfg : ExecutionConfig) (sig : Signal) (sid : String) (ans : Answers) (s : World)

/-- The state in which the guard reads the position cache. -/
def guardState : World := s.evictSignalIds.clearStalePositions

/-- The guard asks for a listing. -/
def asksListing : Prop :=
  (guardState s).cachedNet = [] ∧ ¬ (guardState s).wsDataFresh ∧ (guardState s).isConnected

instance : Decidable (asksListing s) := inferInstanceAs (Decidable (_ ∧ _))

/-- The net positions that the guard works on, and the number of requests by then. -/
def guardNet : List Int :=
  if asksListing s then snapshot (.answer (.getPositions .guard) (ans 0 (.getPositions .guard))) s
  else snapshot .start s

def guardAsked : Nat := if asksListing s then 1 else 0

/-- The position total and the pending counter leave room for the entry. -/
def Room : Prop :=
  (s.pendingOrdersCount : Int) < cfg.maxPositions ∧ (totalAbsPos (guardNet ans s) : Int) < cfg.maxPositions

/-- The reversal loop of the call. -/
def reversal : Proc.Outcome World Answer (Except Exit Unit) :=
  (reverseOpposite cfg sid sig.rawDirection ((guardNet ans s).filter (· ≠ 0))).eval
    (ans.from (guardAsked s)) (guardState s)

/-- The call flattens an opposite position, with success. -/
structure Flattens : Prop where
  admitted : Admitted cfg sig sid s
  reverses : TakesReversal cfg sig (guardNet ans s)
  succeeds : (reversal cfg sig sid ans s).value = .ok ()

/-- The signal makes a valid order. -/
def ValidEntry : Prop := ∃ o, sig.entryOrder cfg sid = .ok o

/-- The state in which the contract is resolved after a reversal. -/
def reversedState : World :=
  ((guardState s).disarm.clearPositions.acceptEntry ((sig.orderQty cfg).toOption.getD 0)).1

def Resolves : Prop :=
  ((ensureContract sig sid).eval (ans.from (guardAsked s + (reversal cfg sig sid ans s).trace.length))
    (reversedState cfg sig s)).value = .ok ()

/-- A reversal with a valid entry sends it (a dry run sends nothing), and a call that the guards reject has
not disarmed the adapter and liquidated nothing. -/
structure AllOrNothing (uuid : String) : Prop where
  sends : Flattens cfg sig (sig.idOr uuid) ans s → cfg.mode ≠ .dryRun → ValidEntry cfg sig (sig.idOr uuid) →
    ∃ e ∈ ((placeBracket cfg sig uuid).eval ans s).trace, ∃ b, e.1 = .placeOso b
  restores : guardRejects ((placeBracket cfg sig uuid).eval ans s).value = true →
    ((placeBracket cfg sig uuid).eval ans s).state.base.armed = s.base.armed ∧
      ∀ e ∈ ((placeBracket cfg sig uuid).eval ans s).trace, e.1.isFlatten = false

end defs

/-! ### The pieces of the call, run alone -/

section eval
variable {cfg : ExecutionConfig} {sig : Signal} {sid : String} {ans : Answers} {s : World}

theorem liquidateEach_state (rows : List (Option PositionRow)) :
    ((liquidateEach rows).eval ans s).state = s := by
  induction rows generalizing ans with
  | nil => rfl
  | cons row rest ih =>
    cases row with
    | none => rfl
    | some pos =>
      rw [liquidateEach]
      split
      · exact ih
      · rw [Proc.eval_ask_bind]
        split
        · rfl
        · rw [Proc.eval_bind]; exact ih

theorem liquidateAllPositions_state : (liquidateAllPositions.eval ans s).state = s := by
  rw [liquidateAllPositions, Proc.eval_bind_state]
  split
  · rfl
  · rfl
  · exact liquidateEach_state _

theorem flattenAllPositions_state : ((flattenAllPositions cfg).eval ans s).state = s.disarm := by
  rw [flattenAllPositions, Proc.eval_modify_bind, Proc.eval_read_bind]
  split
  · rfl
  · split
    · rfl
    · rw [Proc.eval_bind_state, liquidateAllPositions_state]
      split <;> rfl

theorem flattenAllPositions_success (hmode : cfg.mode ≠ .dryRun) {results : List ExecutionResult}
    (h : ((flattenAllPositions cfg).eval ans s).value = .ok results) (hs : firstSucceeded results = true) :
    s.isConnected = true := by
  rw [flattenAllPositions, Proc.eval_modify_bind, Proc.eval_read_bind, if_neg hmode] at h
  by_cases hc : s.isConnected = true
  · exact hc
  · rw [if_pos (show ¬ s.disarm.isConnected = true from hc)] at h
    cases h
    cases hs

theorem flattenAllPositions_trace :
    ∀ e ∈ ((flattenAllPositions cfg).eval ans s).trace, e.1.isFlatten = true := by
  have h : (flattenAllPositions cfg).wp (fun _ _ _ q => q.isFlatten = true) (fun _ _ _ _ => True) .start s s :=
    flattenAllPositions_wp ⟨fun hq _ => hq, fun _ _ _ => trivial⟩ trivial
  exact Proc.eval_trace_of_wp _ ans h

/-- What the reversal loop does when it runs alone. -/
structure Reversed (cfg : ExecutionConfig) (sig : Signal) (l : List Int) (s : World)
    (o : Proc.Outcome World Answer (Except Exit Unit)) : Prop where
  trace : ∀ e ∈ o.trace, e.1.isFlatten = true
  idle : ¬ TakesReversal cfg sig l → o.trace = [] ∧ o.state = s
  state : o.value = .ok () → TakesReversal cfg sig l →
    o.state = s.disarm.clearPositions ∧ (cfg.mode ≠ .dryRun → s.isConnected = true)
  rejects : ∀ r, o.value = .error r → guardRejects r = false

theorem takesReversal_cons_of_eq {m : Int} {l : List Int} (h : existingDir m = sig.rawDirection) :
    TakesReversal cfg sig (m :: l) ↔ TakesReversal cfg sig l := by
  simp [TakesReversal, h]

theorem reverseOpposite_reversed (l : List Int) (hl : ∀ m ∈ l, m ≠ 0) :
    Reversed cfg sig l s ((reverseOpposite cfg sid sig.rawDirection l).eval ans s) := by
  induction l generalizing ans s with
  | nil => exact ⟨fun e he => absurd he List.not_mem_nil, fun _ => ⟨rfl, rfl⟩,
      fun _ h => (by simp [TakesReversal] at h), fun r hr => by cases hr⟩
  | cons m rest ih =>
    have hrest : ∀ m ∈ rest, m ≠ 0 := fun m hm => hl m (List.mem_cons_of_mem _ hm)
    rw [reverseOpposite]
    by_cases hdir : existingDir m = sig.rawDirection
    · rw [if_pos hdir]
      have h := @ih ans s hrest
      have heq := @takesReversal_cons_of_eq cfg sig m rest hdir
      exact ⟨h.trace, fun hn => h.idle (mt heq.2 hn), fun hv ht => h.state hv (heq.1 ht), h.rejects⟩
    rw [if_neg hdir]
    by_cases hallow : cfg.allowReversalOnOppositeSignal = true
    · have ht : TakesReversal cfg sig (m :: rest) := ⟨hallow, m, List.mem_cons_self, hl m List.mem_cons_self, hdir⟩
      rw [if_neg (not_not.2 hallow), Proc.eval_bind]
      have htrace := @flattenAllPositions_trace cfg ans s
      have hstate := @flattenAllPositions_state cfg ans s
      have hconn := fun hm r => @flattenAllPositions_success cfg ans s hm r
      generalize (flattenAllPositions cfg).eval ans s = o at htrace hstate hconn
      obtain ⟨tr, st, v⟩ := o
      dsimp only at htrace hstate hconn ⊢
      subst hstate
      cases v with
      | error e => exact ⟨by simpa using htrace, fun hn => absurd ht hn, fun hv => (by cases hv),
          fun r hr => by cases hr; rfl⟩
      | ok results =>
        dsimp only
        split
        next hsucc =>
          -- the position cache is cleared and the loop goes on, disarmed
          have h := @ih (fun n => ans (n + tr.length)) s.disarm.clearPositions hrest
          rw [Proc.eval_modify_bind]
          refine ⟨fun e he => ?_, fun hn => absurd ht hn, fun hv _ => ⟨?_, fun hm => hconn hm results rfl hsucc⟩,
            h.rejects⟩
          · exact (List.mem_append.1 he).elim (htrace e) (h.trace e)
          · by_cases htr : TakesReversal cfg sig rest
            · exact (h.state hv htr).1
            · exact (h.idle htr).2
        next =>
          exact ⟨by simpa using htrace, fun hn => absurd ht hn, fun hv => (by cases hv),
          fun r hr => by cases hr; rfl⟩
    · rw [if_pos hallow]
      have hn : ¬ TakesReversal cfg sig (m :: rest) := fun h => hallow h.1
      exact ⟨fun e he => absurd he List.not_mem_nil, fun _ => ⟨rfl, rfl⟩, fun _ h => absurd h hn,
        fun r hr => by cases hr; rfl⟩

theorem capCheck_eval (total : Nat) :
    ((capCheck cfg sid total).eval ans s).trace = [] ∧ ((capCheck cfg sid total).eval ans s).state = s ∧
      (((capCheck cfg sid total).eval ans s).value = .ok () ∧
          (s.pendingOrdersCount : Int) < cfg.maxPositions ∧ (total : Int) < cfg.maxPositions ∨
        (∃ r, ((capCheck cfg sid total).eval ans s).value = .error r ∧ guardRejects r = true) ∧
          ¬ ((s.pendingOrdersCount : Int) < cfg.maxPositions ∧ (total : Int) < cfg.maxPositions)) := by
  rw [capCheck, Proc.eval_read_bind]
  split
  next h => exact ⟨rfl, rfl, .inr ⟨⟨_, rfl, rfl⟩, fun h' => absurd h'.1 (not_lt.2 h)⟩⟩
  next h =>
    split
    next h' => exact ⟨rfl, rfl, .inr ⟨⟨_, rfl, rfl⟩, fun h'' => absurd h''.2 (not_lt.2 h')⟩⟩
    next h' => exact ⟨rfl, rfl, .inl ⟨rfl, not_le.1 h, not_le.1 h'⟩⟩

/-- The contract resolution, run alone. -/
structure Ensured (s : World) (o : Proc.Outcome World Answer (Except Exit Unit)) : Prop where
  trace : ∀ e ∈ o.trace, e.1.isContract = true
  base : o.state.base = s.base
  rejects : ∀ r, o.value = .error r → guardRejects r = false

theorem ensureContract_ensured : Ensured s ((ensureContract sig sid).eval ans s) := by
  rw [ensureContract, Proc.eval_read_bind]
  split
  · exact ⟨fun e he => absurd he List.not_mem_nil, rfl, fun r hr => by cases hr⟩
  · have htrace : ∀ e ∈ ((resolveFrontMonth (sig.symbol.getD "MNQ")).eval ans s).trace, e.1.isContract = true := by
      have h : (resolveFrontMonth (sig.symbol.getD "MNQ")).wp (fun _ _ _ q => q.isContract = true)
          (fun _ _ _ _ => True) .start s s :=
        resolveFrontMonth_wp ⟨fun hq _ => hq, fun _ _ _ => trivial⟩ (fun _ _ _ _ _ => trivial) trivial
      exact Proc.eval_trace_of_wp _ ans h
    have hbase : ((resolveFrontMonth (sig.symbol.getD "MNQ")).eval ans s).state.base = s.base := by
      have h : (resolveFrontMonth (sig.symbol.getD "MNQ")).wp (fun _ s₀ s _ => s.base = s₀.base)
          (fun _ _ s₀ s => s.base = s₀.base) .start s s :=
        resolveFrontMonth_wp (I := fun _ s₀ s => s.base = s₀.base) ⟨fun _ h => h, fun _ _ _ => rfl⟩
          (fun _ _ _ _ h => h) rfl
      exact Proc.eval_state_of_wp (T := fun (s₀ s : World) => s.base = s₀.base) (fun h h' => h'.trans h) _ ans h
    rw [Proc.eval_bind]
    generalize (resolveFrontMonth (sig.symbol.getD "MNQ")).eval ans s = o at htrace hbase
    obtain ⟨tr, st, v⟩ := o
    dsimp only at htrace hbase ⊢
    cases v with
    | ok name =>
      dsimp only
      rw [Proc.eval_modify_bind]
      split
      · exact ⟨by simpa using htrace, hbase, fun r hr => by cases hr; rfl⟩
      · exact ⟨by simpa using htrace, hbase, fun r hr => by cases hr⟩
    | error e =>
      dsimp only
      split <;> exact ⟨by simpa using htrace, hbase, fun r hr => by cases hr; rfl⟩

theorem settle_value {n : Nat} {o : EntryOrder} {symbol : String} (r : Except Err OsoReply) :
    guardRejects ((settle sig sid n o symbol r).eval ans s).value = false := by
  unfold settle
  split
  case h_6 =>
    split
    · rfl
    · rfl
    · rw [Proc.eval_modify_bind]
      split <;> rfl
  all_goals rfl

theorem submit_eval {n : Nat} {o : EntryOrder} :
    (∃ e ∈ ((submit sig sid n o).eval ans s).trace, ∃ b, e.1 = .placeOso b) ∧
      guardRejects ((submit sig sid n o).eval ans s).value = false := by
  rw [submit, Proc.eval_modify_bind, Proc.eval_modify_bind, Proc.eval_read_bind, Proc.eval_ask_bind]
  refine ⟨⟨_, List.mem_cons_self, _, rfl⟩, ?_⟩
  dsimp only
  rw [Proc.eval_bind_value, Proc.eval_modify_bind]
  exact settle_value _

theorem priceGuard_isGuard {o : EntryOrder} {m : ErrorMessage} (h : priceGuard o = some m) :
    m.isGuard = true := by
  unfold priceGuard at h
  repeat' split at h
  all_goals cases h <;> rfl

/-- An order is rejected by the size and price guards, once the preconditions have passed. -/
theorem guardRejects_of_entryOrder (hb : AdapterBase.checkBracket sig = .ok .preconditionsPassed) {r : Exit}
    (h : sig.entryOrder cfg sid = .error r) : guardRejects r = true := by
  obtain ⟨entry, sl, tp, hprices, -, -, -, -, size, hsize, -⟩ := AdapterBase.checkBracket_passed hb
  have hqty : sig.orderQty cfg = .ok (min size cfg.maxPositionSizePerOrder) := by
    rw [Signal.orderQty, hsize]; rfl
  simp only [Signal.entryOrder, hprices, hqty] at h
  split at h
  next m hm =>
    cases h
    exact priceGuard_isGuard hm
  next => cases h

theorem prepare_eval (hmode : cfg.mode ≠ .dryRun) (hconn : s.isConnected = true) :
    let o := (prepare cfg sig sid).eval ans s
    let c := (ensureContract sig sid).eval ans s
    o.trace = c.trace ∧ o.state = c.state ∧ (∀ r, c.value = .error r → o.value = .error r) ∧
      (c.value = .ok () → o.value = sig.entryOrder cfg sid) := by
  dsimp only
  rw [prepare, Proc.eval_read_bind, if_neg hmode, if_neg (not_not.2 hconn), Proc.eval_bind]
  generalize (ensureContract sig sid).eval ans s = c
  obtain ⟨tr, st, v⟩ := c
  cases v with
  | error r => exact ⟨List.append_nil _, rfl, fun r' hr => (by cases hr; rfl), fun hr => by cases hr⟩
  | ok _ => exact ⟨List.append_nil _, rfl, fun r' hr => (by cases hr), fun _ => rfl⟩

@[simp] theorem step_eval {α : Type} (f : World → World × α) :
    (step f).eval ans s = ⟨[], (f s).1, (f s).2⟩ := rfl

/-- `place_bracket` after the guards, run alone on a connected adapter. -/
structure Entered (cfg : ExecutionConfig) (sig : Signal) (sid : String) (s : World)
    (c : Proc.Outcome World Answer (Except Exit Unit)) (o : Proc.Outcome World Answer Exit) : Prop where
  unresolved : ∀ r, c.value = .error r → o.value = r ∧ o.trace = c.trace
  invalid : ∀ r, c.value = .ok () → sig.entryOrder cfg sid = .error r →
    o.value = r ∧ o.trace = c.trace ∧ o.state.base = s.base
  sent : ∀ e, c.value = .ok () → sig.entryOrder cfg sid = .ok e →
    (∃ e ∈ o.trace, ∃ b, e.1 = .placeOso b) ∧ guardRejects o.value = false

theorem placeEntry_entered (hmode : cfg.mode ≠ .dryRun) (hconn : s.isConnected = true) :
    Entered cfg sig sid s
      ((ensureContract sig sid).eval ans (s.acceptEntry ((sig.orderQty cfg).toOption.getD 0)).1)
      ((placeEntry cfg sig sid).eval ans s) := by
  have hens := @ensureContract_ensured sig sid ans (s.acceptEntry ((sig.orderQty cfg).toOption.getD 0)).1
  obtain ⟨htr, hst, herr, hok⟩ :=
    @prepare_eval cfg sig sid ans (s.acceptEntry ((sig.orderQty cfg).toOption.getD 0)).1 hmode hconn
  rw [placeEntry, Proc.eval_bind, step_eval]
  simp only [List.nil_append, List.length_nil, Nat.add_zero, Proc.eval_bind, htr, hst]
  generalize (ensureContract sig sid).eval ans (s.acceptEntry ((sig.orderQty cfg).toOption.getD 0)).1 = c at *
  obtain ⟨tr, st, v⟩ := c
  dsimp only at *
  cases v with
  | error r =>
    rw [herr r rfl]
    exact ⟨fun r' hr => (by cases hr; exact ⟨rfl, List.append_nil _⟩), fun _ hr => (by cases hr),
      fun _ hr => by cases hr⟩
  | ok _ =>
    rw [hok rfl]
    refine ⟨fun _ hr => (by cases hr), fun r _ hr => ?_, fun e _ he => ?_⟩
    · rw [hr]
      exact ⟨rfl, List.append_nil _, hens.base⟩
    · rw [he]
      obtain ⟨⟨e', he', hb⟩, hv⟩ :=
        @submit_eval sig sid (fun n => ans (n + tr.length)) st s.book.acceptances.length e
      exact ⟨⟨e', List.mem_append_right _ he', hb⟩, hv⟩

/-- In a dry run or on a disconnected adapter the guards on the order are not reached. -/
theorem placeEntry_idle (h : cfg.mode = .dryRun ∨ s.isConnected = false) :
    guardRejects ((placeEntry cfg sig sid).eval ans s).value = false := by
  rw [placeEntry, Proc.eval_bind_value, step_eval]
  simp only [List.length_nil, Nat.add_zero]
  have hc : (s.acceptEntry ((sig.orderQty cfg).toOption.getD 0)).1.isConnected = s.isConnected := rfl
  rw [Proc.eval_bind_value, prepare, Proc.eval_read_bind]
  by_cases hmode : cfg.mode = .dryRun
  · rw [if_pos hmode]; rfl
  · have hconn := h.resolve_left hmode
    rw [if_neg hmode, if_pos (by rw [hc, hconn]; exact Bool.false_ne_true)]
    rfl

theorem checkSignal_of_admitted (h : Admitted cfg sig sid s) :
    (checkSignal cfg sig sid).eval ans s = ⟨[], s.evictSignalIds, .ok ()⟩ := by
  have hcheck : s.evictSignalIds.base.checkPreconditions cfg sig s.evictSignalIds.now =
      .ok (⟨true, .preconditionsPassed, sig.signalId.getD "unknown"⟩, s.base) := by
    show s.base.checkPreconditions cfg sig s.now = _
    simp only [AdapterBase.checkPreconditions, h.limits, h.bracket]
  rw [checkSignal, Proc.eval_modify_bind, Proc.eval_read_bind, h.fresh, if_neg Bool.false_ne_true, hcheck]
  rfl

theorem checkSignal_of_not_admitted (h : ¬ Admitted cfg sig sid s) :
    ∃ r, ((checkSignal cfg sig sid).eval ans s).value = .error r ∧ guardRejects r = false := by
  rw [checkSignal, Proc.eval_modify_bind, Proc.eval_read_bind]
  by_cases hdup : s.evictSignalIds.executedSignalIds.contains sid = true
  · rw [if_pos hdup]
    exact ⟨_, rfl, rfl⟩
  rw [if_neg hdup]
  split
  · exact ⟨_, rfl, rfl⟩
  next d base hd =>
    rw [Proc.eval_modify_bind]
    split
    next hex =>
      obtain ⟨-, hlimits, hbracket⟩ := AdapterBase.checkPreconditions_execute hd hex
      exact absurd ⟨Bool.eq_false_iff.2 hdup, hlimits, hbracket⟩ h
    · exact ⟨_, rfl, rfl⟩

/-- The guards, run alone: the reversal loop, and after it the cap check. -/
structure Guarded (cfg : ExecutionConfig) (sig : Signal) (sid : String) (ans : Answers) (s : World)
    (o : Proc.Outcome World Answer (Except Exit Unit)) : Prop where
  state : o.state = (reversal cfg sig sid ans s).state
  trace : ∃ asked, asked.length = guardAsked s ∧ (∀ e ∈ asked, e.1 = .getPositions .guard) ∧
    o.trace = asked ++ (reversal cfg sig sid ans s).trace
  stops : ∀ r, (reversal cfg sig sid ans s).value = .error r → ∃ r', o.value = .error r' ∧ guardRejects r' = false
  passes : (reversal cfg sig sid ans s).value = .ok () →
    o.value = .ok () ∧ Room cfg ans s ∨ (∃ r, o.value = .error r ∧ guardRejects r = true) ∧ ¬ Room cfg ans s ∨
      ¬ TakesReversal cfg sig (guardNet ans s) ∧ ∃ r, o.value = .error r ∧ guardRejects r = false

theorem guardState_reversed :
    Reversed cfg sig ((guardNet ans s).filter (· ≠ 0)) (guardState s) (reversal cfg sig sid ans s) :=
  reverseOpposite_reversed _ fun m hm => by simpa using (List.mem_filter.1 hm).2

theorem takesReversal_filter (l : List Int) :
    TakesReversal cfg sig (l.filter (· ≠ 0)) ↔ TakesReversal cfg sig l := by
  simp only [TakesReversal, List.mem_filter, decide_eq_true_eq]
  exact and_congr_right fun _ => exists_congr fun n => by tauto

theorem reversal_pending (hv : (reversal cfg sig sid ans s).value = .ok ()) :
    (reversal cfg sig sid ans s).state.pendingOrdersCount = (guardState s).pendingOrdersCount := by
  have h := @guardState_reversed cfg sig sid ans s
  by_cases ht : TakesReversal cfg sig ((guardNet ans s).filter (· ≠ 0))
  · rw [(h.state hv ht).1]; rfl
  · rw [(h.idle ht).2]

theorem guardState_frame : (guardState s).base = s.base ∧
    (guardState s).pendingOrdersCount = s.pendingOrdersCount ∧ (guardState s).isConnected = s.isConnected := by
  rw [guardState, World.clearStalePositions]
  split <;> exact ⟨rfl, rfl, rfl⟩

/-- The guards on the snapshot that the guard of the call works on. -/
theorem guardSnapshot_eval {l : List Int} (hl : guardNet ans s = l) :
    let o := (guardSnapshot cfg sig sid l).eval (ans.from (guardAsked s)) (guardState s)
    let rv := reversal cfg sig sid ans s
    o.state = rv.state ∧ o.trace = rv.trace ∧ (∀ r, rv.value = .error r → o.value = .error r) ∧
      (rv.value = .ok () → o.value = .ok () ∧ Room cfg ans s ∨
        (∃ r, o.value = .error r ∧ guardRejects r = true) ∧ ¬ Room cfg ans s) := by
  have hpending := @reversal_pending cfg sig sid ans s
  have hroom : Room cfg ans s ↔ (s.pendingOrdersCount : Int) < cfg.maxPositions ∧
      (totalAbsPos l : Int) < cfg.maxPositions := by rw [Room, hl]
  dsimp only
  rw [guardSnapshot, Proc.eval_bind]
  rw [reversal, hl] at hpending ⊢
  generalize (reverseOpposite cfg sid sig.rawDirection (l.filter (· ≠ 0))).eval (ans.from (guardAsked s))
    (guardState s) = rv at hpending
  obtain ⟨tr, st, v⟩ := rv
  dsimp only at hpending ⊢
  cases v with
  | error r => exact ⟨rfl, List.append_nil _, fun r' hr => (by cases hr; rfl), fun hv => by cases hv⟩
  | ok _ =>
    have hcap := @capCheck_eval cfg sid (fun n => ans.from (guardAsked s) (n + tr.length)) st (totalAbsPos l)
    obtain ⟨htr, hst, hval⟩ := hcap
    rw [hpending rfl, guardState_frame.2.1, ← hroom] at hval
    refine ⟨hst, ?_, fun r hr => (by cases hr), fun _ => hval⟩
    dsimp only
    rw [htr, List.append_nil]

/-- A listing that failed leaves the reversal loop without positions. -/
theorem guarded_of_failed {e : Err} {r : Exit} {asked : List ((q : Request) × Answer q)}
    (hnet : guardNet ans s = snapshot (.answer (.getPositions .guard) (.error e)) s)
    (hlen : asked.length = guardAsked s) (hasked : ∀ e ∈ asked, e.1 = .getPositions .guard)
    (hr : guardRejects r = false) : Guarded cfg sig sid ans s ⟨asked, guardState s, .error r⟩ := by
  have hnil : guardNet ans s = [] := hnet
  have hrv : reversal cfg sig sid ans s = ⟨[], guardState s, .ok ()⟩ := by
    rw [reversal, hnil]; rfl
  refine ⟨by rw [hrv], ⟨asked, hlen, hasked, by rw [hrv, List.append_nil]⟩, fun r' hr' => ?_,
    fun _ => .inr (.inr ⟨?_, r, rfl, hr⟩)⟩
  · rw [hrv] at hr'; cases hr'
  · rw [hnil]; exact fun ⟨_, n, hn, _⟩ => absurd hn List.not_mem_nil

theorem guardPositions_guarded :
    Guarded cfg sig sid ans s ((guardPositions cfg sig sid).eval ans s.evictSignalIds) := by
  rw [guardPositions, Proc.eval_modify_bind, Proc.eval_read_bind]
  split
  next hask =>
    have hask : asksListing s := hask
    have hone : guardAsked s = 1 := if_pos hask
    have hnet : guardNet ans s = snapshot (.answer (.getPositions .guard) (ans 0 (.getPositions .guard))) s :=
      if_pos hask
    have hpre : ∀ e ∈ [(⟨.getPositions .guard, ans 0 (.getPositions .guard)⟩ : (q : Request) × Answer q)],
        e.1 = .getPositions .guard := fun e he => by rw [List.mem_singleton.1 he]
    rw [Proc.eval_ask_bind]
    generalize ans 0 (.getPositions .guard) = r at hnet hpre
    cases r with
    | ok reply =>
      obtain ⟨hst, htr, hstop, hpass⟩ := @guardSnapshot_eval cfg sig sid ans s (listedNet reply) hnet
      rw [hone] at hst htr hstop hpass
      refine ⟨hst, ⟨[⟨.getPositions .guard, .ok reply⟩], hone.symm, hpre, congrArg _ htr⟩, fun r' hr' => ?_, fun hv => ?_⟩
      · exact ⟨r', hstop r' hr', guardState_reversed.rejects r' hr'⟩
      · exact (hpass hv).imp_right .inl
    | error e => cases e <;> exact guarded_of_failed hnet hone.symm hpre rfl
  next hask =>
    have hask : ¬ asksListing s := hask
    have hnone : guardAsked s = 0 := if_neg hask
    have hnet : guardNet ans s = (guardState s).cachedNet := if_neg hask
    obtain ⟨hst, htr, hstop, hpass⟩ := @guardSnapshot_eval cfg sig sid ans s _ hnet
    rw [hnone] at hst htr hstop hpass
    refine ⟨hst, ⟨[], hnone.symm, fun e he => absurd he List.not_mem_nil, htr⟩, fun r' hr' => ?_, fun hv => ?_⟩
    · exact ⟨r', hstop r' hr', guardState_reversed.rejects r' hr'⟩
    · exact (hpass hv).imp_right .inl

/-- A call that the guards on the order reject has resolved the contract and nothing else. -/
theorem placeEntry_rejects (h : guardRejects ((placeEntry cfg sig sid).eval ans s).value = true) :
    ((placeEntry cfg sig sid).eval ans s).state.base = s.base ∧
      ∀ e ∈ ((placeEntry cfg sig sid).eval ans s).trace, e.1.isFlatten = false := by
  have hlive : ¬ (cfg.mode = .dryRun ∨ s.isConnected = false) := fun hidle =>
    absurd h (by rw [placeEntry_idle hidle]; exact Bool.false_ne_true)
  obtain ⟨hmode, hconn⟩ := not_or.1 hlive
  have hent := @placeEntry_entered cfg sig sid ans s hmode (Bool.eq_true_of_not_eq_false hconn)
  have hens := @ensureContract_ensured sig sid ans (s.acceptEntry ((sig.orderQty cfg).toOption.getD 0)).1
  generalize (ensureContract sig sid).eval ans (s.acceptEntry ((sig.orderQty cfg).toOption.getD 0)).1 = c
    at hent hens
  have hcontract : ∀ e ∈ c.trace, e.1.isFlatten = false := fun e he => by
    have := hens.trace e he
    generalize e.1 = q at this ⊢
    cases q <;> first | rfl | cases this
  cases hc : c.value with
  | error r =>
    have hr := (hent.unresolved r hc).1
    rw [hr, hens.rejects r hc] at h
    cases h
  | ok _ =>
    cases ho : sig.entryOrder cfg sid with
    | error r =>
      obtain ⟨-, htr, hbase⟩ := hent.invalid r hc ho
      exact ⟨hbase, htr ▸ hcontract⟩
    | ok o =>
      rw [(hent.sent o hc ho).2] at h
      cases h

variable {uuid : String}

theorem placeBracket_of_not_admitted (h : ¬ Admitted cfg sig (sig.idOr uuid) s) :
    guardRejects ((placeBracket cfg sig uuid).eval ans s).value = false := by
  obtain ⟨r, hr, hrej⟩ := @checkSignal_of_not_admitted cfg sig (sig.idOr uuid) ans s h
  rw [placeBracket, Proc.eval_bind_value, hr]
  exact hrej

theorem placeBracket_of_admitted (h : Admitted cfg sig (sig.idOr uuid) s) :
    let g := (guardPositions cfg sig (sig.idOr uuid)).eval ans s.evictSignalIds
    (∀ r, g.value = .error r → (placeBracket cfg sig uuid).eval ans s = ⟨g.trace, g.state, r⟩) ∧
      (g.value = .ok () → (placeBracket cfg sig uuid).eval ans s =
        let e := (placeEntry cfg sig (sig.idOr uuid)).eval (ans.from g.trace.length) g.state
        ⟨g.trace ++ e.trace, e.state, e.value⟩) := by
  dsimp only
  rw [placeBracket, Proc.eval_bind, checkSignal_of_admitted h]
  dsimp only [List.length_nil, Nat.add_zero, List.nil_append]
  rw [Proc.eval_bind]
  show (∀ r, ((guardPositions cfg sig (sig.idOr uuid)).eval ans s.evictSignalIds).value = .error r → _) ∧ _
  generalize (guardPositions cfg sig (sig.idOr uuid)).eval ans s.evictSignalIds = g
  obtain ⟨tr, st, v⟩ := g
  cases v with
  | error r =>
    refine ⟨fun r' hr => ?_, fun hr => by cases hr⟩
    cases hr
    exact congrArg (Proc.Outcome.mk · st r) (List.append_nil tr)
  | ok _ => exact ⟨fun r hr => (by cases hr), fun _ => rfl⟩

/-- A call that does not get through a flatten leaves the account alone when it is rejected. -/
theorem allOrNothing_of_not_flattens (h : ¬ Flattens cfg sig (sig.idOr uuid) ans s) :
    AllOrNothing cfg sig ans s uuid := by
  refine ⟨fun hF => absurd hF h, fun hrej => ?_⟩
  by_cases hadm : Admitted cfg sig (sig.idOr uuid) s
  swap
  · rw [placeBracket_of_not_admitted hadm] at hrej; cases hrej
  obtain ⟨hstop, hpass⟩ := @placeBracket_of_admitted cfg sig ans s uuid hadm
  have hg := @guardPositions_guarded cfg sig (sig.idOr uuid) ans s
  generalize (guardPositions cfg sig (sig.idOr uuid)).eval ans s.evictSignalIds = g at hg hstop hpass
  cases hv : (reversal cfg sig (sig.idOr uuid) ans s).value with
  | error r =>
    obtain ⟨r', hr', hn⟩ := hg.stops r hv
    rw [hstop r' hr', hn] at hrej
    cases hrej
  | ok _ =>
    have hidle : ¬ TakesReversal cfg sig (guardNet ans s) := fun ht => h ⟨hadm, ht, hv⟩
    obtain ⟨htr, hst⟩ := guardState_reversed.idle (mt (takesReversal_filter _).1 hidle)
    obtain ⟨asked, -, hguard, hgtr⟩ := hg.trace
    rw [htr, List.append_nil] at hgtr
    have hasked : ∀ e ∈ asked, e.1.isFlatten = false := fun e he => by rw [hguard e he]; rfl
    have hgst : g.state = guardState s := hg.state.trans hst
    have hbase : g.state.base = s.base := by rw [hgst]; exact guardState_frame.1
    rcases hg.passes hv with ⟨hok, -⟩ | ⟨⟨r, hr, -⟩, -⟩ | ⟨-, r, hr, hn⟩
    · rw [hpass hok] at hrej ⊢
      obtain ⟨hb, hflat⟩ := placeEntry_rejects hrej
      refine ⟨congrArg AdapterBase.armed (hb.trans hbase), fun e he => ?_⟩
      rcases List.mem_append.1 he with he | he
      · exact hasked e (hgtr ▸ he)
      · exact hflat e he
    · rw [hstop r hr]
      exact ⟨congrArg AdapterBase.armed hbase, hgtr ▸ hasked⟩
    · rw [hstop r hr, hn] at hrej
      cases hrej

/-- On a connected adapter a valid entry is sent and an invalid one is not rejected by the guards just in
case validity and contract resolution go together. -/
theorem placeEntry_goesOn_iff (hmode : cfg.mode ≠ .dryRun) (hconn : s.isConnected = true)
    (hb : AdapterBase.checkBracket sig = .ok .preconditionsPassed) :
    ((ValidEntry cfg sig sid → ∃ e ∈ ((placeEntry cfg sig sid).eval ans s).trace, ∃ b, e.1 = .placeOso b) ∧
        guardRejects ((placeEntry cfg sig sid).eval ans s).value = false) ↔
      (ValidEntry cfg sig sid ↔
        ((ensureContract sig sid).eval ans (s.acceptEntry ((sig.orderQty cfg).toOption.getD 0)).1).value = .ok ()) := by
  have hent := @placeEntry_entered cfg sig sid ans s hmode hconn
  have hens := @ensureContract_ensured sig sid ans (s.acceptEntry ((sig.orderQty cfg).toOption.getD 0)).1
  generalize (ensureContract sig sid).eval ans (s.acceptEntry ((sig.orderQty cfg).toOption.getD 0)).1 = c
    at hent hens
  have hvalid : ValidEntry cfg sig sid ↔ ∃ o, sig.entryOrder cfg sid = .ok o := Iff.rfl
  cases hc : c.value with
  | error r =>
    obtain ⟨hval, htr⟩ := hent.unresolved r hc
    have hunsent : ¬ ∃ e ∈ c.trace, ∃ b, e.1 = .placeOso b := fun ⟨e, he, b, hb⟩ => by
      have := hens.trace e he
      rw [hb] at this
      cases this
    rw [hval, hens.rejects r hc, htr]
    exact ⟨fun h => ⟨fun hv => absurd (h.1 hv) hunsent, fun h => by cases h⟩,
      fun h => ⟨fun hv => (by cases h.1 hv), rfl⟩⟩
  | ok _ =>
    cases ho : sig.entryOrder cfg sid with
    | error r =>
      obtain ⟨hval, -, -⟩ := hent.invalid r hc ho
      have hinvalid : ¬ ValidEntry cfg sig sid := fun ⟨o, h⟩ => by rw [ho] at h; cases h
      rw [hval, guardRejects_of_entryOrder hb ho]
      exact ⟨fun h => (by cases h.2), fun h => absurd (h.2 rfl) hinvalid⟩
    | ok o =>
      obtain ⟨hsent, hval⟩ := hent.sent o hc ho
      exact ⟨fun _ => ⟨fun _ => rfl, fun _ => ⟨o, ho⟩⟩, fun _ => ⟨fun _ => hsent, hval⟩⟩

/-- A call that gets through a flatten is all or nothing when there was room for the entry before the
flatten, and the entry is valid just in case the contract resolves. -/
theorem allOrNothing_iff_of_flattens (h : Flattens cfg sig (sig.idOr uuid) ans s) :
    AllOrNothing cfg sig ans s uuid ↔ Room cfg ans s ∧
      (cfg.mode ≠ .dryRun → (ValidEntry cfg sig (sig.idOr uuid) ↔ Resolves cfg sig (sig.idOr uuid) ans s)) := by
  have hF := h
  obtain ⟨hadm, ht, hv⟩ := h
  obtain ⟨hstop, hpass⟩ := @placeBracket_of_admitted cfg sig ans s uuid hadm
  have hg := @guardPositions_guarded cfg sig (sig.idOr uuid) ans s
  generalize (guardPositions cfg sig (sig.idOr uuid)).eval ans s.evictSignalIds = g at hg hstop hpass
  obtain ⟨hst, hconn⟩ := guardState_reversed.state hv ((takesReversal_filter _).2 ht)
  obtain ⟨asked, hlen, hasked, hgtr⟩ := hg.trace
  have hgst : g.state = (guardState s).disarm.clearPositions := hg.state.trans hst
  have harmed : s.base.armed = true := (AdapterBase.checkLimits_eq_none hadm.limits).2.1
  have hdisarmed : g.state.base.armed = false := by rw [hgst]; rfl
  rcases hg.passes hv with ⟨hok, hroom⟩ | ⟨⟨r, hr, hrej⟩, hroom⟩ | ⟨hn, -⟩
  · -- the call goes on, disarmed
    rw [and_iff_right hroom]
    have hcall := hpass hok
    have hfree : ∀ e ∈ g.trace, ∀ b, e.1 ≠ .placeOso b := by
      intro e he b hb
      rw [hgtr] at he
      rcases List.mem_append.1 he with he | he
      · rw [hasked e he] at hb; cases hb
      · have := guardState_reversed.trace e he
        rw [hb] at this; cases this
    by_cases hmode : cfg.mode = .dryRun
    · refine ⟨fun _ hlive => absurd hmode hlive, fun _ => ⟨fun _ hlive => absurd hmode hlive, fun hrej => ?_⟩⟩
      rw [hcall, placeEntry_idle (.inl hmode)] at hrej
      cases hrej
    · have hentry := @placeEntry_goesOn_iff cfg sig (sig.idOr uuid) (ans.from g.trace.length) g.state hmode
        (by rw [hgst]; exact hconn hmode) hadm.bracket
      have hresolves : Resolves cfg sig (sig.idOr uuid) ans s ↔
          ((ensureContract sig (sig.idOr uuid)).eval (ans.from g.trace.length)
            (g.state.acceptEntry ((sig.orderQty cfg).toOption.getD 0)).1).value = .ok () := by
        rw [Resolves, reversedState, hgst, hgtr, List.length_append, hlen]
      rw [hresolves, ← hentry]
      constructor
      · rintro ⟨hsends, hrestores⟩ -
        refine ⟨fun hvalid => ?_, ?_⟩
        · obtain ⟨e, he, b, hb⟩ := hsends hF hmode hvalid
          rw [hcall] at he
          rcases List.mem_append.1 he with he | he
          · exact absurd hb (hfree e he b)
          · exact ⟨e, he, b, hb⟩
        · -- the guards on the order leave the adapter disarmed
          refine Bool.eq_false_iff.2 fun hrej => ?_
          have hbase := (placeEntry_rejects hrej).1
          have := (hrestores (by rw [hcall]; exact hrej)).1
          rw [hcall] at this
          dsimp only at this
          rw [hbase, hdisarmed, harmed] at this
          cases this
      · intro h
        obtain ⟨hsends, hval⟩ := h hmode
        refine ⟨fun _ _ hvalid => ?_, fun hrej => ?_⟩
        · obtain ⟨e, he, hb⟩ := hsends hvalid
          rw [hcall]
          exact ⟨e, List.mem_append_right _ he, hb⟩
        · rw [hcall] at hrej
          exact absurd hrej (by rw [hval]; exact Bool.false_ne_true)
  · -- rejected by the pending or the max-position guard after the flatten
    refine ⟨fun hall => ?_, fun hR => absurd hR.1 hroom⟩
    have := (hall.restores (by rw [hstop r hr]; exact hrej)).1
    rw [hstop r hr, hdisarmed, harmed] at this
    cases this
  · exact absurd ht hn

/-- For every state, signal and broker: a call that runs alone is all or nothing unless it gets through a
flatten, and then just in case there was room for the entry before the flatten and, outside a dry run, the
entry is valid when the contract resolves and only then. -/
theorem allOrNothing_iff (cfg : ExecutionConfig) (sig : Signal) (uuid : String) (ans : Answers) (s : World) :
    AllOrNothing cfg sig ans s uuid ↔ (Flattens cfg sig (sig.idOr uuid) ans s → Room cfg ans s ∧
      (cfg.mode ≠ .dryRun → (ValidEntry cfg sig (sig.idOr uuid) ↔ Resolves cfg sig (sig.idOr uuid) ans s))) := by
  by_cases h : Flattens cfg sig (sig.idOr uuid) ans s
  · rw [allOrNothing_iff_of_flattens h, imp_iff_right h]
  · exact ⟨fun _ hF => absurd hF h, fun _ => allOrNothing_of_not_flattens h⟩

end eval

/-! ### A short position at `max_positions` 1 -/

def reversalConfig : ExecutionConfig :=
  .fromDict { enabled := some true, armed := some true, mode := some "paper"
              allowReversalOnOppositeSignal := some true }

/-- Connected, with one short contract in the position cache. -/
def shortWorld : World :=
  { World.init reversalConfig 0 with
    connected := true
    isAuthenticated := true
    livePositions := Dict.empty.set (some 1) ⟨-1, 100, 0⟩ }

/-- The position that the call has just closed still counts against the limit. -/
theorem not_allOrNothing_short :
    reversalConfig.Valid ∧ ¬ AllOrNothing reversalConfig (sampleSignal "s1") (fun _ => holding (-1)) shortWorld "" := by
  refine ⟨ExecutionConfig.valid_fromDict _, fun h => ?_⟩
  have := (h.restores (by decide +kernel)).1
  revert this
  decide +kernel

end PearlAlgo
