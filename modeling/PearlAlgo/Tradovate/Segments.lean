import PearlAlgo.Tradovate.EventLoop

/-!
# What one segment of a call can do

The contracts of the adapter's coroutines (`machine_obeys`). `BracketSeg` says of a segment of
`place_bracket`, from one await to the next, how it changes what other calls look at: the armed flag, the
daily order counter, the executed signal ids, the pending counter and the book. `Before` and `After` are
the same facts in the middle of a segment, before and after the cap check; each piece of `place_bracket`
takes one of them to the next.
-/

namespace PearlAlgo
open Py Coop

/-- The segment ends with a bracket sent to the broker. -/
def sends : To Request Returned → Bool
  | .waiting (.placeOso _) => true
  | _ => false

/-- The segment begins with the answer to a bracket. -/
def answersOso : From Answer → Bool
  | .answer (.placeOso _) _ => true
  | _ => false

/-- The broker accepted the bracket. -/
def acceptsOso : From Answer → Bool
  | .answer (.placeOso _) r =>
    match (r : Except Err OsoReply) with
    | .ok (.other _) => false
    | .ok reply => match reply.entryId with
      | .ok (some _) => true
      | _ => false
    | .error _ => false
  | _ => false

/-- The request is one of `flatten_all_positions`. -/
def Request.isFlatten : Request → Bool
  | .getPositions .liquidate | .placeOrder _ => true
  | _ => false

section defs
variable (cfg : ExecutionConfig) (sig : Signal) (sid : String) (w : From Answer) (s₀ s : World)

/-- The signal is no duplicate in `s` and passes the preconditions. -/
structure Admitted (s : World) : Prop where
  fresh : s.evictSignalIds.executedSignalIds.contains sid = false
  limits : s.base.checkLimits cfg sig s.now = none
  bracket : AdapterBase.checkBracket sig = .ok .preconditionsPassed

/-- The segment is the first one and check 6 disarms. -/
def AutoDisarms : Prop :=
  match w with
  | .start => s₀.evictSignalIds.executedSignalIds.contains sid = false ∧
      s₀.base.checkLimits cfg sig s₀.now = some (.dailyLossLimitHit s₀.base.dailyPnl)
  | .answer _ _ => False

/-- The net positions that the guard reads in this segment. -/
def snapshot : List Int :=
  match w with
  | .start => s₀.evictSignalIds.clearStalePositions.cachedNet
  | .answer (.getPositions .guard) r =>
    match (r : Except Err (Option (List (Option PositionRow)))) with
    | .ok reply => listedNet reply
    | .error _ => []
  | _ => []

/-- The guard takes the reversal branch on these net positions. -/
def TakesReversal (netPositions : List Int) : Prop :=
  cfg.allowReversalOnOppositeSignal = true ∧
    ∃ n ∈ netPositions, n ≠ 0 ∧ existingDir n ≠ sig.rawDirection

def Reverses : Prop :=
  match w with
  | .start => Admitted cfg sig sid s₀ ∧ TakesReversal cfg sig (snapshot .start s₀)
  | .answer q r => q.isFlatten = true ∨ TakesReversal cfg sig (snapshot (.answer q r) s₀)

instance : Decidable (Admitted cfg sig sid s) :=
  decidable_of_iff (s.evictSignalIds.executedSignalIds.contains sid = false ∧
      s.base.checkLimits cfg sig s.now = none ∧ AdapterBase.checkBracket sig = .ok .preconditionsPassed)
    ⟨fun ⟨h, h', h''⟩ => ⟨h, h', h''⟩, fun h => ⟨h.fresh, h.limits, h.bracket⟩⟩

instance (l : List Int) : Decidable (TakesReversal cfg sig l) :=
  inferInstanceAs (Decidable (_ ∧ ∃ n ∈ l, _))

instance : Decidable (AutoDisarms cfg sig sid w s₀) :=
  match w with
  | .start => inferInstanceAs (Decidable (_ ∧ _))
  | .answer _ _ => inferInstanceAs (Decidable False)

instance : Decidable (Reverses cfg sig sid w s₀) :=
  match w with
  | .start => inferInstanceAs (Decidable (Admitted cfg sig sid s₀ ∧ TakesReversal cfg sig (snapshot .start s₀)))
  | .answer q r => inferInstanceAs
    (Decidable (q.isFlatten = true ∨ TakesReversal cfg sig (snapshot (.answer q r) s₀)))

def evictedIds : Dict String ℚ :=
  match w with
  | .start => s₀.evictSignalIds.executedSignalIds
  | .answer _ _ => s₀.executedSignalIds

end defs

/-- The segment begins where the guard has read its snapshot, or in the reversal branch. -/
inductive ReadsPositions : From Answer → Prop
  | cache : ReadsPositions .start
  | listing (reply : Reply (.getPositions .guard)) : ReadsPositions (.answer (.getPositions .guard) (.ok reply))
  | flatten {q : Request} (hq : q.isFlatten = true) (r : Answer q) : ReadsPositions (.answer q r)

/-- What a segment of `place_bracket` has done so far, when nothing has been sent in it. -/
structure Quiet (cfg : ExecutionConfig) (sig : Signal) (sid : String) (w : From Answer) (s₀ s : World) :
    Prop where
  clock : s.monotonic = s₀.monotonic
  unanswered : answersOso w = false
  bracket : AdapterBase.checkBracket sig = .ok .preconditionsPassed
  started : w = .start → Admitted cfg sig sid s₀
  armed : ¬ Reverses cfg sig sid w s₀ → s.base.armed = s₀.base.armed
  orders : s.base.ordersToday = s₀.base.ordersToday
  pnl : s.base.dailyPnl = s₀.base.dailyPnl
  executed : s.executedSignalIds = evictedIds w s₀
  pending : s.pendingOrdersCount = s₀.pendingOrdersCount

/-- Before the cap check. -/
structure Before (cfg : ExecutionConfig) (sig : Signal) (sid : String) (w : From Answer) (s₀ s : World) : Prop
    extends Quiet cfg sig sid w s₀ s where
  book : s.book = s₀.book

/-- The cap check of this segment accepted the entry. -/
structure Accepts (cfg : ExecutionConfig) (sig : Signal) (w : From Answer) (s₀ s : World) : Prop where
  reader : ReadsPositions w
  below : (totalAbsPos (snapshot w s₀) : Int) < cfg.maxPositions
  entry : s.book.acceptances =
    ⟨s₀.book.exposure, s₀.book.inFlight, (sig.orderQty cfg).toOption.getD 0⟩ :: s₀.book.acceptances

/-- After the cap check. -/
structure After (cfg : ExecutionConfig) (sig : Signal) (sid : String) (w : From Answer) (s₀ s : World) : Prop
    extends Quiet cfg sig sid w s₀ s where
  acceptances : s.book.acceptances = s₀.book.acceptances ∨ Accepts cfg sig w s₀ s

/-- What a segment of `place_bracket` does. -/
structure BracketSeg (cfg : ExecutionConfig) (sig : Signal) (sid : String) (w : From Answer) (s₀ s : World)
    (t : To Request Returned) : Prop where
  clock : s.monotonic = s₀.monotonic
  bracket : t.isWaiting = true → AdapterBase.checkBracket sig = .ok .preconditionsPassed
  started : w = .start → t.isWaiting = true → Admitted cfg sig sid s₀
  armed : ¬ Reverses cfg sig sid w s₀ → ¬ AutoDisarms cfg sig sid w s₀ → s.base.armed = s₀.base.armed
  guard : t = .waiting (.getPositions .guard) → w = .start
  reverses : ∀ q, t = .waiting q → q.isFlatten = true → Reverses cfg sig sid w s₀
  sent : ∀ b, t = .waiting (.placeOso b) →
    ∃ o symbol, sig.entryOrder cfg sid = .ok o ∧ b = o.body symbol
  answered : answersOso w = true → t.isWaiting = false
  executed : s.executedSignalIds =
    if sends t then (evictedIds w s₀).set sid s.monotonic else evictedIds w s₀
  ordersMono : s₀.base.ordersToday ≤ s.base.ordersToday
  ordersLe : s.base.ordersToday + t.isWaiting.toNat ≤ s₀.base.ordersToday + 1
  ordersStart : w = .start → s.base.ordersToday + t.isWaiting.toNat = s₀.base.ordersToday ∨
    Admitted cfg sig sid s₀
  ordersAccepted : acceptsOso w = true → s.base.ordersToday = s₀.base.ordersToday + 1
  pnl : s.base.dailyPnl = s₀.base.dailyPnl
  acceptances : s.book.acceptances = s₀.book.acceptances ∨
    Accepts cfg sig w s₀ s ∧ (w = .start → Admitted cfg sig sid s₀)
  pending : s.pendingOrdersCount = s₀.pendingOrdersCount + (sends t).toNat - (answersOso w).toNat

/-! ### Client and kill switch -/

section pieces
variable {cfg : ExecutionConfig} {pause : From Answer → World → World → Request → Prop}
  {I : From Answer → World → World → Prop} {w : From Answer} {s₀ s : World}

theorem liquidateEach_wp (hI : Proc.Stable (fun q => q.isFlatten = true) pause I)
    (rows : List (Option PositionRow)) (h : I w s₀ s) :
    (liquidateEach rows).wp pause (fun _ => I) w s₀ s := by
  induction rows generalizing w s₀ s with
  | nil => exact h
  | cons row rest ih =>
    cases row with
    | none => exact h
    | some pos =>
      simp only [liquidateEach, Proc.wp_ite, Proc.wp_bind]
      split
      · exact ih h
      · refine Proc.wp_mono _ (hI.wp_ask rfl h) fun r w s₀ s h => ?_
        split
        · exact h
        · rw [Proc.wp_bind]
          exact Proc.wp_mono _ (ih h) fun _ _ _ _ h => h

theorem liquidateAllPositions_wp (hI : Proc.Stable (fun q => q.isFlatten = true) pause I) (h : I w s₀ s) :
    liquidateAllPositions.wp pause (fun _ => I) w s₀ s := by
  simp only [liquidateAllPositions, Proc.wp_bind]
  refine Proc.wp_mono _ (hI.wp_ask rfl h) fun r w s₀ s h => ?_
  split
  · exact h
  · exact h
  · exact liquidateEach_wp hI _ h

theorem flattenAllPositions_wp (hI : Proc.Stable (fun q => q.isFlatten = true) pause I)
    (h : I w s₀ s.disarm) : (flattenAllPositions cfg).wp pause (fun _ => I) w s₀ s := by
  simp only [flattenAllPositions, Proc.wp_bind, Proc.wp_modify, Proc.wp_read, Proc.wp_ite, Proc.wp_pure]
  split
  · exact h
  · split
    · exact h
    · refine Proc.wp_mono _ (liquidateAllPositions_wp hI h) fun r w s₀ s h => ?_
      split <;> exact h

/-- The requests of `cancel_all`. -/
def Request.isCancelAll : Request → Bool
  | .getOrders | .cancelOrder _ => true
  | _ => false

theorem cancelOrder_wp (hI : Proc.Stable (fun q => q.isCancelAll = true) pause I)
    (horders : ∀ w s₀ s orders, I w s₀ s → I w s₀ { s with openOrders := orders }) {orderId : Ident} (h : I w s₀ s) :
    (cancelOrder cfg orderId).wp pause (fun _ => I) w s₀ s := by
  simp only [cancelOrder, Proc.wp_ite, Proc.wp_pure]
  split
  · exact h
  · cases orderId with
    | none => exact h
    | some n =>
      dsimp only
      rw [Proc.wp_bind]
      refine Proc.wp_mono _ (hI.wp_ask rfl h) fun r w s₀ s h => ?_
      cases r with
      | ok _ => exact horders _ _ _ _ h
      | error e => cases e <;> exact h

theorem cancelEach_wp (hI : Proc.Stable (fun q => q.isCancelAll = true) pause I)
    (horders : ∀ w s₀ s orders, I w s₀ s → I w s₀ { s with openOrders := orders }) (l : List Ident) (h : I w s₀ s) :
    (cancelEach cfg l).wp pause (fun _ => I) w s₀ s := by
  induction l generalizing w s₀ s with
  | nil => exact h
  | cons orderId rest ih =>
    simp only [cancelEach, Proc.wp_bind]
    refine Proc.wp_mono _ (cancelOrder_wp hI horders h) fun r w s₀ s h => ?_
    cases r with
    | error e => exact h
    | ok result =>
      rw [Proc.wp_bind]
      exact Proc.wp_mono _ (ih h) fun _ _ _ _ h => h

theorem cancelAll_wp (hI : Proc.Stable (fun q => q.isCancelAll = true) pause I)
    (horders : ∀ w s₀ s orders, I w s₀ s → I w s₀ { s with openOrders := orders }) (h : I w s₀ s.disarm) :
    (cancelAll cfg).wp pause (fun _ => I) w s₀ s := by
  simp only [cancelAll, Proc.wp_bind, Proc.wp_modify, Proc.wp_read, Proc.wp_ite, Proc.wp_pure]
  split
  · exact h
  · refine Proc.wp_mono _ (hI.wp_ask rfl h) fun r w s₀ s h => ?_
    split
    · exact h
    · rw [Proc.wp_bind]
      refine Proc.wp_mono _ (cancelEach_wp hI horders _ h) fun r w s₀ s h => ?_
      split <;> exact h

/-- The requests of `resolve_front_month`. -/
def Request.isContract : Request → Bool
  | .suggestContracts _ | .rollContract _ | .findContract _ => true
  | _ => false

theorem useContract_wp {product : String} {r : Except Err (Option String)} {next : Flow (Except Err String)}
    (hcache : ∀ w s₀ s c, I w s₀ s → I w s₀ { s with contractCache := c }) (h : I w s₀ s)
    (hnext : next.wp pause (fun _ => I) w s₀ s) :
    (useContract product r next).wp pause (fun _ => I) w s₀ s := by
  unfold useContract
  split
  · exact h
  · split
    · exact hnext
    · exact hcache _ _ _ _ h
  · exact hnext

theorem resolveFrontMonth_wp {product : String}
    (hI : Proc.Stable (fun q => q.isContract = true) pause I)
    (hcache : ∀ w s₀ s c, I w s₀ s → I w s₀ { s with contractCache := c }) (h : I w s₀ s) :
    (resolveFrontMonth product).wp pause (fun _ => I) w s₀ s := by
  simp only [resolveFrontMonth, Proc.wp_bind, Proc.wp_read]
  split
  · exact h
  · have hask {q : Request} {f : Answer q → Flow (Except Err String)} {w s₀ s} (hq : q.isContract = true)
        (h : I w s₀ s) (hf : ∀ r w s₀ s, I w s₀ s → (f r).wp pause (fun _ => I) w s₀ s) :
        (Proc.ask q >>= f).wp pause (fun _ => I) w s₀ s := by
      rw [Proc.wp_bind]
      exact Proc.wp_mono _ (hI.wp_ask hq h) hf
    -- each strategy is asked when the one before it gave no name
    rw [Proc.wp_bind, Proc.wp_modify]
    refine hask rfl (hcache _ _ _ _ h) fun r w s₀ s h => useContract_wp hcache h ?_
    refine hask rfl h fun r w s₀ s h => useContract_wp hcache h ?_
    exact hask rfl h fun r w s₀ s h => useContract_wp hcache h h

end pieces

/-! ### The middle of a segment -/

section middle
variable {cfg : ExecutionConfig} {sig : Signal} {sid : String} {w : From Answer} {s₀ s : World}

theorem acceptsOso.answersOso (h : acceptsOso w = true) : answersOso w = true := by
  unfold acceptsOso at h
  split at h
  · rfl
  · cases h

theorem Quiet.resume {q : Request} (r : Answer q) (s : World) (hq : answersOso (.answer q r) = false)
    (hb : AdapterBase.checkBracket sig = .ok .preconditionsPassed) :
    Quiet cfg sig sid (.answer q r) s s :=
  ⟨rfl, hq, hb, nofun, fun _ => rfl, rfl, rfl, rfl, rfl⟩

theorem Quiet.congr {s' : World} (h : Quiet cfg sig sid w s₀ s) (hm : s'.monotonic = s.monotonic)
    (hb : s'.base = s.base) (he : s'.executedSignalIds = s.executedSignalIds)
    (hp : s'.pendingOrdersCount = s.pendingOrdersCount) : Quiet cfg sig sid w s₀ s' :=
  ⟨hm.trans h.clock, h.unanswered, h.bracket, h.started, fun hr => hb ▸ h.armed hr, hb ▸ h.orders, hb ▸ h.pnl,
    he.trans h.executed, hp.trans h.pending⟩

theorem Before.resume {q : Request} (r : Answer q) (s : World) (hq : answersOso (.answer q r) = false)
    (hb : AdapterBase.checkBracket sig = .ok .preconditionsPassed) :
    Before cfg sig sid (.answer q r) s s :=
  ⟨.resume r s hq hb, rfl⟩

theorem After.resume {q : Request} (r : Answer q) (s : World) (hq : answersOso (.answer q r) = false)
    (hb : AdapterBase.checkBracket sig = .ok .preconditionsPassed) :
    After cfg sig sid (.answer q r) s s :=
  ⟨.resume r s hq hb, .inl rfl⟩

theorem Before.after (h : Before cfg sig sid w s₀ s) : After cfg sig sid w s₀ s :=
  ⟨h.toQuiet, .inl (congrArg Book.acceptances h.book)⟩

theorem After.seg (h : After cfg sig sid w s₀ s) {t : To Request Returned} (ht : sends t = false)
    (hguard : t = .waiting (.getPositions .guard) → w = .start)
    (hrev : ∀ q, t = .waiting q → q.isFlatten = true → Reverses cfg sig sid w s₀) :
    BracketSeg cfg sig sid w s₀ s t where
  clock := h.clock
  bracket _ := h.bracket
  started hw _ := h.started hw
  armed hr _ := h.armed hr
  guard := hguard
  reverses := hrev
  sent b hb := by subst hb; cases ht
  answered hw := absurd (h.unanswered.symm.trans hw) Bool.false_ne_true
  executed := by rw [ht]; exact h.executed
  ordersMono := h.orders.ge
  ordersLe := by rw [h.orders]; exact Nat.add_le_add_left (Bool.toNat_le _) _
  ordersStart hw := .inr (h.started hw)
  ordersAccepted hw := absurd (h.unanswered.symm.trans (acceptsOso.answersOso hw)) Bool.false_ne_true
  pnl := h.pnl
  acceptances := h.acceptances.imp_right fun h' => ⟨h', h.started⟩
  pending := by rw [ht, h.unanswered]; exact h.pending

theorem After.done (h : After cfg sig sid w s₀ s) (r : Returned) : BracketSeg cfg sig sid w s₀ s (.done r) :=
  h.seg rfl (fun ht => by cases ht) fun q ht => by cases ht

theorem BracketSeg.congr {s' : World} {t : To Request Returned} (h : BracketSeg cfg sig sid w s₀ s t)
    (hm : s'.monotonic = s.monotonic) (hb : s'.base = s.base)
    (he : s'.executedSignalIds = s.executedSignalIds) (hp : s'.pendingOrdersCount = s.pendingOrdersCount)
    (ha : s'.book.acceptances = s.book.acceptances) : BracketSeg cfg sig sid w s₀ s' t := by
  obtain ⟨clock, bracket, started, armed, guard, reverses, sent, answered, executed, om, ol, os, oa, pnl, acc,
    pending⟩ := h
  rw [← hm] at clock executed
  rw [← hb] at armed om ol os oa pnl
  rw [← he] at executed
  rw [← hp] at pending
  refine ⟨clock, bracket, started, armed, guard, reverses, sent, answered, executed, om, ol, os, oa, pnl, ?_,
    pending⟩
  refine acc.imp (fun h => ha.trans h) fun h => ⟨⟨h.1.reader, h.1.below, ha.trans h.1.entry⟩, h.2⟩

/-- The first segment ends in the checks of `checkSignal`. -/
theorem BracketSeg.rejected (base : AdapterBase) (r : Returned)
    (h : base = s₀.base ∨ base = s₀.base.disarm ∧ AutoDisarms cfg sig sid .start s₀) :
    BracketSeg cfg sig sid .start s₀ { s₀.evictSignalIds with base } (.done r) := by
  have horders : base.ordersToday = s₀.base.ordersToday := by
    rcases h with rfl | ⟨rfl, _⟩ <;> rfl
  have hpnl : base.dailyPnl = s₀.base.dailyPnl := by
    rcases h with rfl | ⟨rfl, _⟩ <;> rfl
  refine
    { clock := rfl, bracket := nofun, started := nofun, guard := fun ht => (by cases ht)
      reverses := fun q ht => (by cases ht), sent := fun b ht => (by cases ht), answered := fun _ => rfl
      executed := rfl, ordersMono := horders.ge, ordersLe := Nat.le_succ_of_le horders.le
      ordersStart := fun _ => .inl horders, ordersAccepted := nofun, pnl := hpnl, acceptances := .inl rfl, pending := rfl
      armed := ?_ }
  rintro - hauto
  rcases h with rfl | ⟨_, h⟩
  · rfl
  · exact absurd h hauto

end middle

/-! ### The pieces of `place_bracket` -/

section bracket
variable {cfg : ExecutionConfig} {sig : Signal} {sid : String} {w : From Answer} {s₀ s : World}

variable (cfg sig sid) in
/-- What a piece of `place_bracket` leaves: the end of the call, or `P` and the value. -/
def ExitOr {α : Type} (P : α → From Answer → World → World → Prop) (a : Except Exit α) (w : From Answer)
    (s₀ s : World) : Prop :=
  match a with
  | .error r => BracketSeg cfg sig sid w s₀ s (.done (.exit r))
  | .ok a => P a w s₀ s

variable (cfg sig sid) in
/-- Weakest preconditions under the contract of `place_bracket`. -/
abbrev BracketWp {α : Type} (p : Flow α) (post : α → From Answer → World → World → Prop) (w : From Answer)
    (s₀ s : World) : Prop :=
  p.wp (fun w s₀ s q => BracketSeg cfg sig sid w s₀ s (.waiting q)) post w s₀ s

theorem checkSignal_wp : BracketWp cfg sig sid (checkSignal cfg sig sid)
    (ExitOr cfg sig sid fun _ w s₀ s => w = .start ∧ s = s₀.evictSignalIds ∧ Admitted cfg sig sid s₀)
    .start s s := by
  simp only [BracketWp, checkSignal, Proc.wp_bind, Proc.wp_modify, Proc.wp_read, Proc.wp_ite, Proc.wp_pure]
  split
  · exact BracketSeg.rejected s.base _ (.inl rfl)
  next hfresh =>
    replace hfresh := Bool.eq_false_iff.2 hfresh
    cases hd : s.evictSignalIds.base.checkPreconditions cfg sig s.evictSignalIds.now with
    | error e => exact BracketSeg.rejected s.base _ (.inl rfl)
    | ok r =>
      obtain ⟨decision, base⟩ := r
      simp only [Proc.wp_bind, Proc.wp_modify, Proc.wp_ite, Proc.wp_pure]
      split
      next hexec =>
        obtain ⟨rfl, hlimits, hbracket⟩ := AdapterBase.checkPreconditions_execute hd hexec
        exact ⟨rfl, rfl, hfresh, hlimits, hbracket⟩
      next =>
        refine BracketSeg.rejected base _ ?_
        exact (AdapterBase.checkPreconditions_base hd).imp_right fun h => ⟨h.1, hfresh, h.2⟩

/-- In the guard, on a snapshot that counted at most `n`. -/
structure AtGuard (cfg : ExecutionConfig) (sig : Signal) (sid : String) (n : Nat) (w : From Answer)
    (s₀ s : World) : Prop extends Before cfg sig sid w s₀ s where
  reader : ReadsPositions w
  counted : totalAbsPos (snapshot w s₀) ≤ n

theorem Request.isFlatten.unanswered {q : Request} (hq : q.isFlatten = true) (r : Answer q) :
    answersOso (.answer q r) = false := by
  cases q <;> first | rfl | cases hq

theorem Request.isFlatten.snapshot {q : Request} (hq : q.isFlatten = true) (r : Answer q) :
    snapshot (.answer q r) s = [] := by
  cases q with
  | getPositions c => cases c <;> first | rfl | cases hq
  | _ => rfl

theorem stable_flatten (n : Nat) (hb : AdapterBase.checkBracket sig = .ok .preconditionsPassed) :
    Proc.Stable (fun q => q.isFlatten = true)
      (fun w s₀ s q => BracketSeg cfg sig sid w s₀ s (.waiting q))
      (fun w s₀ s => AtGuard cfg sig sid n w s₀ s ∧ Reverses cfg sig sid w s₀) where
  pause {w s₀ s q} hq h := by
    refine h.1.toBefore.after.seg ?_ ?_ fun _ _ _ => h.2
    · cases q <;> first | rfl | cases hq
    · rintro ⟨⟩; cases hq
  resume {q} r s hq :=
    ⟨⟨.resume r s (Request.isFlatten.unanswered hq r) hb, .flatten hq r,
      by rw [Request.isFlatten.snapshot hq r]; exact Nat.zero_le n⟩, .inl hq⟩

/-- The reversal loop: once it flattens, the segment is in the reversal branch. -/
theorem reverseOpposite_wp {n : Nat} (l : List Int) (hl : ∀ m ∈ l, m ≠ 0)
    (h : AtGuard cfg sig sid n w s₀ s) (hrev : TakesReversal cfg sig l → Reverses cfg sig sid w s₀) :
    BracketWp cfg sig sid (reverseOpposite cfg sid sig.rawDirection l)
      (ExitOr cfg sig sid fun _ => AtGuard cfg sig sid n) w s₀ s := by
  induction l generalizing w s₀ s with
  | nil => exact h
  | cons m rest ih =>
    have hrest : ∀ m ∈ rest, m ≠ 0 := fun m hm => hl m (List.mem_cons_of_mem _ hm)
    simp only [BracketWp, reverseOpposite, Proc.wp_ite, Proc.wp_bind, Proc.wp_pure]
    split
    · refine ih hrest h fun ht => hrev ⟨ht.1, ?_⟩
      obtain ⟨m', hm', hopp⟩ := ht.2
      exact ⟨m', List.mem_cons_of_mem _ hm', hopp⟩
    next hdir =>
      split
      · exact h.toBefore.after.done _
      next hallow =>
        have hr : Reverses cfg sig sid w s₀ :=
          hrev ⟨by simpa using hallow, m, List.mem_cons_self, hl m List.mem_cons_self, hdir⟩
        have hdis : AtGuard cfg sig sid n w s₀ s.disarm :=
          ⟨⟨⟨h.clock, h.unanswered, h.bracket, h.started, fun h' => absurd hr h', h.orders, h.pnl, h.executed,
            h.pending⟩, h.book⟩, h.reader, h.counted⟩
        refine Proc.wp_mono _ (flattenAllPositions_wp (stable_flatten n h.bracket) ⟨hdis, hr⟩) ?_
        rintro a w s₀ s ⟨h, hr⟩
        cases a with
        | error e => exact h.toBefore.after.done _
        | ok results =>
          simp only [Proc.wp_ite, Proc.wp_bind, Proc.wp_modify, Proc.wp_pure]
          split
          · refine ih hrest ?_ fun _ => hr
            exact ⟨⟨h.toQuiet.congr rfl rfl rfl rfl,
              h.book⟩, h.reader, h.counted⟩
          · exact h.toBefore.after.done _

/-- What the cap check vouches for. -/
structure Capped (cfg : ExecutionConfig) (sig : Signal) (sid : String) (w : From Answer) (s₀ s : World) : Prop
    extends Before cfg sig sid w s₀ s where
  reader : ReadsPositions w
  below : (totalAbsPos (snapshot w s₀) : Int) < cfg.maxPositions

theorem guardSnapshot_wp (l : List Int) (h : AtGuard cfg sig sid (totalAbsPos l) w s₀ s)
    (hrev : TakesReversal cfg sig l → Reverses cfg sig sid w s₀) :
    BracketWp cfg sig sid (guardSnapshot cfg sig sid l) (ExitOr cfg sig sid fun _ => Capped cfg sig sid)
      w s₀ s := by
  simp only [BracketWp, guardSnapshot, Proc.wp_bind]
  have hactive : TakesReversal cfg sig (l.filter (· ≠ 0)) → Reverses cfg sig sid w s₀ := by
    intro ht
    obtain ⟨ha, m, hm, hopp⟩ := ht
    exact hrev ⟨ha, m, List.mem_of_mem_filter hm, hopp⟩
  refine Proc.wp_mono _ (reverseOpposite_wp _ (fun m hm => by simpa using (List.mem_filter.1 hm).2) h
    hactive) ?_
  intro a w s₀ s h
  cases a with
  | error r => exact h
  | ok _ =>
    simp only [capCheck, Proc.wp_bind, Proc.wp_read, Proc.wp_ite, Proc.wp_pure]
    split
    · exact h.toBefore.after.done _
    · split
      · exact h.toBefore.after.done _
      next htotal =>
        exact ⟨h.toBefore, h.reader, lt_of_le_of_lt (Int.ofNat_le.2 h.counted) (not_le.1 htotal)⟩

theorem clearStalePositions_eq (s : World) : ∃ d, s.clearStalePositions = { s with livePositions := d } := by
  unfold World.clearStalePositions
  split
  · exact ⟨_, rfl⟩
  · exact ⟨s.livePositions, rfl⟩

/-- The guard of a call that `checkSignal` has just let through. -/
theorem guardPositions_wp (hadm : Admitted cfg sig sid s) :
    BracketWp cfg sig sid (guardPositions cfg sig sid) (ExitOr cfg sig sid fun _ => Capped cfg sig sid)
      .start s s.evictSignalIds := by
  obtain ⟨d, hd⟩ := clearStalePositions_eq s.evictSignalIds
  have hB : Before cfg sig sid .start s s.evictSignalIds.clearStalePositions := by
    rw [hd]
    exact ⟨⟨rfl, rfl, hadm.bracket, fun _ => hadm, fun _ => rfl, rfl, rfl, rfl, rfl⟩, rfl⟩
  simp only [BracketWp, guardPositions, Proc.wp_bind, Proc.wp_modify, Proc.wp_read, Proc.wp_ite, Proc.wp_ask]
  split
  · -- the snapshot is a listing
    refine ⟨hB.after.seg rfl (fun _ => rfl) fun q hq hf => (by cases hq; cases hf), fun r s' => ?_⟩
    have hB' : Before cfg sig sid (.answer (.getPositions .guard) r) s' s' := .resume r s' rfl hadm.bracket
    split
    next reply =>
      exact guardSnapshot_wp _ ⟨hB', .listing reply, le_rfl⟩ fun h => .inr h
    · exact hB'.after.done _
    · exact hB'.after.done _
  · -- the snapshot is the cache
    exact guardSnapshot_wp _ ⟨hB, .cache, le_rfl⟩ fun h => ⟨hadm, h⟩

theorem stable_contract (hb : AdapterBase.checkBracket sig = .ok .preconditionsPassed) :
    Proc.Stable (fun q => q.isContract = true)
      (fun w s₀ s q => BracketSeg cfg sig sid w s₀ s (.waiting q)) (After cfg sig sid) where
  pause {w s₀ s q} hq h := by
    refine h.seg ?_ ?_ ?_
    · cases q <;> first | rfl | cases hq
    · rintro ⟨⟩; cases hq
    · rintro q ⟨⟩ hf
      cases q <;> first | exact absurd hf Bool.false_ne_true | exact absurd hq Bool.false_ne_true
  resume {q} r s hq := by
    refine .resume r s ?_ hb
    cases q <;> first | rfl | cases hq

theorem ensureContract_wp (h : After cfg sig sid w s₀ s) :
    BracketWp cfg sig sid (ensureContract sig sid) (ExitOr cfg sig sid fun _ => After cfg sig sid) w s₀ s := by
  simp only [BracketWp, ensureContract, Proc.wp_bind, Proc.wp_read, Proc.wp_ite, Proc.wp_pure]
  split
  · exact h
  · refine Proc.wp_mono _ (resolveFrontMonth_wp (stable_contract h.bracket) ?_ h) fun r w s₀ s h => ?_
    · intro w s₀ s c h
      refine ⟨h.toQuiet.congr rfl rfl rfl rfl, ?_⟩
      exact h.acceptances.imp_right fun h => ⟨h.reader, h.below, h.entry⟩
    · cases r with
      | ok name =>
        have h' : After cfg sig sid w s₀ { s with contractSymbol := some name } := by
          refine ⟨h.toQuiet.congr rfl rfl rfl rfl, ?_⟩
          exact h.acceptances.imp_right fun h => ⟨h.reader, h.below, h.entry⟩
        simp only [Proc.wp_bind, Proc.wp_modify, Proc.wp_ite, Proc.wp_pure]
        split
        · exact h'.done _
        · exact h'
      | error e =>
        simp only [Proc.wp_ite, Proc.wp_pure]
        split
        · exact h.done _
        · exact h.done _

/-- The order is the signal's. -/
theorem prepare_wp (h : After cfg sig sid w s₀ s) :
    BracketWp cfg sig sid (prepare cfg sig sid)
      (ExitOr cfg sig sid fun o w s₀ s => After cfg sig sid w s₀ s ∧ sig.entryOrder cfg sid = .ok o)
      w s₀ s := by
  simp only [BracketWp, prepare, Proc.wp_bind, Proc.wp_read, Proc.wp_ite, Proc.wp_modify, Proc.wp_pure]
  split
  · -- a dry run counts an order and sends nothing
    have hacc := h.acceptances.imp_right fun h : Accepts cfg sig w s₀ s =>
      (⟨h.reader, h.below, h.entry⟩ : Accepts cfg sig w s₀
        { s with base := s.base.incrementOrderCount sig.typeKey s.now })
    have hs := h.done (.exit (.ok { success := true, status := .placed, signalId := sid }))
    refine
      { clock := hs.clock, bracket := fun ht => (by cases ht), started := fun _ ht => (by cases ht), guard := fun ht => (by cases ht)
        reverses := fun q ht => (by cases ht), sent := fun b ht => (by cases ht), answered := fun _ => rfl
        executed := hs.executed, ordersMono := Nat.le_succ_of_le hs.ordersMono
        ordersLe := Nat.succ_le_succ h.orders.le, ordersStart := fun hw => .inr (h.started hw)
        ordersAccepted := fun hw => ?_, pnl := h.pnl, acceptances := hacc.imp_right fun h' => ⟨h', h.started⟩
        pending := hs.pending, armed := fun hr _ => h.armed hr }
    exact absurd (h.unanswered.symm.trans (acceptsOso.answersOso hw)) Bool.false_ne_true
  · split
    · exact h.done _
    · refine Proc.wp_mono _ (ensureContract_wp h) fun r w s₀ s h => ?_
      cases r with
      | error r => exact h
      | ok _ =>
        show ExitOr cfg sig sid _ (sig.entryOrder cfg sid) w s₀ s
        cases ho : sig.entryOrder cfg sid with
        | error r => exact After.done h _
        | ok o => exact ⟨h, rfl⟩

/-- After the answer to a bracket, before the pending counter is taken down. -/
structure Settled (w : From Answer) (s₀ s : World) : Prop where
  answered : answersOso w = true
  clock : s.monotonic = s₀.monotonic
  armed : s.base.armed = s₀.base.armed
  executed : s.executedSignalIds = s₀.executedSignalIds
  pending : s.pendingOrdersCount = s₀.pendingOrdersCount
  acceptances : s.book.acceptances = s₀.book.acceptances
  orders : s.base.ordersToday = s₀.base.ordersToday + (acceptsOso w).toNat
  pnl : s.base.dailyPnl = s₀.base.dailyPnl

theorem settle_wp {n : Nat} {o : EntryOrder} {symbol : String} {b : OsoBody} (r : Answer (.placeOso b))
    (s : World) : BracketWp cfg sig sid (settle sig sid n o symbol r) (fun _ => Settled)
      (.answer (.placeOso b) r) s s := by
  have same (s' : World) (hs : s' = s ∨ s' = s.drop n)
      (hr : acceptsOso (.answer (.placeOso b) r) = false) : Settled (.answer (.placeOso b) r) s s' := by
    rcases hs with rfl | rfl <;> exact ⟨rfl, rfl, rfl, rfl, rfl, rfl, (by rw [hr]; rfl), rfl⟩
  unfold BracketWp settle
  split
  · exact same s (.inl rfl) rfl
  · exact same _ (.inr rfl) rfl
  · exact same s (.inl rfl) rfl
  · exact same s (.inl rfl) rfl
  · exact same s (.inl rfl) rfl
  next reply hother =>
    have hacc (ho : ∀ n, reply.entryId ≠ .ok (some n)) :
        acceptsOso (.answer (.placeOso b) (.ok reply)) = false := by
      cases reply with
      | other t => exact absurd rfl (hother t)
      | _ =>
        -- the accepting alternative is the one that `ho` excludes
        simp only [acceptsOso]
    split
    next e he => exact same s (.inl rfl) (hacc fun n hn => by rw [he] at hn; cases hn)
    next orderId hid =>
      refine ⟨rfl, rfl, rfl, rfl, rfl, rfl, ?_, rfl⟩
      have : acceptsOso (.answer (.placeOso b) (.ok reply)) = true := by
        cases reply with
        | other t => exact absurd rfl (hother t)
        | _ => simp only [acceptsOso, hid]
      rw [this]; rfl
    next hid =>
      have hno := hacc fun n hn => by rw [hid] at hn; cases hn
      rw [Proc.wp_bind, Proc.wp_modify]
      split <;> exact same _ (.inr rfl) hno

theorem submit_wp {n : Nat} {o : EntryOrder} (h : After cfg sig sid w s₀ s)
    (ho : sig.entryOrder cfg sid = .ok o) :
    BracketWp cfg sig sid (submit sig sid n o)
      (fun r w s₀ s => BracketSeg cfg sig sid w s₀ s (.done (.exit r))) w s₀ s := by
  simp only [BracketWp, submit, Proc.wp_bind, Proc.wp_read, Proc.wp_modify, Proc.wp_ask, Proc.wp_pure]
  constructor
  · have hacc := h.acceptances.imp_right fun h : Accepts cfg sig w s₀ s =>
      (⟨h.reader, h.below, h.entry⟩ : Accepts cfg sig w s₀ { s.markExecuted sid with
        pendingOrdersCount := (s.markExecuted sid).pendingOrdersCount + 1 })
    refine
      { clock := h.clock, bracket := fun _ => h.bracket, started := fun hw _ => h.started hw
        guard := fun ht => (by cases ht), reverses := fun q ht hf => (by cases ht; cases hf)
        sent := fun b hb => ⟨o, _, ho, (by cases hb; rfl)⟩, executed := ?_, ordersMono := h.orders.ge
        answered := fun hw => absurd (h.unanswered.symm.trans hw) Bool.false_ne_true
        ordersLe := Nat.succ_le_succ h.orders.le, ordersStart := fun hw => .inr (h.started hw)
        ordersAccepted := fun hw => ?_, pnl := h.pnl, acceptances := hacc.imp_right fun h' => ⟨h', h.started⟩
        pending := ?_, armed := fun hr _ => h.armed hr }
    · show s.executedSignalIds.set sid s.monotonic = (evictedIds w s₀).set sid s.monotonic
      rw [h.executed]
    · exact absurd (h.unanswered.symm.trans (acceptsOso.answersOso hw)) Bool.false_ne_true
    · show s.pendingOrdersCount + 1 = s₀.pendingOrdersCount + 1 - (answersOso w).toNat
      rw [h.pending, h.unanswered]; rfl
  · intro r s'
    refine Proc.wp_mono _ (settle_wp r s') fun x w s₀ s h => ?_
    have hexec : s.executedSignalIds = evictedIds w s₀ := by
      cases w with
      | start => cases h.answered
      | answer q r => exact h.executed
    refine
      { clock := h.clock, bracket := fun ht => (by cases ht), started := fun _ ht => (by cases ht), guard := fun ht => (by cases ht)
        reverses := fun q ht => (by cases ht), sent := fun b ht => (by cases ht), answered := fun _ => rfl
        executed := hexec, ordersMono := h.orders ▸ Nat.le_add_right _ _, armed := fun _ _ => h.armed
        ordersLe := h.orders.le.trans (Nat.add_le_add_left (Bool.toNat_le _) _)
        ordersStart := fun hw => (by subst hw; cases h.answered)
        ordersAccepted := fun hw => (by rw [h.orders, hw]; rfl), pnl := h.pnl, acceptances := .inl h.acceptances
        pending := ?_ }
    show s.pendingOrdersCount - 1 = s₀.pendingOrdersCount - (answersOso w).toNat
    rw [h.pending, h.answered]; rfl

theorem Capped.accept (h : Capped cfg sig sid w s₀ s) :
    After cfg sig sid w s₀ (s.acceptEntry ((sig.orderQty cfg).toOption.getD 0)).1 := by
  refine ⟨h.toQuiet.congr rfl rfl rfl rfl, .inr ?_⟩
  refine ⟨h.reader, h.below, ?_⟩
  show _ :: s.book.acceptances = _
  rw [← h.book]

variable (cfg sig) in
theorem placeBracket_wp (uuid : String) (s : World) :
    BracketWp cfg sig (sig.idOr uuid) (placeBracket cfg sig uuid)
      (fun r w s₀ s => BracketSeg cfg sig (sig.idOr uuid) w s₀ s (.done (.exit r))) .start s s := by
  simp only [BracketWp, placeBracket, Proc.wp_bind]
  refine Proc.wp_mono _ checkSignal_wp fun r w s₀ s h => ?_
  cases r with
  | error r => exact h
  | ok _ =>
    obtain ⟨rfl, rfl, hadm⟩ := h
    rw [Proc.wp_bind]
    refine Proc.wp_mono _ (guardPositions_wp hadm) fun r w s₀ s h => ?_
    cases r with
    | error r => exact h
    | ok _ =>
      simp only [placeEntry, step, Proc.wp_bind, Proc.wp_read, Proc.wp_modify, Proc.wp_pure]
      refine Proc.wp_mono _ (prepare_wp h.accept) fun r w s₀ s h => ?_
      cases r with
      | error r => exact BracketSeg.congr h rfl rfl rfl rfl rfl
      | ok o => exact submit_wp h.1 h.2

end bracket

/-! ### The other calls -/

/-- What a segment of a kill-switch or position call does: it disarms at most, and sends no bracket. -/
structure OtherSeg (disarms : Bool) (w : From Answer) (s₀ s : World) (t : To Request Returned) : Prop where
  clock : s.monotonic = s₀.monotonic
  armed : (disarms = true → w = .start → s.base.armed = false) ∧
    (disarms = false ∨ w ≠ .start → s.base.armed = s₀.base.armed)
  orders : s.base.ordersToday = s₀.base.ordersToday
  pnl : s.base.dailyPnl = s₀.base.dailyPnl
  executed : s.executedSignalIds = s₀.executedSignalIds
  pending : s.pendingOrdersCount = s₀.pendingOrdersCount
  book : s.book = s₀.book
  unsent : sends t = false

section other
variable {cfg : ExecutionConfig} {disarms : Bool} {w : From Answer} {s₀ s : World}

/-- `OtherSeg` before the segment ends. -/
structure OtherQuiet (disarms : Bool) (w : From Answer) (s₀ s : World) : Prop where
  clock : s.monotonic = s₀.monotonic
  armed : (disarms = true → w = .start → s.base.armed = false) ∧
    (disarms = false ∨ w ≠ .start → s.base.armed = s₀.base.armed)
  orders : s.base.ordersToday = s₀.base.ordersToday
  pnl : s.base.dailyPnl = s₀.base.dailyPnl
  executed : s.executedSignalIds = s₀.executedSignalIds
  pending : s.pendingOrdersCount = s₀.pendingOrdersCount
  book : s.book = s₀.book

theorem OtherQuiet.seg (h : OtherQuiet disarms w s₀ s) {t : To Request Returned} (ht : sends t = false) :
    OtherSeg disarms w s₀ s t :=
  ⟨h.clock, h.armed, h.orders, h.pnl, h.executed, h.pending, h.book, ht⟩

theorem OtherQuiet.congr {s' : World} (h : OtherQuiet disarms w s₀ s) (hm : s'.monotonic = s.monotonic)
    (hb : s'.base = s.base) (he : s'.executedSignalIds = s.executedSignalIds)
    (hp : s'.pendingOrdersCount = s.pendingOrdersCount) (hbook : s'.book = s.book) :
    OtherQuiet disarms w s₀ s' :=
  ⟨hm.trans h.clock, hb ▸ h.armed, hb ▸ h.orders, hb ▸ h.pnl, he.trans h.executed, hp.trans h.pending,
    hbook.trans h.book⟩

theorem OtherQuiet.resume {q : Request} (r : Answer q) (s : World) :
    OtherQuiet disarms (.answer q r) s s :=
  ⟨rfl, ⟨fun _ h => (by cases h), fun _ => rfl⟩, rfl, rfl, rfl, rfl, rfl⟩

theorem OtherQuiet.disarmed (s : World) : OtherQuiet true .start s s.disarm :=
  ⟨rfl, ⟨fun _ _ => rfl, fun h => h.elim (fun h => (by cases h)) fun h => absurd rfl h⟩, rfl, rfl, rfl, rfl, rfl⟩

theorem stable_other {S : Request → Prop} (hS : ∀ b, ¬ S (.placeOso b)) :
    Proc.Stable S (fun w s₀ s q => OtherSeg disarms w s₀ s (.waiting q)) (OtherQuiet disarms) where
  pause {w s₀ s q} hq h := by
    refine h.seg ?_
    cases q with
    | placeOso b => exact absurd hq (hS b)
    | _ => rfl
  resume r s _ := .resume r s

abbrev OtherWp (disarms : Bool) {α : Type} (p : Flow α) (w : From Answer) (s₀ s : World) : Prop :=
  p.wp (fun w s₀ s q => OtherSeg disarms w s₀ s (.waiting q)) (fun _ => OtherQuiet disarms) w s₀ s

theorem onPositions_quiet (r : Answer (.getPositions .sync)) (h : OtherQuiet disarms w s₀ s) :
    OtherQuiet disarms w s₀ (s.onPositions r).1 := by
  unfold World.onPositions
  split
  · split
    · exact h.congr rfl rfl rfl rfl rfl
    · exact h
  all_goals exact h.congr rfl rfl rfl rfl rfl

theorem positionsOrCached_quiet (l : List Position) (h : OtherQuiet disarms w s₀ s) :
    OtherQuiet disarms w s₀ (s.positionsOrCached l).1 := by
  cases l with
  | nil => exact h
  | cons p l => exact h.congr rfl rfl rfl rfl rfl

theorem getPositions_wp {forceRest : Bool} (s : World) :
    OtherWp false (getPositions cfg forceRest) .start s s := by
  have h : OtherQuiet false .start s s := ⟨rfl, ⟨nofun, fun _ => rfl⟩, rfl, rfl, rfl, rfl, rfl⟩
  simp only [OtherWp, getPositions, step, Proc.wp_bind, Proc.wp_modify, Proc.wp_read, Proc.wp_ite,
    Proc.wp_pure, Proc.wp_ask]
  split
  · exact h
  · split
    · refine positionsOrCached_quiet _ ?_
      exact h.congr rfl rfl rfl rfl rfl
    · refine ⟨h.seg rfl, fun r s' => ?_⟩
      have h' : OtherQuiet false (.answer (.getPositions .sync) r) s' s' := .resume r s'
      split
      · exact h'
      · exact positionsOrCached_quiet _ (onPositions_quiet _ h')

end other

/-! ### The machine -/

def contract (cfg : ExecutionConfig) : Call → Contract World Answer Returned
  | .placeBracket sig uuid => BracketSeg cfg sig (sig.idOr uuid)
  | .cancelAll | .flattenAllPositions => OtherSeg true
  | .getPositions _ => OtherSeg false

/-- Every coroutine of the adapter keeps to its contract. -/
theorem machine_obeys (cfg : ExecutionConfig) : (machine cfg).Obeys (contract cfg) := by
  intro c s
  cases c with
  | placeBracket sig uuid =>
    show Proc.wp _ _ (placeBracket cfg sig uuid >>= _) _ _ _
    rw [Proc.wp_bind]
    exact placeBracket_wp cfg sig uuid s
  | cancelAll =>
    show Proc.wp _ _ (cancelAll cfg >>= _) _ _ _
    rw [Proc.wp_bind]
    refine Proc.wp_mono _ (cancelAll_wp (stable_other fun b => ?_) (fun _ _ _ _ h => h.congr rfl rfl rfl rfl rfl)
      (.disarmed s)) fun _ _ _ _ h => h.seg rfl
    exact Bool.false_ne_true
  | flattenAllPositions =>
    show Proc.wp _ _ (flattenAllPositions cfg >>= _) _ _ _
    rw [Proc.wp_bind]
    refine Proc.wp_mono _ (flattenAllPositions_wp (stable_other fun b => ?_) (.disarmed s)) fun _ _ _ _ h =>
      h.seg rfl
    exact Bool.false_ne_true
  | getPositions forceRest =>
    show Proc.wp _ _ (getPositions cfg forceRest >>= _) _ _ _
    rw [Proc.wp_bind]
    exact Proc.wp_mono _ (getPositions_wp s) fun _ _ _ _ h => h.seg rfl

end PearlAlgo
