import Mathlib.Data.List.Induction
import Mathlib.Order.Bounds.Basic
import Mathlib.Tactic.Linarith
import PearlAlgo.MarketAgent.BreakerRuns

/-!
# The session profit lock

The lock is a ratchet over the P&L updates of a session (`profitLock_ratchet`): a peak, a floor that follows it,
and a trip. `should_allow_signal` does not look at it; a lock that has tripped blocks signals through a cooldown
only, and `locked_denied` says which operations leave that in place.
-/

namespace PearlAlgo
open TradingCircuitBreaker

variable {cfg : TradingCircuitBreakerConfig}

/-! ### The lock blocks while its cooldown lasts -/

/-- When the cooldown of the lock ends. -/
def ProfitLock.lockEnd (cfg : TradingCircuitBreakerConfig) (l : ProfitLock) : Option ℚ :=
  l.tripTime.map fun t => t + cfg.sessionProfitLockCooldownMinutes * 60

/-- A winning trade ends a cooldown with this reason. -/
def EndedByWin (cfg : TradingCircuitBreakerConfig) (reason : Option BlockReason) : Prop :=
  cfg.requireWinningTradeToResume = true ∧ (reason = some .consecutiveLosses ∨ reason = some .rollingWinRate)

/-- The cooldown lasts as long as the lock's own would, and no winning trade ends it. -/
def Backed (cfg : TradingCircuitBreakerConfig) (cb : TradingCircuitBreaker) : Prop :=
  ∃ e u, cb.profitLock.lockEnd cfg = some e ∧ cb.cooldownUntil = some u ∧ e ≤ u ∧ ¬ EndedByWin cfg cb.cooldownReason

/-- While the lock is on: signals and status requests come before the end of its cooldown; nobody clears the
cooldown, and a forced one or one of the start ends no earlier; a snapshot that is restored locked brings its
cooldown along. -/
def KeepsLock (cfg : TradingCircuitBreakerConfig) (cb : TradingCircuitBreaker) (a : BreakerAct) : Prop :=
  match a.op with
  | .shouldAllowSignal _ | .getStatus =>
    cb.profitLock.locked = true → ∃ e, cb.profitLock.lockEnd cfg = some e ∧ a.clock.now < e
  | .clearCooldown => cb.profitLock.locked = false
  | .forceCooldown reason minutes => cb.profitLock.locked = true →
    ∃ e, cb.profitLock.lockEnd cfg = some e ∧ e ≤ a.clock.now + minutes * 60 ∧ ¬ EndedByWin cfg (some reason)
  | .hydrateDailyPnl (some pnl) => cb.profitLock.locked = true → pnl ≤ -cfg.maxDailyDrawdown →
    ∃ e, cb.profitLock.lockEnd cfg = some e ∧ e ≤ a.clock.now + minutesUntil a.clock.now a.clock.nextReset * 60
  | .restorePersistedState (some data) => data.locked = true →
    ∃ t u, data.tripTime = some t ∧ data.cooldownUntil = some u ∧ a.clock.now < u ∧
      t + cfg.sessionProfitLockCooldownMinutes * 60 ≤ u ∧ ¬ EndedByWin cfg data.cooldownReason
  | _ => True

/-- A lock that is on has its cooldown. -/
def LockInv (cfg : TradingCircuitBreakerConfig) (cb : TradingCircuitBreaker) : Prop :=
  cb.profitLock.locked = true → Backed cfg cb

section lock
variable {cb cb' : TradingCircuitBreaker}

theorem LockInv.congr (h : LockInv cfg cb) (hlock : cb'.profitLock = cb.profitLock)
    (huntil : cb'.cooldownUntil = cb.cooldownUntil) (hreason : cb'.cooldownReason = cb.cooldownReason) :
    LockInv cfg cb' := by
  unfold LockInv Backed at *
  rwa [hlock, huntil, hreason]

theorem LockInv.of_unlocked (h : cb.profitLock.locked = false) : LockInv cfg cb := by
  intro hlocked
  rw [h] at hlocked
  cases hlocked

theorem LockInv.active (h : LockInv cfg cb) {now : ℚ} (hlocked : cb.profitLock.locked = true)
    (hbefore : ∃ e, cb.profitLock.lockEnd cfg = some e ∧ now < e) : ∃ u, cb.cooldownUntil = some u ∧ now < u := by
  obtain ⟨e, he, hnow⟩ := hbefore
  obtain ⟨e', u, he', hu, hle, -⟩ := h hlocked
  obtain rfl : e = e' := Option.some.inj (he.symm.trans he')
  exact ⟨u, hu, lt_of_lt_of_le hnow hle⟩

theorem lockInv_sync (h : LockInv cfg cb) {clock : Clock} {pnl : ℚ} :
    LockInv cfg (cb.syncBrokerPnl cfg clock pnl).2 := by
  have h' : LockInv cfg { cb with dailyPnl := pnl, sessionPnl := pnl } := h
  unfold syncBrokerPnl
  dsimp only
  split
  · rw [updateSessionProfitLock_eq]
    dsimp only
    unfold ProfitLock.update
    cases htrips : cb.profitLock.trips cfg pnl with
    | true =>
      -- the trip starts the cooldown
      have hlocked : cb.profitLock.locked = false := by simpa using (Bool.and_eq_true_iff.1 htrips).1
      intro _
      simp only [hlocked, ↓reduceIte]
      refine ⟨_, _, rfl, rfl, le_refl _, ?_⟩
      rintro ⟨-, hreason | hreason⟩ <;> cases hreason
    | false =>
      cases hlocked : cb.profitLock.locked with
      | true => simpa [hlocked] using h'
      | false => exact .of_unlocked (by simp [hlocked, ProfitLock.raise])
  · exact h'

theorem lockInv_step (a : BreakerAct) (h : LockInv cfg cb) (hP : KeepsLock cfg cb a) : LockInv cfg (a.apply cfg cb) := by
  obtain ⟨clock, op⟩ := a
  have hlock := @BreakerAct.apply_profitLock cfg cb ⟨clock, op⟩
  cases op with
  | shouldAllowSignal call =>
    by_cases hlocked : cb.profitLock.locked = true
    · obtain ⟨u, hu, hactive⟩ := h.active hlocked (hP hlocked)
      simp only [BreakerAct.apply, decide_of_lt hu hactive]
      exact h
    · exact .of_unlocked (by rw [hlock]; simpa using hlocked)
  | recordTradeResult t =>
    by_cases hlocked : cb.profitLock.locked = true
    · obtain ⟨e, u, he, hu, hle, hreason⟩ := h hlocked
      have hkeeps : ¬ (cfg.requireWinningTradeToResume = true ∧
          (cb.cooldownReason = some .consecutiveLosses ∨ cb.cooldownReason = some .rollingWinRate)) := hreason
      refine h.congr hlock ?_ ?_
      all_goals
        simp only [BreakerAct.apply, recordTradeResult, if_neg hkeeps]
        split <;> rfl
    · exact .of_unlocked (by rw [hlock]; simpa using hlocked)
  | syncBrokerPnl pnl => exact lockInv_sync h
  | resetSession => exact .of_unlocked rfl
  | resetDaily => exact .of_unlocked rfl
  | clearCooldown => exact .of_unlocked hP
  | forceCooldown reason minutes =>
    intro hlocked
    obtain ⟨e, he, hle, hreason⟩ := hP hlocked
    exact ⟨e, _, he, rfl, hle, hreason⟩
  | hydrateDailyPnl pnl =>
    cases pnl with
    | none => exact h
    | some pnl =>
      simp only [BreakerAct.apply, hydrateDailyPnl]
      split
      next hlow =>
        intro hlocked
        obtain ⟨e, he, hle⟩ := hP hlocked hlow
        refine ⟨e, _, he, rfl, hle, ?_⟩
        rintro ⟨-, hreason | hreason⟩ <;> cases hreason
      · exact h
  | restorePersistedState data =>
    cases data with
    | none => exact h
    | some data =>
      intro hlocked
      obtain ⟨t, u, ht, hu, hlive, hle, hreason⟩ := hP hlocked
      refine ⟨t + cfg.sessionProfitLockCooldownMinutes * 60, u, ?_, ?_, hle, ?_⟩
      · simp [BreakerAct.apply, restorePersistedState, ProfitLock.lockEnd, ht]
      · simp [BreakerAct.apply, restorePersistedState, hu, hlive]
      · simpa [BreakerAct.apply, restorePersistedState, hu, hlive] using hreason
  | recordWouldBlock reason => exact h
  | recordShadowOutcome t b =>
    refine h.congr hlock ?_ ?_
    all_goals
      simp only [BreakerAct.apply, recordShadowOutcome]
      split <;> rfl
  | getStatus =>
    by_cases hlocked : cb.profitLock.locked = true
    · obtain ⟨u, hu, hactive⟩ := h.active hlocked (hP hlocked)
      simp only [BreakerAct.apply, isInCooldown_of_lt hu hactive]
      exact h
    · exact .of_unlocked (by rw [hlock]; simpa using hlocked)

end lock

/-- In every run that keeps the lock's cooldown in place, no signal passes a lock that is on. -/
theorem locked_denied (cfg : TradingCircuitBreakerConfig) (acts : List BreakerAct)
    (hP : ∀ p ∈ breakerSteps cfg {} acts, KeepsLock cfg p.1 p.2) :
    ∀ p ∈ breakerSteps cfg {} acts, ∀ call, p.2.op = .shouldAllowSignal call → p.1.profitLock.locked = true →
      (decide cfg p.2.clock call p.1).1.allowed = false := by
  have hinv := (breakerSteps_invariant (I := LockInv cfg) (fun cb a h hP => lockInv_step a h hP) hP
    (.of_unlocked rfl)).1
  rintro ⟨cb, clock, op⟩ hp call hop hlocked
  obtain rfl : op = .shouldAllowSignal call := hop
  obtain ⟨u, hu, hactive⟩ := (hinv _ hp).active hlocked (hP _ hp hlocked)
  rw [decide_of_lt hu hactive]
  rfl

/-- A session that makes 500 dollars and gives all back, and a signal `minutes` later. -/
def trippedSession (minutes : ℚ) : List BreakerAct :=
  [⟨⟨0, 10, 28800⟩, .syncBrokerPnl 500⟩, ⟨⟨60, 10, 28800⟩, .syncBrokerPnl 0⟩,
    ⟨⟨60 + minutes * 60, 10, 28800⟩, .shouldAllowSignal {}⟩]

def lockConfig : TradingCircuitBreakerConfig := { enableSessionProfitLock := true }

theorem locked_denied_tripped :
    ∃ p ∈ breakerSteps lockConfig {} (trippedSession 10), p.1.profitLock.locked = true ∧
      (decide lockConfig p.2.clock {} p.1).1.allowed = false := by
  refine ⟨_, List.mem_cons_of_mem _ (List.mem_cons_of_mem _ List.mem_cons_self), by decide +kernel, ?_⟩
  refine locked_denied lockConfig (trippedSession 10) ?_ _
    (List.mem_cons_of_mem _ (List.mem_cons_of_mem _ List.mem_cons_self)) {} rfl (by decide +kernel)
  intro p hp
  simp only [trippedSession, breakerSteps, List.mem_cons, List.not_mem_nil, or_false] at hp
  rcases hp with rfl | rfl | rfl
  · trivial
  · trivial
  · intro _
    exact ⟨36060, by decide +kernel, by decide +kernel⟩

/-- Ten hours after the trip the cooldown is over and the lock is still on, but a signal passes. -/
theorem locked_allowed : ¬ ∀ cfg acts, ∀ p ∈ breakerSteps cfg {} acts, ∀ call, p.2.op = .shouldAllowSignal call →
    p.1.profitLock.locked = true → (decide cfg p.2.clock call p.1).1.allowed = false := by
  intro h
  have hdenied := h lockConfig (trippedSession 601) _
    (List.mem_cons_of_mem _ (List.mem_cons_of_mem _ List.mem_cons_self)) {} rfl (by decide +kernel)
  exact absurd hdenied (by decide +kernel)

/-! ### The ratchet -/

/-- The highest of the updates, at least zero. -/
def peak (pnls : List ℚ) : ℚ := pnls.foldl max 0

/-- The floor that a peak proposes: what is retained of it, at least the configured minimum. -/
def proposedFloor (cfg : TradingCircuitBreakerConfig) (peak : ℚ) : ℚ :=
  max (peak * (1 - cfg.sessionProfitLockRetracementPct)) cfg.sessionProfitLockMinFloorUsd

/-- The floors that were proposed since the lock was armed, that is, since the peak reached the activation. -/
def floors (cfg : TradingCircuitBreakerConfig) (pnls : List ℚ) : Set ℚ :=
  {f | ∃ part, part ≠ [] ∧ part <+: pnls ∧ cfg.sessionProfitLockActivationUsd ≤ peak part ∧
    f = proposedFloor cfg (peak part)}

/-- The floor is the greatest that was proposed; without a proposal there is none. -/
def IsFloor (cfg : TradingCircuitBreakerConfig) (pnls : List ℚ) : Option ℚ → Prop
  | some f => IsGreatest (floors cfg pnls) f
  | none => floors cfg pnls = ∅

/-- The last of the updates is at the floor or below. -/
def TripsAt (cfg : TradingCircuitBreakerConfig) (pnls : List ℚ) : Prop :=
  ∃ f p, IsGreatest (floors cfg pnls) f ∧ pnls.getLast? = some p ∧ p ≤ f

/-- The lock after the updates: it is on if and only if one of them was at the floor or below, and it stays as
it was after the first that was. -/
def Ratchet (cfg : TradingCircuitBreakerConfig) (pnls : List ℚ) (l : ProfitLock) : Prop :=
  ∃ seen rest, pnls = seen ++ rest ∧ l.hwm = peak seen ∧ IsFloor cfg seen l.floor ∧
    (l.locked = true ↔ TripsAt cfg seen) ∧ (rest ≠ [] → l.locked = true) ∧
    ∀ part, part <+: seen → part ≠ seen → ¬ TripsAt cfg part

@[simp] theorem peak_append (pnls : List ℚ) (pnl : ℚ) : peak (pnls ++ [pnl]) = max (peak pnls) pnl := by
  simp [peak]

theorem floors_nil : floors cfg [] = ∅ := by
  refine Set.eq_empty_of_forall_notMem ?_
  rintro f ⟨part, hne, hpart, -⟩
  exact hne (List.prefix_nil.1 hpart)

theorem floors_append (pnls : List ℚ) (pnl : ℚ) : floors cfg (pnls ++ [pnl]) =
    if cfg.sessionProfitLockActivationUsd ≤ max (peak pnls) pnl then
      insert (proposedFloor cfg (max (peak pnls) pnl)) (floors cfg pnls)
    else floors cfg pnls := by
  ext f
  have hsplit : f ∈ floors cfg (pnls ++ [pnl]) ↔ f ∈ floors cfg pnls ∨
      cfg.sessionProfitLockActivationUsd ≤ max (peak pnls) pnl ∧ f = proposedFloor cfg (max (peak pnls) pnl) := by
    constructor
    · rintro ⟨part, hne, hpart, hactive, rfl⟩
      rcases List.prefix_concat_iff.1 hpart with rfl | hpart
      · rw [peak_append] at hactive ⊢
        exact .inr ⟨hactive, rfl⟩
      · exact .inl ⟨part, hne, hpart, hactive, rfl⟩
    · rintro (⟨part, hne, hpart, hactive, rfl⟩ | ⟨hactive, rfl⟩)
      · exact ⟨part, hne, hpart.trans (List.prefix_append _ _), hactive, rfl⟩
      · refine ⟨pnls ++ [pnl], by simp, List.prefix_rfl, ?_, ?_⟩ <;> rw [peak_append]
        exact hactive
  rw [hsplit]
  split
  next hactive => simp [hactive, or_comm]
  next hactive => simp [hactive]

theorem isFloor_append {pnls : List ℚ} {pnl : ℚ} {l : ProfitLock} (hhwm : l.hwm = peak pnls)
    (h : IsFloor cfg pnls l.floor) : IsFloor cfg (pnls ++ [pnl]) (l.raise cfg pnl).floor := by
  have hfloors := @floors_append cfg pnls pnl
  simp only [ProfitLock.raise, hhwm]
  split
  next hactive =>
    rw [if_pos hactive] at hfloors
    show IsGreatest (floors cfg (pnls ++ [pnl])) _
    rw [hfloors]
    cases hfloor : l.floor with
    | none =>
      rw [hfloor] at h
      have hempty : floors cfg pnls = ∅ := h
      rw [hempty]
      simp [proposedFloor]
    | some f =>
      rw [hfloor] at h
      exact IsGreatest.insert _ h
  next hactive =>
    rw [if_neg hactive] at hfloors
    cases hfloor : l.floor with
    | none =>
      rw [hfloor] at h
      exact hfloors.trans h
    | some f =>
      rw [hfloor] at h
      show IsGreatest (floors cfg (pnls ++ [pnl])) f
      rw [hfloors]
      exact h

theorem not_tripsAt_nil : ¬ TripsAt cfg [] := by
  rintro ⟨f, p, -, hlast, -⟩
  cases hlast

theorem trips_iff {pnls : List ℚ} {pnl : ℚ} {l : ProfitLock} (hlocked : l.locked = false)
    (h : IsFloor cfg (pnls ++ [pnl]) (l.raise cfg pnl).floor) :
    l.trips cfg pnl = true ↔ TripsAt cfg (pnls ++ [pnl]) := by
  have hlast : (pnls ++ [pnl]).getLast? = some pnl := List.getLast?_concat
  simp only [ProfitLock.trips, hlocked, Bool.not_false, Bool.true_and]
  cases hfloor : (l.raise cfg pnl).floor with
  | none =>
    rw [hfloor] at h
    have hempty : floors cfg (pnls ++ [pnl]) = ∅ := h
    constructor
    · intro hany
      simp at hany
    · rintro ⟨f, p, hf, -, -⟩
      have hmem := hf.1
      rw [hempty] at hmem
      exact absurd hmem (Set.notMem_empty f)
  | some f =>
    rw [hfloor] at h
    have hgreatest : IsGreatest (floors cfg (pnls ++ [pnl])) f := h
    constructor
    · intro hany
      exact ⟨f, pnl, hgreatest, hlast, by simpa using hany⟩
    · rintro ⟨f', p, hf', hp, hle⟩
      obtain rfl : f' = f := hf'.unique hgreatest
      obtain rfl : p = pnl := Option.some.inj (hp.symm.trans hlast)
      simpa using hle

theorem Ratchet.update {pnls : List ℚ} {l : ProfitLock} (h : Ratchet cfg pnls l) (clock : Clock) (pnl : ℚ) :
    Ratchet cfg (pnls ++ [pnl]) (l.update cfg clock pnl) := by
  obtain ⟨seen, rest, rfl, hhwm, hfloor, hlocked, hrest, hparts⟩ := h
  unfold ProfitLock.update
  cases hl : l.locked with
  | true =>
    rw [if_pos rfl]
    exact ⟨seen, rest ++ [pnl], by rw [List.append_assoc], hhwm, hfloor, hlocked, fun _ => hl, hparts⟩
  | false =>
    have hnil : rest = [] := by
      by_contra hne
      rw [hrest hne] at hl
      cases hl
    subst hnil
    rw [List.append_nil, if_neg (by simp)]
    have hfloor' := @isFloor_append cfg seen pnl l hhwm hfloor
    have htrips := trips_iff hl hfloor'
    have hhwm' : (l.raise cfg pnl).hwm = peak (seen ++ [pnl]) := by
      rw [peak_append, ← hhwm]
      rfl
    have hparts' : ∀ part, part <+: seen ++ [pnl] → part ≠ seen ++ [pnl] → ¬ TripsAt cfg part := by
      intro part hpart hne
      have hpart := (List.prefix_concat_iff.1 hpart).resolve_left hne
      by_cases heq : part = seen
      · rw [heq, ← hlocked, hl]
        exact Bool.false_ne_true
      · exact hparts part hpart heq
    split
    next ht => exact ⟨_, [], (List.append_nil _).symm, hhwm', hfloor', by simp [htrips.1 ht], by simp, hparts'⟩
    next ht =>
      have hunlocked : (l.raise cfg pnl).locked = false := hl
      refine ⟨_, [], (List.append_nil _).symm, hhwm', hfloor', ?_, by simp, hparts'⟩
      rw [← htrips]
      simp [hunlocked, ht]

def BreakerAct.lockUpdate (cfg : TradingCircuitBreakerConfig) (a : BreakerAct) : Option ℚ :=
  match a.op with
  | .syncBrokerPnl pnl => if cfg.enableSessionProfitLock then some pnl else none
  | _ => none

/-- The operation is not a reset, and restores nothing. -/
def BreakerAct.InSession (a : BreakerAct) : Prop :=
  match a.op with
  | .resetSession | .resetDaily | .restorePersistedState (some _) => False
  | _ => True

theorem Ratchet.apply {pnls : List ℚ} {cb : TradingCircuitBreaker} (h : Ratchet cfg pnls cb.profitLock) {a : BreakerAct}
    (ha : a.InSession) : Ratchet cfg (pnls ++ (a.lockUpdate cfg).toList) (a.apply cfg cb).profitLock := by
  rw [BreakerAct.apply_profitLock]
  obtain ⟨clock, op⟩ := a
  cases op with
  | syncBrokerPnl pnl =>
    simp only [BreakerAct.lockUpdate]
    split
    · exact h.update clock pnl
    · simpa using h
  | resetSession => exact ha.elim
  | resetDaily => exact ha.elim
  | restorePersistedState data =>
    cases data with
    | none => simpa [BreakerAct.lockUpdate, restorePersistedState] using h
    | some data => exact ha.elim
  | _ => simpa [BreakerAct.lockUpdate] using h

theorem Ratchet.run {pnls : List ℚ} {cb : TradingCircuitBreaker} (h : Ratchet cfg pnls cb.profitLock)
    {acts : List BreakerAct} (hacts : ∀ a ∈ acts, a.InSession) :
    Ratchet cfg (pnls ++ acts.filterMap (BreakerAct.lockUpdate cfg)) (runBreaker cfg cb acts).profitLock := by
  induction acts generalizing pnls cb with
  | nil => simpa using h
  | cons a acts ih =>
    have hstep := ih (h.apply (hacts a List.mem_cons_self)) fun a' ha' => hacts a' (List.mem_cons_of_mem _ ha')
    rw [List.append_assoc] at hstep
    cases hupdate : a.lockUpdate cfg with
    | none => simpa [hupdate] using hstep
    | some pnl => simpa [hupdate] using hstep

theorem Ratchet.init : Ratchet cfg [] {} := by
  refine ⟨[], [], rfl, rfl, floors_nil, ?_, by simp, ?_⟩
  · simp [not_tripsAt_nil]
  · intro part hpart hne
    exact absurd (List.prefix_nil.1 hpart) hne

/-! ### The floor -/

theorem peak_mono {part pnls : List ℚ} (h : part <+: pnls) : peak part ≤ peak pnls := by
  obtain ⟨rest, rfl⟩ := h
  induction rest using List.reverseRecOn with
  | nil => simp
  | append_singleton rest pnl ih =>
    rw [← List.append_assoc, peak_append]
    exact ih.trans (le_max_left _ _)

/-- When no more than all is given back, the highest peak proposes the greatest floor. -/
theorem IsFloor.eq_proposed (hpct : cfg.sessionProfitLockRetracementPct ≤ 1) {pnls : List ℚ} {f : ℚ}
    (h : IsFloor cfg pnls (some f)) : f = proposedFloor cfg (peak pnls) := by
  have hgreatest : IsGreatest (floors cfg pnls) f := h
  obtain ⟨part, hne, hpart, hactive, hf⟩ := hgreatest.1
  have hpeak := peak_mono hpart
  have hpnls : pnls ≠ [] := by
    rintro rfl
    exact hne (List.prefix_nil.1 hpart)
  refine le_antisymm ?_ (hgreatest.2 ⟨pnls, hpnls, List.prefix_rfl, hactive.trans hpeak, rfl⟩)
  have hretained : peak part * (1 - cfg.sessionProfitLockRetracementPct) ≤
      peak pnls * (1 - cfg.sessionProfitLockRetracementPct) := mul_le_mul_of_nonneg_right hpeak (by linarith)
  rw [hf]
  exact max_le_max hretained (le_refl _)

theorem apply_floor_le {cb : TradingCircuitBreaker} {a : BreakerAct} (ha : a.InSession) {f : ℚ}
    (h : cb.profitLock.floor = some f) : ∃ f', (a.apply cfg cb).profitLock.floor = some f' ∧ f ≤ f' := by
  rw [BreakerAct.apply_profitLock]
  have hraise (pnl : ℚ) : ∃ f', (cb.profitLock.raise cfg pnl).floor = some f' ∧ f ≤ f' := by
    simp only [ProfitLock.raise, h]
    split
    · exact ⟨_, rfl, le_max_right _ _⟩
    · exact ⟨f, rfl, le_refl f⟩
  obtain ⟨clock, op⟩ := a
  cases op with
  | syncBrokerPnl pnl =>
    dsimp only
    split
    · unfold ProfitLock.update
      split
      · exact ⟨f, h, le_refl f⟩
      · split <;> exact hraise pnl
    · exact ⟨f, h, le_refl f⟩
  | resetSession => exact ha.elim
  | resetDaily => exact ha.elim
  | restorePersistedState data =>
    cases data with
    | none => exact ⟨f, h, le_refl f⟩
    | some data => exact ha.elim
  | _ => exact ⟨f, h, le_refl f⟩

theorem run_floor_le {cb : TradingCircuitBreaker} {acts : List BreakerAct} (hacts : ∀ a ∈ acts, a.InSession) {f : ℚ}
    (h : cb.profitLock.floor = some f) : ∃ f', (runBreaker cfg cb acts).profitLock.floor = some f' ∧ f ≤ f' := by
  induction acts generalizing cb f with
  | nil => exact ⟨f, h, le_refl f⟩
  | cons a acts ih =>
    obtain ⟨f₁, h₁, hle₁⟩ := @apply_floor_le cfg cb a (hacts a List.mem_cons_self) f h
    obtain ⟨f₂, h₂, hle₂⟩ := ih (fun a' ha' => hacts a' (List.mem_cons_of_mem _ ha')) h₁
    exact ⟨f₂, h₂, hle₁.trans hle₂⟩

/-- Between two resets the lock is the ratchet of the P&L updates, and its floor is never lowered; when no more
than all may be given back, the floor is what the high-water mark proposes. -/
theorem profitLock_ratchet (cfg : TradingCircuitBreakerConfig) (cb : TradingCircuitBreaker) (acts : List BreakerAct)
    (hacts : ∀ a ∈ acts, a.InSession) :
    Ratchet cfg (acts.filterMap (BreakerAct.lockUpdate cfg)) (runBreaker cfg cb.resetSession acts).profitLock ∧
      (∀ acts₁ acts₂, acts = acts₁ ++ acts₂ →
        ∀ f, (runBreaker cfg cb.resetSession acts₁).profitLock.floor = some f →
          ∃ f', (runBreaker cfg cb.resetSession acts).profitLock.floor = some f' ∧ f ≤ f') ∧
      (cfg.sessionProfitLockRetracementPct ≤ 1 →
        ∀ f, (runBreaker cfg cb.resetSession acts).profitLock.floor = some f →
          f = proposedFloor cfg (runBreaker cfg cb.resetSession acts).profitLock.hwm) := by
  have hratchet : Ratchet cfg (acts.filterMap (BreakerAct.lockUpdate cfg))
      (runBreaker cfg cb.resetSession acts).profitLock := @Ratchet.run cfg [] cb.resetSession .init acts hacts
  refine ⟨hratchet, ?_, ?_⟩
  · rintro acts₁ acts₂ rfl f hf
    rw [runBreaker_append]
    exact run_floor_le (fun a ha => hacts a (List.mem_append_right _ ha)) hf
  · intro hpct f hf
    obtain ⟨seen, rest, -, hhwm, hfloor, -⟩ := hratchet
    rw [hf] at hfloor
    rw [hhwm]
    exact hfloor.eq_proposed hpct

theorem profitLock_ratchet_tripped :
    (trippedSession 10).filterMap (BreakerAct.lockUpdate lockConfig) = [500, 0] ∧
      Ratchet lockConfig [500, 0] (runBreaker lockConfig {} (trippedSession 10)).profitLock := by
  have hupdates : (trippedSession 10).filterMap (BreakerAct.lockUpdate lockConfig) = [500, 0] := by decide +kernel
  have hratchet := (profitLock_ratchet lockConfig {} (trippedSession 10) (by
    intro a ha
    simp only [trippedSession, List.mem_cons, List.not_mem_nil, or_false] at ha
    rcases ha with rfl | rfl | rfl <;> trivial)).1
  rw [hupdates] at hratchet
  exact ⟨hupdates, hratchet⟩

/-- One and a half times the peak may be given back: a higher peak proposes a lower floor, which is not taken. -/
theorem floor_not_proposed : ¬ ∀ cfg (cb : TradingCircuitBreaker) acts, (∀ a ∈ acts, BreakerAct.InSession a) →
    ∀ f, (runBreaker cfg cb.resetSession acts).profitLock.floor = some f →
      f = proposedFloor cfg (runBreaker cfg cb.resetSession acts).profitLock.hwm := by
  intro h
  have hfloor := h { lockConfig with sessionProfitLockRetracementPct := 3/2, sessionProfitLockMinFloorUsd := -1000 } {}
    [⟨⟨0, 10, 28800⟩, .syncBrokerPnl 300⟩, ⟨⟨60, 10, 28800⟩, .syncBrokerPnl 400⟩] (by
      intro a ha
      simp only [List.mem_cons, List.not_mem_nil, or_false] at ha
      rcases ha with rfl | rfl <;> trivial) (-150) (by decide +kernel)
  exact absurd hfloor (by decide +kernel)

end PearlAlgo
