import PearlAlgo.Tradovate.EventLoop

/-!
# The cooldown after a rate limit (`execution/tradovate/adapter.py`)

The calls of `get_positions` alone, on the event loop, with everything that may happen around them. A call that the
cooldown suppresses raises within the handler of a real 429, and so backs off once more; an answer without an open
position leaves the backoff. `recovers_iff` says when a run's cooldowns end and its backoff returns to its base.
-/

namespace PearlAlgo
open Py Coop

abbrev PositionsTurn : Type := Turn World Answer (Except Err (List Position)) Bool EnvEvent
abbrev PositionsView : Type := View World Answer (Except Err (List Position)) Bool EnvEvent
abbrev PositionsAct : Type := Act Bool EnvEvent Answer

/-- A call is named by its `force_rest`. -/
def positionsMachine (cfg : ExecutionConfig) : Machine World Answer (Except Err (List Position)) Bool EnvEvent :=
  ⟨getPositions cfg, envStep cfg⟩

/-- The segment begins with a real 429 answer. -/
def rateLimited : From Answer → Bool
  | .answer (.getPositions .sync) r =>
    match (r : Except Err (Option (List (Option PositionRow)))) with
    | .error (.api .rateLimit) => true
    | _ => false
  | _ => false

/-- The rows of a successful answer, each of which is a dictionary. -/
def answeredRows : From Answer → Option (List (Option PositionRow))
  | .answer (.getPositions .sync) r =>
    match (r : Except Err (Option (List (Option PositionRow)))) with
    | .ok (some rows) => if rows.all Option.isSome then some rows else none
    | _ => none
  | _ => none

/-- When the cooldown of the last real 429 answer ends. -/
def cooldownEnd : List PositionsTurn → Option ℚ
  | [] => none
  | .seg _ w s₀ s _ :: log => if rateLimited w then some (s₀.monotonic + s.rateLimitBackoff) else cooldownEnd log
  | .env _ _ _ :: log => cooldownEnd log

/-- What the turn after `log` has to do: a call after the cooldown of the last real 429 asks the broker, one that does not
ask leaves the cooldown and the backoff, and a successful answer resets the backoff. -/
def Recovers (cfg : ExecutionConfig) (log : List PositionsTurn) : PositionsTurn → Prop
  | .seg _ w s₀ s t =>
    (w = .start → cfg.mode ≠ .dryRun → s₀.isConnected = true → (∃ d ∈ cooldownEnd log, d ≤ s₀.monotonic) →
      t.isWaiting = true) ∧
    (w = .start → t.isWaiting = false →
      s.rateLimitUntil = s₀.rateLimitUntil ∧ s.rateLimitBackoff = s₀.rateLimitBackoff) ∧
    ((answeredRows w).isSome = true → s.rateLimitBackoff = 0)
  | .env _ _ _ => True

/-- Every turn of the log, the latest first, does so. -/
def RecoversAll (cfg : ExecutionConfig) : List PositionsTurn → Prop
  | [] => True
  | turn :: log => Recovers cfg log turn ∧ RecoversAll cfg log

/-- The turn is no call during a cooldown, unless the longest one has begun this instant, and no successful answer without
an open position while there is a backoff. -/
def Undisturbed (cfg : ExecutionConfig) : PositionsTurn → Prop
  | .seg forceRest w s₀ _ _ =>
    (w = .start → forceRest = false → cfg.mode ≠ .dryRun → s₀.isConnected = true → s₀.monotonic < s₀.rateLimitUntil →
      s₀.rateLimitBackoff = 300 ∧ s₀.rateLimitUntil = s₀.monotonic + 300) ∧
    (∀ rows ∈ answeredRows w, s₀.rateLimitBackoff = 0 ∨ openPositions rows ≠ [])
  | .env _ _ _ => True

/-! ### One segment -/

/-- What a segment of `get_positions` does. -/
def PositionsSeg (cfg : ExecutionConfig) (forceRest : Bool) : Contract World Answer (Except Err (List Position))
  | .start, s₀, s, t =>
    if cfg.mode = .dryRun ∨ ¬ s₀.isConnected then s = s₀ ∧ t.isWaiting = false
    else if ¬ forceRest ∧ s₀.monotonic < s₀.rateLimitUntil then s = s₀.backOff ∧ t.isWaiting = false
    else s = s₀ ∧ t.isWaiting = true
  | .answer (.getPositions .sync) r, s₀, s, _ =>
    s = s₀ ∧ rateLimited (.answer (.getPositions .sync) r) = false ∧ answeredRows (.answer (.getPositions .sync) r) = none ∨
      s = ((s₀.onPositions r).1.positionsOrCached (s₀.onPositions r).2).1
  | .answer _ _, _, _, _ => False

theorem positionsMachine_obeys (cfg : ExecutionConfig) : (positionsMachine cfg).Obeys (PositionsSeg cfg) := by
  intro forceRest s
  show Proc.wp _ _ (getPositions cfg forceRest) _ _ _
  simp only [getPositions, step, Proc.wp_bind, Proc.wp_modify, Proc.wp_read, Proc.wp_ite, Proc.wp_pure, Proc.wp_ask]
  split
  next hidle =>
    show if _ then _ else _
    rw [if_pos hidle]
    exact ⟨rfl, rfl⟩
  next hidle =>
    split
    next hcool =>
      show if _ then _ else _
      rw [if_neg hidle, if_pos hcool]
      exact ⟨rfl, rfl⟩
    next hcool =>
      refine ⟨?_, fun r s' => ?_⟩
      · show if _ then _ else _
        rw [if_neg hidle, if_neg hcool]
        exact ⟨rfl, rfl⟩
      · split
        · exact .inl ⟨rfl, rfl, rfl⟩
        · exact .inr rfl

/-! ### The run -/

section turns
variable {cfg : ExecutionConfig} {log : List PositionsTurn} {forceRest : Bool} {w : From Answer} {s₀ s : World}
  {t : To Request (Except Err (List Position))}

/-- The broker's answer moves the end of the cooldown exactly where it is a 429. -/
theorem rateLimitUntil_onPositions (r : Answer (.getPositions .sync)) (w : World) :
    let w' := ((w.onPositions r).1.positionsOrCached (w.onPositions r).2).1
    w'.rateLimitUntil = if rateLimited (.answer (.getPositions .sync) r) then w.monotonic + w'.rateLimitBackoff
      else w.rateLimitUntil := by
  have hcached (l : List Position) (w : World) : (w.positionsOrCached l).1.rateLimitUntil = w.rateLimitUntil := by
    cases l with
    | nil => rfl
    | cons p l => rfl
  dsimp only
  rw [hcached]
  cases r with
  | error e =>
    cases e with
    | api e =>
      cases e with
      | _ => rfl
    | _ => rfl
  | ok rows =>
    cases rows with
    | none => rfl
    | some rows =>
      show (w.onPositions (.ok (some rows))).1.rateLimitUntil = w.rateLimitUntil
      unfold World.onPositions
      dsimp only
      split
      · rfl
      · rfl

/-- A successful answer resets the backoff exactly where there is none or a position is open. -/
theorem rateLimitBackoff_onPositions {r : Answer (.getPositions .sync)} {rows : List (Option PositionRow)}
    (hrows : answeredRows (.answer (.getPositions .sync) r) = some rows) (w : World) :
    ((w.onPositions r).1.positionsOrCached (w.onPositions r).2).1.rateLimitBackoff = 0 ↔
      w.rateLimitBackoff = 0 ∨ openPositions rows ≠ [] := by
  have hcached (l : List Position) (w : World) :
      (w.positionsOrCached l).1.rateLimitBackoff = 0 ↔ w.rateLimitBackoff = 0 ∨ l ≠ [] := by
    cases l with
    | nil => simp [World.positionsOrCached]
    | cons p l => simp [World.positionsOrCached]
  rw [hcached]
  unfold answeredRows at hrows
  dsimp only at hrows
  split at hrows
  next rows' =>
    split at hrows
    next hall =>
      obtain rfl := Option.some.inj hrows
      unfold World.onPositions
      dsimp only
      rw [if_pos hall]
    · cases hrows
  · cases hrows

theorem rateLimitUntil_envStep (cfg : ExecutionConfig) (e : EnvEvent) (w : World) :
    (envStep cfg e w).rateLimitUntil = w.rateLimitUntil := by
  cases e with
  | wsEvent e =>
    cases e with
    | order id ordStatus =>
      show (w.onOrder id ordStatus).rateLimitUntil = _
      unfold World.onOrder
      split
      · rfl
      · rfl
    | fill orderId qty =>
      show (w.onFill orderId qty).rateLimitUntil = _
      unfold World.onFill
      split
      · rfl
      · dsimp only
        split
        · rfl
        · rfl
    | position row => rfl
  | _ => rfl

theorem backOff_eq_iff (w : World) :
    w.backOff.rateLimitUntil = w.rateLimitUntil ∧ w.backOff.rateLimitBackoff = w.rateLimitBackoff ↔
      w.rateLimitBackoff = 300 ∧ w.rateLimitUntil = w.monotonic + 300 := by
  unfold World.backOff
  dsimp only
  split
  next hzero =>
    have hmin : min ((30 : ℚ) * 2) 300 = 60 := by norm_num
    rw [hmin, hzero]
    constructor
    · rintro ⟨-, h⟩
      norm_num at h
    · rintro ⟨h, -⟩
      norm_num at h
  next hzero =>
    constructor
    · rintro ⟨huntil, hbackoff⟩
      rcases min_choice (w.rateLimitBackoff * 2) 300 with hmin | hmin
      · rw [hmin] at hbackoff
        exact absurd (by linarith) hzero
      · rw [hmin] at huntil hbackoff
        exact ⟨hbackoff.symm, huntil.symm⟩
    · rintro ⟨hbackoff, huntil⟩
      have hmin : min ((300 : ℚ) * 2) 300 = 300 := by norm_num
      rw [hbackoff, hmin]
      exact ⟨huntil.symm, rfl⟩

/-- While all turns are undisturbed, the cooldown ends as the last real 429 answer has set it. -/
structure CooldownInv (cfg : ExecutionConfig) (v : PositionsView) : Prop where
  recovers : RecoversAll cfg v.log ↔ ∀ turn ∈ v.log, Undisturbed cfg turn
  until_ : (∀ turn ∈ v.log, Undisturbed cfg turn) → ∀ d ∈ cooldownEnd v.log, v.shared.rateLimitUntil = d

/-- The answer that a segment begins with, and what it does to the cooldown and the backoff. -/
theorem PositionsSeg.answered {q : Request} {r : Answer q} (hk : PositionsSeg cfg forceRest (.answer q r) s₀ s t) :
    (rateLimited (.answer q r) = true → s.rateLimitUntil = s₀.monotonic + s.rateLimitBackoff) ∧
    (rateLimited (.answer q r) = false → s.rateLimitUntil = s₀.rateLimitUntil) ∧
    ∀ rows ∈ answeredRows (.answer q r),
      (s.rateLimitBackoff = 0 ↔ s₀.rateLimitBackoff = 0 ∨ openPositions rows ≠ []) := by
  cases q with
  | getPositions caller =>
    cases caller with
    | sync =>
      rcases hk with ⟨rfl, hlimit, hrows⟩ | rfl
      · rw [hlimit, hrows]
        exact ⟨nofun, fun _ => rfl, nofun⟩
      · have huntil := rateLimitUntil_onPositions r s₀
        dsimp only at huntil
        refine ⟨fun hlimit => ?_, fun hlimit => ?_, fun rows hrows => rateLimitBackoff_onPositions hrows s₀⟩
        · rw [if_pos hlimit] at huntil
          exact huntil
        · rw [hlimit] at huntil
          exact huntil
    | _ => exact hk.elim
  | _ => exact hk.elim

theorem recovers_start {v : PositionsView} (hk : PositionsSeg cfg forceRest .start v.shared s t)
    (huntil : ∀ d ∈ cooldownEnd v.log, v.shared.rateLimitUntil = d) :
    Recovers cfg v.log (.seg forceRest .start v.shared s t) ↔ Undisturbed cfg (.seg forceRest .start v.shared s t) := by
  simp only [PositionsSeg] at hk
  simp only [Recovers, Undisturbed]
  split at hk
  next hidle =>
    obtain ⟨rfl, ht⟩ := hk
    have hnot : cfg.mode ≠ .dryRun → v.shared.isConnected = true → False := fun hmode hconn =>
      hidle.elim hmode fun h => h hconn
    exact iff_of_true ⟨fun _ hmode hconn => (hnot hmode hconn).elim, fun _ _ => ⟨rfl, rfl⟩, nofun⟩
      ⟨fun _ _ hmode hconn => (hnot hmode hconn).elim, nofun⟩
  next hidle =>
    obtain ⟨hmode, hconn⟩ := not_or.1 hidle
    split at hk
    next hcool =>
      obtain ⟨rfl, ht⟩ := hk
      constructor
      · rintro ⟨-, hsame, -⟩
        exact ⟨fun _ _ _ _ _ => (backOff_eq_iff v.shared).1 (hsame trivial ht), nofun⟩
      · rintro ⟨hquiet, -⟩
        refine ⟨?_, ?_, nofun⟩
        · rintro _ _ _ ⟨d, hd, hle⟩
          have hd := huntil d hd
          exact absurd hcool.2 (not_lt.2 (hd ▸ hle))
        · intro _ _
          exact (backOff_eq_iff v.shared).2 (hquiet trivial (by simpa using hcool.1) hmode (not_not.1 hconn) hcool.2)
    next hcool =>
      obtain ⟨rfl, ht⟩ := hk
      refine iff_of_true ⟨fun _ _ _ _ => ht, fun _ hdone => ?_, nofun⟩ ⟨fun _ hforce _ _ hlt => ?_, nofun⟩
      · rw [ht] at hdone
        cases hdone
      · exact absurd ⟨by simpa using hforce, hlt⟩ hcool

theorem CooldownInv.seg {v : PositionsView} (h : CooldownInv cfg v) (hk : PositionsSeg cfg forceRest w v.shared s t)
    (calls : List (Bool × To Request (Except Err (List Position)))) :
    CooldownInv cfg ⟨s, calls, .seg forceRest w v.shared s t :: v.log⟩ := by
  -- the new turn is judged where all turns before it are undisturbed
  have hturn (hall : ∀ turn ∈ v.log, Undisturbed cfg turn) :
      (Recovers cfg v.log (.seg forceRest w v.shared s t) ↔ Undisturbed cfg (.seg forceRest w v.shared s t)) := by
    have huntil := h.until_ hall
    cases w with
    | start => exact recovers_start hk huntil
    | answer q r =>
      obtain ⟨-, -, hreset⟩ := hk.answered
      simp only [Recovers, Undisturbed]
      constructor
      · rintro ⟨-, -, hzero⟩
        exact ⟨nofun, fun rows hrows => (hreset rows hrows).1 (hzero (Option.isSome_of_mem hrows))⟩
      · rintro ⟨-, hopen⟩
        refine ⟨nofun, nofun, fun hsome => ?_⟩
        obtain ⟨rows, hrows⟩ := Option.isSome_iff_exists.1 hsome
        exact (hreset rows hrows).2 (hopen rows hrows)
  refine ⟨?_, ?_⟩
  · show Recovers _ _ _ ∧ RecoversAll cfg v.log ↔ _
    rw [List.forall_mem_cons, h.recovers]
    exact and_congr_left hturn
  · intro hall d hd
    obtain ⟨hnew, hlog⟩ := List.forall_mem_cons.1 hall
    have huntil := h.until_ hlog
    cases w with
    | start =>
      have hsame : s.rateLimitUntil = v.shared.rateLimitUntil := by
        simp only [PositionsSeg] at hk
        split at hk
        · rw [hk.1]
        next hidle =>
          obtain ⟨hmode, hconn⟩ := not_or.1 hidle
          split at hk
          next hcool =>
            rw [hk.1]
            have hlongest := hnew.1 rfl (by simpa using hcool.1) hmode (not_not.1 hconn) hcool.2
            exact ((backOff_eq_iff v.shared).2 hlongest).1
          next => rw [hk.1]
      exact hsame.trans (huntil d hd)
    | answer q r =>
      obtain ⟨hlimited, hother, -⟩ := hk.answered
      simp only [cooldownEnd] at hd
      split at hd
      next hlimit =>
        obtain rfl := Option.some.inj hd
        exact hlimited hlimit
      next hlimit => exact (hother (Bool.eq_false_iff.2 hlimit)).trans (huntil d hd)

theorem cooldownInv_step (v : PositionsView) (a : PositionsAct) (v' : PositionsView) (h : CooldownInv cfg v) (_ : True)
    (hm : (positionsMachine cfg).Move (PositionsSeg cfg) v a v') : CooldownInv cfg v' := by
  cases hm with
  | spawn hk => exact h.seg hk _
  | resume hi hk => exact h.seg hk _
  | @env e =>
    refine ⟨?_, ?_⟩
    · show True ∧ RecoversAll cfg v.log ↔ _
      rw [List.forall_mem_cons, h.recovers]
      exact Iff.rfl
    · intro hall d hd
      have hrest := h.until_ (List.forall_mem_cons.1 hall).2 d hd
      exact (rateLimitUntil_envStep cfg e v.shared).trans hrest

theorem cooldownInv_start (w : World) :
    CooldownInv cfg (Machine.init w : Sys World Answer (Except Err (List Position)) Bool EnvEvent).view := by
  have hlog : (Machine.init w : Sys World Answer (Except Err (List Position)) Bool EnvEvent).view.log = [] := rfl
  refine ⟨?_, ?_⟩
  · rw [hlog]
    simp [RecoversAll]
  · rw [hlog]
    simp [cooldownEnd]

end turns

/-- In every run of the calls, each cooldown ends after its length and the backoff is reset by every successful answer
exactly when all turns are undisturbed. -/
theorem recovers_iff (cfg : ExecutionConfig) (t : ℚ) (acts : List PositionsAct)
    {s : Sys World Answer (Except Err (List Position)) Bool EnvEvent}
    (hrun : (positionsMachine cfg).run (Machine.init (World.init cfg t)) acts = some s) :
    RecoversAll cfg s.log ↔ ∀ turn ∈ s.log, Undisturbed cfg turn :=
  (Machine.invariant (positionsMachine_obeys cfg) cooldownInv_step (Machine.ok_init _) (cooldownInv_start _)
    (Machine.admits_true _ acts) hrun).2.recovers

/-- Every request is rate limited. -/
def limitAll : (q : Request) → Answer q
  | .getPositions .sync => .error (.api .rateLimit)
  | q => acceptAll q

/-- A connected adapter's call is rate limited. -/
def limited : List PositionsAct :=
  [.env (.connection true true), .env tenSeconds, .spawn false, .resume 0 limitAll]

theorem exists_recoversAll (cfg : ExecutionConfig) (t : ℚ) (acts : List PositionsAct)
    (p : Sys World Answer (Except Err (List Position)) Bool EnvEvent → Bool)
    (h : ((positionsMachine cfg).run (Machine.init (World.init cfg t)) acts).map p = some true) :
    ∃ s, (positionsMachine cfg).run (Machine.init (World.init cfg t)) acts = some s ∧ p s = true :=
  Option.map_eq_some_iff.1 h

/-- After the cooldown the next call asks the broker again. -/
def limitedAgain : List PositionsAct := limited ++ [.env (.elapse 60 (by decide)), .spawn false]

theorem recovers_iff_limited :
    ∃ s, (positionsMachine sampleConfig).run (Machine.init (World.init sampleConfig 0))
        (limitedAgain ++ [.resume 1 (holding 1)]) = some s ∧
      (RecoversAll sampleConfig s.log ↔ ∀ turn ∈ s.log, Undisturbed sampleConfig turn) := by
  obtain ⟨s, hs, -⟩ := exists_recoversAll sampleConfig 0 (limitedAgain ++ [.resume 1 (holding 1)]) (fun _ => true)
    (by decide +kernel)
  exact ⟨s, hs, recovers_iff sampleConfig 0 _ hs⟩

/-- A turn that raises the backoff of a call that does not ask, or that keeps it on a successful answer. -/
def disturbs : PositionsTurn → Bool
  | .seg _ .start s₀ s t => !t.isWaiting && s.rateLimitBackoff != s₀.rateLimitBackoff
  | .seg _ w _ s _ => (answeredRows w).isSome && s.rateLimitBackoff != 0
  | .env _ _ _ => false

theorem not_recovers_of_disturbs {cfg : ExecutionConfig} {log : List PositionsTurn} {turn : PositionsTurn}
    (h : disturbs turn = true) : ¬ Recovers cfg log turn := by
  cases turn with
  | env e s₀ s => cases h
  | seg forceRest w s₀ s t =>
    rintro ⟨-, hsame, hreset⟩
    cases w with
    | start =>
      simp only [disturbs, Bool.and_eq_true, Bool.not_eq_true', bne_iff_ne] at h
      exact h.2 (hsame rfl h.1).2
    | answer q r =>
      simp only [disturbs, Bool.and_eq_true, bne_iff_ne] at h
      exact h.2 (hreset h.1)

theorem RecoversAll.not_disturbs {cfg : ExecutionConfig} : ∀ {log : List PositionsTurn}, RecoversAll cfg log →
    log.any disturbs = false
  | [], _ => rfl
  | _ :: _, ⟨hturn, hlog⟩ => by
    rw [List.any_cons, hlog.not_disturbs, Bool.or_false]
    exact Bool.eq_false_iff.2 fun h => not_recovers_of_disturbs h hturn

/-- A call during the cooldown of 60 s raises the backoff to 120 s, and an answer without a position after it keeps 60 s. -/
theorem not_recoversAll :
    (∃ s, (positionsMachine sampleConfig).run (Machine.init (World.init sampleConfig 0))
        (limited ++ [.env (.elapse 50 (by decide)), .spawn false]) = some s ∧ ¬ RecoversAll sampleConfig s.log) ∧
    ∃ s, (positionsMachine sampleConfig).run (Machine.init (World.init sampleConfig 0))
        (limitedAgain ++ [.resume 1 acceptAll]) = some s ∧
      ¬ RecoversAll sampleConfig s.log := by
  have fails (acts : List PositionsAct) (h : ((positionsMachine sampleConfig).run
      (Machine.init (World.init sampleConfig 0)) acts).map (fun s => s.log.any disturbs) = some true) :
      ∃ s, (positionsMachine sampleConfig).run (Machine.init (World.init sampleConfig 0)) acts = some s ∧
        ¬ RecoversAll sampleConfig s.log := by
    obtain ⟨s, hs, hany⟩ := exists_recoversAll sampleConfig 0 acts _ h
    refine ⟨s, hs, fun hall => ?_⟩
    rw [hall.not_disturbs] at hany
    cases hany
  exact ⟨fails _ (by decide +kernel), fails _ (by decide +kernel)⟩

end PearlAlgo
