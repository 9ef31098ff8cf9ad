import Mathlib.Data.List.Forall2
import PearlAlgo.Coop.Pool

/-!
# A lock that no coroutine holds across an await

A coroutine that takes a lock (`withLock`) waits for it when another one has it: a query of its own, which the event loop
answers when the lock is handed over, or with an exception. Where every body that a lock surrounds is without an await,
the lock is free between any two segments, so nobody waits for it, and the coroutines do what they do without it
(`Machine.run_erase`).
-/

namespace Coop

/-- The queries of coroutines with a lock: their own, and to wait for the lock. -/
inductive LockQuery (Q : Type)
  | inner (q : Q)
  | acquire
deriving DecidableEq

def LockAnswer {Q : Type} (R : Q → Type) (ε : Type) : LockQuery Q → Type
  | .inner q => R q
  | .acquire => Except ε Unit

/-- A state beside the lock and the number of those who wait for it. -/
structure Guarded (σ : Type) where
  state : σ
  locked : Bool
  waiters : Nat
deriving DecidableEq

/-- The lock is free, and nobody waits for it. -/
def Guarded.free {σ : Type} (s : σ) : Guarded σ := ⟨s, false, 0⟩

variable {σ Q α β ε C E : Type} {R : Q → Type}

namespace Proc

/-- A coroutine that does not use the lock. -/
def unguarded : Proc σ R α → Proc (Guarded σ) (LockAnswer R ε) α
  | ret a => ret a
  | get k => get fun g => (k g.state).unguarded
  | put s p => get fun g => put { g with state := s } p.unguarded
  | await q k => await (.inner q) fun r => (k r).unguarded

/-- Take the lock, at once where it is free and nobody waits for it. -/
def acquire : Proc (Guarded σ) (LockAnswer R ε) (Except ε Unit) := do
  let g ← read
  if g.locked = false ∧ g.waiters = 0 then do
    modify fun g => { g with locked := true }
    return .ok ()
  else do
    modify fun g => { g with waiters := g.waiters + 1 }
    match ← (ask LockQuery.acquire : Proc (Guarded σ) (LockAnswer R ε) (Except ε Unit)) with
    | .error e => do
      modify fun g => { g with waiters := g.waiters - 1 }
      return .error e
    | .ok () => do
      modify fun g => { g with waiters := g.waiters - 1, locked := true }
      return .ok ()

def release : Proc (Guarded σ) (LockAnswer R ε) Unit := modify fun g => { g with locked := false }

/-- Run the body with the lock. -/
def withLock (body : Proc σ R α) : Proc (Guarded σ) (LockAnswer R ε) (Except ε α) := do
  match ← acquire with
  | .error e => return .error e
  | .ok () => do
    let a ← body.unguarded
    release
    return .ok a

/-- The body has no await. -/
def Atomic (p : Proc σ R α) : Prop := ∀ s, ∃ a, (p.advance s).2 = .done a

end Proc

/-! ### Erasing the lock -/

/-- The two pauses are alike, and from a free lock go on alike and leave it free. -/
inductive Pause.Erases : Pause (Guarded σ) (LockAnswer R ε) α → Pause σ R α → Prop
  | done (a : α) : Pause.Erases (.done a) (.done a)
  | waiting (q : Q) (k' : R q → Proc (Guarded σ) (LockAnswer R ε) α) (k : R q → Proc σ R α)
    (hstate : ∀ r s, ((k' r).advance (.free s)).1 = .free ((k r).advance s).1)
    (hpause : ∀ r s, Pause.Erases ((k' r).advance (.free s)).2 ((k r).advance s).2) :
    Pause.Erases (.waiting (.inner q) k') (.waiting q k)

/-- From a free lock the coroutine does what the other one does without it. -/
def Proc.Erases (p' : Proc (Guarded σ) (LockAnswer R ε) α) (p : Proc σ R α) : Prop :=
  ∀ s, (p'.advance (.free s)).1 = .free (p.advance s).1 ∧ (p'.advance (.free s)).2.Erases (p.advance s).2

namespace Proc

theorem advance_bind (p : Proc σ R α) (f : α → Proc σ R β) (s : σ) :
    (p >>= f).advance s =
      match (p.advance s).2 with
      | .done a => (f a).advance (p.advance s).1
      | .waiting q k => ((p.advance s).1, .waiting q fun r => k r >>= f) := by
  induction p generalizing s with
  | ret a => rfl
  | get k ih => exact ih s s
  | put s' p ih => exact ih s'
  | await q k ih => rfl

theorem erases_pure (a : α) : (pure a : Proc (Guarded σ) (LockAnswer R ε) α).Erases (pure a) :=
  fun _ => ⟨rfl, .done a⟩

theorem erases_unguarded (p : Proc σ R α) : (p.unguarded : Proc (Guarded σ) (LockAnswer R ε) α).Erases p := by
  induction p with
  | ret a => exact erases_pure a
  | get k ih => exact fun s => ih s s
  | put s' p ih => exact fun _ => ih s'
  | await q k ih => exact fun s => ⟨rfl, .waiting q _ _ (fun r s => (ih r s).1) fun r s => (ih r s).2⟩

theorem Erases.bind_pause {f' : α → Proc (Guarded σ) (LockAnswer R ε) β} {f : α → Proc σ R β} (hf : ∀ a, (f' a).Erases (f a))
    {t' : Pause (Guarded σ) (LockAnswer R ε) α} {t : Pause σ R α} (h : t'.Erases t) {p' : Proc (Guarded σ) (LockAnswer R ε) α}
    {p : Proc σ R α} {s : σ} (hp' : p'.advance (.free s) = (.free (p.advance s).1, t')) (hp : (p.advance s).2 = t) :
    ((p' >>= f').advance (.free s)).1 = .free ((p >>= f).advance s).1 ∧
      ((p' >>= f').advance (.free s)).2.Erases ((p >>= f).advance s).2 := by
  induction h generalizing p' p s with
  | done a =>
    rw [advance_bind, advance_bind, hp', hp]
    exact hf a _
  | waiting q k' k hstate hpause ih =>
    rw [advance_bind, advance_bind, hp', hp]
    have hnext (r : R q) (s : σ) := ih r s (Prod.ext (hstate r s) rfl) rfl
    exact ⟨rfl, .waiting q _ _ (fun r s => (hnext r s).1) fun r s => (hnext r s).2⟩

theorem Erases.bind {p' : Proc (Guarded σ) (LockAnswer R ε) α} {p : Proc σ R α} (hp : p'.Erases p)
    {f' : α → Proc (Guarded σ) (LockAnswer R ε) β} {f : α → Proc σ R β} (hf : ∀ a, (f' a).Erases (f a)) :
    (p' >>= f').Erases (p >>= f) := by
  intro s
  obtain ⟨hstate, hpause⟩ := hp s
  exact Erases.bind_pause hf hpause (Prod.ext hstate rfl) rfl

theorem advance_unguarded {p : Proc σ R α} {g : Guarded σ} {a : α} (h : (p.advance g.state).2 = .done a) :
    (p.unguarded : Proc (Guarded σ) (LockAnswer R ε) α).advance g = ({ g with state := (p.advance g.state).1 }, .done a) := by
  induction p generalizing g with
  | ret b =>
    cases h
    rfl
  | get k ih => exact ih g.state h
  | put s' p ih =>
    have hg : (p.advance ({ g with state := s' } : Guarded σ).state).2 = .done a := h
    exact ih hg
  | await q k ih => cases h

/-- A body without an await takes a free lock at once. -/
theorem erases_withLock {body : Proc σ R α} (hbody : body.Atomic) :
    (withLock body : Proc (Guarded σ) (LockAnswer R ε) (Except ε α)).Erases (body >>= fun a => pure (.ok a)) := by
  intro s
  obtain ⟨a, ha⟩ := hbody s
  have hlocked : (withLock body : Proc (Guarded σ) (LockAnswer R ε) (Except ε α)).advance (.free s) =
      (.free (body.advance s).1, .done (.ok a)) := by
    show (body.unguarded >>= fun a => release >>= fun _ => pure (Except.ok a) :
      Proc (Guarded σ) (LockAnswer R ε) (Except ε α)).advance ⟨s, true, 0⟩ = _
    rw [advance_bind, advance_unguarded ha]
    rfl
  rw [hlocked, advance_bind, ha]
  exact ⟨rfl, .done _⟩

end Proc

/-! ### Erasing the lock of a machine -/

/-- An action without the lock. -/
def Act.erase : Act C E (LockAnswer R ε) → Act C E R
  | .spawn c => .spawn c
  | .resume i ans => .resume i fun q => ans (.inner q)
  | .env e => .env e

/-- The lock is free, and the calls are alike. -/
structure Sys.Erases (s' : Sys (Guarded σ) (LockAnswer R ε) α C E) (s : Sys σ R α C E) : Prop where
  shared : s'.shared = .free s.shared
  tasks : List.Forall₂ (fun t' t => t'.call = t.call ∧ t'.pause.Erases t.pause) s'.tasks s.tasks

theorem getElem?_of_forall₂ {γ δ : Type} {r : γ → δ → Prop} {l : List γ} {l' : List δ} (h : List.Forall₂ r l l') {i : Nat}
    {a : γ} (hi : l[i]? = some a) : ∃ b, l'[i]? = some b ∧ r a b := by
  induction h generalizing i with
  | nil => cases hi
  | @cons x y l l' hr _ ih =>
    cases i with
    | zero =>
      obtain rfl := Option.some.inj hi
      exact ⟨y, rfl, hr⟩
    | succ i => exact ih hi

theorem forall₂_set {γ δ : Type} {r : γ → δ → Prop} {l : List γ} {l' : List δ} (h : List.Forall₂ r l l') {a : γ} {b : δ}
    (hr : r a b) (i : Nat) : List.Forall₂ r (l.set i a) (l'.set i b) := by
  induction h generalizing i with
  | nil => exact .nil
  | cons hxy hl ih =>
    cases i with
    | zero => exact .cons hr hl
    | succ i => exact .cons hxy (ih i)

namespace Machine
variable {M' : Machine (Guarded σ) (LockAnswer R ε) α C E} {M : Machine σ R α C E}

/-- Each coroutine of the one machine erases to that of the other, whose events see the state without the lock. -/
structure Erases (M' : Machine (Guarded σ) (LockAnswer R ε) α C E) (M : Machine σ R α C E) : Prop where
  proc : ∀ c, (M'.proc c).Erases (M.proc c)
  env : ∀ e s, M'.env e (.free s) = .free (M.env e s)

theorem Erases.step (hM : M'.Erases M) {s' s₁' : Sys (Guarded σ) (LockAnswer R ε) α C E} {s : Sys σ R α C E}
    (hs : s'.Erases s) {a : Act C E (LockAnswer R ε)} (h : M'.step s' a = some s₁') :
    ∃ s₁, M.step s a.erase = some s₁ ∧ s₁'.Erases s₁ := by
  obtain ⟨hshared, htasks⟩ := hs
  cases a with
  | spawn c =>
    obtain ⟨hstate, hpause⟩ := hM.proc c s.shared
    simp only [Machine.step, hshared] at h
    obtain rfl := Option.some.inj h
    exact ⟨_, rfl, hstate, List.rel_append htasks (.cons ⟨rfl, hpause⟩ .nil)⟩
  | env e =>
    simp only [Machine.step, hshared] at h
    obtain rfl := Option.some.inj h
    exact ⟨_, rfl, hM.env e s.shared, htasks⟩
  | resume i ans =>
    simp only [Machine.step] at h
    split at h
    next c q k' hi =>
      obtain ⟨⟨c₀, t⟩, hi₀, rfl, hpause⟩ := getElem?_of_forall₂ htasks hi
      cases hpause with
      | waiting q k' k hstate hnext =>
        obtain rfl := Option.some.inj h
        let o := (k (ans (.inner q))).advance s.shared
        have hstep : M.step s (Act.erase (.resume i ans)) =
            some ⟨o.1, s.tasks.set i ⟨c, o.2⟩, .seg c (.answer q (ans (.inner q))) s.shared o.1 o.2.to :: s.log⟩ := by
          simp only [Machine.step, Act.erase, hi₀]
          rfl
        refine ⟨_, hstep, ?_, ?_⟩
        · show ((k' (ans (.inner q))).advance s'.shared).1 = _
          rw [hshared]
          exact hstate (ans (.inner q)) s.shared
        · have hpauses := hnext (ans (.inner q)) s.shared
          rw [← hshared] at hpauses
          exact forall₂_set htasks ⟨rfl, hpauses⟩ i
    · cases h

/-- A run from a free lock is a run without the lock. -/
theorem Erases.run (hM : M'.Erases M) {acts : List (Act C E (LockAnswer R ε))}
    {s' s₁' : Sys (Guarded σ) (LockAnswer R ε) α C E}
    {s : Sys σ R α C E} (hs : s'.Erases s) (h : M'.run s' acts = some s₁') :
    ∃ s₁, M.run s (acts.map Act.erase) = some s₁ ∧ s₁'.Erases s₁ := by
  induction acts generalizing s' s with
  | nil =>
    obtain rfl := Option.some.inj h
    exact ⟨s, rfl, hs⟩
  | cons a acts ih =>
    obtain ⟨s₂', hstep, hrun⟩ := (Machine.run_cons M').1 h
    obtain ⟨s₂, hstep₂, hs₂⟩ := hM.step hs hstep
    obtain ⟨s₁, hrun₁, hs₁⟩ := ih hs₂ hrun
    exact ⟨s₁, (Machine.run_cons M).2 ⟨s₂, hstep₂, hrun₁⟩, hs₁⟩

end Machine

/-- What the calls wait for. -/
def LockQuery.ofInner : To Q α → To (LockQuery Q) α
  | .done a => .done a
  | .waiting q => .waiting (.inner q)

theorem Pause.Erases.to {t' : Pause (Guarded σ) (LockAnswer R ε) α} {t : Pause σ R α} (h : t'.Erases t) :
    t'.to = LockQuery.ofInner t.to := by
  cases h with
  | done a => rfl
  | waiting q k' k hstate hpause => rfl

/-- The calls end and wait as they do without the lock, and none waits for the lock. -/
theorem Sys.Erases.calls {s' : Sys (Guarded σ) (LockAnswer R ε) α C E} {s : Sys σ R α C E} (h : s'.Erases s) :
    s'.view.calls = s.view.calls.map fun e => (e.1, LockQuery.ofInner e.2) := by
  show s'.tasks.map _ = (s.tasks.map _).map _
  rw [List.map_map]
  have htasks := h.tasks
  generalize s'.tasks = l', s.tasks = l at htasks ⊢
  induction htasks with
  | nil => rfl
  | cons ht _ ih =>
    rw [List.map_cons, List.map_cons, ih, ht.1, ht.2.to]
    rfl

end Coop
