import PearlAlgo.Coop.Proc

/-!
# A pool of coroutines on one event loop

A `Machine` names the coroutines that can be called and the events that change the shared state from
outside. `Machine.step` is one turn of the event loop: a new call runs its first segment, the `i`-th
call is resumed with an answer and runs its next segment, or an event happens. A run is a list of
actions, so every interleaving at await points is a run. The system keeps the list of its turns, the
latest first; the coroutines cannot see it.

What each call may do in one segment is its `Contract`. `Machine.Obeys` is proved once per coroutine
with `Proc.wp`; from then on a step of the machine is a `Move` of its `View`, which has no
continuations in it (`Machine.step_move`), and an invariant of the moves is an invariant of every run
(`Machine.invariant`).
-/

namespace Coop

variable {σ Q α C E : Type} {R : Q → Type}

/-- What a call may do in one segment. -/
abbrev Contract (σ : Type) {Q : Type} (R : Q → Type) (α : Type) := From R → σ → σ → To Q α → Prop

/-- Every segment of the coroutine, whatever happens while it waits, is allowed by the contract. -/
def Proc.Meets (p : Proc σ R α) (K : Contract σ R α) (w : From R) (s₀ s : σ) : Prop :=
  p.wp (fun w s₀ s q => K w s₀ s (.waiting q)) (fun a w s₀ s => K w s₀ s (.done a)) w s₀ s

theorem Proc.Meets.advance {p : Proc σ R α} {K : Contract σ R α} {w : From R} {s₀ s : σ}
    (h : p.Meets K w s₀ s) :
    K w s₀ (p.advance s).1 (p.advance s).2.to ∧
      ∀ q k, (p.advance s).2 = .waiting q k → ∀ r s', (k r).Meets K (.answer q r) s' s' := by
  have := Proc.wp_advance p h
  rcases hp : p.advance s with ⟨s', a | ⟨q, k⟩⟩ <;> rw [hp] at this
  · exact ⟨this, fun q k h => by cases h⟩
  · exact ⟨this.1, fun q' k' h => by cases h; exact this.2⟩

/-- The coroutines that can be called, and the events from outside. -/
structure Machine (σ : Type) {Q : Type} (R : Q → Type) (α C E : Type) where
  proc : C → Proc σ R α
  env : E → σ → σ

structure Task (σ : Type) {Q : Type} (R : Q → Type) (α C : Type) where
  call : C
  pause : Pause σ R α

/-- One turn of the event loop, as it happened: a segment of a call, or an event. -/
inductive Turn (σ : Type) {Q : Type} (R : Q → Type) (α C E : Type)
  | seg (c : C) (w : From R) (s₀ s : σ) (t : To Q α)
  | env (e : E) (s₀ s : σ)

structure Sys (σ : Type) {Q : Type} (R : Q → Type) (α C E : Type) where
  shared : σ
  tasks : List (Task σ R α C)
  log : List (Turn σ R α C E)

inductive Act (C E : Type) {Q : Type} (R : Q → Type)
  | spawn (c : C)
  | resume (i : Nat) (ans : (q : Q) → R q)
  | env (e : E)

/-- The state without the continuations. -/
structure View (σ : Type) {Q : Type} (R : Q → Type) (α C E : Type) where
  shared : σ
  calls : List (C × To Q α)
  log : List (Turn σ R α C E)

/-- A count over the calls when one of them goes on. -/
theorem countP_set_add {γ : Type} {p : γ → Bool} {l : List γ} {i : Nat} {e₀ : γ} (hi : l[i]? = some e₀) (e : γ) :
    (l.set i e).countP p + (p e₀).toNat = l.countP p + (p e).toNat := by
  obtain ⟨hlt, rfl⟩ := List.getElem?_eq_some_iff.1 hi
  have hpos (h : p l[i] = true) : 0 < l.countP p := List.countP_pos_iff.2 ⟨_, List.getElem_mem hlt, h⟩
  rw [List.countP_set hlt]
  cases h : p l[i] with
  | false => cases p e <;> rfl
  | true =>
    have := hpos h
    cases p e <;> simp <;> omega

def Sys.view (s : Sys σ R α C E) : View σ R α C E :=
  ⟨s.shared, s.tasks.map fun t => (t.call, t.pause.to), s.log⟩

namespace Machine
variable (M : Machine σ R α C E)

def step (s : Sys σ R α C E) : Act C E R → Option (Sys σ R α C E)
  | .spawn c =>
    let (s', p) := (M.proc c).advance s.shared
    some ⟨s', s.tasks ++ [⟨c, p⟩], .seg c .start s.shared s' p.to :: s.log⟩
  | .resume i ans =>
    match s.tasks[i]? with
    | some ⟨c, .waiting q k⟩ =>
      let (s', p) := (k (ans q)).advance s.shared
      some ⟨s', s.tasks.set i ⟨c, p⟩, .seg c (.answer q (ans q)) s.shared s' p.to :: s.log⟩
    | _ => none
  | .env e => some ⟨M.env e s.shared, s.tasks, .env e s.shared (M.env e s.shared) :: s.log⟩

def run (s : Sys σ R α C E) (acts : List (Act C E R)) : Option (Sys σ R α C E) := acts.foldlM M.step s

def fire (e : E) (s : Sys σ R α C E) : Sys σ R α C E :=
  ⟨M.env e s.shared, s.tasks, .env e s.shared (M.env e s.shared) :: s.log⟩

def init (s : σ) : Sys σ R α C E := ⟨s, [], []⟩

theorem run_cons {s s' : Sys σ R α C E} {a : Act C E R} {acts : List (Act C E R)} :
    M.run s (a :: acts) = some s' ↔ ∃ s₁, M.step s a = some s₁ ∧ M.run s₁ acts = some s' := by
  simp [run, Option.bind_eq_some_iff]

theorem run_append {s s₁ s' : Sys σ R α C E} {acts acts' : List (Act C E R)} (h : M.run s acts = some s₁)
    (h' : M.run s₁ acts' = some s') : M.run s (acts ++ acts') = some s' := by
  simp only [run, List.foldlM_append] at *
  rw [h]
  exact h'

theorem step_env (e : E) (s : Sys σ R α C E) : M.step s (.env e) = some (M.fire e s) := rfl

/-! ### Contracts -/

def Obeys (K : C → Contract σ R α) : Prop := ∀ c s, (M.proc c).Meets (K c) .start s s

/-- What one action can do, as far as the contracts tell. -/
inductive Move (K : C → Contract σ R α) : View σ R α C E → Act C E R → View σ R α C E → Prop
  | spawn {v : View σ R α C E} {s' : σ} {c : C} {t : To Q α} (h : K c .start v.shared s' t) :
    Move K v (.spawn c) ⟨s', v.calls ++ [(c, t)], .seg c .start v.shared s' t :: v.log⟩
  | resume {v : View σ R α C E} {s' : σ} {i : Nat} {ans : (q : Q) → R q} {c : C} {q : Q} {t : To Q α}
    (hi : v.calls[i]? = some (c, .waiting q)) (h : K c (.answer q (ans q)) v.shared s' t) :
    Move K v (.resume i ans)
      ⟨s', v.calls.set i (c, t), .seg c (.answer q (ans q)) v.shared s' t :: v.log⟩
  | env {v : View σ R α C E} {e : E} :
    Move K v (.env e) ⟨M.env e v.shared, v.calls, .env e v.shared (M.env e v.shared) :: v.log⟩

/-- Every suspended coroutine will keep to its contract, whatever state it is resumed in. -/
def Ok (K : C → Contract σ R α) (s : Sys σ R α C E) : Prop :=
  ∀ t ∈ s.tasks, ∀ q k, t.pause = .waiting q k → ∀ r s', (k r).Meets (K t.call) (.answer q r) s' s'

variable {M} {K : C → Contract σ R α} {s s' : Sys σ R α C E}

theorem ok_init (s : σ) : Ok K (init s : Sys σ R α C E) := by intro t ht; cases ht

theorem step_move (hM : M.Obeys K) (hs : Ok K s) {a : Act C E R} (h : M.step s a = some s') :
    Ok K s' ∧ M.Move K s.view a s'.view := by
  cases a with
  | spawn c =>
    obtain ⟨hk, hw⟩ := (hM c s.shared).advance
    simp only [step, Option.some.injEq] at h
    subst h
    refine ⟨fun t ht => ?_, ?_⟩
    · rcases List.mem_append.1 ht with ht | ht
      · exact hs t ht
      · rw [List.mem_singleton.1 ht]; exact hw
    · simpa only [Sys.view, List.map_append, List.map_singleton] using Move.spawn (M := M) (v := s.view) hk
  | resume i ans =>
    simp only [step] at h
    split at h
    next c q k ht =>
      obtain ⟨hk, hw⟩ := (hs _ (List.mem_of_getElem? ht) q k rfl (ans q) s.shared).advance
      simp only [Option.some.injEq] at h
      subst h
      refine ⟨fun t ht' => ?_, ?_⟩
      · rcases List.mem_or_eq_of_mem_set ht' with ht' | rfl
        · exact hs t ht'
        · exact hw
      · have hi : s.view.calls[i]? = some (c, .waiting q) := by
          simp only [Sys.view, List.getElem?_map, ht]; rfl
        simpa only [Sys.view, List.map_set] using Move.resume (M := M) (v := s.view) hi hk
    next => cases h
  | env e =>
    simp only [step, Option.some.injEq] at h
    subst h
    exact ⟨hs, Move.env⟩

/-- Every action of the run is admitted by `P` in the state in which it is taken. -/
def Admits (M : Machine σ R α C E) (P : View σ R α C E → Act C E R → Prop) :
    Sys σ R α C E → List (Act C E R) → Prop
  | _, [] => True
  | s, a :: acts => P s.view a ∧ ∀ s₁, M.step s a = some s₁ → Admits M P s₁ acts

instance Admits.decidable (P : View σ R α C E → Act C E R → Prop) [∀ v a, Decidable (P v a)] :
    (s : Sys σ R α C E) → (acts : List (Act C E R)) → Decidable (Admits M P s acts)
  | _, [] => isTrue trivial
  | s, a :: acts =>
    match h : M.step s a with
    | none => decidable_of_iff (P s.view a)
      ⟨fun hP => ⟨hP, fun _ h₁ => absurd (h.symm.trans h₁) nofun⟩, fun h => h.1⟩
    | some s₁ =>
      have := Admits.decidable P s₁ acts
      decidable_of_iff (P s.view a ∧ Admits M P s₁ acts)
        ⟨fun hP => ⟨hP.1, fun _ h₂ => Option.some.inj (h.symm.trans h₂) ▸ hP.2⟩, fun hP => ⟨hP.1, hP.2 s₁ h⟩⟩

theorem admits_true (s : Sys σ R α C E) (acts : List (Act C E R)) :
    Admits M (fun _ _ => True) s acts := by
  induction acts generalizing s with
  | nil => trivial
  | cons a acts ih => exact ⟨trivial, fun s₁ _ => ih s₁⟩

/-- What every admitted move preserves holds after every admitted run. -/
theorem invariant (hM : M.Obeys K) {P : View σ R α C E → Act C E R → Prop} {I : View σ R α C E → Prop}
    (hstep : ∀ v a v', I v → P v a → M.Move K v a v' → I v') {acts : List (Act C E R)}
    (hs : Ok K s) (hI : I s.view) (hP : Admits M P s acts) (h : M.run s acts = some s') :
    Ok K s' ∧ I s'.view := by
  induction acts generalizing s with
  | nil => cases h; exact ⟨hs, hI⟩
  | cons a acts ih =>
    obtain ⟨s₁, h₁, h⟩ := M.run_cons.1 h
    obtain ⟨hs₁, hm⟩ := step_move hM hs h₁
    exact ih hs₁ (hstep _ _ _ hI hP.1 hm) (hP.2 s₁ h₁) h

/-- Every turn of a run kept to the contract of its call. -/
theorem turns (hM : M.Obeys K) {σ₀ : σ} {acts : List (Act C E R)} (h : M.run (init σ₀) acts = some s') :
    ∀ c w s₀ s t, Turn.seg c w s₀ s t ∈ s'.log → K c w s₀ s t := by
  refine (invariant (I := fun v => ∀ c w s₀ s t, Turn.seg c w s₀ s t ∈ v.log → K c w s₀ s t) hM
    (fun v a v' hI _ hm => ?_) (ok_init σ₀) (by simp [init, Sys.view])
    (admits_true (init σ₀) acts) h).2
  intro c w s₀ s t ht
  cases hm with
  | spawn hk =>
    rcases List.mem_cons.1 ht with ht | ht
    · cases ht; exact hk
    · exact hI _ _ _ _ _ ht
  | resume hi hk =>
    rcases List.mem_cons.1 ht with ht | ht
    · cases ht; exact hk
    · exact hI _ _ _ _ _ ht
  | env =>
    rcases List.mem_cons.1 ht with ht | ht
    · cases ht
    · exact hI _ _ _ _ _ ht

end Machine

end Coop
