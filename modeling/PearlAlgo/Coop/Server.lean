import PearlAlgo.Coop.Proc

/-!
# Coroutines against a server

`Proc.serve` runs a coroutine to its end against a server, whose answers come from a state that the queries change.
`faulty` lets calls of a server fail: the `n`-th one does nothing but raise where the pattern says so.
-/

namespace Coop

variable {σ Q β ε α α' : Type} {R : Q → Type}

abbrev Server {Q : Type} (R : Q → Type) (β : Type) : Type := (q : Q) → β → R q × β

structure Served (σ : Type) {Q : Type} (R : Q → Type) (β α : Type) extends Proc.Outcome σ R α where
  server : β

namespace Proc

def serve (h : Server R β) : Proc σ R α → σ → β → Served σ R β α
  | ret a, s, b => ⟨⟨[], s, a⟩, b⟩
  | get k, s, b => (k s).serve h s b
  | put s p, _, b => p.serve h s b
  | await q k, s, b =>
    let o := (k (h q b).1).serve h s (h q b).2
    { o with trace := ⟨q, (h q b).1⟩ :: o.trace }

variable (h : Server R β) (s : σ) (b : β)

@[simp] theorem serve_pure (a : α) : (pure a : Proc σ R α).serve h s b = ⟨⟨[], s, a⟩, b⟩ := rfl

theorem serve_ask_bind (q : Q) (f : R q → Proc σ R α) :
    (ask q >>= f).serve h s b =
      let o := (f (h q b).1).serve h s (h q b).2
      { o with trace := ⟨q, (h q b).1⟩ :: o.trace } := rfl

theorem serve_read_bind (f : σ → Proc σ R α) : (read >>= f).serve h s b = (f s).serve h s b := rfl

theorem serve_bind (p : Proc σ R α) (f : α → Proc σ R α') :
    (p >>= f).serve h s b =
      let o := p.serve h s b
      let o' := (f o.value).serve h o.state o.server
      { o' with trace := o.trace ++ o'.trace } := by
  show (p.bind f).serve h s b = _
  induction p generalizing s b with
  | ret a => rfl
  | get k ih => exact ih s s b
  | put s' p ih => exact ih s' b
  | await q k ih =>
    simp only [bind, serve, ih, List.cons_append]

end Proc

/-! ### Failing calls -/

/-- What the `n`-th call raises or returns. -/
def attempted (fails : Nat → Option ε) (n : Nat) (a : α) : Except ε α :=
  match fails n with
  | some e => .error e
  | none => .ok a

def faulty {Q : Type} {R : Q → Type} (fails : Nat → Option ε) (h : Server R β) :
    Server (fun q => Except ε (R q)) (Nat × β)
  | q, (n, b) => (attempted fails n (h q b).1, (n + 1, if fails n = none then (h q b).2 else b))

section
variable {fails : Nat → Option ε} {h : Server R β} {n : Nat} {b : β} {q : Q}

theorem attempted_eq_ok {a a' : α} : attempted fails n a = .ok a' ↔ fails n = none ∧ a = a' := by
  unfold attempted
  rcases fails n with _ | e <;> simp

end

/-- `P` holds of an element of `l` and its call; the call of the first element is the `n`-th one. -/
def AtCall (n : Nat) (l : List α) (P : Nat → α → Prop) : Prop := ∃ k a, l[k]? = some a ∧ P (n + k) a

theorem atCall_nil {n : Nat} {P : Nat → α → Prop} : ¬ AtCall n [] P := by
  rintro ⟨k, a, h, -⟩
  simp at h

theorem atCall_cons {n : Nat} {a : α} {l : List α} {P : Nat → α → Prop} :
    AtCall n (a :: l) P ↔ P n a ∨ AtCall (n + 1) l P := by
  constructor
  · rintro ⟨_ | k, a', h, hP⟩
    · cases h
      exact .inl hP
    · rw [show n + (k + 1) = n + 1 + k by omega] at hP
      exact .inr ⟨k, a', h, hP⟩
  · rintro (hP | ⟨k, a', h, hP⟩)
    · exact ⟨0, a, rfl, hP⟩
    · rw [show n + 1 + k = n + (k + 1) by omega] at hP
      exact ⟨k + 1, a', h, hP⟩

end Coop
