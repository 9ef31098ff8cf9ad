import Mathlib.Logic.Basic

/-!
# Coroutines over a shared state

`Proc σ R α` is a coroutine of a single-threaded event loop: it reads and writes the shared state
`σ`, and at an `await` it hands a query `q` to the outside world and is suspended until an answer of
type `R q` arrives. Between two awaits it runs without interruption; this is a *segment*.

Two semantics are used. `Proc.advance` runs one segment, so a scheduler can interleave several
coroutines (`Coop/Pool.lean`). `Proc.play` runs one coroutine to its end, against a stream of answers and
of changes that others make to the state while it waits; `Proc.eval` is the case in which it runs alone.
Both are total since `Proc` is inductive. `Proc.zoom` runs a coroutine on a part of the state.

`Proc.wp pause post` is the weakest precondition over segments: `pause` holds at every await, `post`
at the end. Both see how the segment began (`From`), the state in which it began and the state in
which it ended. The state after an await is arbitrary, whatever the other coroutines did.
-/

namespace Coop

variable {σ Q : Type} {R : Q → Type} {α β : Type}

/-- A coroutine over the shared state `σ` with queries `Q` answered in `R`. -/
inductive Proc (σ : Type) {Q : Type} (R : Q → Type) (α : Type)
  | ret (a : α)
  | get (k : σ → Proc σ R α)
  | put (s : σ) (p : Proc σ R α)
  | await (q : Q) (k : R q → Proc σ R α)

inductive Pause (σ : Type) {Q : Type} (R : Q → Type) (α : Type)
  | done (a : α)
  | waiting (q : Q) (k : R q → Proc σ R α)

/-- What started a segment: the call, or the answer to the query that was waited on. -/
inductive From {Q : Type} (R : Q → Type)
  | start
  | answer (q : Q) (r : R q)

inductive To (Q α : Type)
  | done (a : α)
  | waiting (q : Q)
deriving DecidableEq

def To.isWaiting {Q α : Type} : To Q α → Bool
  | .done _ => false
  | .waiting _ => true

def Pause.to : Pause σ R α → To Q α
  | .done a => .done a
  | .waiting q _ => .waiting q

namespace Proc

def bind : Proc σ R α → (α → Proc σ R β) → Proc σ R β
  | ret a, f => f a
  | get k, f => get fun s => (k s).bind f
  | put s p, f => put s (p.bind f)
  | await q k, f => await q fun r => (k r).bind f

instance : Monad (Proc σ R) where
  pure := ret
  bind := bind

/-- Suspend on the query `q` and return its answer. -/
def ask (q : Q) : Proc σ R (R q) := await q ret

def read : Proc σ R σ := get ret

def modify (f : σ → σ) : Proc σ R Unit := get fun s => put (f s) (ret ())

/-- Run up to the next await. -/
def advance : Proc σ R α → σ → σ × Pause σ R α
  | ret a, s => (s, .done a)
  | get k, s => (k s).advance s
  | put s p, _ => p.advance s
  | await q k, s => (s, .waiting q k)

/-- Run on a part of the state, which `get` reads and `set` writes. -/
def zoom {τ : Type} (part : τ → σ) (set : σ → τ → τ) : Proc σ R α → Proc τ R α
  | ret a => ret a
  | get k => get fun t => (k (part t)).zoom part set
  | put s p => get fun t => put (set s t) (p.zoom part set)
  | await q k => await q fun r => (k r).zoom part set

/-! ### Running to the end -/

/-- The end of a coroutine: the queries with their answers, the state, the value. -/
structure Outcome (σ : Type) {Q : Type} (R : Q → Type) (α : Type) where
  trace : List ((q : Q) × R q)
  state : σ
  value : α

/-- What happens during an await: the answer, and what others do to the state. -/
structure Interval (σ : Type) {Q : Type} (R : Q → Type) where
  answer : (q : Q) → R q
  others : σ → σ

/-- Run to the end, the `n`-th await lasting the interval `env n`. -/
def play : Proc σ R α → (Nat → Interval σ R) → σ → Outcome σ R α
  | ret a, _, s => ⟨[], s, a⟩
  | get k, env, s => (k s).play env s
  | put s p, env, _ => p.play env s
  | await q k, env, s =>
    let o := (k ((env 0).answer q)).play (fun n => env (n + 1)) ((env 0).others s)
    { o with trace := ⟨q, (env 0).answer q⟩ :: o.trace }

/-- Run alone, the `n`-th query being answered by `ans n`. -/
def eval (p : Proc σ R α) (ans : Nat → (q : Q) → R q) (s : σ) : Outcome σ R α :=
  p.play (fun n => ⟨ans n, id⟩) s

theorem play_bind (env : Nat → Interval σ R) (s : σ) (p : Proc σ R α) (f : α → Proc σ R β) :
    (p >>= f).play env s =
      let o := p.play env s
      let o' := (f o.value).play (fun n => env (n + o.trace.length)) o.state
      { o' with trace := o.trace ++ o'.trace } := by
  show (p.bind f).play env s = _
  induction p generalizing env s with
  | ret a => rfl
  | get k ih => exact ih s env s
  | put s' p ih => exact ih env s'
  | await q k ih =>
    simp only [bind, play, ih, List.cons_append, List.length_cons]
    simp only [Nat.add_assoc]

section play
variable (env : Nat → Interval σ R) (s : σ)

@[simp] theorem play_pure (a : α) : (pure a : Proc σ R α).play env s = ⟨[], s, a⟩ := rfl

theorem play_ask_bind (q : Q) (f : R q → Proc σ R β) :
    (ask q >>= f).play env s =
      let o := (f ((env 0).answer q)).play (fun n => env (n + 1)) ((env 0).others s)
      { o with trace := ⟨q, (env 0).answer q⟩ :: o.trace } := rfl

theorem play_modify_bind (g : σ → σ) (f : Unit → Proc σ R β) :
    (modify g >>= f).play env s = (f ()).play env (g s) := rfl

theorem play_read_bind (f : σ → Proc σ R β) : (read >>= f).play env s = (f s).play env s := rfl

end play

/-- On a part of the state, a coroutine does what it does on its own, for suitable others. -/
theorem play_zoom {τ : Type} (part : τ → σ) (set : σ → τ → τ) (hset : ∀ s t, part (set s t) = s)
    (p : Proc σ R α) (env : Nat → Interval τ R) (t : τ) :
    ∃ env', (p.play env' (part t)).trace = ((p.zoom part set).play env t).trace ∧
      (p.play env' (part t)).value = ((p.zoom part set).play env t).value ∧
      (p.play env' (part t)).state = part ((p.zoom part set).play env t).state := by
  induction p generalizing env t with
  | ret a => exact ⟨fun n => ⟨(env n).answer, id⟩, rfl, rfl, rfl⟩
  | get k ih => exact ih (part t) env t
  | put s p ih =>
    have := ih env (set s t)
    rw [hset] at this
    exact this
  | await q k ih =>
    obtain ⟨env', htrace, hvalue, hstate⟩ :=
      ih ((env 0).answer q) (fun n => env (n + 1)) ((env 0).others t)
    -- the others change this part to what they change the whole to
    refine ⟨fun
      | 0 => ⟨(env 0).answer, fun _ => part ((env 0).others t)⟩
      | n + 1 => env' n, congrArg (_ :: ·) htrace, hvalue, hstate⟩

theorem play_zoom_ask_bind {τ : Type} (part : τ → σ) (set : σ → τ → τ) (env : Nat → Interval τ R) (t : τ) (q : Q)
    (f : R q → Proc σ R β) :
    ((ask q >>= f).zoom part set).play env t =
      let o := ((f ((env 0).answer q)).zoom part set).play (fun n => env (n + 1)) ((env 0).others t)
      { o with trace := ⟨q, (env 0).answer q⟩ :: o.trace } := rfl

section eval
variable (ans : Nat → (q : Q) → R q) (s : σ)

@[simp] theorem eval_pure (a : α) : (pure a : Proc σ R α).eval ans s = ⟨[], s, a⟩ := rfl

theorem eval_bind (p : Proc σ R α) (f : α → Proc σ R β) :
    (p >>= f).eval ans s =
      let o := p.eval ans s
      let o' := (f o.value).eval (fun n => ans (n + o.trace.length)) o.state
      { o' with trace := o.trace ++ o'.trace } := play_bind _ s p f

theorem eval_bind_state (p : Proc σ R α) (f : α → Proc σ R β) :
    ((p >>= f).eval ans s).state =
      ((f (p.eval ans s).value).eval (fun n => ans (n + (p.eval ans s).trace.length)) (p.eval ans s).state).state := by
  rw [eval_bind]

theorem eval_bind_value (p : Proc σ R α) (f : α → Proc σ R β) :
    ((p >>= f).eval ans s).value =
      ((f (p.eval ans s).value).eval (fun n => ans (n + (p.eval ans s).trace.length)) (p.eval ans s).state).value := by
  rw [eval_bind]

theorem eval_ask_bind (q : Q) (f : R q → Proc σ R β) :
    (ask q >>= f).eval ans s =
      let o := (f (ans 0 q)).eval (fun n => ans (n + 1)) s
      { o with trace := ⟨q, ans 0 q⟩ :: o.trace } := rfl

theorem eval_modify_bind (g : σ → σ) (f : Unit → Proc σ R β) :
    (modify g >>= f).eval ans s = (f ()).eval ans (g s) := rfl

theorem eval_read_bind (f : σ → Proc σ R β) : (read >>= f).eval ans s = (f s).eval ans s := rfl

end eval

/-! ### Weakest preconditions over segments -/

/-- `pause` holds at every await and `post` at the end, for a segment begun by `w` in `s₀` that has
reached the state `s`. -/
def wp (pause : From R → σ → σ → Q → Prop) (post : α → From R → σ → σ → Prop) :
    Proc σ R α → From R → σ → σ → Prop
  | ret a, w, s₀, s => post a w s₀ s
  | get k, w, s₀, s => (k s).wp pause post w s₀ s
  | put s p, w, s₀, _ => p.wp pause post w s₀ s
  | await q k, w, s₀, s => pause w s₀ s q ∧ ∀ r s', (k r).wp pause post (.answer q r) s' s'

section wp
variable {pause : From R → σ → σ → Q → Prop} {post post' : α → From R → σ → σ → Prop}
  {w : From R} {s₀ s : σ}

@[simp] theorem wp_pure (a : α) : (pure a : Proc σ R α).wp pause post w s₀ s ↔ post a w s₀ s := Iff.rfl

@[simp] theorem wp_read {post : σ → From R → σ → σ → Prop} :
    (read : Proc σ R σ).wp pause post w s₀ s ↔ post s w s₀ s := Iff.rfl

@[simp] theorem wp_modify {post : Unit → From R → σ → σ → Prop} (f : σ → σ) :
    (modify f : Proc σ R Unit).wp pause post w s₀ s ↔ post () w s₀ (f s) := Iff.rfl

@[simp] theorem wp_ask (q : Q) {post : R q → From R → σ → σ → Prop} :
    (ask q : Proc σ R (R q)).wp pause post w s₀ s ↔
      pause w s₀ s q ∧ ∀ r s', post r (.answer q r) s' s' := Iff.rfl

@[simp] theorem wp_bind {post : β → From R → σ → σ → Prop} (p : Proc σ R α) (f : α → Proc σ R β) :
    (p >>= f).wp pause post w s₀ s ↔
      p.wp pause (fun a w s₀ s => (f a).wp pause post w s₀ s) w s₀ s := by
  show (p.bind f).wp pause post w s₀ s ↔ _
  induction p generalizing w s₀ s with
  | ret a => exact Iff.rfl
  | get k ih => exact ih s
  | put s' p ih => exact ih
  | await q k ih => exact and_congr_right fun _ => forall_congr' fun r => forall_congr' fun s' => ih r

@[simp] theorem wp_ite {c : Prop} [Decidable c] (p p' : Proc σ R α) :
    (if c then p else p').wp pause post w s₀ s ↔
      if c then p.wp pause post w s₀ s else p'.wp pause post w s₀ s := by
  split <;> rfl

theorem wp_mono (p : Proc σ R α) (h : p.wp pause post w s₀ s)
    (hpost : ∀ a w s₀ s, post a w s₀ s → post' a w s₀ s) : p.wp pause post' w s₀ s := by
  induction p generalizing w s₀ s with
  | ret a => exact hpost _ _ _ _ h
  | get k ih => exact ih s h
  | put s' p ih => exact ih h
  | await q k ih => exact ⟨h.1, fun r s' => ih r (h.2 r s')⟩

/-- A coroutine on a part of the state, the first segment of which establishes `J` there and the others of which
keep it, ends in `J` when what happens meanwhile keeps it. `K` is what else the state satisfies; it does not
depend on the part. -/
theorem play_zoom_of_wp {τ : Type} {part : τ → σ} {set : σ → τ → τ} (hget : ∀ s t, part (set s t) = s)
    {I : From R → σ → σ → Prop} {J : σ → Prop} {K : τ → Prop} (hset : ∀ s t, K t → K (set s t)) (p : Proc σ R α)
    (env : Nat → Interval τ R) (hothers : ∀ n t, J (part t) → K t → J (part ((env n).others t)) ∧ K ((env n).others t))
    (hnext : ∀ q r s₀ s, I (.answer q r) s₀ s → J s₀ → J s) {w : From R} {s₀ : σ} {t : τ}
    (hfirst : ∀ s, I w s₀ s → J s) (h : p.wp (fun w s₀ s _ => I w s₀ s) (fun _ => I) w s₀ (part t)) (ht : K t) :
    J (part ((p.zoom part set).play env t).state) ∧ K ((p.zoom part set).play env t).state := by
  induction p generalizing env w s₀ t with
  | ret a => exact ⟨hfirst _ h, ht⟩
  | get k ih => exact ih (part t) env hothers hfirst h ht
  | put s p ih =>
    refine ih env hothers hfirst ?_ (hset s t ht)
    rw [hget]
    exact h
  | await q k ih =>
    obtain ⟨hJ, hK⟩ := hothers 0 t (hfirst _ h.1) ht
    exact ih _ (fun n => env (n + 1)) (fun n => hothers (n + 1)) (fun s hs => hnext _ _ _ s hs hJ) (h.2 _ _) hK

/-- Every segment that begins in `J` ends in `J`. -/
def Keeps (J : σ → Prop) (p : Proc σ R α) : Prop :=
  ∀ w s₀ s, (J s₀ → J s) → p.wp (fun _ s₀ s _ => J s₀ → J s) (fun _ _ s₀ s => J s₀ → J s) w s₀ s

section keeps
variable {J : σ → Prop}

theorem keeps_pure (a : α) : (pure a : Proc σ R α).Keeps J := fun _ _ _ h => h

theorem keeps_read : (read : Proc σ R σ).Keeps J := fun _ _ _ h => h

theorem keeps_modify {f : σ → σ} (hf : ∀ s, J s → J (f s)) : (modify f : Proc σ R Unit).Keeps J :=
  fun _ _ s h hs => hf s (h hs)

theorem keeps_ask (q : Q) : (ask q : Proc σ R (R q)).Keeps J := fun _ _ _ h => ⟨h, fun _ _ hs => hs⟩

theorem Keeps.bind {p : Proc σ R α} {f : α → Proc σ R β} (hp : p.Keeps J) (hf : ∀ a, (f a).Keeps J) :
    (p >>= f).Keeps J := by
  intro w s₀ s h
  rw [wp_bind]
  exact wp_mono p (hp w s₀ s h) fun a w s₀ s h => hf a w s₀ s h

theorem play_of_wp (p : Proc σ R α) (env : Nat → Interval σ R) (hothers : ∀ n s, J s → J ((env n).others s))
    {w : From R} {s₀ s : σ} (h : p.wp (fun _ s₀ s _ => J s₀ → J s) (fun _ _ s₀ s => J s₀ → J s) w s₀ s) (hs : J s₀) :
    J (p.play env s).state := by
  induction p generalizing env w s₀ s with
  | ret a => exact h hs
  | get k ih => exact ih s env hothers h hs
  | put s' p ih => exact ih env hothers h hs
  | await q k ih =>
    have hwait : J ((env 0).others s) := hothers 0 s (h.1 hs)
    exact ih _ (fun n => env (n + 1)) (fun n => hothers (n + 1)) (h.2 _ _) hwait

/-- What every segment keeps, and the others keep meanwhile, holds at the end. -/
theorem Keeps.play {p : Proc σ R α} (hp : p.Keeps J) (env : Nat → Interval σ R)
    (hothers : ∀ n s, J s → J ((env n).others s)) {s : σ} (hs : J s) : J (p.play env s).state :=
  play_of_wp p env hothers (hp .start s s fun h => h) hs

end keeps

/-- A coroutine that asks only queries in `S` leaves only these in its trace. -/
theorem eval_trace_of_wp {S : Q → Prop} {post : α → From R → σ → σ → Prop} (p : Proc σ R α)
    (ans : Nat → (q : Q) → R q) {w : From R} {s₀ s : σ} (h : p.wp (fun _ _ _ q => S q) post w s₀ s) :
    ∀ e ∈ (p.eval ans s).trace, S e.1 := by
  induction p generalizing ans w s₀ s with
  | ret a => exact fun e he => absurd he List.not_mem_nil
  | get k ih => exact ih s ans h
  | put s' p ih => exact ih ans h
  | await q k ih =>
    intro e he
    rcases List.mem_cons.1 he with rfl | he
    · exact h.1
    · exact ih (ans 0 q) _ (h.2 (ans 0 q) s) e he

/-- A coroutine whose segments all stay in the transitive relation `T` does so when it runs alone. -/
theorem eval_state_of_wp {T : σ → σ → Prop} (htrans : ∀ {a b c}, T a b → T b c → T a c) (p : Proc σ R α)
    (ans : Nat → (q : Q) → R q) {w : From R} {s₀ s : σ}
    (h : p.wp (fun _ s₀ s _ => T s₀ s) (fun _ _ s₀ s => T s₀ s) w s₀ s) : T s₀ (p.eval ans s).state := by
  induction p generalizing ans w s₀ s with
  | ret a => exact h
  | get k ih => exact ih s ans h
  | put s' p ih => exact ih ans h
  | await q k ih => exact htrans h.1 (ih (ans 0 q) _ (h.2 (ans 0 q) s))

/-- `I` allows a pause at every query in `S` and holds again when such a query is answered, so it is an
invariant of a coroutine that asks only these. -/
structure Stable (S : Q → Prop) (pause : From R → σ → σ → Q → Prop) (I : From R → σ → σ → Prop) : Prop where
  pause : ∀ {w s₀ s q}, S q → I w s₀ s → pause w s₀ s q
  resume : ∀ {q} (r : R q) (s : σ), S q → I (.answer q r) s s

theorem Stable.wp_ask {S : Q → Prop} {I : From R → σ → σ → Prop} (hI : Stable S pause I) {q : Q} (hq : S q)
    (h : I w s₀ s) : (ask q : Proc σ R (R q)).wp pause (fun _ => I) w s₀ s :=
  ⟨hI.pause hq h, fun r s' => hI.resume r s' hq⟩

/-- A segment that is run satisfies the precondition's promise, and leaves a coroutine that still
does. -/
theorem wp_advance (p : Proc σ R α) (h : p.wp pause post w s₀ s) :
    match p.advance s with
    | (s', .done a) => post a w s₀ s'
    | (s', .waiting q k) => pause w s₀ s' q ∧ ∀ r s'', (k r).wp pause post (.answer q r) s'' s'' := by
  induction p generalizing s with
  | ret a => exact h
  | get k ih => exact ih s h
  | put s' p ih => exact ih h
  | await q k ih => exact h

end wp

end Proc

end Coop
