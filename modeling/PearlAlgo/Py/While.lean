import Mathlib.Logic.Function.Iterate

/-!
# `while` loops

A loop runs with fuel, one unit for each test. It ends at the first round whose state fails the test, if there is one,
and on no fuel if there is none. A test or a body that raises ends its loop.
-/

namespace Py

variable {σ : Type}

def whileLoop (test : σ → Bool) (body : σ → σ) : Nat → σ → Option σ
  | 0, _ => none
  | fuel + 1, s => if test s then whileLoop test body fuel (body s) else some s

variable {test : σ → Bool} {body : σ → σ} {s t u : σ} {k : Nat}

theorem whileLoop_of_first (hbefore : ∀ j < k, test (body^[j] s)) (hend : test (body^[k] s) = false) :
    whileLoop test body (k + 1) s = some (body^[k] s) := by
  induction k generalizing s with
  | zero =>
    simp only [Function.iterate_zero, id_eq] at hend
    simp [whileLoop, hend]
  | succ k ih =>
    have hs : test s = true := hbefore 0 k.succ_pos
    have hrest : whileLoop test body (k + 1) (body s) = some (body^[k] (body s)) := by
      refine ih (fun j hj => ?_) ?_
      · simpa using hbefore (j + 1) (Nat.succ_lt_succ hj)
      · simpa using hend
    rw [whileLoop, if_pos hs, hrest, Function.iterate_succ_apply]

theorem whileLoop_eq_none (h : ∀ j, test (body^[j] s)) (fuel : Nat) : whileLoop test body fuel s = none := by
  induction fuel generalizing s with
  | zero => rfl
  | succ fuel ih =>
    have hs : test s = true := h 0
    rw [whileLoop, if_pos hs]
    refine ih fun j => ?_
    simpa using h (j + 1)

/-- What the rounds keep holds at the end, where the test fails. -/
theorem whileLoop_invariant {I : σ → Prop} {fuel : Nat} (hstep : ∀ s, I s → test s = true → I (body s))
    (h : whileLoop test body fuel s = some t) (hs : I s) : I t ∧ test t = false := by
  induction fuel generalizing s with
  | zero => cases h
  | succ fuel ih =>
    rw [whileLoop] at h
    split at h
    next htest => exact ih h (hstep s hs htest)
    next htest =>
      cases h
      exact ⟨hs, Bool.not_eq_true _ ▸ htest⟩

/-- A loop whose rounds lower a measure ends on so much fuel. -/
theorem whileLoop_ends {m : σ → Nat} {fuel : Nat} (hlower : ∀ s, test s = true → m (body s) < m s)
    (hfuel : m s < fuel) : ∃ t, whileLoop test body fuel s = some t := by
  induction fuel generalizing s with
  | zero => omega
  | succ fuel ih =>
    rw [whileLoop]
    split
    next htest =>
      have hlt := hlower s htest
      exact ih (by omega)
    next => exact ⟨s, rfl⟩

/-- The fuel does not matter to the result. -/
theorem whileLoop_unique {fuel fuel' : Nat} (h : whileLoop test body fuel s = some t)
    (h' : whileLoop test body fuel' s = some u) : t = u := by
  induction fuel generalizing s fuel' with
  | zero => cases h
  | succ fuel ih =>
    rcases fuel' with _ | fuel'
    · cases h'
    rw [whileLoop] at h h'
    split at h
    next hs =>
      rw [if_pos hs] at h'
      exact ih h h'
    next hs =>
      rw [if_neg hs] at h'
      cases h
      cases h'
      rfl

/-! ### Loops that can raise -/

section
variable {ε : Type}

def whileRaising (test : σ → Except ε Bool) (body : σ → Except ε σ) : Nat → σ → Option (Except ε σ)
  | 0, _ => none
  | fuel + 1, s =>
    match test s with
    | .error e => some (.error e)
    | .ok false => some (.ok s)
    | .ok true =>
      match body s with
      | .error e => some (.error e)
      | .ok s => whileRaising test body fuel s

variable {test : σ → Except ε Bool} {body : σ → Except ε σ} {t : σ} {k : Nat}

theorem whileRaising_of_first {f : Nat → σ} (hbefore : ∀ j < k, test (f j) = .ok true ∧ body (f j) = .ok (f (j + 1)))
    (hend : test (f k) = .ok false) : whileRaising test body (k + 1) (f 0) = some (.ok (f k)) := by
  induction k generalizing f with
  | zero => rw [whileRaising, hend]
  | succ k ih =>
    obtain ⟨htest, hbody⟩ := hbefore 0 k.succ_pos
    have hrest := ih (f := fun j => f (j + 1)) (fun j hj => hbefore (j + 1) (Nat.succ_lt_succ hj)) hend
    rw [whileRaising, htest]
    dsimp only
    rw [hbody]
    exact hrest

/-- A loop that does not raise went through its states up to the first that fails the test. -/
theorem exists_of_whileRaising {f : Nat → σ} {fuel : Nat} (hnext : ∀ j s, body (f j) = .ok s → s = f (j + 1))
    (h : whileRaising test body fuel (f 0) = some (.ok t)) :
    ∃ k, t = f k ∧ test (f k) = .ok false ∧ ∀ j < k, test (f j) = .ok true := by
  induction fuel generalizing f with
  | zero => cases h
  | succ fuel ih =>
    rw [whileRaising] at h
    cases htest : test (f 0) with
    | error e =>
      rw [htest] at h
      cases h
    | ok b =>
      rw [htest] at h
      cases b with
      | false =>
        cases h
        exact ⟨0, rfl, htest, fun j hj => absurd hj j.not_lt_zero⟩
      | true =>
        dsimp only at h
        cases hbody : body (f 0) with
        | error e =>
          rw [hbody] at h
          cases h
        | ok s =>
          rw [hbody, hnext 0 s hbody] at h
          obtain ⟨k, ht, hend, hbefore⟩ := ih (f := fun j => f (j + 1)) (fun j => hnext (j + 1)) h
          refine ⟨k + 1, ht, hend, fun j hj => ?_⟩
          cases j with
          | zero => exact htest
          | succ j => exact hbefore j (Nat.lt_of_succ_lt_succ hj)

end

end Py
