import Mathlib.Data.Option.Basic

/-!
# Runs whose steps satisfy a condition

`Reach step P s₀ s`: steps that satisfy `P` lead from `s₀` to `s`. `runIf` computes such a run. `Along` is the
condition for a step that always succeeds.
-/

namespace Lts

variable {σ A : Type}

inductive Reach (step : σ → A → Option σ) (P : σ → A → Prop) (s₀ : σ) : σ → Prop
  | start : Reach step P s₀ s₀
  | step {s s' : σ} {a : A} (h : Reach step P s₀ s) (ha : P s a) (hs : step s a = some s') : Reach step P s₀ s'

def AnyStep (_ : σ) (_ : A) : Prop := True

instance (s : σ) (a : A) : Decidable (AnyStep s a) := .isTrue trivial

variable {step : σ → A → Option σ} {P Q : σ → A → Prop} {s₀ s : σ}

namespace Reach

/-- What holds at the start, and what every such step keeps, holds of every state reached. -/
theorem invariant {I : σ → Prop} (h : Reach step P s₀ s) (hstart : I s₀)
    (hstep : ∀ s a s', I s → P s a → step s a = some s' → I s') : I s := by
  induction h with
  | start => exact hstart
  | step _ ha hs ih => exact hstep _ _ _ ih ha hs

theorem mono (h : Reach step P s₀ s) (hPQ : ∀ s a, P s a → Q s a) : Reach step Q s₀ s := by
  induction h with
  | start => exact .start
  | step _ ha hs ih => exact ih.step (hPQ _ _ ha) hs

end Reach

/-- The state after the actions; `none` where one of them cannot be taken or does not satisfy `P`. -/
def runIf (step : σ → A → Option σ) (P : σ → A → Prop) [∀ s a, Decidable (P s a)] (s : σ) : List A → Option σ
  | [] => some s
  | a :: acts => if P s a then (step s a).bind fun s' => runIf step P s' acts else none

theorem reach_of_runIf [∀ s a, Decidable (P s a)] {acts : List A} (h : Reach step P s₀ s) {s' : σ}
    (hrun : runIf step P s acts = some s') : Reach step P s₀ s' := by
  induction acts generalizing s with
  | nil =>
    cases hrun
    exact h
  | cons a acts ih =>
    rw [runIf] at hrun
    split at hrun
    next ha =>
      obtain ⟨s₁, hs, hrun⟩ := Option.bind_eq_some_iff.1 hrun
      exact ih (h.step ha hs) hrun
    · cases hrun

theorem exists_reach (step : σ → A → Option σ) (P : σ → A → Prop) [∀ s a, Decidable (P s a)] (s₀ : σ) (acts : List A)
    (p : σ → Bool) (h : (runIf step P s₀ acts).map p = some true) : ∃ s, Reach step P s₀ s ∧ p s = true := by
  obtain ⟨s, hrun, hp⟩ := Option.map_eq_some_iff.1 h
  exact ⟨s, reach_of_runIf .start hrun, hp⟩

/-- Every step of the fold over the list satisfies `P`. -/
def Along (step : σ → A → σ) (P : σ → A → Prop) (s : σ) : List A → Prop
  | [] => True
  | a :: acts => P s a ∧ Along step P (step s a) acts

instance Along.decidable (step : σ → A → σ) (P : σ → A → Prop) [∀ s a, Decidable (P s a)] (s : σ) :
    (acts : List A) → Decidable (Along step P s acts)
  | [] => .isTrue trivial
  | a :: acts => @instDecidableAnd _ _ _ (Along.decidable step P (step s a) acts)

theorem Along.anyStep {step : σ → A → σ} (acts : List A) : Along step AnyStep s acts := by
  induction acts generalizing s with
  | nil => trivial
  | cons a acts ih => exact ⟨trivial, ih⟩

theorem Along.invariant {step : σ → A → σ} {I : σ → Prop} (hstep : ∀ s a, I s → P s a → I (step s a)) {acts : List A}
    (h : Along step P s acts) (hs : I s) : I (acts.foldl step s) := by
  induction acts generalizing s with
  | nil => exact hs
  | cons a acts ih => exact ih h.2 (hstep s a hs h.1)

theorem Along.mono {step : σ → A → σ} {P Q : σ → A → Prop} (hPQ : ∀ s a, P s a → Q s a) {acts : List A}
    (h : Along step P s acts) : Along step Q s acts := by
  induction acts generalizing s with
  | nil => trivial
  | cons a acts ih => exact ⟨hPQ s a h.1, ih h.2⟩

/-- Where an invariant makes two conditions the same on every step, they are the same on the whole run. -/
theorem Along.congr {step : σ → A → σ} {P Q R : σ → A → Prop} {I : σ → Prop}
    (hstep : ∀ s a, I s → P s a → I (step s a)) (hiff : ∀ s a, I s → P s a → (Q s a ↔ R s a)) {acts : List A}
    (h : Along step P s acts) (hs : I s) : Along step Q s acts ↔ Along step R s acts := by
  induction acts generalizing s with
  | nil => exact Iff.rfl
  | cons a acts ih =>
    have hrest := ih h.2 (hstep s a hs h.1)
    exact and_congr (hiff s a hs h.1) hrest

end Lts
