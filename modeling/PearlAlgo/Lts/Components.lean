import Mathlib.Algebra.BigOperators.Group.List.Basic
import Mathlib.Algebra.GroupWithZero.Nat
import Mathlib.Data.List.Perm.Basic

/-!
# A list of components, of which a step changes one

What the components hold together changes as the one does.
-/

namespace Lts

variable {α β : Type} {l : List α} {i : Nat} {a : α}

theorem exists_split (h : l[i]? = some a) :
    ∃ l₁ l₂, l = l₁ ++ a :: l₂ ∧ l₁.length = i ∧ ∀ a', l.set i a' = l₁ ++ a' :: l₂ := by
  induction l generalizing i with
  | nil => cases h
  | cons b l ih =>
    cases i with
    | zero =>
      obtain rfl : b = a := Option.some.inj h
      exact ⟨[], l, rfl, rfl, fun _ => rfl⟩
    | succ i =>
      obtain ⟨l₁, l₂, rfl, hlength, hset⟩ := ih h
      exact ⟨b :: l₁, l₂, rfl, congrArg (· + 1) hlength, fun a' => by rw [List.set_cons_succ, hset, List.cons_append]⟩

theorem flatMap_set_perm (h : l[i]? = some a) (f : α → List β) (a' : α) :
    (f a ++ (l.set i a').flatMap f).Perm (f a' ++ l.flatMap f) := by
  obtain ⟨l₁, l₂, rfl, -, hset⟩ := exists_split h
  rw [hset, List.flatMap_append, List.flatMap_append, List.flatMap_cons, List.flatMap_cons]
  refine List.perm_append_comm_assoc .. |>.trans ?_
  refine .trans ?_ (List.perm_append_comm_assoc ..).symm
  exact .append_left _ (List.perm_append_comm_assoc ..)

theorem sum_map_set (h : l[i]? = some a) (f : α → Nat) (a' : α) :
    f a + ((l.set i a').map f).sum = f a' + (l.map f).sum := by
  obtain ⟨l₁, l₂, rfl, -, hset⟩ := exists_split h
  simp only [hset, List.map_append, List.map_cons, List.sum_append, List.sum_cons]
  omega

theorem forall_mem_set {P : α → Prop} (hall : ∀ b ∈ l, P b) {a' : α} (ha' : P a') : ∀ b ∈ l.set i a', P b := by
  intro b hb
  rcases List.mem_or_eq_of_mem_set hb with hb | rfl
  · exact hall b hb
  · exact ha'

end Lts
