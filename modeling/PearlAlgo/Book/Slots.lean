import Mathlib.Data.List.Nodup
import Mathlib.Data.List.Perm.Basic
import Mathlib.Data.List.Perm.Subperm

/-!
# Items that are opened and closed

`run` replays a trace of openings and closings over the list of the open items. It fails where an item is opened in a
slot that is taken, or an item is closed that is not open; so every opening of an accepted trace has its own closing or is
still open at the end.
-/

namespace Book

inductive Move (α : Type)
  | opened (a : α)
  | closed (a : α)

variable {α κ : Type}

def Move.opened? : Move α → Option α
  | .opened a => some a
  | .closed _ => none

def Move.closed? : Move α → Option α
  | .opened _ => none
  | .closed a => some a

def openings (l : List (Move α)) : List α := l.filterMap Move.opened?

def closings (l : List (Move α)) : List α := l.filterMap Move.closed?

variable [DecidableEq α] [DecidableEq κ] (slot : α → κ)

def step (b : List α) : Move α → Option (List α)
  | .opened a => if slot a ∈ b.map slot then none else some (b ++ [a])
  | .closed a => if a ∈ b then some (b.erase a) else none

def run (b : List α) : List (Move α) → Option (List α)
  | [] => some b
  | m :: rest => (step slot b m).bind fun b' => run b' rest

variable {slot} {b b' : List α} {l l' : List (Move α)} {a : α}

theorem run_append (l l' : List (Move α)) (b : List α) :
    run slot b (l ++ l') = (run slot b l).bind fun b' => run slot b' l' := by
  induction l generalizing b with
  | nil => rfl
  | cons m l ih =>
    rw [List.cons_append, run, run]
    rcases step slot b m with _ | b₁
    · rfl
    · exact ih b₁

theorem run_concat (h : run slot b l = some b') (m : Move α) : run slot b (l ++ [m]) = step slot b' m := by
  rw [run_append, h]
  show (step slot b' m).bind _ = _
  rcases step slot b' m with _ | b₁
  · rfl
  · rfl

theorem run_open (h : run slot b l = some b') (ha : slot a ∉ b'.map slot) :
    run slot b (l ++ [.opened a]) = some (b' ++ [a]) := by
  rw [run_concat h, step, if_neg ha]

theorem run_close (h : run slot b l = some b') (ha : a ∈ b') : run slot b (l ++ [.closed a]) = some (b'.erase a) := by
  rw [run_concat h, step, if_pos ha]

/-- What holds of the open items at the start, and what every step keeps, holds of the open items after a trace. -/
theorem run_invariant {I : List α → Prop} (hstep : ∀ b m b', I b → step slot b m = some b' → I b')
    (h : run slot b l = some b') (hb : I b) : I b' := by
  induction l generalizing b with
  | nil =>
    cases h
    exact hb
  | cons m l ih =>
    obtain ⟨b₁, hm, hrest⟩ := Option.bind_eq_some_iff.1 h
    exact ih hrest (hstep _ _ _ hb hm)

theorem slots_step {m : Move α} (h : step slot b m = some b') (hb : (b.map slot).Nodup) : (b'.map slot).Nodup := by
  cases m with
  | opened a =>
    rw [step] at h
    split at h
    · cases h
    next hfree =>
      cases h
      rw [List.map_append]
      exact List.nodup_append.2 ⟨hb, List.nodup_singleton _, fun x hx y hy hxy => hfree (by
        rw [List.map_singleton, List.mem_singleton] at hy
        rwa [← hy, ← hxy])⟩
  | closed a =>
    rw [step] at h
    split at h
    · cases h
      exact hb.sublist (List.erase_sublist.map slot)
    · cases h

/-- No slot ever holds two items. -/
theorem slots_run (h : run slot b l = some b') (hb : (b.map slot).Nodup) : (b'.map slot).Nodup :=
  run_invariant (I := fun b => (b.map slot).Nodup) (fun _ _ _ hb hm => slots_step hm hb) h hb

theorem perm_step {m : Move α} (h : step slot b m = some b') :
    (b ++ openings [m]).Perm (closings [m] ++ b') := by
  cases m with
  | opened a =>
    rw [step] at h
    split at h
    · cases h
    · cases h
      exact List.Perm.refl _
  | closed a =>
    rw [step] at h
    split at h
    next ha =>
      cases h
      rw [show openings [Move.closed a] = [] from rfl, List.append_nil]
      exact List.perm_cons_erase ha
    · cases h

/-- What was open or has been opened has been closed or is open. -/
theorem perm_run (h : run slot b l = some b') : (b ++ openings l).Perm (closings l ++ b') := by
  induction l generalizing b with
  | nil =>
    cases h
    rw [show openings ([] : List (Move α)) = [] from rfl, List.append_nil]
    exact List.Perm.refl _
  | cons m l ih =>
    obtain ⟨b₁, hm, hrest⟩ := Option.bind_eq_some_iff.1 h
    have hopen : openings (m :: l) = openings [m] ++ openings l := List.filterMap_append (l := [m])
    have hclose : closings (m :: l) = closings [m] ++ closings l := List.filterMap_append (l := [m])
    have hfirst : (b ++ openings [m] ++ openings l).Perm (closings [m] ++ b₁ ++ openings l) :=
      (perm_step hm).append_right _
    have hlater : (closings [m] ++ (b₁ ++ openings l)).Perm (closings [m] ++ (closings l ++ b')) :=
      (ih hrest).append_left _
    rw [List.append_assoc, List.append_assoc] at hfirst
    rw [hopen, hclose, List.append_assoc]
    exact hfirst.trans hlater

/-- A trace that leaves nothing open has closed what it has opened. -/
theorem closings_perm (h : run slot [] l = some []) : (closings l).Perm (openings l) := by
  have hperm := perm_run h
  rw [List.nil_append, List.append_nil] at hperm
  exact hperm.symm

/-- A trace that is accepted has not closed more than it has opened, in any slot, and at most one of them is open. -/
theorem count_run (h : run slot [] l = some b') (k : κ) :
    (closings l).countP (fun a => slot a = k) ≤ (openings l).countP (fun a => slot a = k) ∧
      (openings l).countP (fun a => slot a = k) ≤ (closings l).countP (fun a => slot a = k) + 1 := by
  have hperm := (perm_run h).countP_eq fun a => decide (slot a = k)
  rw [List.nil_append, List.countP_append] at hperm
  have hone : b'.countP (fun a => decide (slot a = k)) ≤ 1 := by
    have hcount := List.nodup_iff_count_le_one.1 (slots_run h List.nodup_nil) k
    rw [List.count, List.countP_map] at hcount
    exact hcount
  omega

/-- What a prefix of an accepted trace leaves open. -/
theorem run_prefix (h : run slot b l = some b') (hl : l' <+: l) : ∃ b₁, run slot b l' = some b₁ := by
  obtain ⟨rest, rfl⟩ := hl
  rw [run_append] at h
  obtain ⟨b₁, hrun, -⟩ := Option.bind_eq_some_iff.1 h
  exact ⟨b₁, hrun⟩

end Book
