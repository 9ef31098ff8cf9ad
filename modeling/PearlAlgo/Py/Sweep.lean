import Mathlib.Data.Prod.Lex
import Mathlib.Order.Bounds.Basic
import Mathlib.Algebra.Order.BigOperators.Group.List
import Mathlib.Data.List.Induction
import PearlAlgo.Py.StableSort

/-!
# The largest running total of events in time

`level events t` is the sum of the amounts of the events up to `t`. With the events in the order of their times, and at one
time what lowers the total before what raises it, the largest running total is the largest level: a total in the midst of
one time's events is below the one before them or the one after them.
-/

namespace Py

variable {K α : Type}

section
variable [AddCommGroup α] [LinearOrder α]

/-- The running total and the largest one so far. -/
def peakStep (s : α × α) (d : α) : α × α := (s.1 + d, max s.2 (s.1 + d))

def peak (l : List α) : α := (l.foldl peakStep (0, 0)).2

theorem foldl_peakStep_fst (l : List α) (s : α × α) : (l.foldl peakStep s).1 = s.1 + l.sum := by
  induction l generalizing s with
  | nil => simp
  | cons d l ih => rw [List.foldl_cons, ih, peakStep, List.sum_cons, add_assoc]

theorem peak_concat (l : List α) (d : α) : peak (l ++ [d]) = max (peak l) (l.sum + d) := by
  rw [peak, List.foldl_concat, peakStep, foldl_peakStep_fst, zero_add]
  rfl

theorem sum_le_peak {p l : List α} (h : p <+: l) : p.sum ≤ peak l := by
  induction l using List.reverseRecOn with
  | nil =>
    rw [List.prefix_nil.1 h]
    exact le_rfl
  | append_singleton l d ih =>
    rw [peak_concat]
    rcases List.prefix_concat_iff.1 h with rfl | h
    · rw [List.sum_append, List.sum_singleton]
      exact le_max_right _ _
    · exact (ih h).trans (le_max_left _ _)

variable [IsOrderedAddMonoid α]

/-- The peak is the start, or it is reached by an amount that raises the total. -/
theorem peak_reached (l : List α) : peak l = 0 ∨ ∃ p d s, l = p ++ d :: s ∧ 0 < d ∧ p.sum + d = peak l := by
  induction l using List.reverseRecOn with
  | nil => exact .inl rfl
  | append_singleton l d ih =>
    rw [peak_concat]
    rcases le_or_gt (l.sum + d) (peak l) with hle | hlt
    · rw [max_eq_left hle]
      rcases ih with h | ⟨p, d', s, rfl, hpos, hsum⟩
      · exact .inl h
      · exact .inr ⟨p, d', s ++ [d], by simp, hpos, hsum⟩
    · rw [max_eq_right hlt.le]
      have hpos : 0 < d := by
        have := (sum_le_peak (List.prefix_refl l)).trans_lt hlt
        simpa using this
      exact .inr ⟨l, d, [], rfl, hpos, rfl⟩

end

section
variable [LinearOrder K]

/-- Of events in the order of their times, those up to some time come first. -/
theorem filter_time_isPrefix {events : List (K × α)} (h : events.Pairwise fun e e' => e.1 ≤ e'.1) (t : K) :
    events.filter (fun e => e.1 ≤ t) <+: events := by
  induction events with
  | nil => exact List.nil_prefix
  | cons e events ih =>
    obtain ⟨he, h⟩ := List.pairwise_cons.1 h
    by_cases hle : e.1 ≤ t
    · rw [List.filter_cons_of_pos (by simpa using hle)]
      exact List.prefix_cons_inj e |>.2 (ih h)
    · have hnone : (e :: events).filter (fun e => e.1 ≤ t) = [] := by
        rw [List.filter_eq_nil_iff]
        intro e' he'
        rcases List.mem_cons.1 he' with rfl | he'
        · simpa using hle
        · simpa using (not_le.1 hle).trans_le (he e' he')
      rw [hnone]
      exact List.nil_prefix

def level [AddCommGroup α] (events : List (K × α)) (t : K) : α :=
  ((events.filter fun e => e.1 ≤ t).map Prod.snd).sum

theorem level_congr [AddCommGroup α] {events events' : List (K × α)} (h : events.Perm events') (t : K) :
    level events t = level events' t :=
  ((h.filter _).map _).sum_eq

variable [AddCommGroup α] [LinearOrder α]

/-- `sorted(events, key=lambda x: (x[0], 0 if x[1] < 0 else 1))` -/
def sortedEvents (events : List (K × α)) : List (K × α) :=
  sortedBy (fun e => toLex (e.1, if e.2 < 0 then (0 : Nat) else 1)) events

theorem perm_sortedEvents (events : List (K × α)) : (sortedEvents events).Perm events := perm_sortedBy _ events

theorem pairwise_sortedEvents (events : List (K × α)) :
    (sortedEvents events).Pairwise fun e e' => e.1 < e'.1 ∨ e.1 = e'.1 ∧ (0 ≤ e.2 → 0 ≤ e'.2) := by
  refine List.Pairwise.imp (fun {e e'} h => ?_) (pairwise_sortedBy (l := events))
  rcases Prod.Lex.toLex_le_toLex.1 h with hlt | ⟨heq, hle⟩
  · exact .inl hlt
  · refine .inr ⟨heq, fun hpos => ?_⟩
    rw [if_neg (not_lt.2 hpos)] at hle
    by_contra hneg
    simp [not_le.1 hneg] at hle

theorem level_le_peak (events : List (K × α)) (t : K) : level events t ≤ peak ((sortedEvents events).map Prod.snd) := by
  have hsorted : (sortedEvents events).Pairwise fun e e' => e.1 ≤ e'.1 := by
    refine (pairwise_sortedEvents events).imp fun h => ?_
    rcases h with hlt | ⟨heq, -⟩
    · exact hlt.le
    · exact heq.le
  rw [← level_congr (perm_sortedEvents events) t]
  exact sum_le_peak ((filter_time_isPrefix hsorted t).map Prod.snd)

/-- The largest running total is the largest level, or zero. -/
theorem peak_isGreatest [IsOrderedAddMonoid α] (events : List (K × α)) :
    IsGreatest (insert 0 (Set.range (level events))) (peak ((sortedEvents events).map Prod.snd)) := by
  constructor
  · rcases peak_reached ((sortedEvents events).map Prod.snd) with h | ⟨p, d, s, hl, hpos, hsum⟩
    · exact .inl h
    · obtain ⟨before, rest, hevents, rfl, hrest⟩ := List.map_eq_append_iff.1 hl
      obtain ⟨e, after, rfl, rfl, rfl⟩ := List.map_eq_cons_iff.1 hrest
      refine .inr ⟨e.1, le_antisymm (level_le_peak events e.1) ?_⟩
      have hpairs := pairwise_sortedEvents events
      rw [hevents, List.pairwise_append, List.pairwise_cons] at hpairs
      obtain ⟨-, ⟨hafter, -⟩, hbefore⟩ := hpairs
      have hall : before.filter (fun e' => e'.1 ≤ e.1) = before := by
        rw [List.filter_eq_self]
        intro e' he'
        rcases hbefore e' he' e List.mem_cons_self with hlt | ⟨heq, -⟩
        · simpa using hlt.le
        · simpa using heq.le
      -- what is left of the events at this time raises the total further
      have hmore : 0 ≤ ((after.filter fun e' => e'.1 ≤ e.1).map Prod.snd).sum := by
        refine List.sum_nonneg fun d hd => ?_
        obtain ⟨e', he', rfl⟩ := List.mem_map.1 hd
        obtain ⟨hmem, hle⟩ := List.mem_filter.1 he'
        rcases hafter e' hmem with hlt | ⟨-, hsign⟩
        · exact absurd (of_decide_eq_true hle) (not_le.2 hlt)
        · exact hsign hpos.le
      rw [← hsum, ← level_congr (perm_sortedEvents events) e.1]
      change _ ≤ level (sortedEvents events) e.1
      rw [hevents, level, List.filter_append, hall, List.filter_cons_of_pos (by simp), List.map_append, List.map_cons,
        List.sum_append, List.sum_cons, ← add_assoc]
      exact le_add_of_nonneg_right hmore
  · rintro x (rfl | ⟨t, rfl⟩)
    · exact sum_le_peak List.nil_prefix
    · exact level_le_peak events t

end

end Py
