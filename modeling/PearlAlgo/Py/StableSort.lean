import PearlAlgo.Py.Seq

/-!
# What a stable sort commutes with

`sortedBy` keeps the order of elements with the same key: sorting commutes with a filter and with a map that keeps the
keys, and what is sorted already may be sorted again behind other elements.
-/

namespace Py

section stable
variable {α κ : Type} [LinearOrder κ] {key : α → κ} {l : List α}

theorem filter_orderedInsert {p : α → Bool} {a : α} (hl : l.Pairwise fun a b => key a ≤ key b) :
    (l.orderedInsert (fun a b => key a ≤ key b) a).filter p =
      if p a then (l.filter p).orderedInsert (fun a b => key a ≤ key b) a else l.filter p := by
  induction l with
  | nil =>
    rw [List.orderedInsert_nil, List.filter_cons]
    rfl
  | cons b l ih =>
    obtain ⟨hb, hl⟩ := List.pairwise_cons.1 hl
    by_cases hle : key a ≤ key b
    · rw [List.orderedInsert_cons_of_le (fun a b => key a ≤ key b) l hle]
      cases ha : p a with
      | false =>
        rw [List.filter_cons_of_neg (by simp [ha])]
        rfl
      | true =>
        -- what the filter leaves of the list is not below `a` either
        have hhead : ∀ c ∈ (b :: l).filter p, key a ≤ key c := by
          intro c hc
          rcases List.mem_cons.1 (List.mem_filter.1 hc).1 with rfl | hc
          · exact hle
          · exact hle.trans (hb c hc)
        rw [List.filter_cons_of_pos ha, if_pos rfl]
        cases hrest : (b :: l).filter p with
        | nil => rfl
        | cons c rest =>
          have hac : key a ≤ key c := hhead c (by rw [hrest]; exact List.mem_cons_self)
          rw [List.orderedInsert_cons_of_le (fun a b => key a ≤ key b) rest hac]
    · rw [List.orderedInsert_of_not_le (fun a b => key a ≤ key b) l hle]
      cases hb : p b with
      | false => rw [List.filter_cons_of_neg (by simp [hb]), List.filter_cons_of_neg (by simp [hb]), ih hl]
      | true =>
        rw [List.filter_cons_of_pos hb, List.filter_cons_of_pos hb, ih hl]
        split
        · rw [List.orderedInsert_of_not_le (fun a b => key a ≤ key b) (l.filter p) hle]
        · rfl

theorem filter_sortedBy (p : α → Bool) : (sortedBy key l).filter p = sortedBy key (l.filter p) := by
  induction l with
  | nil => rfl
  | cons a l ih =>
    rw [sortedBy, List.insertionSort_cons]
    refine (filter_orderedInsert pairwise_sortedBy).trans ?_
    rw [ih]
    cases ha : p a with
    | false => rw [List.filter_cons_of_neg (by simp [ha]), if_neg Bool.false_ne_true]
    | true =>
      rw [List.filter_cons_of_pos ha, if_pos rfl]
      rfl

theorem sortedBy_sortedBy : sortedBy key (sortedBy key l) = sortedBy key l :=
  (@pairwise_sortedBy _ _ _ key l).insertionSort_eq

theorem sortedBy_append_sortedBy (l' : List α) : sortedBy key (l' ++ sortedBy key l) = sortedBy key (l' ++ l) := by
  induction l' with
  | nil => exact sortedBy_sortedBy
  | cons a l' ih =>
    show (sortedBy key (l' ++ sortedBy key l)).orderedInsert _ a = (sortedBy key (l' ++ l)).orderedInsert _ a
    rw [ih]

theorem map_sortedBy {f : α → α} (hf : ∀ a, key (f a) = key a) : (sortedBy key l).map f = sortedBy key (l.map f) := by
  refine List.map_insertionSort _ _ f l fun a _ b _ => ?_
  rw [hf, hf]

theorem perm_sortedBy (key : α → κ) (l : List α) : (sortedBy key l).Perm l := List.perm_insertionSort _ l

end stable

end Py
