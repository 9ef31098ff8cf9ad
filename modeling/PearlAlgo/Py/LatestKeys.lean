import Mathlib.Data.Finset.Card
import Mathlib.Data.List.Sort
import PearlAlgo.Py.Dict

/-!
# Dictionaries of the latest keys

A dictionary with the entries of the latest keys. `visit` updates the entry of a key, which is entered blank where there
is none; of more than `n` keys the earliest go then, and the key itself can be one of them. `Shadows` compares the
dictionary of a run that found entries with that of a run that found none: a visit gets the same from both as long as
what was found neither pushes its key out nor makes a difference where the key is first visited.
-/

namespace Py

variable {κ α : Type} [LinearOrder κ] {n : Nat}

/-- Fewer than `n` of the keys are later. -/
def Latest (n : Nat) (ks : Finset κ) (k : κ) : Prop := (ks.filter (k < ·)).card < n

instance Latest.decidable (n : Nat) (ks : Finset κ) (k : κ) : Decidable (Latest n ks k) :=
  inferInstanceAs (Decidable (_ < n))

theorem Latest.mono {ks ks' : Finset κ} {k : κ} (h : Latest n ks' k) (hsub : ks ⊆ ks') : Latest n ks k :=
  (Finset.card_le_card (Finset.filter_subset_filter _ hsub)).trans_lt h

namespace Dict

def keySet (d : Dict κ α) : Finset κ := d.keys.toFinset

/-- `for k in sorted(d)[:-n]: del d[k]` -/
def keepLatest (n : Nat) (d : Dict κ α) : Dict κ α :=
  d.filter fun k _ => k ∉ (d.keys.insertionSort (· ≤ ·)).take (d.keys.length - n)

def enter (n : Nat) (k : κ) (blank : α) (d : Dict κ α) : Dict κ α :=
  if d.contains k then d else (d.set k blank).keepLatest n

/-- The entry of the key after `f`, `none` where the key is not kept. -/
def visit (n : Nat) (k : κ) (blank : α) (f : α → α) (d : Dict κ α) : Dict κ α × Option α :=
  let d := d.enter n k blank
  match d.get? k with
  | some a => (d.set k (f a), some (f a))
  | none => (d, none)

section keys
variable {d : Dict κ α} {k j : κ} {a blank : α}

theorem mem_keySet : k ∈ d.keySet ↔ ∃ a, d.get? k = some a := by
  unfold keySet keys
  rw [List.mem_toFinset, List.mem_map]
  constructor
  · rintro ⟨⟨_, a⟩, he, rfl⟩
    exact ⟨a, get?_eq_some.2 he⟩
  · rintro ⟨a, ha⟩
    exact ⟨(k, a), get?_eq_some.1 ha, rfl⟩

theorem get?_eq_none : d.get? k = none ↔ k ∉ d.keySet := by
  rw [mem_keySet, Option.eq_none_iff_forall_ne_some, not_exists]

theorem contains_iff : d.contains k = true ↔ k ∈ d.keySet := by
  unfold contains
  rw [Option.isSome_iff_exists, mem_keySet]

theorem card_keySet : d.keySet.card = d.keys.length := List.toFinset_card_of_nodup d.nodup

theorem keySet_set : (d.set k a).keySet = insert k d.keySet := by
  ext j
  unfold keySet
  rw [Finset.mem_insert, List.mem_toFinset, List.mem_toFinset]
  exact mem_keys_upsert

theorem keySet_pop : (d.pop k).keySet = d.keySet.erase k := by
  ext j
  rw [Finset.mem_erase, mem_keySet, mem_keySet]
  by_cases h : j = k
  · subst h
    simp [get?_pop_self]
  · simp [h, get?_pop_ne d h]

theorem keepLatest_of_card_le (h : d.keySet.card ≤ n) : d.keepLatest n = d := by
  rw [card_keySet] at h
  unfold keepLatest
  rw [Nat.sub_eq_zero_of_le h]
  obtain ⟨entries, hnodup⟩ := d
  simp [filter]

/-- Of one key too many the least goes. -/
theorem keepLatest_of_card_succ (h : d.keySet.card = n + 1) :
    ∃ m ∈ d.keySet, (∀ j ∈ d.keySet, m ≤ j) ∧ d.keepLatest n = d.pop m := by
  rw [card_keySet] at h
  have hperm := List.perm_insertionSort (· ≤ ·) d.keys
  have hsorted := List.pairwise_insertionSort (· ≤ ·) d.keys
  have hlen := hperm.length_eq
  unfold keepLatest
  rcases hkeys : d.keys.insertionSort (· ≤ ·) with _ | ⟨m, rest⟩
  · rw [hkeys, List.length_nil] at hlen
    omega
  · rw [hkeys] at hperm hsorted
    have hmem : ∀ j, j ∈ d.keySet ↔ j = m ∨ j ∈ rest := by
      intro j
      unfold keySet
      rw [List.mem_toFinset, ← hperm.mem_iff, List.mem_cons]
    refine ⟨m, (hmem m).2 (.inl rfl), fun j hj => ?_, ?_⟩
    · rcases (hmem j).1 hj with rfl | hj
      · exact le_refl j
      · exact (List.pairwise_cons.1 hsorted).1 j hj
    · rw [h, Nat.add_sub_cancel_left]
      simp [pop]

theorem get?_keepLatest (h : j ∈ (d.keepLatest n).keySet) : (d.keepLatest n).get? j = d.get? j := by
  obtain ⟨a, ha⟩ := mem_keySet.1 h
  unfold keepLatest at ha ⊢
  rw [get?_filter] at ha ⊢
  rw [ha]
  exact (Option.filter_eq_some_iff.1 ha).1.symm

theorem keySet_enter_subset : (d.enter n k blank).keySet ⊆ insert k d.keySet := by
  intro j hj
  unfold enter at hj
  split at hj
  · exact Finset.mem_insert_of_mem hj
  · rw [← @keySet_set κ α _ d k blank, mem_keySet, ← get?_keepLatest hj]
    exact mem_keySet.1 hj

theorem get?_enter_of_ne (hj : j ∈ (d.enter n k blank).keySet) (hne : j ≠ k) :
    (d.enter n k blank).get? j = d.get? j := by
  unfold enter at hj ⊢
  split
  · rfl
  next hnew =>
    rw [if_neg hnew] at hj
    rw [get?_keepLatest hj, get?_set_ne d blank hne]

theorem enter_of_mem (h : k ∈ d.keySet) : d.enter n k blank = d := if_pos (contains_iff.2 h)

theorem get?_enter_self (hk : k ∈ (d.enter n k blank).keySet) (hnew : k ∉ d.keySet) :
    (d.enter n k blank).get? k = some blank := by
  unfold enter at hk ⊢
  have hnot : ¬ d.contains k = true := fun h => hnew (contains_iff.1 h)
  rw [if_neg hnot] at hk ⊢
  rw [get?_keepLatest hk, get?_set_self]

end keys

/-! ### Which keys are kept -/

/-- The dictionary has the `n` latest keys of `X`. -/
structure Holds (n : Nat) (X : Finset κ) (d : Dict κ α) : Prop where
  card_le : d.keySet.card ≤ n
  sub : d.keySet ⊆ X
  earlier : ∀ x ∈ X, x ∉ d.keySet → d.keySet.card = n ∧ ∀ j ∈ d.keySet, x < j

namespace Holds
variable {X : Finset κ} {d : Dict κ α} {k : κ} {a blank : α}

theorem empty : Holds n ∅ (Dict.empty : Dict κ α) where
  card_le := Nat.zero_le n
  sub := Finset.Subset.refl _
  earlier := fun x hx => absurd hx (Finset.notMem_empty x)

theorem self (h : d.keySet.card ≤ n) : Holds n d.keySet d where
  card_le := h
  sub := Finset.Subset.refl _
  earlier := fun _ hx hnot => absurd hx hnot

theorem mem_iff (h : Holds n X d) (hk : k ∈ X) : k ∈ d.keySet ↔ Latest n X k := by
  unfold Latest
  constructor
  · intro hmem
    have hsub : X.filter (k < ·) ⊆ d.keySet.erase k := by
      intro x hx
      obtain ⟨hx, hlt⟩ := Finset.mem_filter.1 hx
      refine Finset.mem_erase.2 ⟨hlt.ne', ?_⟩
      by_contra hnot
      exact lt_asymm hlt ((h.earlier x hx hnot).2 k hmem)
    have hcard := Finset.card_le_card hsub
    have hpos := Finset.card_pos.2 ⟨k, hmem⟩
    have hle := h.card_le
    rw [Finset.card_erase_of_mem hmem] at hcard
    omega
  · intro hlatest
    by_contra hnot
    obtain ⟨hcard, hlt⟩ := h.earlier k hk hnot
    have hsub : d.keySet ⊆ X.filter (k < ·) := fun j hj => Finset.mem_filter.2 ⟨h.sub hj, hlt j hj⟩
    have hle := Finset.card_le_card hsub
    omega

theorem set (h : Holds n X d) (hk : k ∈ d.keySet) (a : α) : Holds n X (d.set k a) := by
  have hkeys : (d.set k a).keySet = d.keySet := by rw [keySet_set, Finset.insert_eq_of_mem hk]
  exact ⟨hkeys ▸ h.card_le, hkeys ▸ h.sub, hkeys ▸ h.earlier⟩

theorem enter (h : Holds n X d) (k : κ) (blank : α) : Holds n (insert k X) (d.enter n k blank) := by
  by_cases hk : k ∈ d.keySet
  · rw [enter_of_mem hk, Finset.insert_eq_of_mem (h.sub hk)]
    exact h
  have hset : (d.set k blank).keySet = insert k d.keySet := keySet_set
  have hcard : (d.set k blank).keySet.card = d.keySet.card + 1 := by rw [hset, Finset.card_insert_of_notMem hk]
  have hnot : ¬ d.contains k = true := fun hc => hk (contains_iff.1 hc)
  unfold Dict.enter
  rw [if_neg hnot]
  rcases Nat.lt_or_ge d.keySet.card n with hlt | hge
  · -- there is room, and no key has gone before
    rw [keepLatest_of_card_le (by omega)]
    refine ⟨by omega, hset ▸ Finset.insert_subset_insert k h.sub, fun x hx hx' => ?_⟩
    rw [hset, Finset.mem_insert, not_or] at hx'
    have hfull := (h.earlier x ((Finset.mem_insert.1 hx).resolve_left hx'.1) hx'.2).1
    omega
  · obtain ⟨m, hm, hle, heq⟩ := keepLatest_of_card_succ (d := d.set k blank) (n := n) (by have := h.card_le; omega)
    have herase : ((d.set k blank).pop m).keySet = (insert k d.keySet).erase m := by rw [keySet_pop, hset]
    have hfull : ((d.set k blank).pop m).keySet.card = n := by
      rw [herase, Finset.card_erase_of_mem (hset ▸ hm), ← hset]
      have := h.card_le
      omega
    rw [heq]
    refine ⟨hfull.le, ?_, fun x hx hx' => ⟨hfull, fun j hj => ?_⟩⟩
    · rw [herase]
      exact (Finset.erase_subset m _).trans (Finset.insert_subset_insert k h.sub)
    rw [herase, Finset.mem_erase] at hj
    have hmj : m < j := lt_of_le_of_ne (hle j (hset ▸ hj.2)) (Ne.symm hj.1)
    by_cases hxm : x = m
    · rwa [hxm]
    · -- the key went earlier, so it is before every key of `d`, and before `m` or the new key is `m`
      have hxd : x ∉ insert k d.keySet := fun hin => hx' (herase ▸ Finset.mem_erase.2 ⟨hxm, hin⟩)
      rw [Finset.mem_insert, not_or] at hxd
      have hxlt := (h.earlier x ((Finset.mem_insert.1 hx).resolve_left hxd.1) hxd.2).2
      rcases Finset.mem_insert.1 hj.2 with rfl | hjd
      · rcases Finset.mem_insert.1 (hset ▸ hm) with rfl | hmd
        · exact absurd rfl hj.1
        · exact (hxlt m hmd).trans hmj
      · exact hxlt j hjd

end Holds

/-! ### One visit -/

section visit
variable {d : Dict κ α} {k j : κ} {a blank : α} {f : α → α}

theorem mem_enter_iff (h : d.keySet.card ≤ n) : k ∈ (d.enter n k blank).keySet ↔ Latest n (insert k d.keySet) k :=
  ((Holds.self h).enter k blank).mem_iff (Finset.mem_insert_self ..)

/-- A visit fails if `n` of the keys are later than its own. -/
theorem visit_isSome_iff (h : d.keySet.card ≤ n) :
    (d.visit n k blank f).2.isSome ↔ Latest n (insert k d.keySet) k := by
  rw [← @mem_enter_iff _ _ _ n d k blank h, mem_keySet]
  unfold visit
  dsimp only
  rcases (d.enter n k blank).get? k with _ | a
  · simp
  · simp

/-- A visit that does not fail gives what it makes of the entry or of the blank. -/
theorem visit_latest (h : d.keySet.card ≤ n) (hk : Latest n (insert k d.keySet) k) :
    (d.visit n k blank f).2 = some (f ((d.get? k).getD blank)) := by
  have hmem := (@mem_enter_iff _ _ _ n d k blank h).2 hk
  have hget : (d.enter n k blank).get? k = some ((d.get? k).getD blank) := by
    by_cases hold : k ∈ d.keySet
    · obtain ⟨a, ha⟩ := mem_keySet.1 hold
      rw [enter_of_mem hold, ha, Option.getD_some]
    · rw [get?_enter_self hmem hold, get?_eq_none.2 hold, Option.getD_none]
  unfold visit
  dsimp only
  rw [hget]

/-- The entries after a visit are those before it, and its own. -/
theorem get?_visit (hj : (d.visit n k blank f).1.get? j = some a) :
    j = k ∧ (d.visit n k blank f).2 = some a ∨ j ≠ k ∧ d.get? j = some a := by
  have hother : j ≠ k → (d.enter n k blank).get? j = some a → d.get? j = some a := by
    intro hne henter
    rw [← get?_enter_of_ne (mem_keySet.2 ⟨a, henter⟩) hne, henter]
  unfold visit at hj ⊢
  dsimp only at hj ⊢
  rcases hk : (d.enter n k blank).get? k with _ | b
  · rw [hk] at hj
    have hne : j ≠ k := by
      rintro rfl
      rw [hk] at hj
      cases hj
    exact .inr ⟨hne, hother hne hj⟩
  · rw [hk] at hj
    by_cases hne : j = k
    · subst hne
      rw [get?_set_self] at hj
      exact .inl ⟨rfl, hj⟩
    · rw [get?_set_ne _ _ hne] at hj
      exact .inr ⟨hne, hother hne hj⟩

theorem card_visit_le (h : d.keySet.card ≤ n) : (d.visit n k blank f).1.keySet.card ≤ n := by
  have henter := ((Holds.self h).enter k blank).card_le
  unfold visit
  dsimp only
  rcases hk : (d.enter n k blank).get? k with _ | b
  · exact henter
  · have hmem : k ∈ (d.enter n k blank).keySet := mem_keySet.2 ⟨b, hk⟩
    dsimp only
    rw [keySet_set, Finset.insert_eq_of_mem hmem]
    exact henter

end visit

/-! ### Two runs -/

/-- The dictionaries of two runs that have visited the keys of `V`, the first of which found `old` and the second
nothing. -/
structure Shadows (n : Nat) (old : Dict κ α) (V : Finset κ) (d f : Dict κ α) : Prop where
  left : Holds n (old.keySet ∪ V) d
  right : Holds n V f
  found : ∀ j ∈ d.keySet, j ∉ V → d.get? j = old.get? j
  visited : ∀ j ∈ d.keySet, j ∈ V → d.get? j = f.get? j

namespace Shadows
variable {old d f : Dict κ α} {V : Finset κ} {k : κ} {blank : α} {step : α → α}

theorem start (h : old.keySet.card ≤ n) : Shadows n old ∅ old empty where
  left := by
    rw [Finset.union_empty]
    exact .self h
  right := .empty
  found := fun _ _ _ => rfl
  visited := fun j _ hj => absurd hj (Finset.notMem_empty j)

theorem left_enter (h : Shadows n old V d f) (k : κ) (blank : α) :
    Holds n (old.keySet ∪ insert k V) (d.enter n k blank) := by
  rw [Finset.union_insert]
  exact h.left.enter k blank

/-- What was found only pushes keys out. -/
theorem mem_right (h : Shadows n old V d f) {j : κ} (hj : j ∈ (d.enter n k blank).keySet) (hV : j ∈ insert k V) :
    j ∈ (f.enter n k blank).keySet := by
  have hlatest := ((h.left_enter k blank).mem_iff (Finset.mem_union_right _ hV)).1 hj
  exact ((h.right.enter k blank).mem_iff hV).2 (hlatest.mono Finset.subset_union_right)

theorem enter_found (h : Shadows n old V d f) {j : κ} (hj : j ∈ (d.enter n k blank).keySet) (hV : j ∉ insert k V) :
    (d.enter n k blank).get? j = old.get? j := by
  obtain ⟨hne, hV⟩ := not_or.1 (Finset.mem_insert.not.1 hV)
  rw [get?_enter_of_ne hj hne]
  exact h.found j (Finset.mem_of_mem_insert_of_ne (keySet_enter_subset hj) hne) hV

theorem enter_visited (h : Shadows n old V d f) {j : κ} (hj : j ∈ (d.enter n k blank).keySet) (hne : j ≠ k)
    (hV : j ∈ V) : (d.enter n k blank).get? j = (f.enter n k blank).get? j := by
  have hf := h.mem_right hj (Finset.mem_insert_of_mem hV)
  rw [get?_enter_of_ne hj hne, get?_enter_of_ne hf hne]
  exact h.visited j (Finset.mem_of_mem_insert_of_ne (keySet_enter_subset hj) hne) hV

/-- The entries of a key that both keep are alike after the step. -/
theorem step_eq (h : Shadows n old V d f) (step : α → α) (hk : k ∈ (d.enter n k blank).keySet)
    (hfirst : k ∉ V → ∀ a, old.get? k = some a → step a = step blank) :
    ((d.enter n k blank).get? k).map step = ((f.enter n k blank).get? k).map step := by
  have hf := h.mem_right hk (Finset.mem_insert_self k V)
  by_cases hV : k ∈ V
  · -- a key that went does not come back
    have hd : k ∈ d.keySet := by
      have hlatest := ((h.left_enter k blank).mem_iff (Finset.mem_union_right _ (Finset.mem_insert_self k V))).1 hk
      rw [Finset.insert_eq_of_mem hV] at hlatest
      exact (h.left.mem_iff (Finset.mem_union_right _ hV)).2 hlatest
    obtain ⟨a, ha⟩ := mem_keySet.1 hd
    have hfk : k ∈ f.keySet := mem_keySet.2 ⟨a, by rw [← h.visited k hd hV, ha]⟩
    rw [enter_of_mem hd, enter_of_mem hfk, h.visited k hd hV]
  · rw [get?_enter_self hf fun hfk => hV (h.right.sub hfk)]
    by_cases hd : k ∈ d.keySet
    · obtain ⟨a, ha⟩ := mem_keySet.1 hd
      rw [enter_of_mem hd, ha, Option.map_some, Option.map_some,
        hfirst hV a (by rw [← h.found k hd hV, ha])]
    · rw [get?_enter_self hk hd]

/-- A visit gets the same from both dictionaries where the key is not pushed out by what was found, and what was found
under it makes no difference at its first visit. -/
theorem visit (h : Shadows n old V d f)
    (hkept : Latest n (insert k V) k → Latest n (old.keySet ∪ insert k V) k ∧
      (k ∉ V → ∀ a, old.get? k = some a → step a = step blank)) :
    (d.visit n k blank step).2 = (f.visit n k blank step).2 ∧
      Shadows n old (insert k V) (d.visit n k blank step).1 (f.visit n k blank step).1 := by
  have hleft := h.left_enter k blank
  have hright := h.right.enter k blank
  have hkV := Finset.mem_insert_self k V
  have hin : k ∈ (f.enter n k blank).keySet ↔ k ∈ (d.enter n k blank).keySet := by
    constructor
    · intro hf
      exact (hleft.mem_iff (Finset.mem_union_right _ hkV)).2 (hkept ((hright.mem_iff hkV).1 hf)).1
    · exact fun hd => h.mem_right hd hkV
  unfold Dict.visit
  dsimp only
  rcases hd : (d.enter n k blank).get? k with _ | a
  · -- the key is not kept by either
    have hnot : k ∉ (d.enter n k blank).keySet := get?_eq_none.1 hd
    rw [get?_eq_none.2 fun hf => hnot (hin.1 hf)]
    refine ⟨rfl, hleft, hright, fun j hj hjV => h.enter_found hj hjV, fun j hj hjV => ?_⟩
    have hne : j ≠ k := fun heq => hnot (heq ▸ hj)
    exact h.enter_visited hj hne (Finset.mem_of_mem_insert_of_ne hjV hne)
  · have hk : k ∈ (d.enter n k blank).keySet := mem_keySet.2 ⟨a, hd⟩
    obtain ⟨b, hb⟩ := mem_keySet.1 (hin.2 hk)
    have hstep := h.step_eq step hk (hkept ((hright.mem_iff hkV).1 (hin.2 hk))).2
    rw [hd, hb, Option.map_some, Option.map_some, Option.some_inj] at hstep
    rw [hb]
    dsimp only
    rw [hstep]
    have hsub : ((d.enter n k blank).set k (step b)).keySet = (d.enter n k blank).keySet := by
      rw [keySet_set, Finset.insert_eq_of_mem hk]
    refine ⟨rfl, hleft.set hk _, hright.set (hin.2 hk) _, fun j hj hjV => ?_, fun j hj hjV => ?_⟩
    · have hne : j ≠ k := fun heq => hjV (heq ▸ hkV)
      rw [get?_set_ne _ _ hne]
      exact h.enter_found (hsub ▸ hj) hjV
    · by_cases hne : j = k
      · rw [hne, get?_set_self, get?_set_self]
      · rw [get?_set_ne _ _ hne, get?_set_ne _ _ hne]
        exact h.enter_visited (hsub ▸ hj) hne (Finset.mem_of_mem_insert_of_ne hjV hne)

theorem card_le (h : Shadows n old V d f) : d.keySet.card ≤ n := h.left.card_le

end Shadows

end Dict

end Py
