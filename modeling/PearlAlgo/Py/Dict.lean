import Mathlib.Algebra.GroupWithZero.Nat
import Mathlib.Data.List.Basic
import Mathlib.Data.List.Nodup

/-!
# Insertion-ordered dictionaries

`Dict κ α` is Python's `dict`: the entries in insertion order, no key twice. Assigning to a key that is
present replaces its value in place, assigning to a new key appends, so the order in which `values`
lists the entries is the source's. Lookups are characterised by membership (`get?_eq_some`), which is
what the laws of the operations are proved from.
-/

namespace Py

/-- A dictionary: its entries in insertion order, no key twice. -/
structure Dict (κ α : Type) where
  entries : List (κ × α)
  nodup : (entries.map Prod.fst).Nodup
deriving DecidableEq

namespace Dict

variable {κ α : Type}

def empty : Dict κ α := ⟨[], List.nodup_nil⟩

instance : Inhabited (Dict κ α) := ⟨empty⟩

def keys (d : Dict κ α) : List κ := d.entries.map Prod.fst

def values (d : Dict κ α) : List α := d.entries.map Prod.snd

def isEmpty (d : Dict κ α) : Bool := d.entries.isEmpty

/-- `{k: v for k, v in d.items() if p(k, v)}`. -/
def filter (p : κ → α → Bool) (d : Dict κ α) : Dict κ α :=
  ⟨d.entries.filter fun e => p e.1 e.2, (List.filter_sublist.map _).nodup d.nodup⟩

variable [DecidableEq κ]

/-- `d.get(k)`. -/
def get? (d : Dict κ α) (k : κ) : Option α := (d.entries.find? fun e => e.1 = k).map Prod.snd

/-- `k in d`. -/
def contains (d : Dict κ α) (k : κ) : Bool := (d.get? k).isSome

/-- The entries after `d[k] = a`. -/
def upsert (k : κ) (a : α) : List (κ × α) → List (κ × α)
  | [] => [(k, a)]
  | e :: l => if e.1 = k then (k, a) :: l else e :: upsert k a l

theorem mem_keys_upsert {k k' : κ} {a : α} {l : List (κ × α)} :
    k' ∈ (upsert k a l).map Prod.fst ↔ k' = k ∨ k' ∈ l.map Prod.fst := by
  induction l with
  | nil => simp [upsert]
  | cons e l ih =>
    by_cases h : e.1 = k
    · simp [upsert, h]
    · simp only [upsert, h, ↓reduceIte, List.map_cons, List.mem_cons, ih]
      exact or_left_comm

theorem upsert_of_notMem {k : κ} {a : α} {l : List (κ × α)} (h : k ∉ l.map Prod.fst) : upsert k a l = l ++ [(k, a)] := by
  induction l with
  | nil => rfl
  | cons e l ih =>
    obtain ⟨he, hl⟩ := not_or.1 (List.mem_cons.not.1 h)
    unfold upsert
    rw [if_neg fun hek => he hek.symm, ih hl, List.cons_append]

theorem nodup_upsert {k : κ} {a : α} {l : List (κ × α)} (h : (l.map Prod.fst).Nodup) :
    ((upsert k a l).map Prod.fst).Nodup := by
  induction l with
  | nil => simp [upsert]
  | cons e l ih =>
    obtain ⟨he, hl⟩ := List.nodup_cons.1 h
    by_cases hk : e.1 = k
    · subst hk; simpa [upsert] using h
    · simp only [upsert, hk, ↓reduceIte, List.map_cons]
      refine List.nodup_cons.2 ⟨fun hm => ?_, ih hl⟩
      rcases mem_keys_upsert.1 hm with hm | hm
      · exact hk hm
      · exact he hm

/-- `d[k] = a`. -/
def set (d : Dict κ α) (k : κ) (a : α) : Dict κ α := ⟨upsert k a d.entries, nodup_upsert d.nodup⟩

/-- `d.pop(k, None)`. -/
def pop (d : Dict κ α) (k : κ) : Dict κ α := d.filter fun k' _ => k' ≠ k

/-! ### Lookups -/

theorem get?_eq_some {d : Dict κ α} {k : κ} {a : α} : d.get? k = some a ↔ (k, a) ∈ d.entries := by
  obtain ⟨l, hd⟩ := d
  simp only [get?]
  induction l with
  | nil => simp
  | cons e l ih =>
    obtain ⟨he, hl⟩ := List.nodup_cons.1 hd
    obtain ⟨k', a'⟩ := e
    by_cases hk : k' = k
    · subst hk
      have hn : (k', a) ∉ l := fun hm => he (List.mem_map.2 ⟨_, hm, rfl⟩)
      simp [hn, eq_comm]
    · have hk' : ¬ k = k' := fun h => hk h.symm
      rw [List.find?_cons_of_neg (by simpa using hk), ih hl]
      simp [hk']

theorem contains_eq_false {d : Dict κ α} {k : κ} : d.contains k = false ↔ d.get? k = none := by
  simp [contains]

theorem mem_upsert {k : κ} {a : α} {l : List (κ × α)} (h : (l.map Prod.fst).Nodup) {e : κ × α} :
    e ∈ upsert k a l ↔ e = (k, a) ∨ e.1 ≠ k ∧ e ∈ l := by
  induction l with
  | nil => simp [upsert]
  | cons e' l ih =>
    obtain ⟨he, hl⟩ := List.nodup_cons.1 h
    by_cases hk : e'.1 = k
    · have hne : e ∈ l → e.1 ≠ k := fun hm hek =>
        he (List.mem_map.2 ⟨e, hm, hek.trans hk.symm⟩)
      simp only [upsert, hk, ↓reduceIte, List.mem_cons]
      constructor
      · rintro (h | h)
        · exact .inl h
        · exact .inr ⟨hne h, .inr h⟩
      · rintro (h | ⟨h, h' | h'⟩)
        · exact .inl h
        · exact absurd (h' ▸ hk) h
        · exact .inr h'
    · simp only [upsert, hk, ↓reduceIte, List.mem_cons, ih hl]
      constructor
      · rintro (rfl | h | h)
        · exact .inr ⟨hk, .inl rfl⟩
        · exact .inl h
        · exact .inr ⟨h.1, .inr h.2⟩
      · rintro (h | ⟨h, h' | h'⟩)
        · exact .inr (.inl h)
        · exact .inl h'
        · exact .inr (.inr ⟨h, h'⟩)

theorem get?_set (d : Dict κ α) (k k' : κ) (a : α) :
    (d.set k a).get? k' = if k' = k then some a else d.get? k' := by
  refine Option.ext fun b => ?_
  rw [get?_eq_some]
  show (k', b) ∈ upsert k a d.entries ↔ _
  rw [mem_upsert d.nodup]
  split
  next h => subst h; simp [eq_comm]
  next h => simp [h, get?_eq_some]

@[simp] theorem get?_set_self (d : Dict κ α) (k : κ) (a : α) : (d.set k a).get? k = some a := by
  simp [get?_set]

theorem get?_set_ne (d : Dict κ α) {k k' : κ} (a : α) (h : k' ≠ k) : (d.set k a).get? k' = d.get? k' := by
  simp [get?_set, h]

/-- Assigning to a key moves a total over the values by what its value moves. -/
theorem sum_values_set {M : Type} [AddCommMonoid M] (f : α → M) (d : Dict κ α) (k : κ) (a : α) :
    ((d.set k a).values.map f).sum + ((d.get? k).map f).getD 0 = (d.values.map f).sum + f a := by
  obtain ⟨l, hd⟩ := d
  show (((upsert k a l).map Prod.snd).map f).sum + (((l.find? fun e => e.1 = k).map Prod.snd).map f).getD 0 =
    ((l.map Prod.snd).map f).sum + f a
  clear hd
  induction l with
  | nil => simp [upsert]
  | cons e l ih =>
    by_cases hk : e.1 = k
    · rw [upsert, if_pos hk, List.find?_cons_of_pos (by simpa using hk)]
      simp only [List.map_cons, List.sum_cons, Option.map_some, Option.getD_some]
      rw [add_comm (f a), add_assoc, add_comm (f a), ← add_assoc, add_comm _ (f e.2)]
    · rw [upsert, if_neg hk, List.find?_cons_of_neg (by simpa using hk)]
      simp only [List.map_cons, List.sum_cons]
      rw [add_assoc, ih, add_assoc]

theorem values_sum_set (d : Dict κ Nat) (k : κ) (n : Nat) :
    (d.set k n).values.sum + (d.get? k).getD 0 = d.values.sum + n := by
  simpa using sum_values_set (fun n : Nat => n) d k n

theorem get?_filter (d : Dict κ α) (p : κ → α → Bool) (k : κ) :
    (d.filter p).get? k = (d.get? k).filter (p k) := by
  refine Option.ext fun a => ?_
  rw [get?_eq_some, Option.filter_eq_some_iff, get?_eq_some]
  show (k, a) ∈ d.entries.filter _ ↔ _
  simp [List.mem_filter]

theorem get?_pop_self (d : Dict κ α) (k : κ) : (d.pop k).get? k = none := by
  refine (get?_filter d _ k).trans ?_
  cases d.get? k with
  | none => rfl
  | some a => simp

theorem get?_pop_ne (d : Dict κ α) {k k' : κ} (h : k' ≠ k) : (d.pop k).get? k' = d.get? k' := by
  refine (get?_filter d _ k').trans ?_
  cases d.get? k' with
  | none => rfl
  | some a => simp [h]

end Dict

end Py
