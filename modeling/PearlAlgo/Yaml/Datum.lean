import PearlAlgo.Py.Dict
import PearlAlgo.Py.Number

/-!
# YAML data

What the safe loader makes of a document. A mapping is the list of its entries in order, a lookup finds the first with
its key, and an assignment replaces that one or appends. A key path goes down through mappings only.
-/

namespace Yaml
open Py

/-- A text, or any other scalar. -/
inductive Key
  | str (s : String)
  | other (n : Nat)
deriving DecidableEq

instance : Coe String Key := ⟨.str⟩

inductive Scalar
  | null
  | bool (b : Bool)
  | int (n : Int)
  | float (x : Number)
  | str (s : String)
  /-- A date, a time or bytes. -/
  | other (n : Nat)
deriving DecidableEq

inductive Datum
  | scalar (s : Scalar)
  | list (l : List Datum)
  | map (entries : List (Key × Datum))

abbrev Mapping := List (Key × Datum)

namespace Datum

abbrev null : Datum := .scalar .null
abbrev bool (b : Bool) : Datum := .scalar (.bool b)
abbrev int (n : Int) : Datum := .scalar (.int n)
abbrev float (x : ℚ) : Datum := .scalar (.float (.fin x))
abbrev str (s : String) : Datum := .scalar (.str s)

instance : Inhabited Datum := ⟨null⟩

mutual

def decEq : (a b : Datum) → Decidable (a = b)
  | .scalar a, .scalar b => decidable_of_iff (a = b) (by simp)
  | .list a, .list b => @decidable_of_iff _ (a = b) (by simp) (decEqList a b)
  | .map a, .map b => @decidable_of_iff _ (a = b) (by simp) (decEqMap a b)
  | .scalar _, .list _ | .scalar _, .map _ | .list _, .scalar _ | .list _, .map _ | .map _, .scalar _
  | .map _, .list _ => .isFalse (by simp)

def decEqList : (a b : List Datum) → Decidable (a = b)
  | [], [] => .isTrue rfl
  | [], _ :: _ | _ :: _, [] => .isFalse (by simp)
  | x :: a, y :: b =>
    match decEq x y, decEqList a b with
    | .isTrue hx, .isTrue ha => .isTrue (by rw [hx, ha])
    | .isFalse hx, _ => .isFalse (by simp [hx])
    | _, .isFalse ha => .isFalse (by simp [ha])

def decEqMap : (a b : List (Key × Datum)) → Decidable (a = b)
  | [], [] => .isTrue rfl
  | [], _ :: _ | _ :: _, [] => .isFalse (by simp)
  | (k, x) :: a, (j, y) :: b =>
    match decEq x y, decEqMap a b with
    | .isTrue hx, .isTrue ha => decidable_of_iff (k = j) (by simp [hx, ha])
    | .isFalse hx, _ => .isFalse (by simp [hx])
    | _, .isFalse ha => .isFalse (by simp [ha])

end

instance : DecidableEq Datum := decEq

/-- `bool(v)` -/
def truthy : Datum → Bool
  | .scalar .null => false
  | .scalar (.bool b) => b
  | .scalar (.int n) => n ≠ 0
  | .scalar (.float x) => x ≠ .fin 0
  | .scalar (.str s) => s ≠ ""
  | .scalar (.other _) => true
  | .list l => !l.isEmpty
  | .map m => !m.isEmpty

/-- `v if isinstance(v, dict) else {}` -/
def asMap : Datum → Mapping
  | .map m => m
  | .scalar _ | .list _ => []

def isMap : Datum → Bool
  | .map _ => true
  | .scalar _ | .list _ => false

/-- The mapping that a value is; `none` where `{**v}` raises. -/
def map? : Datum → Option (List (Key × Datum))
  | .map m => some m
  | .scalar _ | .list _ => none

/-- The number that a value is to `==`. -/
def num? : Datum → Option ℚ
  | .scalar (.bool b) => some (if b then 1 else 0)
  | .scalar (.int n) => some n
  | .scalar (.float (.fin x)) => some x
  | .scalar _ | .list _ | .map _ => none

/-- The same value, or the same number of another type. -/
def Same (v w : Datum) : Prop := v = w ∨ v.num?.isSome ∧ v.num? = w.num?

instance (v w : Datum) : Decidable (v.Same w) := inferInstanceAs (Decidable (_ ∨ _))

theorem Same.refl (v : Datum) : v.Same v := .inl rfl

end Datum

namespace Mapping

/-- `m.get(k)` -/
def get? (k : Key) : Mapping → Option Datum
  | [] => none
  | (j, v) :: m => if j = k then some v else get? k m

/-- `m[k] = v` -/
def assign (k : Key) (v : Datum) (m : Mapping) : Mapping := Dict.upsert k v m

/-- `m.setdefault(k, v)` -/
def setdefault (k : Key) (v : Datum) (m : Mapping) : Mapping := if (m.get? k).isSome then m else m ++ [(k, v)]

/-- `{**m, **n}`, and `m.update(n)`. -/
def update (m n : Mapping) : Mapping := n.foldl (fun m e => m.assign e.1 e.2) m

def keys (m : Mapping) : List Key := m.map Prod.fst

/-- The entries of `n` whose keys are new. -/
def setdefaults (m n : Mapping) : Mapping := n.foldl (fun m e => m.setdefault e.1 e.2) m

variable {k j : Key} {v : Datum} {m n : Mapping}

@[simp] theorem get?_nil : get? k [] = none := rfl

theorem get?_cons : get? k ((j, v) :: m) = if j = k then some v else get? k m := rfl

theorem get?_eq_none : m.get? k = none ↔ k ∉ m.keys := by
  induction m with
  | nil => simp [keys]
  | cons e m ih =>
    obtain ⟨j, v⟩ := e
    rw [get?_cons]
    by_cases h : j = k
    · simp [h, keys]
    · rw [if_neg h, ih]
      simp [keys, Ne.symm h]

theorem mem_of_get? (h : m.get? k = some v) : (k, v) ∈ m := by
  induction m with
  | nil => cases h
  | cons e m ih =>
    obtain ⟨j, w⟩ := e
    rw [get?_cons] at h
    split at h
    next hj =>
      cases h
      subst hj
      exact List.mem_cons_self
    next => exact List.mem_cons_of_mem _ (ih h)

theorem get?_append : get? k (m ++ n) = (m.get? k).or (n.get? k) := by
  induction m with
  | nil => rfl
  | cons e m ih =>
    obtain ⟨j, v⟩ := e
    rw [List.cons_append, get?_cons, get?_cons]
    split
    · rfl
    · exact ih

theorem get?_filter {p : Key → Bool} : get? k (m.filter fun e => p e.1) = if p k then m.get? k else none := by
  induction m with
  | nil => simp
  | cons e m ih =>
    obtain ⟨j, v⟩ := e
    rw [List.filter_cons]
    by_cases hj : j = k
    · subst hj
      by_cases hp : p j
      · simp [hp, get?_cons]
      · simp [hp, ih]
    · by_cases hp : p j
      · simp [hp, get?_cons, hj, ih]
      · simp [hp, get?_cons, hj, ih]

theorem get?_assign : get? k (assign j v m) = if k = j then some v else m.get? k := by
  unfold assign
  induction m with
  | nil =>
    unfold Dict.upsert
    rw [get?_cons]
    simp only [eq_comm]
  | cons e m ih =>
    obtain ⟨i, w⟩ := e
    rw [Dict.upsert]
    by_cases hi : i = j
    · subst hi
      rw [if_pos rfl, get?_cons, get?_cons]
      by_cases hk : i = k
      · simp [hk]
      · simp [hk, Ne.symm hk]
    · rw [if_neg hi, get?_cons, get?_cons, ih]
      by_cases hk : i = k
      · subst hk
        simp [hi]
      · simp [hk]

@[simp] theorem get?_assign_self : get? k (assign k v m) = some v := by rw [get?_assign, if_pos rfl]

theorem get?_assign_ne (h : k ≠ j) : get? k (assign j v m) = m.get? k := by rw [get?_assign, if_neg h]

theorem assign_of_get? (h : m.get? k = some v) : assign k v m = m := by
  induction m with
  | nil => cases h
  | cons e m ih =>
    obtain ⟨j, w⟩ := e
    rw [get?_cons] at h
    unfold assign Dict.upsert
    split at h
    next hj =>
      cases h
      rw [if_pos hj, hj]
    next hj =>
      rw [if_neg hj]
      exact congrArg ((j, w) :: ·) (ih h)

theorem setdefault_of_isSome (h : (m.get? k).isSome) : setdefault k v m = m := if_pos h

theorem get?_setdefault : get? k (setdefault j v m) = (m.get? k).or (if k = j then some v else none) := by
  unfold setdefault
  split
  next h =>
    by_cases hk : k = j
    · subst hk
      obtain ⟨w, hw⟩ := Option.isSome_iff_exists.1 h
      rw [hw]
      rfl
    · rw [if_neg hk, Option.or_none]
  next h =>
    rw [get?_append, get?_cons, get?_nil]
    simp only [eq_comm]

theorem get?_setdefaults : get? k (setdefaults m n) = (m.get? k).or (n.get? k) := by
  unfold setdefaults
  induction n generalizing m with
  | nil => rw [List.foldl_nil, get?_nil, Option.or_none]
  | cons e n ih =>
    obtain ⟨j, v⟩ := e
    rw [List.foldl_cons, ih, get?_setdefault, get?_cons, Option.or_assoc]
    by_cases hk : k = j
    · simp [hk]
    · simp [hk, Ne.symm hk]

theorem get?_update_of_notMem (h : k ∉ n.keys) : get? k (update m n) = m.get? k := by
  unfold update
  induction n generalizing m with
  | nil => rfl
  | cons e n ih =>
    obtain ⟨hj, hn⟩ := not_or.1 (List.mem_cons.not.1 h)
    rw [List.foldl_cons, ih hn, get?_assign_ne hj]

/-- Where the keys of `n` differ it is read before `m`. -/
theorem get?_update (h : n.keys.Nodup) : get? k (update m n) = (n.get? k).or (m.get? k) := by
  unfold update
  induction n generalizing m with
  | nil => rfl
  | cons e n ih =>
    obtain ⟨j, v⟩ := e
    obtain ⟨hj, hn⟩ := List.nodup_cons.1 h
    rw [List.foldl_cons, ih hn, get?_assign, get?_cons]
    by_cases hk : k = j
    · subst hk
      rw [get?_eq_none.2 hj, if_pos rfl, if_pos rfl]
      rfl
    · rw [if_neg hk, if_neg (Ne.symm hk)]

theorem isSome_setdefault (h : (m.get? k).isSome) : ((setdefault j v m).get? k).isSome := by
  rw [get?_setdefault]
  obtain ⟨w, hw⟩ := Option.isSome_iff_exists.1 h
  rw [hw]
  rfl

theorem isSome_setdefault_self : ((setdefault k v m).get? k).isSome := by
  rw [get?_setdefault, if_pos rfl]
  rcases m.get? k with _ | w
  · rfl
  · rfl

end Mapping

/-! ### Deep merges -/

mutual

/-- `deep_merge_inplace(m, n)`: mappings on both sides are merged, any other value is replaced. -/
def deepMerge (m : Mapping) : List (Key × Datum) → Mapping
  | [] => m
  | (k, v) :: n => deepMerge (Mapping.assign k (mergeValue (Mapping.get? k m) v) m) n

/-- What is put in the place of an old value. -/
def mergeValue (old : Option Datum) : Datum → Datum
  | .map n =>
    match old with
    | some (.map m) => .map (deepMerge m n)
    | _ => .map n
  | v => v

end

@[simp] theorem deepMerge_nil (m : Mapping) : deepMerge m [] = m := rfl

/-! ### Documents -/

mutual

/-- No mapping has a key twice. -/
def Datum.unique : Datum → Bool
  | .scalar _ => true
  | .list l => uniqueList l
  | .map m => (m.map Prod.fst).Nodup && uniqueMap m

def uniqueList : List Datum → Bool
  | [] => true
  | v :: l => v.unique && uniqueList l

def uniqueMap : List (Key × Datum) → Bool
  | [] => true
  | (_, v) :: m => v.unique && uniqueMap m

end

theorem Mapping.unique_of_get? {k : Key} {v : Datum} {m : Mapping} (hm : uniqueMap m = true) (h : m.get? k = some v) :
    v.unique = true := by
  induction m with
  | nil => cases h
  | cons e m ih =>
    obtain ⟨j, w⟩ := e
    obtain ⟨hw, hm⟩ := Bool.and_eq_true_iff.1 hm
    rw [get?_cons] at h
    split at h
    next =>
      cases h
      exact hw
    next => exact ih hm h

/-- A mapping as a loader that rejects duplicate keys returns it. -/
structure Document where
  entries : Mapping
  unique : (Datum.map entries).unique = true

namespace Datum

/-- The value at a key path. -/
def at? : Datum → List Key → Option Datum
  | v, [] => some v
  | .map m, k :: ks => (Mapping.get? k m).bind fun v => v.at? ks
  | .scalar _, _ :: _ | .list _, _ :: _ => none

end Datum

end Yaml
