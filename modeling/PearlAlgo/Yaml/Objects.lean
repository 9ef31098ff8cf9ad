import PearlAlgo.Yaml.Datum
import Mathlib.Data.List.Induction

/-!
# Loaded documents as objects

Where a document repeats an anchored mapping the loader returns one object in several places. So a mapping has the
identity of its object here, and an assignment to it is seen in all its places. `toValue_setNested` says that a nested
assignment is the one to the value (`setAt`) where its mapping is in one place only.
-/

namespace Yaml
open Py

/-! ### Assignments along a key path -/

namespace Datum

/-- The value with a scalar at a key path; what is no mapping on the way is replaced by one. -/
def setAt (s : Scalar) : List Key → Datum → Datum
  | [], _ => .scalar s
  | k :: ks, v => .map (Mapping.assign k (setAt s ks ((Mapping.get? k v.asMap).getD .null)) v.asMap)

variable {s : Scalar} {p q : List Key} {k : Key} {v : Datum}

theorem at?_cons : v.at? (k :: p) = (Mapping.get? k v.asMap).bind fun v => v.at? p := by
  cases v with
  | scalar | list => rfl
  | map m => rfl

theorem at?_setAt_self : (setAt s q v).at? q = some (.scalar s) := by
  induction q generalizing v with
  | nil => rfl
  | cons k q ih =>
    rw [setAt, at?_cons, asMap, Mapping.get?_assign_self]
    exact ih

/-- Paths that neither lead to the assigned one nor go through it. -/
theorem at?_setAt_of_incomparable (hpq : ¬ p <+: q) (hqp : ¬ q <+: p) : (setAt s q v).at? p = v.at? p := by
  induction q generalizing p v with
  | nil => exact absurd List.nil_prefix hqp
  | cons k q ih =>
    cases p with
    | nil => exact absurd List.nil_prefix hpq
    | cons j p =>
      rw [setAt, at?_cons, at?_cons, asMap, Mapping.get?_assign]
      by_cases hjk : j = k
      · subst hjk
        have hp : ¬ p <+: q := fun h => hpq (List.cons_prefix_cons.2 ⟨rfl, h⟩)
        have hq : ¬ q <+: p := fun h => hqp (List.cons_prefix_cons.2 ⟨rfl, h⟩)
        rw [if_pos rfl, Option.bind_some, ih hp hq]
        rcases Mapping.get? j v.asMap with _ | x
        · cases p with
          | nil => exact absurd List.nil_prefix hp
          | cons => rfl
        · rfl
      · rw [if_neg hjk]

theorem isMap_at?_setAt (h : p <+: q) (hne : p ≠ q) : ∃ m, (setAt s q v).at? p = some (.map m) := by
  induction q generalizing p v with
  | nil => exact absurd (List.prefix_nil.1 h) hne
  | cons k q ih =>
    cases p with
    | nil => exact ⟨_, rfl⟩
    | cons j p =>
      obtain ⟨rfl, hp⟩ := List.cons_prefix_cons.1 h
      rw [setAt, at?_cons, asMap, Mapping.get?_assign_self]
      exact ih hp fun heq => hne (congrArg (j :: ·) heq)

def setAll (changes : List (List Key × Scalar)) (v : Datum) : Datum := changes.foldl (fun v c => setAt c.2 c.1 v) v

variable {changes : List (List Key × Scalar)}

def Incomparable (p q : List Key) : Prop := ¬ p <+: q ∧ ¬ q <+: p

instance (p q : List Key) : Decidable (Incomparable p q) := inferInstanceAs (Decidable (_ ∧ _))

theorem at?_setAll_of_incomparable (h : ∀ c ∈ changes, Incomparable p c.1) : (setAll changes v).at? p = v.at? p := by
  induction changes generalizing v with
  | nil => rfl
  | cons c changes ih =>
    obtain ⟨hc, hrest⟩ := List.forall_mem_cons.1 h
    exact (ih hrest).trans (at?_setAt_of_incomparable hc.1 hc.2)

/-- Of paths that are not comparable each has the value that was assigned to it. -/
theorem at?_setAll_self (hpair : changes.Pairwise fun c d => Incomparable c.1 d.1) {c : List Key × Scalar} (hc : c ∈ changes) :
    (setAll changes v).at? c.1 = some (.scalar c.2) := by
  induction changes generalizing v with
  | nil => cases hc
  | cons d changes ih =>
    obtain ⟨hd, hrest⟩ := List.pairwise_cons.1 hpair
    rcases List.mem_cons.1 hc with rfl | hc
    · exact (at?_setAll_of_incomparable hd).trans at?_setAt_self
    · exact ih hrest hc

theorem isMap_at?_setAll (hpair : changes.Pairwise fun c d => Incomparable c.1 d.1) {c : List Key × Scalar}
    (hc : c ∈ changes) (h : p <+: c.1) (hne : p ≠ c.1) : ∃ m, (setAll changes v).at? p = some (.map m) := by
  induction changes using List.reverseRecOn with
  | nil => cases hc
  | append_singleton changes d ih =>
    obtain ⟨hpair, -, hd⟩ := List.pairwise_append.1 hpair
    unfold setAll
    rw [List.foldl_append, List.foldl_cons, List.foldl_nil]
    rcases List.mem_append.1 hc with hc | hc
    · obtain ⟨m, hm⟩ := ih hpair hc
      have hcd := hd c hc d (List.mem_singleton_self d)
      by_cases hpd : p <+: d.1
      · refine isMap_at?_setAt hpd fun heq => hcd.2 ?_
        rw [← heq]
        exact h
      · refine ⟨m, ?_⟩
        rw [at?_setAt_of_incomparable hpd fun hdp => hcd.2 (hdp.trans h)]
        exact hm
    · rw [List.mem_singleton.1 hc] at h hne
      exact isMap_at?_setAt h hne

end Datum

/-! ### Objects -/

/-- A mapping has the identity of its object. -/
inductive Obj
  | scalar (s : Scalar)
  | list (items : List Obj)
  | map (oid : Nat) (entries : List (Key × Obj))

namespace Obj

mutual

def toValue : Obj → Datum
  | .scalar s => .scalar s
  | .list l => .list (toValues l)
  | .map _ entries => .map (toEntries entries)

def toValues : List Obj → List Datum
  | [] => []
  | o :: l => o.toValue :: toValues l

def toEntries : List (Key × Obj) → List (Key × Datum)
  | [] => []
  | (k, o) :: entries => (k, o.toValue) :: toEntries entries

end

mutual

/-- The identities of the mappings, once for each place. -/
def ids : Obj → List Nat
  | .scalar _ => []
  | .list l => idsList l
  | .map oid entries => oid :: idsEntries entries

def idsList : List Obj → List Nat
  | [] => []
  | o :: l => o.ids ++ idsList l

def idsEntries : List (Key × Obj) → List Nat
  | [] => []
  | (_, o) :: entries => o.ids ++ idsEntries entries

end

mutual

/-- `m[k] = x` for the mapping `m` with the identity `n`, seen in all its places. -/
def assignAt (n : Nat) (k : Key) (x : Obj) : Obj → Obj
  | .scalar s => .scalar s
  | .list l => .list (assignList n k x l)
  | .map oid entries =>
    .map oid (if oid = n then Dict.upsert k x (assignEntries n k x entries) else assignEntries n k x entries)

def assignList (n : Nat) (k : Key) (x : Obj) : List Obj → List Obj
  | [] => []
  | o :: l => assignAt n k x o :: assignList n k x l

def assignEntries (n : Nat) (k : Key) (x : Obj) : List (Key × Obj) → List (Key × Obj)
  | [] => []
  | (j, o) :: entries => (j, assignAt n k x o) :: assignEntries n k x entries

end

def find? (k : Key) : List (Key × Obj) → Option Obj
  | [] => none
  | (j, o) :: entries => if j = k then some o else find? k entries

/-- The last mapping on the way, the key that is assigned to, and the keys for which new mappings are made. -/
structure Target where
  oid : Nat
  key : Key
  rest : List Key

def target : Obj → List Key → Option Target
  | .map oid entries, k :: ks =>
    match find? k entries with
    | some (.map oid' entries') => if ks = [] then some ⟨oid, k, []⟩ else target (.map oid' entries') ks
    | some (.scalar _) | some (.list _) | none => some ⟨oid, k, ks⟩
  | _, _ => none

/-- New mappings around a scalar. -/
def fresh (s : Scalar) : Nat → List Key → Obj
  | _, [] => .scalar s
  | n, k :: ks => .map n [(k, fresh s (n + 1) ks)]

def nextId (o : Obj) : Nat := o.ids.foldr max 0 + 1

/-- `_set_nested`, `none` where the document is no mapping. -/
def setNested (s : Scalar) (keys : List Key) (root : Obj) : Option Obj :=
  (target root keys).map fun t => assignAt t.oid t.key (fresh s root.nextId t.rest) root

variable {n : Nat} {k : Key} {x o root : Obj} {s : Scalar} {keys : List Key} {entries : List (Key × Obj)} {t : Target}

mutual

theorem assignAt_of_notMem : (o : Obj) → n ∉ o.ids → assignAt n k x o = o
  | .scalar _, _ => rfl
  | .list l, h => by rw [assignAt, assignList_of_notMem l h]
  | .map oid entries, h => by
    obtain ⟨hne, hentries⟩ := not_or.1 (List.mem_cons.not.1 h)
    rw [assignAt, if_neg (Ne.symm hne), assignEntries_of_notMem entries hentries]

theorem assignList_of_notMem : (l : List Obj) → n ∉ idsList l → assignList n k x l = l
  | [], _ => rfl
  | o :: l, h => by
    obtain ⟨ho, hl⟩ := not_or.1 (List.mem_append.not.1 h)
    rw [assignList, assignAt_of_notMem o ho, assignList_of_notMem l hl]

theorem assignEntries_of_notMem : (entries : List (Key × Obj)) → n ∉ idsEntries entries →
    assignEntries n k x entries = entries
  | [], _ => rfl
  | (j, o) :: entries, h => by
    obtain ⟨ho, hentries⟩ := not_or.1 (List.mem_append.not.1 h)
    rw [assignEntries, assignAt_of_notMem o ho, assignEntries_of_notMem entries hentries]

end

theorem get?_toEntries : Mapping.get? k (toEntries entries) = (find? k entries).map toValue := by
  induction entries with
  | nil => rfl
  | cons e entries ih =>
    obtain ⟨j, o⟩ := e
    rw [toEntries, Mapping.get?_cons, find?]
    split
    · rfl
    · exact ih

theorem setAt_toValue {oid : Nat} : Datum.setAt s (k :: keys) (toValue (.map oid entries)) =
    .map (Mapping.assign k (Datum.setAt s keys (((find? k entries).map toValue).getD .null)) (toEntries entries)) := by
  rw [← get?_toEntries]
  rfl

theorem toEntries_upsert : toEntries (Dict.upsert k x entries) = Mapping.assign k x.toValue (toEntries entries) := by
  induction entries with
  | nil => rfl
  | cons e entries ih =>
    obtain ⟨j, o⟩ := e
    rw [toEntries, Mapping.assign, Dict.upsert, Dict.upsert]
    split
    · rfl
    · rw [toEntries, ih]
      rfl

theorem toValue_fresh {v : Datum} (hv : v.asMap = [] ∨ keys = []) : (fresh s n keys).toValue = Datum.setAt s keys v := by
  induction keys generalizing n v with
  | nil => rfl
  | cons k keys ih =>
    have hmap : v.asMap = [] := hv.resolve_right (List.cons_ne_nil k keys)
    rw [fresh, toValue, toEntries, toEntries, Datum.setAt, hmap, ih (v := .null) (.inl rfl)]
    rfl

theorem count_find?_le (h : find? k entries = some o) : o.ids.count n ≤ (idsEntries entries).count n := by
  induction entries with
  | nil => cases h
  | cons e entries ih =>
    obtain ⟨j, x⟩ := e
    rw [find?] at h
    rw [idsEntries, List.count_append]
    split at h
    · cases h
      exact Nat.le_add_right _ _
    · exact (ih h).trans (Nat.le_add_left _ _)

/-- New mappings are made where the key has no mapping; else the rest of the path goes on in it. -/
theorem target_cases (h : target (.map oid entries) (k :: keys) = some t) :
    t = ⟨oid, k, keys⟩ ∧ ((((find? k entries).map toValue).getD .null).asMap = [] ∨ keys = []) ∨
      ∃ oid' entries', find? k entries = some (.map oid' entries') ∧ target (.map oid' entries') keys = some t := by
  rcases hfind : find? k entries with _ | _ | _ | ⟨oid', entries'⟩ <;> simp only [target, hfind] at h
  · cases h
    exact .inl ⟨rfl, .inl rfl⟩
  · cases h
    exact .inl ⟨rfl, .inl rfl⟩
  · cases h
    exact .inl ⟨rfl, .inl rfl⟩
  · split at h
    next hnil =>
      cases h
      exact .inl ⟨by rw [hnil], .inr hnil⟩
    next => exact .inr ⟨oid', entries', rfl, h⟩

theorem oid_mem_ids (h : target o keys = some t) : t.oid ∈ o.ids := by
  induction keys generalizing o with
  | nil => cases o <;> cases h
  | cons k keys ih =>
    cases o with
    | scalar | list => cases h
    | map oid entries =>
      obtain ⟨rfl, -⟩ | ⟨oid', entries', hfind, h⟩ := target_cases h
      · exact List.mem_cons_self
      · have hcount := count_find?_le (n := t.oid) hfind
        have hpos := List.count_pos_iff.2 (ih h)
        exact List.mem_cons_of_mem _ (List.count_pos_iff.1 (hpos.trans_le hcount))

/-- The entry whose object has the mapping is the only one that changes. -/
theorem toEntries_assignEntries (hfind : find? k entries = some o) (hmem : n ∈ o.ids)
    (hcount : (idsEntries entries).count n = 1) : toEntries (assignEntries n t.key x entries) =
      Mapping.assign k (assignAt n t.key x o).toValue (toEntries entries) := by
  have hpos := List.count_pos_iff.2 hmem
  induction entries with
  | nil => cases hfind
  | cons e entries ih =>
    obtain ⟨j, y⟩ := e
    rw [idsEntries, List.count_append] at hcount
    rw [find?] at hfind
    rw [assignEntries, toEntries, toEntries, Mapping.assign, Dict.upsert]
    split at hfind
    next hjk =>
      cases hfind
      have hrest : n ∉ idsEntries entries := List.count_eq_zero.1 (by omega)
      rw [if_pos hjk, hjk, assignEntries_of_notMem entries hrest]
    next hjk =>
      have hle := count_find?_le (n := n) hfind
      have hy : n ∉ y.ids := List.count_eq_zero.1 (by omega)
      rw [if_neg hjk, assignAt_of_notMem y hy, ih hfind (by omega)]
      rfl

/-- An assignment to a mapping that is in one place only is the one to the value. -/
theorem toValue_assignAt (h : target o keys = some t) (hcount : o.ids.count t.oid = 1)
    (hx : ∀ v : Datum, v.asMap = [] ∨ t.rest = [] → x.toValue = Datum.setAt s t.rest v) :
    (assignAt t.oid t.key x o).toValue = Datum.setAt s keys o.toValue := by
  induction keys generalizing o with
  | nil => cases o <;> cases h
  | cons k keys ih =>
    cases o with
    | scalar | list => cases h
    | map oid entries =>
      obtain ⟨rfl, hnew⟩ | ⟨oid', entries', hfind, h⟩ := target_cases h
      · have hentries : oid ∉ idsEntries entries := by
          rw [ids, List.count_cons_self] at hcount
          exact List.count_eq_zero.1 (Nat.succ.inj hcount)
        rw [assignAt, if_pos rfl, assignEntries_of_notMem entries hentries, setAt_toValue, toValue, toEntries_upsert, hx _ hnew]
      · have hmem := oid_mem_ids h
        have hpos := List.count_pos_iff.2 hmem
        have hle := count_find?_le (n := t.oid) hfind
        have hne : oid ≠ t.oid := by
          intro heq
          rw [ids, heq, List.count_cons_self] at hcount
          omega
        have hcount' : (idsEntries entries).count t.oid = 1 := by
          rwa [ids, List.count_cons_of_ne hne] at hcount
        rw [assignAt, if_neg hne, toValue, toEntries_assignEntries hfind hmem hcount', ih h (by omega), setAt_toValue, hfind]
        rfl

theorem toValue_setNested {root' : Obj} (h : setNested s keys root = some root')
    (hcount : ∀ t ∈ target root keys, root.ids.count t.oid = 1) : root'.toValue = Datum.setAt s keys root.toValue := by
  obtain ⟨t, ht, rfl⟩ := Option.map_eq_some_iff.1 h
  exact toValue_assignAt ht (hcount t ht) fun v hv => toValue_fresh hv

/-! ### Several assignments -/

def setAll (changes : List (List Key × Scalar)) (root : Obj) : Option Obj :=
  changes.foldlM (fun root c => setNested c.2 c.1 root) root

/-- Each assignment is to a mapping that is in one place only. -/
def Unaliased : Obj → List (List Key × Scalar) → Prop
  | _, [] => True
  | root, c :: changes => (∀ t ∈ target root c.1, root.ids.count t.oid = 1) ∧
      ∀ root' ∈ setNested c.2 c.1 root, Unaliased root' changes

instance Unaliased.decidable : (root : Obj) → (changes : List (List Key × Scalar)) → Decidable (Unaliased root changes)
  | _, [] => .isTrue trivial
  | root, c :: changes =>
    have : ∀ root', Decidable (Unaliased root' changes) := fun root' => decidable root' changes
    inferInstanceAs (Decidable ((∀ t ∈ _, _) ∧ ∀ root' ∈ setNested c.2 c.1 root, Unaliased root' changes))

theorem toValue_setAll {changes : List (List Key × Scalar)} {root' : Obj} (h : setAll changes root = some root')
    (hunaliased : Unaliased root changes) : root'.toValue = Datum.setAll changes root.toValue := by
  induction changes generalizing root with
  | nil =>
    cases h
    rfl
  | cons c changes ih =>
    obtain ⟨root₁, hset, h⟩ := Option.bind_eq_some_iff.1 h
    obtain ⟨hcount, hrest⟩ := hunaliased
    rw [ih h (hrest root₁ hset), toValue_setNested hset hcount]
    rfl

end Obj

end Yaml
