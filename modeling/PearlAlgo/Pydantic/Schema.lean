import PearlAlgo.Yaml.Datum

/-!
# Models with declared fields

A model makes a mapping from a mapping: the declared fields come first, coerced or by default, and then the extra ones
if the model allows them; it ignores them otherwise. The coercion of the base types is a parameter, and a field can have
a check that runs on what it gives. `keepsPaths_iff` says when no key path is lost.
-/

namespace Pydantic
open Yaml

inductive BaseType
  | str
  | int
  | float
  | bool
  | listStr
deriving DecidableEq

/-- What a value becomes as a base type; `none` where it is refused. -/
abbrev Coercion := BaseType → Datum → Option Datum

mutual

/-- A field that is no model has a base type and a check of the coerced value. -/
inductive Schema
  | scalar (type : BaseType) (check : Datum → Option Datum)
  | model (extraAllow : Bool) (fields : Fields)

/-- The declared fields in order, each with its default as it is dumped. -/
inductive Fields
  | nil
  | cons (name : String) (schema : Schema) (default : Datum) (rest : Fields)

end

namespace Fields

def ofList : List (String × Schema × Datum) → Fields
  | [] => nil
  | (name, schema, default) :: rest => cons name schema default (ofList rest)

def names : Fields → List Key
  | nil => []
  | cons name _ _ rest => .str name :: rest.names

def find? (k : Key) : Fields → Option Schema
  | nil => none
  | cons name schema _ rest => if .str name = k then some schema else rest.find? k

def defaults : Fields → Mapping
  | nil => []
  | cons name _ default rest => (.str name, default) :: rest.defaults

end Fields

def isText : Key → Bool
  | .str _ => true
  | .other _ => false

mutual

/-- The dump of the validated value. -/
def Schema.validate (coerce : Coercion) : Schema → Datum → Option Datum
  | .scalar type check, v => (coerce type v).bind check
  | .model extraAllow fields, v =>
    match v with
    | .map m =>
      if extraAllow = true ∧ ∃ e ∈ m, isText e.1 = false then none
      else
        (fields.validate coerce m).map fun declared =>
          .map (declared ++ if extraAllow then m.filter fun e => e.1 ∉ fields.names else [])
    | .scalar _ | .list _ => none

def Fields.validate (coerce : Coercion) : Fields → Mapping → Option Mapping
  | .nil, _ => some []
  | .cons name schema default rest, m =>
    (match m.get? name with
      | some v => schema.validate coerce v
      | none => some default).bind fun v => (rest.validate coerce m).map fun declared => (.str name, v) :: declared

end

/-- What is declared at a key path. -/
def Schema.at? : Schema → List Key → Option Schema
  | s, [] => some s
  | .model _ fields, k :: ks => (fields.find? k).bind fun s => s.at? ks
  | .scalar _ _, _ :: _ => none

variable {coerce : Coercion} {s s₁ : Schema} {fields : Fields} {extraAllow : Bool} {v v' x : Datum} {m declared : Mapping}
  {k : Key} {path : List Key}

/-! ### What a model makes of a mapping -/

theorem Fields.find?_eq_none : (fields : Fields) → (fields.find? k = none ↔ k ∉ fields.names)
  | .nil => by simp [find?, names]
  | .cons name _ _ rest => by
    rw [find?, names, List.mem_cons, not_or, ← find?_eq_none rest]
    by_cases h : Key.str name = k
    · simp [h]
    · simp [h, Ne.symm h]

theorem Fields.keys_validate : (fields : Fields) → {declared : Mapping} → fields.validate coerce m = some declared →
    declared.keys = fields.names
  | .nil, declared, h => by
    cases h
    rfl
  | .cons name schema default rest, declared, h => by
    obtain ⟨v, -, h⟩ := Option.bind_eq_some_iff.1 h
    obtain ⟨declared', hrest, rfl⟩ := Option.map_eq_some_iff.1 h
    exact congrArg (Key.str name :: ·) (keys_validate rest hrest)

theorem Fields.get?_validate : (fields : Fields) → {declared : Mapping} → fields.validate coerce m = some declared →
    fields.find? k = some s₁ → m.get? k = some x → ∃ x', declared.get? k = some x' ∧ s₁.validate coerce x = some x'
  | .nil, _, _, hfind, _ => by cases hfind
  | .cons name schema default rest, declared, h, hfind, hget => by
    obtain ⟨v, hv, h⟩ := Option.bind_eq_some_iff.1 h
    obtain ⟨declared', hrest, rfl⟩ := Option.map_eq_some_iff.1 h
    rw [find?] at hfind
    rw [Mapping.get?_cons]
    split at hfind
    next hk =>
      subst hk
      cases hfind
      rw [hget] at hv
      exact ⟨v, if_pos rfl, hv⟩
    next hk =>
      rw [if_neg hk]
      exact get?_validate rest hrest hfind hget

theorem Fields.get?_validate_of_none : (fields : Fields) → {declared : Mapping} → fields.validate coerce m = some declared →
    m.get? k = none → declared.get? k = fields.defaults.get? k
  | .nil, declared, h, _ => by
    cases h
    rfl
  | .cons name schema default rest, declared, h, hget => by
    obtain ⟨v, hv, h⟩ := Option.bind_eq_some_iff.1 h
    obtain ⟨declared', hrest, rfl⟩ := Option.map_eq_some_iff.1 h
    rw [defaults, Mapping.get?_cons, Mapping.get?_cons]
    by_cases hk : Key.str name = k
    · subst hk
      rw [hget] at hv
      cases hv
      rw [if_pos rfl, if_pos rfl]
    · rw [if_neg hk, if_neg hk]
      exact get?_validate_of_none rest hrest hget

theorem Schema.validate_model (h : (Schema.model extraAllow fields).validate coerce v = some v') :
    ∃ m declared, v = .map m ∧ fields.validate coerce m = some declared ∧
      v' = .map (declared ++ if extraAllow then m.filter fun e => e.1 ∉ fields.names else []) := by
  rcases v with _ | _ | m
  · cases h
  · cases h
  · rw [validate] at h
    obtain ⟨_, h⟩ := Option.ite_none_left_eq_some.1 h
    obtain ⟨declared, hdeclared, rfl⟩ := Option.map_eq_some_iff.1 h
    exact ⟨m, declared, rfl, hdeclared, rfl⟩

theorem Schema.get?_validate_extra {m' : Mapping} (h : (Schema.model true fields).validate coerce (.map m) = some (.map m'))
    (hk : k ∉ fields.names) : m'.get? k = m.get? k := by
  obtain ⟨_, declared, ⟨⟩, hdeclared, heq⟩ := validate_model h
  cases heq
  have hnone : declared.get? k = none := by rw [Mapping.get?_eq_none, fields.keys_validate hdeclared]; exact hk
  have hfilter : Mapping.get? k (m.filter fun e => e.1 ∉ fields.names) = _ :=
    Mapping.get?_filter (p := fun j => j ∉ fields.names)
  rw [if_pos rfl, Mapping.get?_append, hnone, Option.none_or, hfilter, if_pos (decide_eq_true hk)]

/-- What the schema makes of a value it makes of the values at declared paths too. -/
theorem Schema.at?_validate (h : s.validate coerce v = some v') (hs : s.at? path = some s₁) (hx : v.at? path = some x) :
    ∃ x', v'.at? path = some x' ∧ s₁.validate coerce x = some x' := by
  induction path generalizing s v v' with
  | nil =>
    cases hs
    cases hx
    exact ⟨v', rfl, h⟩
  | cons k path ih =>
    cases s with
    | scalar type check => cases hs
    | model extraAllow fields =>
      obtain ⟨m, declared, rfl, hdeclared, rfl⟩ := validate_model h
      obtain ⟨s₂, hfind, hs⟩ := Option.bind_eq_some_iff.1 hs
      obtain ⟨y, hget, hx⟩ := Option.bind_eq_some_iff.1 hx
      obtain ⟨y', hget', hy⟩ := fields.get?_validate hdeclared hfind hget
      obtain ⟨x', hx', hval⟩ := ih hy hs hx
      refine ⟨x', ?_, hval⟩
      rw [Datum.at?, Mapping.get?_append, hget']
      exact hx'

/-! ### No key is lost -/

/-- The value at a path that the schema declares is the coerced one, or a model's; at other paths it is the same. -/
def Coerced (coerce : Coercion) (v v' : Datum) : Option Schema → Prop
  | none => v' = v
  | some (.scalar type check) => (coerce type v).bind check = some v'
  | some (.model _ _) => v'.isMap

/-- Every key path is still there, with the same value up to coercion. -/
def KeepsPaths (coerce : Coercion) (s : Schema) (v v' : Datum) : Prop :=
  ∀ path x, v.at? path = some x → ∃ x', v'.at? path = some x' ∧ Coerced coerce x x' (s.at? path)

/-- Every key in a mapping for a model that ignores extra keys is declared. -/
def Declares (s : Schema) (v : Datum) : Prop :=
  ∀ path fields m, s.at? path = some (.model false fields) → v.at? path = some (.map m) → ∀ k ∈ Mapping.keys m, k ∈ fields.names

theorem Datum.at?_concat (h : v.at? path = some (.map m)) : v.at? (path ++ [k]) = m.get? k := by
  induction path generalizing v with
  | nil =>
    cases h
    show (Mapping.get? k m).bind (fun v => some v) = _
    rcases Mapping.get? k m with _ | x
    · rfl
    · rfl
  | cons j path ih =>
    rcases v with _ | _ | n
    · cases h
    · cases h
    · obtain ⟨y, hy, h⟩ := Option.bind_eq_some_iff.1 h
      rw [List.cons_append, Datum.at?, hy, Option.bind_some]
      exact ih h

theorem Declares.keepsPaths (hcoerce : ∀ type m, coerce type (.map m) = none) (hd : Declares s v)
    (h : s.validate coerce v = some v') : KeepsPaths coerce s v v' := by
  intro path
  induction path generalizing s v v' with
  | nil =>
    intro x hx
    cases hx
    refine ⟨v', rfl, ?_⟩
    cases s with
    | scalar type check => exact h
    | model extraAllow fields =>
      obtain ⟨m, declared, -, -, rfl⟩ := Schema.validate_model h
      rfl
  | cons k path ih =>
    intro x hx
    rcases v with _ | _ | m
    · cases hx
    · cases hx
    · obtain ⟨y, hget, hx⟩ := Option.bind_eq_some_iff.1 hx
      cases s with
      | scalar type check =>
        rw [Schema.validate, hcoerce] at h
        cases h
      | model extraAllow fields =>
        obtain ⟨_, declared, ⟨⟩, hdeclared, rfl⟩ := Schema.validate_model h
        rw [Datum.at?, Mapping.get?_append, Schema.at?]
        rcases hfind : fields.find? k with _ | s₂
        · have hk := fields.find?_eq_none.1 hfind
          have hextra : extraAllow = true := by
            by_contra hextra
            rw [Bool.not_eq_true] at hextra
            subst hextra
            refine hk (hd [] fields m rfl rfl k ?_)
            by_contra hmem
            rw [Mapping.get?_eq_none.2 hmem] at hget
            cases hget
          subst hextra
          refine ⟨x, ?_, rfl⟩
          rw [← Mapping.get?_append, Schema.get?_validate_extra h hk, hget]
          exact hx
        · obtain ⟨y', hget', hy⟩ := fields.get?_validate hdeclared hfind hget
          rw [hget']
          refine ih (fun path' fields' m' hs hm => hd (k :: path') fields' m' ?_ ?_) hy x hx
          · rw [Schema.at?, hfind]
            exact hs
          · rw [Datum.at?, hget]
            exact hm

/-- No key path is lost exactly where no model ignores a key. -/
theorem keepsPaths_iff (hcoerce : ∀ type m, coerce type (.map m) = none) (h : s.validate coerce v = some v') :
    KeepsPaths coerce s v v' ↔ Declares s v := by
  refine ⟨?_, fun hd => hd.keepsPaths hcoerce h⟩
  intro hkeeps path fields m hs hm k hk
  obtain ⟨x', hx', hval⟩ := Schema.at?_validate h hs hm
  obtain ⟨_, declared, ⟨⟩, hdeclared, rfl⟩ := Schema.validate_model hval
  obtain ⟨y, hy⟩ : ∃ y, Mapping.get? k m = some y :=
    Option.ne_none_iff_exists'.1 fun hnone => Mapping.get?_eq_none.1 hnone hk
  obtain ⟨y', hy', -⟩ := hkeeps (path ++ [k]) y (by rw [Datum.at?_concat hm, hy])
  rw [Datum.at?_concat hx', if_neg Bool.false_ne_true, List.append_nil] at hy'
  by_contra hmem
  rw [Mapping.get?_eq_none.2 (by rw [fields.keys_validate hdeclared]; exact hmem)] at hy'
  cases hy'

/-! ### Schemas in which every model allows extra keys -/

mutual

def Schema.allowsAll : Schema → Bool
  | .scalar _ _ => true
  | .model extraAllow fields => extraAllow && fields.allowAll

def Fields.allowAll : Fields → Bool
  | .nil => true
  | .cons _ schema _ rest => schema.allowsAll && rest.allowAll

end

theorem Fields.allowsAll_of_find? : (fields : Fields) → fields.allowAll = true → fields.find? k = some s → s.allowsAll = true
  | .nil, _, h => by cases h
  | .cons name schema default rest, hall, h => by
    obtain ⟨hschema, hrest⟩ := Bool.and_eq_true_iff.1 hall
    rw [find?] at h
    split at h
    next =>
      cases h
      exact hschema
    next => exact allowsAll_of_find? rest hrest h

theorem Schema.at?_of_allowsAll (hall : s.allowsAll = true) (h : s.at? path = some (.model extraAllow fields)) :
    extraAllow = true := by
  induction path generalizing s with
  | nil =>
    cases h
    exact (Bool.and_eq_true_iff.1 hall).1
  | cons k path ih =>
    cases s with
    | scalar type check => cases h
    | model extraAllow' fields' =>
      obtain ⟨s₁, hfind, h⟩ := Option.bind_eq_some_iff.1 h
      exact ih (fields'.allowsAll_of_find? (Bool.and_eq_true_iff.1 hall).2 hfind) h

theorem Fields.mem_of_find?_ofList {l : List (String × Schema × Datum)} (h : (ofList l).find? k = some s) :
    ∃ e ∈ l, .str e.1 = k ∧ e.2.1 = s := by
  induction l with
  | nil => cases h
  | cons e l ih =>
    rw [ofList, find?] at h
    split at h
    next hk =>
      cases h
      exact ⟨e, List.mem_cons_self, hk, rfl⟩
    next =>
      obtain ⟨e', he', h⟩ := ih h
      exact ⟨e', List.mem_cons_of_mem _ he', h⟩

end Pydantic
