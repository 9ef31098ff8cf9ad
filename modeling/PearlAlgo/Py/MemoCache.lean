import PearlAlgo.Py.Dict

/-!
# Bounded memo tables

A dictionary that remembers what was computed for a key, and of more than `n` entries the newest. A request with the
key of an earlier one is answered from the table, whatever its own value is. Two conditions make a table that was found
harmless: no request has a key that was found (`Extends`), or all requests with a key have the value that is remembered
(`Honest`).
-/

namespace Py.Dict

variable {κ α : Type} [DecidableEq κ] {n : Nat} {k : κ} {a fallback : α} {compute : Option α} {c f : Dict κ α}

/-- `for k in list(d)[:-n]: del d[k]` -/
def keepNewest (n : Nat) (d : Dict κ α) : Dict κ α :=
  ⟨d.entries.drop (d.entries.length - n), ((List.drop_sublist _ _).map _).nodup d.nodup⟩

/-- The remembered value, or the computed one, which is then remembered. A computation that fails has its fallback. -/
def memoize (n : Nat) (k : κ) (compute : Option α) (fallback : α) (d : Dict κ α) : Dict κ α × α :=
  match d.get? k with
  | some a => (d, a)
  | none =>
    match compute with
    | some a => ((d.keepNewest n).set k a, a)
    | none => (d, fallback)

theorem get?_keepNewest (h : (c.keepNewest n).get? k = some a) : c.get? k = some a :=
  get?_eq_some.2 ((List.drop_sublist _ _).subset (get?_eq_some.1 h))

theorem notMem_keys (h : c.get? k = none) : k ∉ c.entries.map Prod.fst := by
  intro hmem
  obtain ⟨⟨_, a⟩, he, rfl⟩ := List.mem_map.1 hmem
  rw [get?_eq_some.2 he] at h
  cases h

theorem entries_set_keepNewest (h : c.get? k = none) (a : α) :
    ((c.keepNewest n).set k a).entries = c.entries.drop (c.entries.length - n) ++ [(k, a)] :=
  upsert_of_notMem fun hmem => notMem_keys h (((List.drop_sublist _ _).map _).subset hmem)

/-- What is remembered after a request was remembered before, or is what the request computed. -/
theorem get?_memoize {j : κ} (h : (c.memoize n k compute fallback).1.get? j = some a) :
    c.get? j = some a ∨ compute = some a := by
  unfold Dict.memoize at h
  rcases hk : c.get? k with _ | b
  · rw [hk] at h
    rcases compute with _ | b
    · exact .inl h
    · dsimp only at h
      rw [get?_set] at h
      split at h
      · exact .inr h
      · exact .inl (get?_keepNewest h)
  · rw [hk] at h
    exact .inl h

/-! ### A table that was found and is not read -/

/-- The table is the other one behind entries whose keys are never requested. -/
def Extends (requested : κ → Prop) (f c : Dict κ α) : Prop :=
  ∃ old, c.entries = old ++ f.entries ∧ ∀ e ∈ old, ¬ requested e.1

namespace Extends
variable {requested : κ → Prop}

theorem empty (h : ∀ k, requested k → c.get? k = none) : Extends requested Dict.empty c := by
  refine ⟨c.entries, (List.append_nil _).symm, fun e he hreq => ?_⟩
  have hget := h e.1 hreq
  rw [get?_eq_some.2 he] at hget
  cases hget

theorem get?_eq (h : Extends requested f c) (hk : requested k) : c.get? k = f.get? k := by
  obtain ⟨old, hc, hold⟩ := h
  refine Option.ext fun a => ?_
  rw [get?_eq_some, get?_eq_some, hc, List.mem_append]
  exact ⟨fun hmem => hmem.resolve_left fun he => hold _ he hk, .inr⟩

theorem memoize (h : Extends requested f c) (hk : requested k) :
    (c.memoize n k compute fallback).2 = (f.memoize n k compute fallback).2 ∧
      Extends requested (f.memoize n k compute fallback).1 (c.memoize n k compute fallback).1 := by
  have hget := h.get?_eq hk
  unfold Dict.memoize
  rw [hget]
  rcases hf : f.get? k with _ | a
  · rcases compute with _ | a
    · exact ⟨rfl, h⟩
    · refine ⟨rfl, ?_⟩
      obtain ⟨old, hc, hold⟩ := h
      refine ⟨old.drop (c.entries.length - n), ?_, fun e he => hold e ((List.drop_sublist _ _).subset he)⟩
      rw [entries_set_keepNewest hf, entries_set_keepNewest (hget.trans hf), hc, List.drop_append, List.length_append,
        List.append_assoc, show old.length + f.entries.length - n - old.length = f.entries.length - n by omega]
  · exact ⟨rfl, h⟩

end Extends

/-! ### A table that remembers the values of the requests -/

section honest
variable {ω : Type} {requests : ω → Prop} {key : ω → κ} {value : ω → α} {w : ω}

/-- What is remembered for a request is its value. -/
def Honest (requests : ω → Prop) (key : ω → κ) (value : ω → α) (c : Dict κ α) : Prop :=
  ∀ w, requests w → ∀ a, c.get? (key w) = some a → a = value w

theorem Honest.empty : Honest requests key value (Dict.empty : Dict κ α) := by
  intro w _ a ha
  cases ha

/-- Requests with the same key have the same value. -/
def Coherent (requests : ω → Prop) (key : ω → κ) (value : ω → α) : Prop :=
  ∀ w w', requests w → requests w' → key w = key w' → value w = value w'

theorem Honest.memoize (h : Honest requests key value c) (hcoherent : Coherent requests key value) (hw : requests w)
    (hvalue : compute.getD fallback = value w) :
    (c.memoize n (key w) compute fallback).2 = value w ∧
      Honest requests key value (c.memoize n (key w) compute fallback).1 := by
  unfold Dict.memoize
  rcases hget : c.get? (key w) with _ | a
  · rcases compute with _ | a
    · exact ⟨hvalue, h⟩
    · refine ⟨hvalue, fun w' hw' b hb => ?_⟩
      rw [get?_set] at hb
      split at hb
      next hkey => exact (Option.some.inj hb).symm.trans (hvalue.trans (hcoherent w w' hw hw' hkey.symm))
      next => exact h w' hw' b (get?_keepNewest hb)
  · exact ⟨h w hw a hget, h⟩

end honest

/-! ### A table of what the values were computed from -/

/-- The table has the values of what the other one has. -/
def Mirrors {β : Type} (value : β → α) (c : Dict κ α) (g : Dict κ β) : Prop :=
  c.entries = g.entries.map fun e => (e.1, value e.2)

namespace Mirrors
variable {β : Type} {value : β → α} {g : Dict κ β} {source : Option β} {fallback' : β}

theorem get? (h : Mirrors value c g) (k : κ) : c.get? k = (g.get? k).map value := by
  refine Option.ext fun a => ?_
  rw [Option.map_eq_some_iff, get?_eq_some, h, List.mem_map]
  constructor
  · rintro ⟨⟨k', b⟩, hmem, heq⟩
    cases heq
    exact ⟨b, get?_eq_some.2 hmem, rfl⟩
  · rintro ⟨b, hget, rfl⟩
    exact ⟨(k, b), get?_eq_some.1 hget, rfl⟩

theorem memoize (h : Mirrors value c g) :
    Mirrors value (c.memoize n k (source.map value) fallback).1 (g.memoize n k source fallback').1 := by
  have hget := h.get? k
  unfold Dict.memoize
  rcases hg : g.get? k with _ | b
  · rw [hg] at hget
    rw [show c.get? k = none from hget]
    rcases source with _ | b
    · exact h
    · show ((c.keepNewest n).set k (value b)).entries = ((g.keepNewest n).set k b).entries.map _
      rw [entries_set_keepNewest hget, entries_set_keepNewest hg, h, List.length_map, List.map_append, List.map_drop]
      rfl
  · rw [hg] at hget
    rw [show c.get? k = some (value b) from hget]
    exact h

end Mirrors

end Py.Dict
