import Mathlib.Algebra.Order.Ring.Rat
import PearlAlgo.Py.Dict

/-!
# A cache with a time to live

A value is stored with the time at which it expires and served until then. Expired entries are swept now and then,
which no lookup from then on can see.
-/

namespace Py

structure TtlCache (κ α : Type) where
  entries : Dict κ (α × ℚ) := .empty
  lastCleanup : ℚ := 0

namespace TtlCache
variable {κ α ε : Type} [DecidableEq κ]

/-- The sweep, once `interval` has passed since the last one. -/
def swept (interval now : ℚ) (c : TtlCache κ α) : TtlCache κ α :=
  if interval ≤ now - c.lastCleanup then
    { entries := c.entries.filter fun _ e => now < e.2, lastCleanup := now }
  else c

/-- The value that is served under `key`. -/
def fresh? (key : κ) (now : ℚ) (c : TtlCache κ α) : Option α :=
  ((c.entries.get? key).filter fun e => now < e.2).map Prod.fst

/-- The fresh value, or else what `compute` gives, which is stored unless it raises. -/
def cached (interval : ℚ) (key : κ) (ttl now : ℚ) (compute : Except ε α) (c : TtlCache κ α) :
    Except ε α × TtlCache κ α :=
  let c := c.swept interval now
  match c.fresh? key now with
  | some value => (.ok value, c)
  | none =>
    match compute with
    | .ok value => (.ok value, { c with entries := c.entries.set key (value, now + ttl) })
    | .error e => (.error e, c)

variable {interval ttl now t : ℚ} {key k : κ} {value : α} {e : α × ℚ} {compute : Except ε α} {c : TtlCache κ α}

theorem fresh?_eq_some : c.fresh? key now = some value ↔
    ∃ expires, c.entries.get? key = some (value, expires) ∧ now < expires := by
  unfold fresh?
  rcases c.entries.get? key with _ | ⟨value', expires⟩
  · simp
  · by_cases h : now < expires
    · simp [h]
    · simp [h]

theorem get?_swept (h : (c.swept interval now).entries.get? k = some e) : c.entries.get? k = some e := by
  unfold swept at h
  split at h
  · rw [Dict.get?_filter, Option.filter_eq_some_iff] at h
    exact h.1
  · exact h

/-- A sweep takes no entry that is fresh. -/
theorem fresh?_swept (h : now ≤ t) : (c.swept interval now).fresh? key t = c.fresh? key t := by
  refine Option.ext fun value => ?_
  rw [fresh?_eq_some, fresh?_eq_some]
  constructor
  · rintro ⟨expires, hget, ht⟩
    exact ⟨expires, get?_swept hget, ht⟩
  · rintro ⟨expires, hget, ht⟩
    refine ⟨expires, ?_, ht⟩
    unfold swept
    split
    · rw [Dict.get?_filter, Option.filter_eq_some_iff]
      exact ⟨hget, decide_eq_true (h.trans_lt ht)⟩
    · exact hget

theorem cached_of_fresh (h : c.fresh? key now = some value) :
    c.cached interval key ttl now compute = (.ok value, c.swept interval now) := by
  have h' : (c.swept interval now).fresh? key now = _ := (fresh?_swept le_rfl).trans h
  simp only [cached, h']

theorem cached_of_stale (h : c.fresh? key now = none) : (c.cached interval key ttl now compute).1 = compute := by
  have h' : (c.swept interval now).fresh? key now = _ := (fresh?_swept le_rfl).trans h
  simp only [cached, h']
  rcases compute with e | value
  · rfl
  · rfl

/-- An entry after a call was there before it, or is what the call computed. -/
theorem get?_cached (h : (c.cached interval key ttl now compute).2.entries.get? k = some e) :
    c.entries.get? k = some e ∨ k = key ∧ ∃ value, compute = .ok value ∧ e = (value, now + ttl) := by
  rcases hfresh : (c.swept interval now).fresh? key now with _ | value
  · simp only [cached, hfresh] at h
    rcases compute with e' | value
    · exact Or.inl (get?_swept h)
    · by_cases hk : k = key
      · subst hk
        rw [Dict.get?_set_self] at h
        exact Or.inr ⟨rfl, value, rfl, (Option.some.inj h).symm⟩
      · rw [Dict.get?_set_ne _ _ hk] at h
        exact Or.inl (get?_swept h)
  · simp only [cached, hfresh] at h
    exact Or.inl (get?_swept h)

end TtlCache

end Py
