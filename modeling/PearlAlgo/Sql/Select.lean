import Mathlib.Data.List.Sort
import PearlAlgo.Py.Dict

/-!
# Tables with a primary key

A table is the dictionary of its rows under their keys, and an upsert is an assignment to it. A query picks keys and
orders the rows by what it makes of them. Where no two keys are ordered alike, the answer is determined by what the
table has under each key (`select_answers`).
-/

namespace Sql
open Py

variable {κ τ α : Type} [LinearOrder τ] {m : κ → Option α} {pick : κ → Option τ}

/-- `LIMIT`, where a negative limit is none. -/
def limitRows (limit : Int) (rows : List α) : List α := if limit < 0 then rows else rows.take limit.toNat

def orderBy (rows : List (τ × α)) : List (τ × α) := rows.insertionSort fun a b => a.1 ≤ b.1

/-- `SELECT … WHERE … ORDER BY … LIMIT`: the rows whose key is picked, by what `pick` makes of it. -/
def select (pick : κ → Option τ) (limit : Int) (table : Dict κ α) : List (τ × α) :=
  limitRows limit (orderBy (table.entries.filterMap fun e => (pick e.1).map fun t => (t, e.2)))

/-- The values under the picked keys, in strictly ascending order. -/
structure Listing (m : κ → Option α) (pick : κ → Option τ) (rows : List (τ × α)) : Prop where
  ascending : rows.Pairwise fun a b => a.1 < b.1
  mem : ∀ t a, (t, a) ∈ rows ↔ ∃ k, pick k = some t ∧ m k = some a

/-- The first `limit` of the values under the picked keys. -/
def Answers (m : κ → Option α) (pick : κ → Option τ) (limit : Int) (rows : List (τ × α)) : Prop :=
  ∃ all, Listing m pick all ∧ rows = limitRows limit all

theorem pairwise_orderBy {rows : List (τ × α)} (h : (rows.map Prod.fst).Nodup) :
    (orderBy rows).Pairwise fun a b => a.1 < b.1 := by
  have : Std.Total fun a b : τ × α => a.1 ≤ b.1 := ⟨fun a b => le_total a.1 b.1⟩
  have : IsTrans (τ × α) fun a b => a.1 ≤ b.1 := ⟨fun a b c => le_trans⟩
  have hsorted := List.pairwise_insertionSort (fun a b : τ × α => a.1 ≤ b.1) rows
  have hne : (orderBy rows).Pairwise fun a b => a.1 ≠ b.1 := by
    rw [← List.pairwise_map]
    exact ((List.perm_insertionSort _ rows).map Prod.fst).nodup_iff.2 h
  exact hsorted.imp₂ (fun a b hle hne => lt_of_le_of_ne hle hne) hne

theorem mem_orderBy {rows : List (τ × α)} {e : τ × α} : e ∈ orderBy rows ↔ e ∈ rows :=
  (List.perm_insertionSort _ rows).mem_iff

variable [DecidableEq κ] {table : Dict κ α}

theorem select_answers (hinj : ∀ k k' t, pick k = some t → pick k' = some t → k = k') (limit : Int) :
    Answers table.get? pick limit (select pick limit table) := by
  refine ⟨_, ⟨pairwise_orderBy ?_, ?_⟩, rfl⟩
  · have hkeys : (table.entries.filterMap fun e => (pick e.1).map fun t => (t, e.2)).map Prod.fst =
        (table.entries.map Prod.fst).filterMap pick := by
      rw [List.map_filterMap, List.filterMap_map]
      congr 1
      funext e
      rcases h : pick e.1 with _ | t
      · simp [h]
      · simp [h]
    rw [hkeys]
    exact table.nodup.filterMap hinj
  · intro t a
    rw [mem_orderBy, List.mem_filterMap]
    constructor
    · rintro ⟨⟨k, b⟩, he, heq⟩
      obtain ⟨t', ht, heq⟩ := Option.map_eq_some_iff.1 heq
      cases heq
      exact ⟨k, ht, Dict.get?_eq_some.2 he⟩
    · rintro ⟨k, ht, ha⟩
      refine ⟨(k, a), Dict.get?_eq_some.1 ha, ?_⟩
      rw [ht]
      rfl

end Sql
