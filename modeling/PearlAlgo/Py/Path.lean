import Mathlib.Data.List.Basic

/-!
# POSIX paths

A path as `pathlib` reads it: whether it is absolute, and its components. `normalize` is what `resolve` makes of the
components where there are no symbolic links.
-/

namespace Py

structure PyPath where
  absolute : Bool
  parts : List String
deriving DecidableEq

namespace PyPath

/-- `Path(s)`: empty components and dots are dropped. -/
def ofText (s : String) : PyPath where
  absolute := s.toList.head? = some '/'
  parts := ((s.toList.splitOn '/').map String.ofList).filter fun c => c ≠ "" ∧ c ≠ "."

/-- `p / q`: an absolute `q` stands for itself. -/
def div (p q : PyPath) : PyPath := if q.absolute then q else { p with parts := p.parts ++ q.parts }

/-- `p.parents[i]` -/
def parents (p : PyPath) (i : Nat) : PyPath := { p with parts := p.parts.take (p.parts.length - (i + 1)) }

/-- The components without `..`, which drops the one before it. -/
def normalize (parts : List String) : List String :=
  parts.foldl (fun acc c => if c = ".." then acc.dropLast else acc ++ [c]) []

theorem normalize_append {l l' : List String} (h : ∀ c ∈ l', c ≠ "..") : normalize (l ++ l') = normalize l ++ l' := by
  unfold normalize
  rw [List.foldl_append]
  generalize l.foldl (fun acc c => if c = ".." then acc.dropLast else acc ++ [c]) [] = acc
  induction l' generalizing acc with
  | nil => simp
  | cons c l' ih =>
    have hc := h c List.mem_cons_self
    rw [List.foldl_cons, if_neg hc, ih fun d hd => h d (List.mem_cons_of_mem c hd)]
    simp

end PyPath

end Py
