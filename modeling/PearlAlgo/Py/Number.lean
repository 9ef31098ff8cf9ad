import Mathlib.Data.Rat.Defs
import Mathlib.Data.Rat.Floor
import Mathlib.Algebra.Order.Ring.Rat
import Mathlib.Algebra.Order.Group.Unbundled.Abs

/-!
# Python floats in exact arithmetic

`Number` is what `float(x)` can return: a finite number, an infinity or `nan`. Arithmetic on finite
numbers is exact. Every comparison with `nan` is false, as in Python, so `≤` is not the negation of
`>`.
-/

namespace Py

inductive Number
  | nan
  | negInf
  | fin (q : ℚ)
  | posInf
deriving DecidableEq

namespace Number

instance : Inhabited Number := ⟨.fin 0⟩

def lt : Number → Number → Bool
  | fin a, fin b => a < b
  | negInf, fin _ | negInf, posInf | fin _, posInf => true
  | _, _ => false

def le : Number → Number → Bool
  | nan, _ | _, nan => false
  | fin a, fin b => a ≤ b
  | negInf, _ | _, posInf => true
  | posInf, _ | _, negInf => false

instance : LT Number := ⟨fun a b => lt a b = true⟩
instance : LE Number := ⟨fun a b => le a b = true⟩
instance (a b : Number) : Decidable (a < b) := inferInstanceAs (Decidable (lt a b = true))
instance (a b : Number) : Decidable (a ≤ b) := inferInstanceAs (Decidable (le a b = true))

def sub : Number → Number → Number
  | nan, _ | _, nan => nan
  | fin a, fin b => fin (a - b)
  | posInf, posInf | negInf, negInf => nan
  | posInf, _ | _, negInf => posInf
  | negInf, _ | _, posInf => negInf

def add : Number → Number → Number
  | nan, _ | _, nan => nan
  | fin a, fin b => fin (a + b)
  | posInf, negInf | negInf, posInf => nan
  | posInf, _ | _, posInf => posInf
  | negInf, _ | _, negInf => negInf

/-- The product with a positive factor. -/
def scale (k : ℚ) : Number → Number
  | fin a => fin (a * k)
  | x => x

def abs : Number → Number
  | nan => nan
  | fin a => fin |a|
  | _ => posInf

@[simp] theorem fin_lt_fin {a b : ℚ} : fin a < fin b ↔ a < b := decide_eq_true_iff

@[simp] theorem fin_le_fin {a b : ℚ} : fin a ≤ fin b ↔ a ≤ b := decide_eq_true_iff

theorem not_lt_nan (a : Number) : ¬ a < nan := by cases a <;> exact Bool.false_ne_true

theorem not_nan_lt (a : Number) : ¬ nan < a := by cases a <;> exact Bool.false_ne_true

theorem pos_of_not_nonpos {x : Number} (h : ¬ x ≤ .fin 0) (hn : x ≠ .nan) : .fin 0 < x := by
  cases x with
  | nan => exact absurd rfl hn
  | negInf => exact absurd rfl h
  | fin q => exact fin_lt_fin.2 (not_le.1 fun hq => h (fin_le_fin.2 hq))
  | posInf => exact rfl

end Number

/-- `int(x)` of a finite float -/
def truncInt (q : ℚ) : Int := if 0 ≤ q then q.floor else q.ceil

end Py
