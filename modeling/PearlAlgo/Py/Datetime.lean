import Mathlib.Data.Rat.Defs

/-!
# Python datetimes

A naive datetime is the seconds that its clock shows, an aware one the seconds since the epoch. The two kinds do not
compare.
-/

namespace Py

inductive PyDatetime
  | naive (t : ℚ)
  | aware (t : ℚ)

inductive PyErr
  | attributeError
  | typeError
  | valueError
deriving DecidableEq

/-- `<` -/
def PyDatetime.lt : PyDatetime → PyDatetime → Except PyErr Bool
  | naive t, naive t' => .ok (t < t')
  | aware t, aware t' => .ok (t < t')
  | _, _ => .error .typeError

/-- `-` -/
def PyDatetime.sub : PyDatetime → PyDatetime → Except PyErr ℚ
  | naive t, naive t' => .ok (t - t')
  | aware t, aware t' => .ok (t - t')
  | _, _ => .error .typeError

end Py
