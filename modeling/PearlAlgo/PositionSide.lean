import Mathlib.Data.Rat.Defs
import Mathlib.Algebra.Order.Ring.Rat
import Mathlib.Tactic.Linarith

/-!
# The side of a position

Stops, trails and moves of a long position and of a short one are mirror images. `side.le p q`: as a stop, `q` is at
least as favourable as `p`.
-/

namespace PearlAlgo

inductive PositionSide
  | long
  | short
deriving DecidableEq

namespace PositionSide

def le : PositionSide → ℚ → ℚ → Prop
  | long, p, q => p ≤ q
  | short, p, q => q ≤ p

instance (side : PositionSide) (p q : ℚ) : Decidable (side.le p q) :=
  match side with
  | long => inferInstanceAs (Decidable (p ≤ q))
  | short => inferInstanceAs (Decidable (q ≤ p))

/-- As a stop, `q` is more favourable than `p`; as a stop under the price `q`, `p` is on the protective side. -/
def lt : PositionSide → ℚ → ℚ → Prop
  | long, p, q => p < q
  | short, p, q => q < p

instance (side : PositionSide) (p q : ℚ) : Decidable (side.lt p q) :=
  match side with
  | long => inferInstanceAs (Decidable (p < q))
  | short => inferInstanceAs (Decidable (q < p))

/-- `max` of a long position, `min` of a short one -/
def best : PositionSide → ℚ → ℚ → ℚ
  | long, p, q => max p q
  | short, p, q => min p q

/-- How far `p` has gone from `entry` in favour of the position. -/
def move : PositionSide → ℚ → ℚ → ℚ
  | long, entry, p => p - entry
  | short, entry, p => entry - p

/-- The price `d` points from `p` in favour of the position. -/
def ahead : PositionSide → ℚ → ℚ → ℚ
  | long, p, d => p + d
  | short, p, d => p - d

/-- The price `d` points from `p` against the position. -/
def behind : PositionSide → ℚ → ℚ → ℚ
  | long, p, d => p - d
  | short, p, d => p + d

variable {side : PositionSide} {p q r d entry : ℚ}

protected theorem le_refl (side : PositionSide) (p : ℚ) : side.le p p := by
  cases side <;> exact le_refl p

protected theorem le_trans (hpq : side.le p q) (hqr : side.le q r) : side.le p r := by
  cases side with
  | long => exact le_trans hpq hqr
  | short => exact le_trans hqr hpq

theorem le_of_not_le (h : ¬ side.le p q) : side.le q p := by
  cases side with
  | long => exact (not_le.1 h).le
  | short => exact (not_le.1 h).le

theorem lt_of_not_le (h : ¬ side.le p q) : side.lt q p := by
  cases side with
  | long => exact not_le.1 h
  | short => exact not_le.1 h

theorem not_lt_of_le (h : side.le p q) : ¬ side.lt q p := by
  cases side with
  | long => exact not_lt.2 h
  | short => exact not_lt.2 h

protected theorem le_of_lt (h : side.lt p q) : side.le p q := by
  cases side with
  | long => exact h.le
  | short => exact h.le

protected theorem lt_of_le_of_lt (hpq : side.le p q) (hqr : side.lt q r) : side.lt p r := by
  cases side with
  | long => exact lt_of_le_of_lt hpq hqr
  | short => exact lt_of_lt_of_le hqr hpq

theorem ahead_lt_iff : side.lt (side.ahead entry d) p ↔ d < side.move entry p := by
  cases side with
  | long =>
    show entry + d < p ↔ d < p - entry
    exact lt_sub_iff_add_lt'.symm
  | short =>
    show p < entry - d ↔ d < entry - p
    exact lt_sub_comm

theorem behind_lt_iff : side.lt (side.behind q d) p ↔ side.move p q < d := by
  cases side with
  | long =>
    show q - d < p ↔ q - p < d
    exact sub_lt_comm
  | short =>
    show p < q + d ↔ p - q < d
    exact sub_lt_iff_lt_add'.symm

@[simp] theorem move_behind : side.move (side.behind p d) p = d := by
  cases side with
  | long => exact sub_sub_cancel p d
  | short => exact add_sub_cancel_left p d

@[simp] theorem move_ahead : side.move p (side.ahead p d) = d := by
  cases side with
  | long => exact add_sub_cancel_left p d
  | short => exact sub_sub_cancel p d

theorem behind_move : side.behind q (side.move p q) = p := by
  cases side with
  | long => exact sub_sub_cancel q p
  | short => exact add_sub_cancel q p

theorem ahead_move : side.ahead p (side.move p q) = q := by
  cases side with
  | long => exact add_sub_cancel p q
  | short => exact sub_sub_cancel p q

theorem lt_iff_move_pos : side.lt p q ↔ 0 < side.move p q := by
  cases side <;> exact sub_pos.symm

theorem le_best (side : PositionSide) (p q : ℚ) : side.le p (side.best p q) := by
  cases side with
  | long => exact le_max_left p q
  | short => exact min_le_left p q

theorem behind_le_behind (h : side.le p q) (d : ℚ) : side.le (side.behind p d) (side.behind q d) := by
  cases side with
  | long => exact sub_le_sub_right h d
  | short => exact add_le_add_left h d

/-- A stop at `entry + o` is no better than one that trails `d` behind `p` when the move covers both. -/
theorem ahead_le_behind {o : ℚ} (h : o + d ≤ side.move entry p) : side.le (side.ahead entry o) (side.behind p d) := by
  cases side with
  | long =>
    show entry + o ≤ p - d
    have h : o + d ≤ p - entry := h
    linarith
  | short =>
    show p + d ≤ entry - o
    have h : o + d ≤ entry - p := h
    linarith

end PositionSide

end PearlAlgo
