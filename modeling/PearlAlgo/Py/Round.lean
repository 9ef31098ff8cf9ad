import Mathlib.Data.Rat.Floor
import Mathlib.Algebra.Order.Floor.Ring
import Mathlib.Tactic.Linarith

/-!
# Rounding to cents

`round(x, 2)` in exact arithmetic: to the nearest hundredth, and to the even one of two that are equally near.
-/

namespace Py

def roundHalfEven (x : ℚ) : ℤ :=
  let f := x.floor
  if x - f < 1/2 then f else if 1/2 < x - f then f + 1 else if f % 2 = 0 then f else f + 1

/-- `round(x, 2)` -/
def roundCents (x : ℚ) : ℚ := roundHalfEven (x * 100) / 100

/-- `round(x, 1)` -/
def roundTenths (x : ℚ) : ℚ := roundHalfEven (x * 10) / 10

@[simp] theorem roundHalfEven_intCast (n : ℤ) : roundHalfEven n = n := by
  unfold roundHalfEven
  simp

theorem floor_le_roundHalfEven (x : ℚ) : x.floor ≤ roundHalfEven x ∧ roundHalfEven x ≤ x.floor + 1 := by
  unfold roundHalfEven
  dsimp only
  split
  · omega
  · split
    · omega
    · split
      · omega
      · omega

theorem roundHalfEven_mono {x y : ℚ} (h : x ≤ y) : roundHalfEven x ≤ roundHalfEven y := by
  have hfloor : x.floor ≤ y.floor := Rat.floor_monotone h
  rcases hfloor.lt_or_eq with hlt | heq
  · have hx := (floor_le_roundHalfEven x).2
    have hy := (floor_le_roundHalfEven y).1
    omega
  · have hle : x - x.floor ≤ y - y.floor := by
      rw [heq]
      linarith
    unfold roundHalfEven
    dsimp only
    rw [heq] at hle ⊢
    split
    · split
      · omega
      · split
        · omega
        · split
          · omega
          · omega
    next hx =>
      rw [if_neg (fun hy => hx (lt_of_le_of_lt hle hy))]
      split
      next hx' => rw [if_pos (lt_of_lt_of_le hx' hle)]
      · split
        · split
          · omega
          · omega
        · split
          · omega
          · omega

theorem floor_neg_of_not_int {x : ℚ} (h : (x.floor : ℚ) ≠ x) : (-x).floor = -x.floor - 1 := by
  have hle : (x.floor : ℚ) ≤ x := Rat.floor_le x
  have hlt : x < (x.floor + 1 : ℤ) := Rat.lt_floor_add_one x
  have hpos : (x.floor : ℚ) < x := lt_of_le_of_ne hle h
  push_cast at hlt
  have h1 : -x.floor - 1 ≤ (-x).floor := by
    rw [Rat.le_floor_iff]
    push_cast
    linarith
  have h2 : (-x).floor < -x.floor := by
    rw [Rat.floor_lt_iff]
    push_cast
    linarith
  omega

theorem roundHalfEven_neg (x : ℚ) : roundHalfEven (-x) = -roundHalfEven x := by
  by_cases h : (x.floor : ℚ) = x
  · have hx := roundHalfEven_intCast x.floor
    have hneg := roundHalfEven_intCast (-x.floor)
    push_cast at hneg
    rw [h] at hx hneg
    rw [hx, hneg]
  · unfold roundHalfEven
    dsimp only
    rw [floor_neg_of_not_int h]
    have hfrac : -x - ((-x.floor - 1 : ℤ) : ℚ) = 1 - (x - x.floor) := by push_cast; ring
    rw [hfrac]
    generalize x - (x.floor : ℚ) = r
    -- a half goes to the even one of two neighbours, whose negations are neighbours
    rcases lt_trichotomy r (1/2) with hr | rfl | hr
    · rw [if_neg (by linarith), if_pos (by linarith), if_pos hr]
      omega
    · norm_num
      split <;> split <;> omega
    · rw [if_pos (by linarith), if_neg (by linarith), if_pos hr]
      omega
def WholeCents (x : ℚ) : Prop := ∃ n : ℤ, x * 100 = n

theorem WholeCents.roundCents {x : ℚ} (h : WholeCents x) : roundCents x = x := by
  obtain ⟨n, hn⟩ := h
  rw [Py.roundCents, hn, roundHalfEven_intCast, ← hn]
  simp

theorem WholeCents.zero : WholeCents 0 := ⟨0, by simp⟩

theorem WholeCents.add {x y : ℚ} (hx : WholeCents x) (hy : WholeCents y) : WholeCents (x + y) := by
  obtain ⟨m, hm⟩ := hx
  obtain ⟨n, hn⟩ := hy
  refine ⟨m + n, ?_⟩
  rw [add_mul, hm, hn, Int.cast_add]

theorem WholeCents.mul_natCast {x : ℚ} (h : WholeCents x) (n : Nat) : WholeCents (x * n) := by
  obtain ⟨k, hk⟩ := h
  refine ⟨k * n, ?_⟩
  rw [mul_right_comm, hk, Int.cast_mul, Int.cast_natCast]

theorem WholeCents.sum {l : List ℚ} (h : ∀ x ∈ l, WholeCents x) : WholeCents l.sum := by
  induction l with
  | nil => exact .zero
  | cons x l ih =>
    rw [List.sum_cons]
    exact (h x List.mem_cons_self).add (ih fun y hy => h y (List.mem_cons_of_mem _ hy))

end Py
