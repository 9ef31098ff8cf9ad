import PearlAlgo.Py.Number
import PearlAlgo.Py.Round

/-!
# Extremes of float arrays

`max` and `min` of a numpy array, where `nan` wins, and `round(x, 4)`. On numbers other than `nan`, `≤` is a total order.
-/

namespace Py

/-- The extreme of a non-empty array for an order. -/
def extreme (lt : Number → Number → Bool) : List Number → Number
  | [] => .nan
  | x :: l => l.foldl (fun a b => if a = .nan ∨ b = .nan then .nan else if lt a b then b else a) x

def arrayMax : List Number → Number := extreme fun a b => a < b

def arrayMin : List Number → Number := extreme fun a b => b < a

/-- `round(x, 4)` -/
def roundPoints : Number → Number
  | .fin q => .fin (roundHalfEven (q * 10000) / 10000)
  | x => x

namespace Number
variable {x y z : Number}

theorem le_refl (h : x ≠ .nan) : x ≤ x := by
  cases x with
  | nan => exact absurd rfl h
  | negInf => rfl
  | fin q => simp
  | posInf => rfl

theorem le_trans (hxy : x ≤ y) (hyz : y ≤ z) : x ≤ z := by
  cases x with
  | nan => cases y <;> cases hxy
  | negInf =>
    cases z with
    | nan => cases y <;> cases hyz
    | _ => rfl
  | fin a =>
    cases z with
    | nan => cases y <;> cases hyz
    | negInf =>
      cases y with
      | negInf => cases hxy
      | _ => cases hyz
    | fin c =>
      cases y with
      | fin b => exact fin_le_fin.2 ((fin_le_fin.1 hxy).trans (fin_le_fin.1 hyz))
      | nan => cases hyz
      | negInf => cases hxy
      | posInf => cases hyz
    | posInf => rfl
  | posInf =>
    cases y with
    | posInf => exact hyz
    | _ => cases hxy

theorem lt_or_le (hx : x ≠ .nan) (hy : y ≠ .nan) : x < y ∨ y ≤ x := by
  cases x with
  | nan => exact absurd rfl hx
  | negInf =>
    cases y with
    | nan => exact absurd rfl hy
    | negInf => exact .inr rfl
    | _ => exact .inl rfl
  | fin a =>
    cases y with
    | nan => exact absurd rfl hy
    | negInf => exact .inr rfl
    | fin b => simpa using lt_or_ge a b
    | posInf => exact .inl rfl
  | posInf =>
    cases y with
    | nan => exact absurd rfl hy
    | _ => exact .inr rfl

theorem le_of_lt (h : x < y) : x ≤ y := by
  cases x with
  | nan => exact absurd h (not_nan_lt y)
  | negInf =>
    cases y with
    | nan => exact absurd h (not_lt_nan _)
    | _ => rfl
  | fin a =>
    cases y with
    | nan => exact absurd h (not_lt_nan _)
    | negInf => cases h
    | fin b => exact fin_le_fin.2 (fin_lt_fin.1 h).le
    | posInf => rfl
  | posInf => cases y <;> cases h

theorem not_le_of_lt (h : x < y) : ¬ y ≤ x := by
  intro hle
  cases x with
  | nan => exact not_nan_lt y h
  | negInf =>
    cases y with
    | nan => exact not_lt_nan _ h
    | negInf => cases h
    | _ => cases hle
  | fin a =>
    cases y with
    | fin b => exact absurd (fin_le_fin.1 hle) (not_le.2 (fin_lt_fin.1 h))
    | posInf => cases hle
    | _ => cases h
  | posInf => cases y <;> cases h

/-- What lies between a positive number and another number is finite and positive. -/
theorem fin_of_between (hx : .fin 0 < x) (hxy : x < y) (hyz : y < z) : ∃ q : ℚ, 0 < q ∧ y = .fin q := by
  cases y with
  | nan => exact absurd hyz (not_nan_lt z)
  | negInf => cases x <;> cases hxy
  | fin q =>
    cases x with
    | fin p => exact ⟨q, (fin_lt_fin.1 hx).trans (fin_lt_fin.1 hxy), rfl⟩
    | negInf => cases hx
    | _ => cases hxy
  | posInf => cases z <;> cases hyz

theorem ne_nan_of_lt (h : x < y) : y ≠ .nan := by
  rintro rfl
  exact not_lt_nan x h

theorem sub_le_sub (q : ℚ) (h : x ≤ y) : x.sub (.fin q) ≤ y.sub (.fin q) := by
  cases x with
  | nan => cases h
  | negInf =>
    cases y with
    | nan => cases h
    | _ => rfl
  | fin a =>
    cases y with
    | fin b =>
      refine fin_le_fin.2 ?_
      linarith [fin_le_fin.1 h]
    | posInf => rfl
    | _ => cases h
  | posInf =>
    cases y with
    | posInf => rfl
    | _ => cases h

theorem sub_le_sub_left (q : ℚ) (h : x ≤ y) : (fin q).sub y ≤ (fin q).sub x := by
  cases x with
  | nan => cases h
  | negInf =>
    cases y with
    | nan => cases h
    | _ => rfl
  | fin a =>
    cases y with
    | fin b =>
      refine fin_le_fin.2 ?_
      linarith [fin_le_fin.1 h]
    | posInf => rfl
    | _ => cases h
  | posInf =>
    cases y with
    | posInf => rfl
    | _ => cases h

theorem roundPoints_mono (h : x ≤ y) : roundPoints x ≤ roundPoints y := by
  cases x with
  | nan => cases h
  | negInf =>
    cases y with
    | nan => cases h
    | _ => rfl
  | fin a =>
    cases y with
    | fin b =>
      have hscale : a * 10000 ≤ b * 10000 := by linarith [fin_le_fin.1 h]
      have hround : (roundHalfEven (a * 10000) : ℚ) ≤ roundHalfEven (b * 10000) := by
        exact_mod_cast roundHalfEven_mono hscale
      refine fin_le_fin.2 ?_
      linarith
    | posInf => rfl
    | _ => cases h
  | posInf =>
    cases y with
    | posInf => rfl
    | _ => cases h

end Number

/-- The extreme of numbers for a total order, of which `lt` is the strict part, bounds them. -/
theorem extreme_bound {lt : Number → Number → Bool} {le : Number → Number → Prop}
    (htrans : ∀ x y z, le x y → le y z → le x z) (hrefl : ∀ x, x ≠ .nan → le x x)
    (hlt : ∀ x y, x ≠ .nan → y ≠ .nan → if lt x y then le x y else le y x)
    {l : List Number} (hl : ∀ x ∈ l, x ≠ .nan) : ∀ x ∈ l, le x (extreme lt l) := by
  have hfold (l : List Number) : ∀ m, m ≠ .nan → (∀ x ∈ l, x ≠ .nan) →
      let r := l.foldl (fun a b => if a = .nan ∨ b = .nan then .nan else if lt a b then b else a) m
      le m r ∧ ∀ x ∈ l, le x r := by
    induction l with
    | nil => exact fun m hm _ => ⟨hrefl m hm, nofun⟩
    | cons y l ih =>
      intro m hm hl
      have hy : y ≠ .nan := hl y List.mem_cons_self
      have hor := hlt m y hm hy
      dsimp only
      rw [List.foldl_cons, if_neg (not_or.2 ⟨hm, hy⟩)]
      split at hor
      next h =>
        rw [if_pos h]
        obtain ⟨hbase, hrest⟩ := ih y hy fun x hx => hl x (List.mem_cons_of_mem _ hx)
        refine ⟨htrans _ _ _ hor hbase, fun x hx => ?_⟩
        rcases List.mem_cons.1 hx with rfl | hx
        · exact hbase
        · exact hrest x hx
      next h =>
        rw [if_neg h]
        obtain ⟨hbase, hrest⟩ := ih m hm fun x hx => hl x (List.mem_cons_of_mem _ hx)
        refine ⟨hbase, fun x hx => ?_⟩
        rcases List.mem_cons.1 hx with rfl | hx
        · exact htrans _ _ _ hor hbase
        · exact hrest x hx
  cases l with
  | nil => exact nofun
  | cons m l =>
    obtain ⟨hm, hrest⟩ := hfold l m (hl m List.mem_cons_self) fun x hx => hl x (List.mem_cons_of_mem _ hx)
    intro x hx
    rcases List.mem_cons.1 hx with rfl | hx
    · exact hm
    · exact hrest x hx

theorem le_arrayMax {l : List Number} (hl : ∀ x ∈ l, x ≠ .nan) : ∀ x ∈ l, x ≤ arrayMax l := by
  refine @extreme_bound (fun a b => decide (a < b)) (fun x y => x ≤ y) (fun x y z => Number.le_trans)
    (fun x hx => show x ≤ x from Number.le_refl hx) (fun x y hx hy => ?_) l hl
  split
  next h => exact Number.le_of_lt (of_decide_eq_true h)
  next h => exact (Number.lt_or_le hx hy).resolve_left fun hlt => h (decide_eq_true hlt)

theorem arrayMin_le {l : List Number} (hl : ∀ x ∈ l, x ≠ .nan) : ∀ x ∈ l, arrayMin l ≤ x := by
  refine @extreme_bound (fun a b => decide (b < a)) (fun x y => y ≤ x) (fun x y z hxy hyz => Number.le_trans hyz hxy)
    (fun x hx => show x ≤ x from Number.le_refl hx) (fun x y hx hy => ?_) l hl
  split
  next h => exact Number.le_of_lt (of_decide_eq_true h)
  next h => exact (Number.lt_or_le hy hx).resolve_left fun hlt => h (decide_eq_true hlt)

end Py
