import Mathlib.Algebra.Order.Group.Abs
import Mathlib.Data.List.TakeDrop
import Mathlib.Order.Bounds.Basic
import Mathlib.Order.Interval.Set.Basic
import Mathlib.Algebra.BigOperators.Group.List.Basic
import Mathlib.Tactic.Abel

/-!
# Equity curves and their largest fall

`equity pnls k` is the account after the first `k` results. For a curve `e` on the indices from `a` to `b`, `IsPeak` is
its highest value and `IsMaxDrawdown` its largest fall `e i - e j` with `i ≤ j`. Both are kept by one step of the loop
that walks along the curve (`IsPeak.succ`, `IsMaxDrawdown.succ`), wherever the loop starts.
-/

namespace Equity

/-! ### Curves -/

section Curve
variable {α : Type} [AddCommGroup α]

/-- The account after the first `k` results, from nothing. -/
def equity (pnls : List α) (k : ℕ) : α := (pnls.take k).sum

@[simp] theorem equity_zero (pnls : List α) : equity pnls 0 = 0 := by simp [equity]

theorem equity_succ {pnls : List α} {k : ℕ} {pnl : α} (h : pnls[k]? = some pnl) :
    equity pnls (k + 1) = equity pnls k + pnl := by
  simp [equity, List.take_add_one, h]

/-- A fold over a list, as the induction over its prefixes. -/
theorem foldl_prefix {β σ : Type} {f : σ → β → σ} {init : σ} {l : List β} {P : ℕ → σ → Prop} (h0 : P 0 init)
    (hstep : ∀ k s x, l[k]? = some x → P k s → P (k + 1) (f s x)) : P l.length (l.foldl f init) := by
  have hprefix : ∀ k ≤ l.length, P k ((l.take k).foldl f init) := by
    intro k hk
    induction k with
    | zero => simpa using h0
    | succ k ih =>
      obtain ⟨x, hx⟩ : ∃ x, l[k]? = some x := ⟨l[k], List.getElem?_eq_getElem hk⟩
      rw [List.take_add_one, hx, Option.toList_some, List.foldl_append, List.foldl_cons, List.foldl_nil]
      exact hstep k _ x hx (ih (by omega))
  simpa using hprefix l.length le_rfl

end Curve

/-! ### Peaks and falls -/

section Peak
variable {α : Type} [LinearOrder α] {e : ℕ → α} {a b : ℕ} {p : α}

def IsPeak (e : ℕ → α) (a b : ℕ) (p : α) : Prop := IsGreatest (e '' Set.Icc a b) p

theorem IsPeak.le (h : IsPeak e a b p) {k : ℕ} (ha : a ≤ k) (hb : k ≤ b) : e k ≤ p :=
  h.2 ⟨k, ⟨ha, hb⟩, rfl⟩

theorem isPeak_self (e : ℕ → α) (a : ℕ) : IsPeak e a a (e a) := by
  simp [IsPeak, isGreatest_singleton]

theorem IsPeak.succ (h : IsPeak e a b p) : IsPeak e a (b + 1) (max p (e (b + 1))) := by
  obtain ⟨i, ⟨hai, hib⟩, hi⟩ := h.1
  have hle : a ≤ b + 1 := by omega
  refine ⟨?_, ?_⟩
  · rcases max_choice p (e (b + 1)) with hm | hm
    · exact ⟨i, ⟨hai, by omega⟩, by rw [hi, hm]⟩
    · exact ⟨b + 1, ⟨hle, le_rfl⟩, hm.symm⟩
  · rintro - ⟨k, ⟨hak, hkb⟩, rfl⟩
    rcases Nat.lt_or_ge b k with hk | hk
    · rw [show k = b + 1 by omega]
      exact le_max_right _ _
    · exact (h.le hak hk).trans (le_max_left _ _)

end Peak

section Drawdown
variable {α : Type} [AddCommGroup α] [LinearOrder α] {e : ℕ → α} {a b : ℕ} {p d : α}

/-- The falls of the curve between two of its indices, the empty ones included. -/
def falls (e : ℕ → α) (a b : ℕ) : Set α := {d | ∃ i j, a ≤ i ∧ i ≤ j ∧ j ≤ b ∧ d = e i - e j}

def IsMaxDrawdown (e : ℕ → α) (a b : ℕ) (d : α) : Prop := IsGreatest (falls e a b) d

theorem IsMaxDrawdown.le (h : IsMaxDrawdown e a b d) {i j : ℕ} (ha : a ≤ i) (hij : i ≤ j) (hb : j ≤ b) :
    e i - e j ≤ d :=
  h.2 ⟨i, j, ha, hij, hb, rfl⟩

theorem IsMaxDrawdown.nonneg (h : IsMaxDrawdown e a b d) (hab : a ≤ b) : 0 ≤ d := by
  simpa using h.le le_rfl le_rfl hab

theorem isMaxDrawdown_self (e : ℕ → α) (a : ℕ) : IsMaxDrawdown e a a 0 := by
  refine ⟨⟨a, a, le_rfl, le_rfl, le_rfl, (sub_self _).symm⟩, ?_⟩
  rintro - ⟨i, j, ha, hij, hb, rfl⟩
  rw [show i = j by omega, sub_self]

variable [IsOrderedAddMonoid α]

/-- One step of the walk: the new point falls deepest from the peak. -/
theorem IsMaxDrawdown.succ (h : IsMaxDrawdown e a b d) (hp : IsPeak e a (b + 1) p) :
    IsMaxDrawdown e a (b + 1) (max d (p - e (b + 1))) := by
  obtain ⟨i, j, hai, hij, hjb, hd⟩ := h.1
  refine ⟨?_, ?_⟩
  · rcases max_choice d (p - e (b + 1)) with hm | hm
    · exact ⟨i, j, hai, hij, by omega, by rw [hm, hd]⟩
    · obtain ⟨⟨k, ⟨hak, hkb⟩, hk⟩, -⟩ := hp
      exact ⟨k, b + 1, hak, hkb, le_rfl, by rw [hm, hk]⟩
  · rintro - ⟨i', j', hai', hij', hjb', rfl⟩
    rcases Nat.lt_or_ge b j' with hj | hj
    · rw [show j' = b + 1 by omega]
      exact (sub_le_sub_right (hp.le hai' (by omega)) _).trans (le_max_right _ _)
    · exact (h.le hai' hij' hj).trans (le_max_left _ _)

theorem exists_isPeak_isMaxDrawdown (e : ℕ → α) (hab : a ≤ b) : ∃ p d, IsPeak e a b p ∧ IsMaxDrawdown e a b d := by
  induction b, hab using Nat.le_induction with
  | base => exact ⟨e a, 0, isPeak_self e a, isMaxDrawdown_self e a⟩
  | succ b hab ih =>
    obtain ⟨p, d, hp, hd⟩ := ih
    exact ⟨_, _, hp.succ, hd.succ hp.succ⟩

/-- The point from which a largest fall starts is the highest of those before its end. -/
theorem IsMaxDrawdown.isPeak {i j : ℕ} (h : IsMaxDrawdown e a b (e i - e j)) (ha : a ≤ i) (hij : i ≤ j) (hb : j ≤ b) :
    IsPeak e a j (e i) := by
  refine ⟨⟨i, ⟨ha, hij⟩, rfl⟩, ?_⟩
  rintro - ⟨k, ⟨hak, hkj⟩, rfl⟩
  exact sub_le_sub_iff_right (e j) |>.1 (h.le hak hkj hb)

omit [IsOrderedAddMonoid α] in
theorem IsMaxDrawdown.peak_sub_le (h : IsMaxDrawdown e a b d) {k : ℕ} (hp : IsPeak e a k p) (hb : k ≤ b) : p - e k ≤ d := by
  obtain ⟨i, ⟨hai, hik⟩, rfl⟩ := hp.1
  exact h.le hai hik hb

/-- A largest fall ends at some point, and is then the fall from the peak to it. -/
theorem IsMaxDrawdown.exists_peak_sub (h : IsMaxDrawdown e a b d) :
    ∃ k, a ≤ k ∧ k ≤ b ∧ ∀ p, IsPeak e a k p → p - e k = d := by
  obtain ⟨i, j, hai, hij, hjb, rfl⟩ := h.1
  refine ⟨j, by omega, hjb, ?_⟩
  intro p hp
  rw [hp.unique (h.isPeak hai hij hjb)]

omit [IsOrderedAddMonoid α] in
/-- Leaving out the first point keeps the largest fall exactly if no fall from that point is larger. -/
theorem IsMaxDrawdown.from_start_iff (h : IsMaxDrawdown e (a + 1) b d) :
    IsMaxDrawdown e a b d ↔ ∀ j, a ≤ j → j ≤ b → e a - e j ≤ d := by
  refine ⟨fun hd j haj hjb => hd.le le_rfl haj hjb, fun hstart => ⟨?_, ?_⟩⟩
  · obtain ⟨⟨i, j, hai, hij, hjb, hd⟩, -⟩ := h
    exact ⟨i, j, by omega, hij, hjb, hd⟩
  · rintro - ⟨i, j, hai, hij, hjb, rfl⟩
    rcases hai.eq_or_lt with rfl | hlt
    · exact hstart j hij hjb
    · exact h.le hlt hij hjb

end Drawdown

end Equity
