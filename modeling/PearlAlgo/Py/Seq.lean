import Mathlib.Data.List.Sort

/-!
# Sequences

Slices from the end of a list and from the start of a string, `sorted`, and `str.strip`.
-/

namespace Py

variable {α : Type}

/-- `l[-n:]`; `l[-0:]` is all of `l`. -/
def lastN (n : Nat) (l : List α) : List α := if n = 0 then l else l.drop (l.length - n)

@[simp] theorem lastN_nil (n : Nat) : lastN n ([] : List α) = [] := by
  unfold lastN
  split
  · rfl
  · exact List.drop_nil

theorem lastN_lastN {n m : Nat} (hn : 0 < n) (hle : n ≤ m) (l : List α) : lastN n (lastN m l) = lastN n l := by
  unfold lastN
  rw [if_neg (by omega), if_neg (by omega), if_neg (by omega), List.drop_drop, List.length_drop]
  congr 1
  omega

theorem mem_of_mem_lastN {n : Nat} {l : List α} {a : α} (h : a ∈ lastN n l) : a ∈ l := by
  unfold lastN at h
  split at h
  · exact h
  · exact List.mem_of_mem_drop h

theorem lastN_ne_nil {n : Nat} {l : List α} (hn : 0 < n) (hl : l ≠ []) : lastN n l ≠ [] := by
  have hlen := List.length_pos_iff.2 hl
  unfold lastN
  rw [if_neg (by omega), Ne, List.drop_eq_nil_iff]
  omega

theorem length_lastN_le {n : Nat} (hn : 0 < n) (l : List α) : (lastN n l).length ≤ n := by
  unfold lastN
  rw [if_neg (by omega), List.length_drop]
  omega

/-- `if len(l) > n: del l[:-n]` -/
def trimTo (n : Nat) (l : List α) : List α := if n < l.length then lastN n l else l

theorem trimTo_zero (l : List α) : trimTo 0 l = l := by
  unfold trimTo lastN
  split <;> rfl

theorem trimTo_eq_drop {n : Nat} (hn : n ≠ 0) (l : List α) : trimTo n l = l.drop (l.length - n) := by
  unfold trimTo lastN
  split
  · rfl
  next h => rw [Nat.sub_eq_zero_of_le (Nat.not_lt.1 h), List.drop_zero]

/-- Trimming after every append leaves what one trim at the end leaves. -/
theorem trimTo_append (n : Nat) (l : List α) (a : α) : trimTo n (trimTo n l ++ [a]) = trimTo n (l ++ [a]) := by
  by_cases hn : n = 0
  · subst hn
    simp only [trimTo_zero]
  · simp only [trimTo_eq_drop hn, List.length_append, List.length_drop, List.length_singleton]
    rcases Nat.lt_or_ge l.length n with h | h
    · rw [Nat.sub_eq_zero_of_le (Nat.le_of_lt h), List.drop_zero]
      rfl
    · have hlen : l.length - (l.length - n) + 1 - n = 1 := by omega
      have hpos : 1 ≤ (l.drop (l.length - n)).length := by rw [List.length_drop]; omega
      have hlast : l.length + 1 - n = l.length - n + 1 := by omega
      rw [hlen, hlast, List.drop_append_of_le_length hpos, List.drop_drop,
        List.drop_append_of_le_length (by omega)]

theorem lastN_trimTo {n m : Nat} (hn : 0 < n) (hle : n ≤ m) (l : List α) : lastN n (trimTo m l) = lastN n l := by
  unfold trimTo
  split
  · exact lastN_lastN hn hle l
  · rfl

theorem le_length_trimTo {n m : Nat} (hm : 0 < m) (hle : n ≤ m) {l : List α} : n ≤ (trimTo m l).length ↔ n ≤ l.length := by
  rw [trimTo_eq_drop (by omega), List.length_drop]
  omega

theorem forall_mem_concat {P : α → Prop} {l : List α} {a : α} (hl : ∀ b ∈ l, P b) (ha : P a) : ∀ b ∈ l ++ [a], P b := by
  intro b hb
  rcases List.mem_append.1 hb with hb | hb
  · exact hl b hb
  · rw [List.mem_singleton.1 hb]
    exact ha

theorem findRev?_concat (p : α → Bool) (l : List α) (a : α) :
    (l ++ [a]).findRev? p = if p a then some a else l.findRev? p := by
  rw [List.findRev?_eq_find?_reverse, List.findRev?_eq_find?_reverse, List.reverse_append, List.reverse_singleton,
    List.singleton_append, List.find?_cons]
  cases p a <;> rfl

/-- `s[:n]` -/
def head (n : Nat) (s : String) : String := String.ofList (s.toList.take n)

/-- `c.isspace()` -/
def isSpace (c : Char) : Bool :=
  let n := c.toNat
  (9 ≤ n ∧ n ≤ 13) ∨ (28 ≤ n ∧ n ≤ 32) ∨ n = 0x85 ∨ n = 0xa0 ∨ n = 0x1680 ∨ (0x2000 ≤ n ∧ n ≤ 0x200a) ∨
    n = 0x2028 ∨ n = 0x2029 ∨ n = 0x202f ∨ n = 0x205f ∨ n = 0x3000

def strip (s : String) : String :=
  String.ofList (((s.toList.dropWhile isSpace).reverse.dropWhile isSpace).reverse)

/-- The value of digits with single underscores between them. -/
def digitsValue (acc : Nat) (afterDigit : Bool) : List Char → Option Nat
  | [] => if afterDigit then some acc else none
  | c :: l =>
    if c.isDigit then digitsValue (10 * acc + (c.toNat - 48)) true l
    else if c = '_' ∧ afterDigit then digitsValue acc false l
    else none

/-- `int(s)` for ASCII digits. -/
def intOfText (s : String) : Option Int :=
  match (strip s).toList with
  | '-' :: l => (digitsValue 0 false l).map fun n => -n
  | '+' :: l => (digitsValue 0 false l).map fun n => n
  | l => (digitsValue 0 false l).map fun n => n

/-- `t in s` -/
def isIn (t s : String) : Bool := s.toList.tails.any fun l => t.toList.isPrefixOf l

/-- `sorted(l, key=key)`, which is stable. -/
def sortedBy {κ : Type} [LinearOrder κ] (key : α → κ) (l : List α) : List α := l.insertionSort fun a b => key a ≤ key b

section
variable {κ : Type} [LinearOrder κ] {key : α → κ} {l : List α} {a : α}

@[simp] theorem mem_sortedBy : a ∈ sortedBy key l ↔ a ∈ l := (List.perm_insertionSort _ l).mem_iff

@[simp] theorem length_sortedBy : (sortedBy key l).length = l.length := (List.perm_insertionSort _ l).length_eq

theorem pairwise_sortedBy : (sortedBy key l).Pairwise fun a b => key a ≤ key b := by
  have : Std.Total fun a b => key a ≤ key b := ⟨fun a b => le_total (key a) (key b)⟩
  have : IsTrans α fun a b => key a ≤ key b := ⟨fun a b c => le_trans⟩
  exact List.pairwise_insertionSort _ l

theorem sortedBy_congr {key' : α → κ} (h : ∀ a ∈ l, key a = key' a) : sortedBy key l = sortedBy key' l := by
  have hmap : (sortedBy key l).map id = sortedBy key' (l.map id) :=
    List.map_insertionSort _ _ id l fun a ha b hb => by rw [id, id, h a ha, h b hb]
  simpa using hmap

end

end Py
