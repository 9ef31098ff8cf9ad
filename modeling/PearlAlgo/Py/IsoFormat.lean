import Mathlib.Data.String.Basic

/-!
# ISO texts of datetimes

Dates of the proleptic Gregorian calendar, naive datetimes, and their `isoformat`. The texts compare as the fields do.
-/

namespace Py

/-- Lexicographic order of texts that start with parts of one length. -/
theorem append_lt_append_iff {α : Type} [LinearOrder α] {a b x y : List α} (h : a.length = b.length) :
    a ++ x < b ++ y ↔ a < b ∨ a = b ∧ x < y := by
  induction a generalizing b with
  | nil =>
    obtain rfl : b = [] := List.length_eq_zero_iff.1 h.symm
    simp
  | cons c a ih =>
    rcases b with _ | ⟨d, b⟩
    · cases h
    · have hlength : a.length = b.length := Nat.succ.inj h
      rw [List.cons_append, List.cons_append, List.cons_lt_cons_iff, List.cons_lt_cons_iff, ih hlength, List.cons.injEq]
      constructor
      · rintro (hc | ⟨hc, ha | ⟨ha, hx⟩⟩)
        · exact Or.inl (Or.inl hc)
        · exact Or.inl (Or.inr ⟨hc, ha⟩)
        · exact Or.inr ⟨⟨hc, ha⟩, hx⟩
      · rintro ((hc | ⟨hc, ha⟩) | ⟨⟨hc, ha⟩, hx⟩)
        · exact Or.inl hc
        · exact Or.inr ⟨hc, Or.inl ha⟩
        · exact Or.inr ⟨hc, Or.inr ⟨ha, hx⟩⟩

/-! ### Numbers of a fixed width -/

def padDigits : Nat → Nat → List Char
  | 0, _ => []
  | width + 1, n => padDigits width (n / 10) ++ [Nat.digitChar (n % 10)]

@[simp] theorem padDigits_length (width n : Nat) : (padDigits width n).length = width := by
  induction width generalizing n with
  | zero => rfl
  | succ width ih => simp [padDigits, ih]

theorem digitChar_lt {m n : Nat} (hm : m < 10) (hn : n < 10) : Nat.digitChar m < Nat.digitChar n ↔ m < n := by
  have h : ∀ m n : Fin 10, Nat.digitChar m < Nat.digitChar n ↔ m < n := by decide
  exact h ⟨m, hm⟩ ⟨n, hn⟩

theorem digitChar_inj {m n : Nat} (hm : m < 10) (hn : n < 10) : Nat.digitChar m = Nat.digitChar n ↔ m = n := by
  have h : ∀ m n : Fin 10, Nat.digitChar m = Nat.digitChar n ↔ m = n := by decide
  have h' := h ⟨m, hm⟩ ⟨n, hn⟩
  rwa [Fin.mk.injEq] at h'

theorem padDigits_eq_iff {width m n : Nat} (hm : m < 10 ^ width) (hn : n < 10 ^ width) :
    padDigits width m = padDigits width n ↔ m = n := by
  induction width generalizing m n with
  | zero =>
    simp only [pow_zero, Nat.lt_one_iff] at hm hn
    simp [hm, hn]
  | succ width ih =>
    rw [pow_succ] at hm hn
    have hdigit := digitChar_inj (Nat.mod_lt m (by omega)) (Nat.mod_lt n (by omega) : n % 10 < 10)
    have hinit : padDigits width (m / 10) = padDigits width (n / 10) ↔ m / 10 = n / 10 := ih (by omega) (by omega)
    rw [padDigits, padDigits]
    constructor
    · intro h
      obtain ⟨hinit', hlast⟩ := List.append_inj h (by simp)
      have h1 := hinit.1 hinit'
      have h2 := hdigit.1 (List.singleton_inj.1 hlast)
      omega
    · rintro rfl
      rfl

theorem padDigits_lt_iff {width m n : Nat} (hm : m < 10 ^ width) (hn : n < 10 ^ width) :
    padDigits width m < padDigits width n ↔ m < n := by
  induction width generalizing m n with
  | zero =>
    simp only [pow_zero, Nat.lt_one_iff] at hm hn
    simp [hm, hn]
  | succ width ih =>
    rw [pow_succ] at hm hn
    have hdigit := digitChar_lt (Nat.mod_lt m (by omega)) (Nat.mod_lt n (by omega) : n % 10 < 10)
    have hm' : m / 10 < 10 ^ width := by omega
    have hn' : n / 10 < 10 ^ width := by omega
    rw [padDigits, padDigits, append_lt_append_iff (by simp), ih hm' hn', padDigits_eq_iff hm' hn', List.cons_lt_cons_iff,
      hdigit]
    simp only [List.not_lt_nil, and_false, or_false]
    omega

/-! ### Dates and datetimes -/

def isLeap (year : Nat) : Bool := year % 4 = 0 ∧ (year % 100 ≠ 0 ∨ year % 400 = 0)

def daysInMonth (year month : Nat) : Nat :=
  if month = 2 then if isLeap year then 29 else 28
  else if month = 4 ∨ month = 6 ∨ month = 9 ∨ month = 11 then 30
  else 31

theorem daysInMonth_pos (year month : Nat) : 1 ≤ daysInMonth year month := by
  unfold daysInMonth
  split_ifs <;> omega

structure Date where
  year : Nat
  month : Nat
  day : Nat
  yearRange : 1 ≤ year ∧ year ≤ 9999
  monthRange : 1 ≤ month ∧ month ≤ 12
  dayRange : 1 ≤ day ∧ day ≤ daysInMonth year month
deriving DecidableEq

theorem Date.day_le (d : Date) : d.day ≤ 31 := by
  have h := d.dayRange.2
  unfold daysInMonth at h
  split_ifs at h <;> omega

/-- `- timedelta(days=1)`; `none` on the first date of all. -/
def Date.yesterday (d : Date) : Option Date :=
  if hd : 1 < d.day then
    some { d with day := d.day - 1, dayRange := by have h := d.dayRange; omega }
  else if hm : 1 < d.month then
    some { d with
      month := d.month - 1, day := daysInMonth d.year (d.month - 1), monthRange := by have h := d.monthRange; omega,
      dayRange := ⟨daysInMonth_pos _ _, le_rfl⟩ }
  else if hy : 1 < d.year then
    some { year := d.year - 1, month := 12, day := 31, yearRange := by have h := d.yearRange; omega,
           monthRange := by omega, dayRange := by simp [daysInMonth] }
  else none

structure NaiveDatetime where
  date : Date
  hour : Nat
  minute : Nat
  second : Nat
  microsecond : Nat
  hourRange : hour < 24
  minuteRange : minute < 60
  secondRange : second < 60
  microsecondRange : microsecond < 1000000
deriving DecidableEq

namespace NaiveDatetime

def toSeconds (t : NaiveDatetime) : List Nat :=
  [t.date.year, t.date.month, t.date.day, t.hour, t.minute, t.second]

/-- Naive datetimes compare by their fields. -/
instance instLT : LT NaiveDatetime := ⟨fun t u => t.toSeconds ++ [t.microsecond] < u.toSeconds ++ [u.microsecond]⟩

instance decidableLt (t u : NaiveDatetime) : Decidable (t < u) :=
  inferInstanceAs (Decidable (t.toSeconds ++ [t.microsecond] < u.toSeconds ++ [u.microsecond]))

theorem lt_iff {t u : NaiveDatetime} : t < u ↔
    t.toSeconds < u.toSeconds ∨ t.toSeconds = u.toSeconds ∧ t.microsecond < u.microsecond := by
  show t.toSeconds ++ [t.microsecond] < u.toSeconds ++ [u.microsecond] ↔ _
  rw [append_lt_append_iff (a := t.toSeconds) (b := u.toSeconds) rfl, List.cons_lt_cons_iff]
  simp only [List.not_lt_nil, and_false, or_false]

/-- `YYYY-MM-DDTHH:MM:SS` -/
def secondsText (t : NaiveDatetime) : List Char :=
  padDigits 4 t.date.year ++ '-' :: (padDigits 2 t.date.month ++ '-' :: (padDigits 2 t.date.day ++ 'T' ::
    (padDigits 2 t.hour ++ ':' :: (padDigits 2 t.minute ++ ':' :: padDigits 2 t.second))))

def fractionText (t : NaiveDatetime) : List Char :=
  if t.microsecond = 0 then [] else '.' :: padDigits 6 t.microsecond

def isoformat (t : NaiveDatetime) : String := String.ofList (t.secondsText ++ t.fractionText)

/-- `isoformat()` of the UTC datetime with these fields. -/
def isoformatUtc (t : NaiveDatetime) : String := String.ofList (t.secondsText ++ t.fractionText ++ "+00:00".toList)

variable {t u : NaiveDatetime}

theorem field_lt_iff {width m n : Nat} {c : Char} {x y : List Char} (hm : m < 10 ^ width) (hn : n < 10 ^ width) :
    padDigits width m ++ c :: x < padDigits width n ++ c :: y ↔ m < n ∨ m = n ∧ x < y := by
  rw [append_lt_append_iff (by simp), padDigits_lt_iff hm hn, padDigits_eq_iff hm hn, List.cons_lt_cons_iff]
  simp

theorem secondsText_lt_iff {x y : List Char} : t.secondsText ++ x < u.secondsText ++ y ↔
    t.toSeconds < u.toSeconds ∨ t.toSeconds = u.toSeconds ∧ x < y := by
  obtain ⟨dt, hour, minute, second, _, hhour, hminute, hsecond, _⟩ := t
  obtain ⟨du, hour', minute', second', _, hhour', hminute', hsecond', _⟩ := u
  have hyear := dt.yearRange
  have hyear' := du.yearRange
  have hmonth := dt.monthRange
  have hmonth' := du.monthRange
  have hday := dt.day_le
  have hday' := du.day_le
  simp only [secondsText, toSeconds, List.append_assoc, List.cons_append]
  rw [field_lt_iff (by omega) (by omega), field_lt_iff (by omega) (by omega), field_lt_iff (by omega) (by omega),
    field_lt_iff (by omega) (by omega), field_lt_iff (by omega) (by omega), append_lt_append_iff (by simp),
    padDigits_lt_iff (by omega) (by omega), padDigits_eq_iff (by omega) (by omega)]
  simp only [List.cons_lt_cons_iff, List.not_lt_nil, and_false, or_false, List.cons.injEq, and_true]
  simp only [and_or_left, or_assoc, and_assoc]

/-- A UTC text of whole seconds is at most a naive text when its fields come before. -/
theorem isoformatUtc_le_isoformat (ht : t.microsecond = 0) : t.isoformatUtc ≤ u.isoformat ↔ t < u := by
  show ¬ (u.isoformat.toList < t.isoformatUtc.toList) ↔ t < u
  have hfraction : t.fractionText = [] := if_pos ht
  have hsuffix : u.fractionText < "+00:00".toList ↔ u.microsecond = 0 := by
    unfold fractionText
    split
    next hu => simp [hu]
    next hu => simp [hu, List.cons_lt_cons_iff]
  rw [isoformat, isoformatUtc, String.toList_ofList, String.toList_ofList, hfraction, List.append_nil, secondsText_lt_iff,
    hsuffix, lt_iff, ht]
  rcases lt_trichotomy t.toSeconds u.toSeconds with hlt | heq | hgt
  · exact iff_of_true (by rintro (h | h); exacts [lt_asymm hlt h, hlt.ne' h.1]) (Or.inl hlt)
  · rw [heq]
    simp [Nat.pos_iff_ne_zero]
  · exact iff_of_false (fun h => h (Or.inl hgt)) (by rintro (h | h); exacts [lt_asymm hgt h, hgt.ne' h.1])

end NaiveDatetime

end Py
