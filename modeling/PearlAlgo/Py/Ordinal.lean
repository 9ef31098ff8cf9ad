import PearlAlgo.Py.IsoFormat
import Mathlib.Order.Monotone.Basic

/-!
# Dates as days and as eight digits

`date.toordinal()`, the `days` of a difference of datetimes, and the format `%Y%m%d`. The texts of dates compare as
their days do (`strftime_lt_iff`), and parse to them (`strptime_strftime`).
-/

namespace Py

/-! ### Days -/

def daysBeforeYear (year : Nat) : Nat := 365 * (year - 1) + (year - 1) / 4 - (year - 1) / 100 + (year - 1) / 400

def daysBeforeMonth (year : Nat) : Nat → Nat
  | 0 => 0
  | month + 1 => daysBeforeMonth year month + if month = 0 then 0 else daysInMonth year month

theorem daysBeforeMonth_succ (year : Nat) {month : Nat} (h : 1 ≤ month) :
    daysBeforeMonth year (month + 1) = daysBeforeMonth year month + daysInMonth year month := by
  rw [daysBeforeMonth, if_neg (by omega)]

theorem daysBeforeMonth_mono (year : Nat) : Monotone (daysBeforeMonth year) :=
  monotone_nat_of_le_succ fun _ => Nat.le_add_right _ _

theorem daysBeforeMonth_thirteen (year : Nat) : daysBeforeMonth year 13 = if isLeap year then 366 else 365 := by
  cases h : isLeap year <;> simp [daysBeforeMonth, daysInMonth, h]

theorem daysBeforeYear_succ {year : Nat} (h : 1 ≤ year) :
    daysBeforeYear (year + 1) = daysBeforeYear year + if isLeap year then 366 else 365 := by
  obtain ⟨k, rfl⟩ := Nat.exists_eq_add_of_le' h
  have hle : k / 100 ≤ k / 4 := Nat.div_le_div_left (by omega) (by omega)
  simp only [daysBeforeYear, isLeap, decide_eq_true_eq, Nat.add_sub_cancel, Nat.succ_div, Nat.dvd_iff_mod_eq_zero]
  by_cases h4 : (k + 1) % 4 = 0 <;> by_cases h100 : (k + 1) % 100 = 0 <;> by_cases h400 : (k + 1) % 400 = 0 <;>
    simp [h4, h100, h400] <;> omega

theorem daysBeforeYear_mono : Monotone daysBeforeYear := by
  refine monotone_nat_of_le_succ fun year => ?_
  rcases Nat.eq_zero_or_pos year with rfl | hyear
  · simp [daysBeforeYear]
  · rw [daysBeforeYear_succ hyear]
    omega

namespace Date

def toordinal (d : Date) : Nat := daysBeforeYear d.year + daysBeforeMonth d.year d.month + d.day

variable {d e : Date}

theorem toordinal_le (d : Date) : d.toordinal ≤ daysBeforeYear d.year + daysBeforeMonth d.year (d.month + 1) := by
  have hday := d.dayRange
  have hmonth := daysBeforeMonth_succ d.year d.monthRange.1
  simp only [toordinal]
  omega

theorem toordinal_lt (h : d.year < e.year ∨ d.year = e.year ∧ (d.month < e.month ∨ d.month = e.month ∧ d.day < e.day)) :
    d.toordinal < e.toordinal := by
  have hd := d.toordinal_le
  have hday := e.dayRange
  rcases h with hyear | ⟨hyear, hmonth | ⟨hmonth, hlt⟩⟩
  · have hmonths : daysBeforeMonth d.year (d.month + 1) ≤ daysBeforeMonth d.year 13 := by
      have hrange := d.monthRange
      exact daysBeforeMonth_mono d.year (by omega)
    have hsucc := daysBeforeYear_succ d.yearRange.1
    have hyears : daysBeforeYear (d.year + 1) ≤ daysBeforeYear e.year := daysBeforeYear_mono hyear
    rw [daysBeforeMonth_thirteen] at hmonths
    simp only [toordinal] at hd ⊢
    omega
  · have hmonths : daysBeforeMonth d.year (d.month + 1) ≤ daysBeforeMonth d.year e.month := daysBeforeMonth_mono d.year hmonth
    simp only [toordinal, ← hyear] at hd ⊢
    omega
  · simp only [toordinal, ← hyear, ← hmonth]
    omega

/-! ### Eight digits -/

def ymd (d : Date) : List Char := padDigits 4 d.year ++ (padDigits 2 d.month ++ padDigits 2 d.day)

/-- `strftime("%Y%m%d")` -/
def strftime (d : Date) : String := String.ofList d.ymd

theorem ymd_lt_iff : d.ymd < e.ymd ↔
    d.year < e.year ∨ d.year = e.year ∧ (d.month < e.month ∨ d.month = e.month ∧ d.day < e.day) := by
  have hyear := d.yearRange
  have hyear' := e.yearRange
  have hmonth := d.monthRange
  have hmonth' := e.monthRange
  have hday := d.day_le
  have hday' := e.day_le
  rw [ymd, ymd, append_lt_append_iff (by simp), append_lt_append_iff (by simp), padDigits_lt_iff (by omega) (by omega),
    padDigits_lt_iff (by omega) (by omega), padDigits_lt_iff (by omega) (by omega), padDigits_eq_iff (by omega) (by omega),
    padDigits_eq_iff (by omega) (by omega)]

theorem strftime_lt_iff : d.strftime < e.strftime ↔ d.toordinal < e.toordinal := by
  show d.strftime.toList < e.strftime.toList ↔ _
  rw [strftime, strftime, String.toList_ofList, String.toList_ofList, ymd_lt_iff]
  constructor
  · exact toordinal_lt
  · intro hlt
    by_contra hnot
    rcases lt_trichotomy d.year e.year with hyear | hyear | hyear
    · omega
    · rcases lt_trichotomy d.month e.month with hmonth | hmonth | hmonth
      · omega
      · have hday : ¬ d.day < e.day := by omega
        simp only [toordinal, hyear, hmonth] at hlt
        omega
      · have hgt : e.toordinal < d.toordinal := toordinal_lt (.inr ⟨hyear.symm, .inl hmonth⟩)
        omega
    · have hgt : e.toordinal < d.toordinal := toordinal_lt (.inl hyear)
      omega

theorem strftime_le_iff : d.strftime ≤ e.strftime ↔ d.toordinal ≤ e.toordinal := by
  rw [← not_lt, strftime_lt_iff, not_lt]

theorem length_strftime (d : Date) : d.strftime.length = 8 := by
  simp [strftime, ymd]

end Date

def decimalValue (l : List Char) : Nat := l.foldl (fun n c => 10 * n + (c.toNat - 48)) 0

def dateOfFields (year month day : Nat) : Option Date :=
  if h : (1 ≤ year ∧ year ≤ 9999) ∧ (1 ≤ month ∧ month ≤ 12) ∧ 1 ≤ day ∧ day ≤ daysInMonth year month then
    some ⟨year, month, day, h.1, h.2.1, h.2.2⟩
  else none

/-- `strptime(text, "%Y%m%d")` for texts of eight ASCII digits. -/
def strptime (text : String) : Option Date :=
  let l := text.toList
  if l.length = 8 ∧ l.all Char.isDigit then
    dateOfFields (decimalValue (l.take 4)) (decimalValue ((l.drop 4).take 2)) (decimalValue (l.drop 6))
  else none

theorem digitChar_toNat {n : Nat} (h : n < 10) : (Nat.digitChar n).isDigit ∧ (Nat.digitChar n).toNat - 48 = n := by
  have hall : ∀ n : Fin 10, (Nat.digitChar n).isDigit ∧ (Nat.digitChar n).toNat - 48 = n := by decide
  exact hall ⟨n, h⟩

theorem isDigit_of_mem_padDigits {width n : Nat} {c : Char} (h : c ∈ padDigits width n) : c.isDigit := by
  induction width generalizing n with
  | zero => cases h
  | succ width ih =>
    rw [padDigits, List.mem_append, List.mem_singleton] at h
    rcases h with h | rfl
    · exact ih h
    · exact (digitChar_toNat (Nat.mod_lt n (by omega))).1

theorem decimalValue_padDigits {width n : Nat} (h : n < 10 ^ width) : decimalValue (padDigits width n) = n := by
  induction width generalizing n with
  | zero =>
    simp only [pow_zero, Nat.lt_one_iff] at h
    simp [padDigits, decimalValue, h]
  | succ width ih =>
    rw [pow_succ] at h
    have hinit := ih (n := n / 10) (by omega)
    have hlast := (digitChar_toNat (Nat.mod_lt n (by omega) : n % 10 < 10)).2
    simp only [decimalValue] at hinit ⊢
    rw [padDigits, List.foldl_append, hinit, List.foldl_cons, List.foldl_nil, hlast]
    omega

theorem strptime_strftime (d : Date) : strptime d.strftime = some d := by
  have hyear : d.year < 10 ^ 4 := by have h := d.yearRange; omega
  have hmonth : d.month < 10 ^ 2 := by have h := d.monthRange; omega
  have hday : d.day < 10 ^ 2 := by have h := d.day_le; omega
  have hdigits : d.ymd.all Char.isDigit := by
    rw [List.all_eq_true]
    intro c hc
    simp only [Date.ymd, List.mem_append] at hc
    rcases hc with hc | hc | hc <;> exact isDigit_of_mem_padDigits hc
  have htake : d.ymd.take 4 = padDigits 4 d.year := List.take_left' (by simp)
  have hdrop : d.ymd.drop 4 = padDigits 2 d.month ++ padDigits 2 d.day := List.drop_left' (by simp)
  have hdrop' : d.ymd.drop 6 = padDigits 2 d.day := by
    rw [show 6 = 4 + 2 from rfl, ← List.drop_drop, hdrop]
    exact List.drop_left' (by simp)
  have hlength : d.ymd.length = 8 := by simp [Date.ymd]
  simp only [strptime, Date.strftime, String.toList_ofList]
  rw [if_pos ⟨hlength, hdigits⟩, htake, hdrop, hdrop', List.take_left' (by simp), decimalValue_padDigits hyear,
    decimalValue_padDigits hmonth, decimalValue_padDigits hday, dateOfFields, dif_pos ⟨d.yearRange, d.monthRange, d.dayRange⟩]

/-! ### Differences -/

def dayMicros : Int := 86400000000

/-- Microseconds since the day before all dates. -/
def NaiveDatetime.micros (t : NaiveDatetime) : Int :=
  t.date.toordinal * dayMicros + (((t.hour * 60 + t.minute) * 60 + t.second) * 1000000 + t.microsecond : Nat)

/-- `(d - t).days` for midnight on a date. -/
def Date.daysAfter (d : Date) (t : NaiveDatetime) : Int := (d.toordinal * dayMicros - t.micros) / dayMicros

variable {d e : Date} {t : NaiveDatetime}

theorem Date.daysAfter_mono (h : d.toordinal ≤ e.toordinal) : d.daysAfter t ≤ e.daysAfter t := by
  refine Int.ediv_le_ediv (by simp [dayMicros]) ?_
  simp only [dayMicros]
  omega

end Py
