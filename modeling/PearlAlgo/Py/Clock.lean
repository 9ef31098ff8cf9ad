import PearlAlgo.Py.Ordinal
import Mathlib.Data.Nat.Find

/-!
# Dates of ordinals, and what clocks show

An instant, and what a clock shows, is in microseconds since the day before all dates. A date is of a year from 1 to
9999, and arithmetic that leaves these years raises.
-/

namespace Py

inductive Raised
  | attributeError
  | typeError
  | valueError
  | overflowError
deriving DecidableEq

/-! ### Dates -/

theorem dateOfFields_eq_some {year month day : Nat} {d : Date} :
    dateOfFields year month day = some d ↔ d.year = year ∧ d.month = month ∧ d.day = day := by
  unfold dateOfFields
  constructor
  · intro h
    split at h
    · cases h
      exact ⟨rfl, rfl, rfl⟩
    · cases h
  · rintro ⟨rfl, rfl, rfl⟩
    rw [dif_pos ⟨d.yearRange, d.monthRange, d.dayRange⟩]

namespace Date

/-- Monday is 0. -/
def weekday (d : Date) : Nat := (d.toordinal + 6) % 7

def fromordinal (n : Nat) : Option Date :=
  let year := Nat.findGreatest (fun year => daysBeforeYear year < n) (n / 365 + 1)
  let rest := n - daysBeforeYear year
  let month := Nat.findGreatest (fun month => daysBeforeMonth year month < rest) 12
  dateOfFields year month (rest - daysBeforeMonth year month)

/-- `+ timedelta(days=k)`; `none` where it raises. -/
def addDays (d : Date) (k : Int) : Option Date := fromordinal (d.toordinal + k).toNat

variable {d e : Date} {n : Nat}

theorem ext_fields (hyear : d.year = e.year) (hmonth : d.month = e.month) (hday : d.day = e.day) : d = e := by
  cases d
  cases e
  simp_all

theorem toordinal_inj (h : d.toordinal = e.toordinal) : d = e := by
  have hle : ¬ d.toordinal < e.toordinal := by omega
  have hge : ¬ e.toordinal < d.toordinal := by omega
  have hlt := mt (toordinal_lt (d := d) (e := e)) hle
  have hgt := mt (toordinal_lt (d := e) (e := d)) hge
  have hyear : d.year = e.year := by omega
  have hmonth : d.month = e.month := by omega
  exact ext_fields hyear hmonth (by omega)

theorem toordinal_pos (d : Date) : 1 ≤ d.toordinal := by
  have hday := d.dayRange
  simp only [toordinal]
  omega

theorem toordinal_le_max (d : Date) : d.toordinal ≤ 3652059 := by
  have hle := d.toordinal_le
  have hmonths : daysBeforeMonth d.year (d.month + 1) ≤ daysBeforeMonth d.year 13 := by
    have hrange := d.monthRange
    exact daysBeforeMonth_mono d.year (by omega)
  have hyears : daysBeforeYear (d.year + 1) ≤ daysBeforeYear 10000 := by
    have hrange := d.yearRange
    exact daysBeforeYear_mono (by omega)
  have hsucc := daysBeforeYear_succ d.yearRange.1
  have hmax : daysBeforeYear 10000 = 3652059 := by decide
  rw [daysBeforeMonth_thirteen] at hmonths
  omega

/-- The step of a sequence on which a number lies. -/
theorem exists_step {f : Nat → Nat} {k : Nat} (hk : 1 ≤ k) (hfirst : f 1 < n) (hlast : n ≤ f (k + 1)) :
    ∃ m, (1 ≤ m ∧ m ≤ k) ∧ f m < n ∧ n ≤ f (m + 1) := by
  refine ⟨Nat.findGreatest (fun m => f m < n) k, ⟨Nat.le_findGreatest hk hfirst, Nat.findGreatest_le _⟩, ?_, ?_⟩
  · exact Nat.findGreatest_spec (P := fun m => f m < n) hk hfirst
  · rcases (Nat.findGreatest_le (P := fun m => f m < n) k).lt_or_eq with hlt | heq
    · exact Nat.not_lt.1 (Nat.findGreatest_is_greatest (P := fun m => f m < n) (Nat.lt_succ_self _) hlt)
    · rw [heq]
      exact hlast

theorem exists_toordinal (hpos : 1 ≤ n) (hmax : n ≤ 3652059) : ∃ d : Date, d.toordinal = n := by
  have hfirst : daysBeforeYear 1 = 0 := by decide
  have hlast : daysBeforeYear 10000 = 3652059 := by decide
  obtain ⟨year, hyear, hlt, hle⟩ :=
    exists_step (f := daysBeforeYear) (k := 9999) (n := n) (by omega) (by omega) (hmax.trans hlast.ge)
  rw [daysBeforeYear_succ hyear.1, ← daysBeforeMonth_thirteen] at hle
  have hone : daysBeforeMonth year 1 = 0 := by simp [daysBeforeMonth]
  obtain ⟨month, hmonth, hlt', hle'⟩ :=
    exists_step (f := daysBeforeMonth year) (k := 12) (n := n - daysBeforeYear year) (by omega) (by omega)
      (Nat.sub_le_iff_le_add'.2 hle)
  rw [daysBeforeMonth_succ year hmonth.1] at hle'
  refine ⟨⟨year, month, n - daysBeforeYear year - daysBeforeMonth year month, hyear, hmonth, by omega, by omega⟩, ?_⟩
  simp only [toordinal]
  omega

theorem fromordinal_eq_some : fromordinal n = some d ↔ d.toordinal = n := by
  unfold fromordinal
  dsimp only
  constructor
  · intro h
    obtain ⟨hyear, hmonth, hday⟩ := dateOfFields_eq_some.1 h
    have hyears := Nat.findGreatest_of_ne_zero hyear.symm (by have hrange := d.yearRange; omega)
    rw [← hyear] at hmonth hday
    have hmonths := Nat.findGreatest_of_ne_zero hmonth.symm (by have hrange := d.monthRange; omega)
    rw [← hmonth] at hday
    simp only [toordinal]
    omega
  · rintro rfl
    have hle := d.toordinal_le
    have hday := d.dayRange
    have hmonthRange := d.monthRange
    have hmonths : daysBeforeMonth d.year (d.month + 1) ≤ daysBeforeMonth d.year 13 :=
      daysBeforeMonth_mono d.year (by omega)
    have hsucc := daysBeforeYear_succ d.yearRange.1
    rw [daysBeforeMonth_thirteen] at hmonths
    have hyear : Nat.findGreatest (fun year => daysBeforeYear year < d.toordinal) (d.toordinal / 365 + 1) = d.year := by
      refine Nat.findGreatest_eq_iff.2 ⟨?_, fun _ => ?_, fun year hlt _ => ?_⟩
      · simp only [toordinal, daysBeforeYear]
        omega
      · simp only [toordinal]
        omega
      · have hmono : daysBeforeYear (d.year + 1) ≤ daysBeforeYear year := daysBeforeYear_mono hlt
        omega
    rw [hyear]
    have hmonth : Nat.findGreatest (fun month => daysBeforeMonth d.year month < d.toordinal - daysBeforeYear d.year) 12 =
        d.month := by
      refine Nat.findGreatest_eq_iff.2 ⟨hmonthRange.2, fun _ => ?_, fun month hlt _ => ?_⟩
      · simp only [toordinal]
        omega
      · have hmono : daysBeforeMonth d.year (d.month + 1) ≤ daysBeforeMonth d.year month :=
          daysBeforeMonth_mono d.year hlt
        omega
    rw [hmonth]
    refine dateOfFields_eq_some.2 ⟨rfl, rfl, ?_⟩
    simp only [toordinal]
    omega

theorem addDays_eq_some {k : Int} : d.addDays k = some e ↔ (e.toordinal : Int) = d.toordinal + k := by
  have hpos := e.toordinal_pos
  rw [addDays, fromordinal_eq_some]
  omega

/-- Within a month only the day moves. -/
theorem addDays_within {k : Int} (hpos : 1 ≤ d.day + k) (hle : d.day + k ≤ daysInMonth d.year d.month) :
    ∃ e, d.addDays k = some e ∧ e.year = d.year ∧ e.month = d.month ∧ (e.day : Int) = d.day + k := by
  refine ⟨⟨d.year, d.month, (d.day + k).toNat, d.yearRange, d.monthRange, by omega⟩, ?_, rfl, rfl, ?_⟩
  · rw [addDays_eq_some]
    simp only [toordinal]
    omega
  · dsimp only
    omega

/-- Within a year the year stays. -/
theorem addDays_sameYear {k : Int} (hpos : 1 ≤ daysBeforeMonth d.year d.month + d.day + k)
    (hle : daysBeforeMonth d.year d.month + d.day + k ≤ daysBeforeMonth d.year 13) :
    ∃ e, d.addDays k = some e ∧ e.year = d.year := by
  obtain ⟨n, hn⟩ : ∃ n : Nat, (n : Int) = daysBeforeMonth d.year d.month + d.day + k := ⟨_, Int.toNat_of_nonneg (by omega)⟩
  have hone : daysBeforeMonth d.year 1 = 0 := by simp [daysBeforeMonth]
  obtain ⟨month, hmonth, hlt, hle'⟩ := exists_step (f := daysBeforeMonth d.year) (k := 12) (n := n) (by omega) (by omega)
    (by rw [← hn] at hle; exact Int.ofNat_le.1 hle)
  rw [daysBeforeMonth_succ d.year hmonth.1] at hle'
  refine ⟨⟨d.year, month, n - daysBeforeMonth d.year month, d.yearRange, hmonth, by omega⟩, ?_, rfl⟩
  rw [addDays_eq_some]
  simp only [toordinal]
  omega

theorem weekday_lt (d : Date) : d.weekday < 7 := Nat.mod_lt _ (by omega)

end Date

/-! ### Instants -/

def hourMicros : Int := 3600000000

/-- Within the years that dates have. -/
def Representable (t : Int) : Prop := dayMicros ≤ t ∧ t < 3652060 * dayMicros

instance Representable.decidable (t : Int) : Decidable (Representable t) :=
  inferInstanceAs (Decidable (dayMicros ≤ t ∧ t < 3652060 * dayMicros))

/-- `.date()`; `none` where there is no such datetime. -/
def dateOf (w : Int) : Option Date := Date.fromordinal (w / dayMicros).toNat

/-- `.time()`, from midnight -/
def timeOf (w : Int) : Int := w % dayMicros

/-- What its clock shows, and the offset that its `tzinfo` gives. -/
structure Datetime where
  clock : NaiveDatetime
  utcoffset : Option Int

/-- `datetime(...)` -/
def datetimeOfFields (date : Date) (hour minute second microsecond : Nat) : Option NaiveDatetime :=
  if h : hour < 24 ∧ minute < 60 ∧ second < 60 ∧ microsecond < 1000000 then
    some ⟨date, hour, minute, second, microsecond, h.1, h.2.1, h.2.2.1, h.2.2.2⟩
  else none

variable {w : Int} {d : Date}

theorem dateOf_eq_some : dateOf w = some d ↔ w / dayMicros = d.toordinal := by
  have hpos := d.toordinal_pos
  rw [dateOf, Date.fromordinal_eq_some]
  omega

theorem exists_dateOf (h : Representable w) : ∃ d, dateOf w = some d := by
  obtain ⟨hmin, hmax⟩ := h
  simp only [dayMicros] at hmin hmax
  obtain ⟨d, hd⟩ := Date.exists_toordinal (n := (w / dayMicros).toNat) (by simp only [dayMicros]; omega)
    (by simp only [dayMicros]; omega)
  exact ⟨d, Date.fromordinal_eq_some.2 hd⟩

theorem representable_of_dateOf (h : dateOf w = some d) : Representable w := by
  have hpos := d.toordinal_pos
  have hmax := d.toordinal_le_max
  rw [dateOf_eq_some] at h
  simp only [Representable, dayMicros] at h ⊢
  omega

/-- The days decide. -/
theorem representable_iff : Representable w ↔ 1 ≤ w / dayMicros ∧ w / dayMicros < 3652060 := by
  simp only [Representable, dayMicros]
  omega

theorem timeOf_nonneg (w : Int) : 0 ≤ timeOf w := Int.emod_nonneg _ (by simp [dayMicros])

theorem timeOf_lt (w : Int) : timeOf w < dayMicros := Int.emod_lt_of_pos _ (by simp [dayMicros])

end Py
