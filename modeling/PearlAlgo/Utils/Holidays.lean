import PearlAlgo.Py.Clock
import PearlAlgo.Py.Dict

/-!
# Holidays and early closes of a year (`utils/market_hours.py`)

The dates of a year are found for every year that dates have. One of them can be in the year before: the New Year
that falls on a Saturday is observed on Friday 31 December.
-/

namespace PearlAlgo.MarketHours
open Py

/-! ### Dates of a year -/

def getNthWeekdayOfMonth (year month weekday n : Nat) : Option Date := do
  let firstDay ← dateOfFields year month 1
  let daysUntil := ((weekday : Int) - firstDay.weekday + 7) % 7
  let firstOccurrence ← firstDay.addDays daysUntil
  firstOccurrence.addDays (7 * ((n : Int) - 1))

def getLastWeekdayOfMonth (year month weekday : Nat) : Option Date := do
  let lastDay ← dateOfFields year month (daysInMonth year month)
  let daysBack := ((lastDay.weekday : Int) - weekday + 7) % 7
  lastDay.addDays (-daysBack)

/-- The month and the day of Easter. -/
def easterFields (year : Int) : Int × Int :=
  let a := year % 19
  let b := year / 100
  let c := year % 100
  let d := b / 4
  let e := b % 4
  let f := (b + 8) / 25
  let g := (b - f + 1) / 3
  let h := (19 * a + b - d - g + 15) % 30
  let i := c / 4
  let k := c % 4
  let l := (32 + 2 * e + 2 * i - h - k) % 7
  let m := (a + 11 * h + 22 * l) / 451
  ((h + l - 7 * m + 114) / 31, (h + l - 7 * m + 114) % 31 + 1)

def calculateGoodFriday (year : Nat) : Option Date := do
  let (month, day) := easterFields year
  let easter ← dateOfFields year month.toNat day.toNat
  easter.addDays (-2)

def applyObservanceRule (holiday : Date) : Option Date :=
  if holiday.weekday = 5 then holiday.addDays (-1)
  else if holiday.weekday = 6 then holiday.addDays 1
  else some holiday

/-- The days when the exchange is fully closed; `none` where a date raises. -/
def getCmeHolidaysForYear (year : Nat) : Option (List Date) := do
  let newYears ← (dateOfFields year 1 1).bind applyObservanceRule
  let goodFriday ← calculateGoodFriday year
  let july4th ← (dateOfFields year 7 4).bind applyObservanceRule
  let thanksgiving ← getNthWeekdayOfMonth year 11 3 4
  let christmas ← (dateOfFields year 12 25).bind applyObservanceRule
  some [newYears, goodFriday, july4th, thanksgiving, christmas]

def ifWeekday (d : Date) : List Date := if d.weekday < 5 then [d] else []

def earlyCloseDates (year : Nat) : Option (List Date) := do
  let mlkDay ← getNthWeekdayOfMonth year 1 0 3
  let presidentsDay ← getNthWeekdayOfMonth year 2 0 3
  let memorialDay ← getLastWeekdayOfMonth year 5 0
  let laborDay ← getNthWeekdayOfMonth year 9 0 1
  let july3rd ← dateOfFields year 7 3
  let thanksgiving ← getNthWeekdayOfMonth year 11 3 4
  let blackFriday ← thanksgiving.addDays 1
  let christmasEve ← dateOfFields year 12 24
  let newYearsEve ← dateOfFields year 12 31
  some ([mlkDay, presidentsDay, memorialDay, laborDay] ++ ifWeekday july3rd ++ [blackFriday] ++ ifWeekday christmasEve ++
    ifWeekday newYearsEve)

/-- The hours at which the exchange closes early. -/
def getCmeEarlyClosesForYear (year : Nat) : Option (Dict Date Int) :=
  (earlyCloseDates year).map fun dates => dates.foldl (fun closes d => closes.set d 13) Dict.empty

/-! ### All of them exist -/

variable {year : Nat} {d e : Date}

theorem exists_date (hyear : 1 ≤ year ∧ year ≤ 9999) (month day : Nat) (hmonth : 1 ≤ month ∧ month ≤ 12)
    (hday : 1 ≤ day ∧ day ≤ daysInMonth year month) :
    ∃ d, dateOfFields year month day = some d ∧ d.year = year ∧ d.month = month ∧ d.day = day :=
  ⟨⟨year, month, day, hyear, hmonth, hday⟩, dateOfFields_eq_some.2 ⟨rfl, rfl, rfl⟩, rfl, rfl, rfl⟩

theorem twentyEight_le_daysInMonth (year month : Nat) : 28 ≤ daysInMonth year month := by
  unfold daysInMonth
  split_ifs <;> omega

@[simp] theorem daysInMonth_november (year : Nat) : daysInMonth year 11 = 30 := by simp [daysInMonth]

@[simp] theorem daysInMonth_december (year : Nat) : daysInMonth year 12 = 31 := by simp [daysInMonth]

theorem weekday_addDays {k : Int} (h : d.addDays k = some e) : (e.weekday : Int) = (d.weekday + k) % 7 := by
  rw [Date.addDays_eq_some] at h
  simp only [Date.weekday]
  omega

theorem getNthWeekdayOfMonth_eq (hyear : 1 ≤ year ∧ year ≤ 9999) (month weekday n : Nat) (hmonth : 1 ≤ month ∧ month ≤ 12)
    (hweekday : weekday < 7) (hn : 1 ≤ n ∧ n ≤ 4) :
    ∃ d, getNthWeekdayOfMonth year month weekday n = some d ∧ d.year = year ∧ d.month = month ∧ d.weekday = weekday ∧
      d.day ≤ 28 := by
  have hdays := twentyEight_le_daysInMonth year month
  obtain ⟨first, hfirst, rfl, rfl, hday⟩ := exists_date hyear month 1 hmonth (by omega)
  have hlt := first.weekday_lt
  obtain ⟨occurrence, hoccurrence, hyear', hmonth', hday'⟩ :=
    first.addDays_within (k := ((weekday : Int) - first.weekday + 7) % 7) (by omega) (by omega)
  obtain ⟨d, hd, hyear'', hmonth'', hday''⟩ :=
    occurrence.addDays_within (k := 7 * ((n : Int) - 1)) (by omega) (by rw [hyear', hmonth']; omega)
  have hweek := weekday_addDays hoccurrence
  have hweek' := weekday_addDays hd
  refine ⟨d, ?_, by omega, by omega, by omega, by omega⟩
  simp only [getNthWeekdayOfMonth, hfirst, hoccurrence, hd, Option.bind_eq_bind, Option.bind_some]

theorem getLastWeekdayOfMonth_eq (hyear : 1 ≤ year ∧ year ≤ 9999) (month weekday : Nat) (hmonth : 1 ≤ month ∧ month ≤ 12)
    (hweekday : weekday < 7) :
    ∃ d, getLastWeekdayOfMonth year month weekday = some d ∧ d.year = year ∧ d.month = month ∧ d.weekday = weekday := by
  have hdays := twentyEight_le_daysInMonth year month
  obtain ⟨last, hlast, rfl, rfl, hday⟩ := exists_date hyear month (daysInMonth year month) hmonth (by omega)
  have hlt := last.weekday_lt
  obtain ⟨d, hd, hyear', hmonth', -⟩ :=
    last.addDays_within (k := -(((last.weekday : Int) - weekday + 7) % 7)) (by omega) (by omega)
  have hweek := weekday_addDays hd
  refine ⟨d, ?_, hyear', hmonth', by omega⟩
  simp only [getLastWeekdayOfMonth, hlast, hd, Option.bind_eq_bind, Option.bind_some]

/-- Easter is from 22 March to 25 April. -/
theorem easterFields_range (year : Int) :
    (easterFields year).1.toNat = 3 ∧ 22 ≤ (easterFields year).2.toNat ∧ (easterFields year).2.toNat ≤ 31 ∨
      (easterFields year).1.toNat = 4 ∧ 1 ≤ (easterFields year).2.toNat ∧ (easterFields year).2.toNat ≤ 25 := by
  unfold easterFields
  dsimp only
  generalize hh : (19 * (year % 19) + year / 100 - year / 100 / 4 - (year / 100 - (year / 100 + 8) / 25 + 1) / 3 + 15) % 30 = h'
  generalize hl : (32 + 2 * (year / 100 % 4) + 2 * (year % 100 / 4) - h' - year % 100 % 4) % 7 = l
  generalize ha : year % 19 = a
  have hh' : 0 ≤ h' ∧ h' ≤ 29 := by omega
  have hl' : 0 ≤ l ∧ l ≤ 6 := by omega
  have ha' : 0 ≤ a ∧ a ≤ 18 := by omega
  clear hh hl ha
  generalize hm : (a + 11 * h' + 22 * l) / 451 = m
  have hm' : m = 0 ∨ m = 1 := by omega
  rcases hm' with rfl | rfl
  · omega
  · omega

theorem daysBeforeMonth_le (year month : Nat) (h : 1 ≤ month) :
    28 * (month - 1) ≤ daysBeforeMonth year month := by
  induction month, h using Nat.le_induction with
  | base => simp
  | succ month hmonth ih =>
    have hdays := twentyEight_le_daysInMonth year month
    rw [daysBeforeMonth_succ year hmonth]
    omega

theorem calculateGoodFriday_eq (hyear : 1 ≤ year ∧ year ≤ 9999) :
    ∃ d, calculateGoodFriday year = some d ∧ d.year = year := by
  have hrange := easterFields_range year
  have hdays : daysInMonth year 3 = 31 ∧ daysInMonth year 4 = 30 := by simp [daysInMonth]
  have hmonths := daysBeforeMonth_le year (easterFields year).1.toNat (by omega)
  obtain ⟨easter, heaster, rfl, hmonth, hday⟩ := exists_date hyear (easterFields year).1.toNat (easterFields year).2.toNat
    (by omega) (by rcases hrange with ⟨hm, hd⟩ | ⟨hm, hd⟩ <;> rw [hm] <;> omega)
  have hle := easter.toordinal_le
  have hmono : daysBeforeMonth easter.year (easter.month + 1) ≤ daysBeforeMonth easter.year 13 :=
    daysBeforeMonth_mono _ (by omega)
  rw [← hmonth] at hmonths
  simp only [Date.toordinal] at hle
  obtain ⟨d, hd, hyear'⟩ := easter.addDays_sameYear (k := -2) (by omega) (by omega)
  refine ⟨d, ?_, hyear'⟩
  simp only [calculateGoodFriday, heaster, hd, Option.bind_eq_bind, Option.bind_some]

/-- A date after January that is not the last of its year is observed in its year. -/
theorem applyObservanceRule_eq (hmonth : 2 ≤ d.month) (hlast : d.month < 12 ∨ d.day < 31) :
    ∃ e, applyObservanceRule d = some e ∧ e.year = d.year := by
  have hpos := daysBeforeMonth_le d.year d.month d.monthRange.1
  have hle := d.toordinal_le
  have hlt : daysBeforeMonth d.year d.month + d.day < daysBeforeMonth d.year 13 := by
    rcases Nat.lt_or_ge d.month 12 with hlt | hge
    · have hnext := daysBeforeMonth_succ d.year (by omega : 1 ≤ d.month + 1)
      have hdays := twentyEight_le_daysInMonth d.year (d.month + 1)
      have hmono : daysBeforeMonth d.year (d.month + 1 + 1) ≤ daysBeforeMonth d.year 13 := daysBeforeMonth_mono _ (by omega)
      simp only [Date.toordinal] at hle
      omega
    · have hdec : d.month = 12 := le_antisymm d.monthRange.2 hge
      have hlastMonth : daysBeforeMonth d.year 13 = daysBeforeMonth d.year 12 + daysInMonth d.year 12 :=
        daysBeforeMonth_succ d.year (by omega)
      rw [daysInMonth_december] at hlastMonth
      rw [hdec]
      omega
  unfold applyObservanceRule
  split
  · exact d.addDays_sameYear (by omega) (by omega)
  · split
    · exact d.addDays_sameYear (by omega) (by omega)
    · exact ⟨d, rfl, rfl⟩

/-- Friday 31 December, on which the next New Year is observed. -/
structure IsObservedNewYear (d : Date) : Prop where
  month : d.month = 12
  day : d.day = 31
  friday : d.weekday = 4
  year : d.year < 9999

instance (d : Date) : Decidable (IsObservedNewYear d) :=
  decidable_of_iff (d.month = 12 ∧ d.day = 31 ∧ d.weekday = 4 ∧ d.year < 9999)
    ⟨fun ⟨hm, hd, hf, hy⟩ => ⟨hm, hd, hf, hy⟩, fun ⟨hm, hd, hf, hy⟩ => ⟨hm, hd, hf, hy⟩⟩

theorem toordinal_firstDay (hmonth : e.month = 1) (hday : e.day = 1) : e.toordinal = daysBeforeYear e.year + 1 := by
  simp [Date.toordinal, hmonth, hday, daysBeforeMonth]

theorem toordinal_lastDay (hmonth : d.month = 12) (hday : d.day = 31) : d.toordinal = daysBeforeYear (d.year + 1) := by
  have hsucc := daysBeforeMonth_succ d.year (by omega : 1 ≤ 12)
  rw [daysBeforeMonth_thirteen, daysInMonth_december] at hsucc
  rw [daysBeforeYear_succ d.yearRange.1, Date.toordinal, hmonth, hday]
  omega

/-- New Year is observed in its year or on the Friday before it. -/
theorem newYears_eq (hyear : 1 ≤ year ∧ year ≤ 9999) :
    ∃ d, (dateOfFields year 1 1).bind applyObservanceRule = some d ∧ (d.year = year ∨ IsObservedNewYear d) := by
  obtain ⟨first, hfirst, rfl, hmonth, hday⟩ := exists_date hyear 1 1 (by omega) (by simp [daysInMonth])
  have hord := toordinal_firstDay hmonth hday
  rw [hfirst, Option.bind_some, applyObservanceRule]
  split
  next hsat =>
    have hne : first.year ≠ 1 := by
      intro hone
      have hzero : daysBeforeYear 1 = 0 := by decide
      rw [hone, hzero] at hord
      simp [Date.weekday, hord] at hsat
    have hprev : 1 ≤ first.year - 1 ∧ first.year - 1 ≤ 9999 := by omega
    obtain ⟨d, -, hyear', hmonth', hday'⟩ := exists_date hprev 12 31 (by omega) (by simp [daysInMonth])
    have hlast := toordinal_lastDay hmonth' hday'
    rw [hyear', Nat.sub_add_cancel (by omega)] at hlast
    refine ⟨d, Date.addDays_eq_some.2 (by omega), .inr ⟨hmonth', hday', ?_, by omega⟩⟩
    simp only [Date.weekday] at hsat ⊢
    omega
  next =>
    split
    · have hone : daysBeforeMonth first.year 1 = 0 := by simp [daysBeforeMonth]
      have hmonths := daysBeforeMonth_thirteen first.year
      obtain ⟨d, hd, hyear'⟩ :=
        first.addDays_sameYear (k := 1) (by rw [hmonth]; omega) (by rw [hmonth]; split at hmonths <;> omega)
      exact ⟨d, hd, .inl hyear'⟩
    · exact ⟨first, rfl, .inl rfl⟩

theorem getCmeHolidaysForYear_eq (hyear : 1 ≤ year ∧ year ≤ 9999) :
    ∃ l, getCmeHolidaysForYear year = some l ∧ ∀ d ∈ l, d.year = year ∨ IsObservedNewYear d := by
  obtain ⟨newYears, hnewYears, hnewYears'⟩ := newYears_eq hyear
  obtain ⟨goodFriday, hgoodFriday, hgoodFriday'⟩ := calculateGoodFriday_eq hyear
  obtain ⟨july4th, hjuly, hjulyYear, hjulyMonth, hjulyDay⟩ :=
    exists_date hyear 7 4 (by omega) (by simp [daysInMonth])
  obtain ⟨independence, hindependence, hindependence'⟩ :=
    applyObservanceRule_eq (d := july4th) (by omega) (by omega)
  obtain ⟨thanksgiving, hthanksgiving, hthanksgiving', -⟩ :=
    getNthWeekdayOfMonth_eq hyear 11 3 4 (by omega) (by omega) (by omega)
  obtain ⟨december25, hdecember, hdecemberYear, hdecemberMonth, hdecemberDay⟩ :=
    exists_date hyear 12 25 (by omega) (by simp [daysInMonth])
  obtain ⟨christmas, hchristmas, hchristmas'⟩ := applyObservanceRule_eq (d := december25) (by omega) (by omega)
  refine ⟨[newYears, goodFriday, independence, thanksgiving, christmas], ?_, ?_⟩
  · simp only [getCmeHolidaysForYear, hnewYears, hgoodFriday, hjuly, hindependence, hthanksgiving, hdecember, hchristmas,
      Option.bind_eq_bind, Option.bind_some]
  · simp only [List.forall_mem_cons, List.not_mem_nil, false_imp_iff, implies_true, and_true]
    exact ⟨hnewYears', .inl hgoodFriday', .inl (by omega), .inl hthanksgiving', .inl (by omega)⟩

theorem year_of_getCmeHolidaysForYear {l : List Date} (h : getCmeHolidaysForYear year = some l) : 1 ≤ year ∧ year ≤ 9999 := by
  simp only [getCmeHolidaysForYear, Option.bind_eq_bind, Option.bind_eq_some_iff] at h
  obtain ⟨-, ⟨first, hfirst, -⟩, -⟩ := h
  obtain ⟨rfl, -⟩ := dateOfFields_eq_some.1 hfirst
  exact first.yearRange

/-- The days that some year lists: those that their own year lists, and the observed New Years. -/
theorem listed_iff : (∃ year l, getCmeHolidaysForYear year = some l ∧ d ∈ l) ↔
    (∃ l, getCmeHolidaysForYear d.year = some l ∧ d ∈ l) ∨ IsObservedNewYear d := by
  constructor
  · rintro ⟨year, l, hl, hmem⟩
    have hyear := year_of_getCmeHolidaysForYear hl
    obtain ⟨l', hl', hall⟩ := getCmeHolidaysForYear_eq hyear
    obtain rfl : l' = l := Option.some.inj (hl'.symm.trans hl)
    rcases hall d hmem with rfl | hobserved
    · exact .inl ⟨l', hl, hmem⟩
    · exact .inr hobserved
  · rintro (⟨l, hl, hmem⟩ | ⟨hmonth, hday, hfriday, hlt⟩)
    · exact ⟨d.year, l, hl, hmem⟩
    have hyear : 1 ≤ d.year + 1 ∧ d.year + 1 ≤ 9999 := by omega
    obtain ⟨l, hl, -⟩ := getCmeHolidaysForYear_eq hyear
    refine ⟨d.year + 1, l, hl, ?_⟩
    obtain ⟨first, hfirst, hfirstYear, hfirstMonth, hfirstDay⟩ :=
      exists_date hyear 1 1 (by omega) (by simp [daysInMonth])
    have hord := toordinal_firstDay hfirstMonth hfirstDay
    rw [hfirstYear, ← toordinal_lastDay hmonth hday] at hord
    have hsat : first.weekday = 5 := by
      simp only [Date.weekday] at hfriday ⊢
      omega
    have hobserved : (dateOfFields (d.year + 1) 1 1).bind applyObservanceRule = some d := by
      rw [hfirst, Option.bind_some, applyObservanceRule, if_pos hsat, Date.addDays_eq_some]
      omega
    simp only [getCmeHolidaysForYear, hobserved, Option.bind_eq_bind, Option.bind_some, Option.bind_eq_some_iff,
      Option.some.injEq] at hl
    obtain ⟨_, -, _, -, _, -, _, -, rfl⟩ := hl
    exact List.mem_cons_self

theorem mem_ifWeekday : e ∈ ifWeekday d ↔ e = d ∧ d.weekday < 5 := by
  unfold ifWeekday
  split <;> simp_all

theorem get?_foldl_set (dates : List Date) (closes : Dict Date Int) (hour : Int) :
    (dates.foldl (fun closes d => closes.set d hour) closes).get? d = if d ∈ dates then some hour else closes.get? d := by
  induction dates generalizing closes with
  | nil => simp
  | cons e dates ih =>
    rw [List.foldl_cons, ih, Dict.get?_set]
    by_cases hmem : d ∈ dates
    · simp [hmem]
    · by_cases hd : d = e <;> simp [hmem, hd]

/-- Early closes are at one o'clock, on weekdays of their year, and on Friday 31 December. -/
theorem getCmeEarlyClosesForYear_eq (hyear : 1 ≤ year ∧ year ≤ 9999) :
    ∃ closes, getCmeEarlyClosesForYear year = some closes ∧
      (∀ d hour, closes.get? d = some hour → hour = 13 ∧ d.weekday < 5) ∧
      ∀ d, IsObservedNewYear d → d.year = year → (closes.get? d).isSome := by
  obtain ⟨mlkDay, hmlk, -, -, hmlkDay, -⟩ :=
    getNthWeekdayOfMonth_eq hyear 1 0 3 (by omega) (by omega) (by omega)
  obtain ⟨presidentsDay, hpresidents, -, -, hpresidentsDay, -⟩ :=
    getNthWeekdayOfMonth_eq hyear 2 0 3 (by omega) (by omega) (by omega)
  obtain ⟨memorialDay, hmemorial, -, -, hmemorialDay⟩ :=
    getLastWeekdayOfMonth_eq hyear 5 0 (by omega) (by omega)
  obtain ⟨laborDay, hlabor, -, -, hlaborDay, -⟩ :=
    getNthWeekdayOfMonth_eq hyear 9 0 1 (by omega) (by omega) (by omega)
  obtain ⟨july3rd, hjuly, -⟩ := exists_date hyear 7 3 (by omega) (by simp [daysInMonth])
  obtain ⟨thanksgiving, hthanksgiving, hthanksgivingYear, hthanksgivingMonth, hthanksgivingDay, hle⟩ :=
    getNthWeekdayOfMonth_eq hyear 11 3 4 (by omega) (by omega) (by omega)
  obtain ⟨blackFriday, hblack, -⟩ :=
    thanksgiving.addDays_within (k := 1) (by omega) (by rw [hthanksgivingMonth, daysInMonth_november]; omega)
  have hblackDay := weekday_addDays hblack
  obtain ⟨christmasEve, hchristmas, -⟩ := exists_date hyear 12 24 (by omega) (by simp [daysInMonth])
  obtain ⟨newYearsEve, heve, heveYear, heveMonth, heveDay⟩ :=
    exists_date hyear 12 31 (by omega) (by simp [daysInMonth])
  have hdates : earlyCloseDates year = some ([mlkDay, presidentsDay, memorialDay, laborDay] ++ ifWeekday july3rd ++
      [blackFriday] ++ ifWeekday christmasEve ++ ifWeekday newYearsEve) := by
    simp only [earlyCloseDates, hmlk, hpresidents, hmemorial, hlabor, hjuly, hthanksgiving, hblack, hchristmas, heve,
      Option.bind_eq_bind, Option.bind_some]
  refine ⟨_, by rw [getCmeEarlyClosesForYear, hdates]; rfl, fun d hour hget => ?_, fun d hd hdyear => ?_⟩
  · rw [get?_foldl_set] at hget
    split at hget
    next hmem =>
      refine ⟨(Option.some.inj hget).symm, ?_⟩
      simp only [List.mem_append, List.mem_cons, List.not_mem_nil, or_false, mem_ifWeekday] at hmem
      rcases hmem with (((((rfl | rfl | rfl | rfl) | ⟨rfl, h⟩) | rfl) | ⟨rfl, h⟩) | ⟨rfl, h⟩) <;> omega
    next => cases hget
  · obtain rfl : d = newYearsEve := Date.ext_fields (by omega) (by rw [hd.month, heveMonth]) (by rw [hd.day, heveDay])
    have hweekday : d.weekday < 5 := by rw [hd.friday]; omega
    rw [get?_foldl_set, if_pos (by simp [mem_ifWeekday, hweekday])]
    rfl

end PearlAlgo.MarketHours
