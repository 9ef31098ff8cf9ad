import PearlAlgo.Utils.Holidays

/-!
# Market hours (`utils/market_hours.py`)

`is_market_open` looks at the date and the time of the market's clock: the holidays of the date's own year, the
overrides, an early close, then the week. The memos of the calculated dates are left out, as they are of pure functions.
-/

namespace PearlAlgo
open Py

structure MarketHours where
  /-- `utcoffset` of the zone, in microseconds, at an instant. -/
  tz : Int → Int
  holidayOverrides : List (Int × Int × Int) := []
  earlyCloses : Dict (Int × Int × Int) Int := Dict.empty
  useCalculatedHolidays : Bool := true

namespace MarketHours

def orRaise {α : Type} : Option α → Except Raised α
  | some a => .ok a
  | none => .error .valueError

def getHolidaysForYear (m : MarketHours) (year : Nat) : Except Raised (List Date) :=
  if m.useCalculatedHolidays then orRaise (getCmeHolidaysForYear year) else .ok []

def getEarlyClosesForYear (m : MarketHours) (year : Nat) : Except Raised (Dict Date Int) :=
  if m.useCalculatedHolidays then orRaise (getCmeEarlyClosesForYear year) else .ok Dict.empty

/-- `(et_date.year, et_date.month, et_date.day)` -/
def dateKey (d : Date) : Int × Int × Int := (d.year, d.month, d.day)

/-- `time(hour, 0)`; an hour that is not a C int overflows. -/
def timeOfHour (hour : Int) : Except Raised Int :=
  if 0 ≤ hour ∧ hour < 24 then .ok (hour * hourMicros)
  else if -2147483648 ≤ hour ∧ hour < 2147483648 then .error .valueError
  else .error .overflowError

/-- The branches of the week. -/
def openInWeek (weekday : Nat) (etTime : Int) : Bool :=
  if weekday ≤ 3 ∧ 17 * hourMicros ≤ etTime ∧ etTime < 18 * hourMicros then false
  else if weekday = 4 ∧ 17 * hourMicros ≤ etTime then false
  else if weekday = 5 then false
  else if weekday = 6 ∧ etTime < 18 * hourMicros then false
  else if weekday = 6 ∧ 18 * hourMicros ≤ etTime then true
  else if weekday ≤ 3 then true
  else if weekday = 4 ∧ etTime < 17 * hourMicros then true
  else false

def isOpenOn (m : MarketHours) (etDate : Date) (etTime : Int) : Except Raised Bool := do
  let calculatedHolidays ← m.getHolidaysForYear etDate.year
  if etDate ∈ calculatedHolidays then
    .ok false
  else if dateKey etDate ∈ m.holidayOverrides then
    .ok false
  else
    let calculatedEarlyCloses ← m.getEarlyClosesForYear etDate.year
    match (calculatedEarlyCloses.get? etDate).or (m.earlyCloses.get? (dateKey etDate)) with
    | some earlyCloseHour =>
      let close ← timeOfHour earlyCloseHour
      if close ≤ etTime ∧ etTime < 18 * hourMicros then .ok false else .ok (openInWeek etDate.weekday etTime)
    | none => .ok (openInWeek etDate.weekday etTime)

/-- What the market's clock shows at an instant. -/
def wall (m : MarketHours) (t : Int) : Int := t + m.tz t

/-- `is_market_open` of a datetime in UTC. -/
def isOpenAt (m : MarketHours) (t : Int) : Except Raised Bool :=
  match dateOf (m.wall t) with
  | some etDate => m.isOpenOn etDate (timeOf (m.wall t))
  | none => .error .overflowError

/-- The instant in UTC. `timezone.utc` has no `localize`. -/
def toUtc (now : Int) : Option Datetime → Except Raised Int
  | none => .ok now
  | some ⟨_, none⟩ => .error .attributeError
  | some ⟨clock, some utcoffset⟩ =>
    if Representable (clock.micros - utcoffset) then .ok (clock.micros - utcoffset) else .error .overflowError

/-- The instant that a datetime means, in UTC where it is naive. -/
def instant (dt : Datetime) : Int := dt.clock.micros - dt.utcoffset.getD 0

def isMarketOpen (m : MarketHours) (now : Int) (dt : Option Datetime) : Except Raised Bool :=
  (toUtc now dt).bind m.isOpenAt

/-! ### What is looked at -/

variable {m : MarketHours} {d : Date} {s t hour : Int}

variable {now : Int} {dt : Datetime}

theorem toUtc_eq_ok : toUtc now (some dt) = .ok t ↔ dt.utcoffset.isSome ∧ Representable (instant dt) ∧ instant dt = t := by
  obtain ⟨clock, utcoffset⟩ := dt
  cases utcoffset with
  | none => simp [toUtc]
  | some utcoffset =>
    rw [toUtc, instant]
    by_cases hrepr : Representable (clock.micros - utcoffset)
    · simp [hrepr]
    · simp [hrepr]

theorem isMarketOpen_eq_ok {b : Bool} : m.isMarketOpen now (some dt) = .ok b ↔
    dt.utcoffset.isSome ∧ Representable (instant dt) ∧ m.isOpenAt (instant dt) = .ok b := by
  rw [isMarketOpen]
  constructor
  · intro h
    cases htoUtc : toUtc now (some dt) with
    | error e =>
      rw [htoUtc] at h
      cases h
    | ok t =>
      obtain ⟨haware, hrepr, rfl⟩ := toUtc_eq_ok.1 htoUtc
      rw [htoUtc] at h
      exact ⟨haware, hrepr, h⟩
  · rintro ⟨haware, hrepr, h⟩
    rw [toUtc_eq_ok.2 ⟨haware, hrepr, rfl⟩]
    exact h

/-- A holiday of its own year, or an override. -/
def ClosedOn (m : MarketHours) (d : Date) : Prop :=
  (∃ l, m.getHolidaysForYear d.year = .ok l ∧ d ∈ l) ∨ dateKey d ∈ m.holidayOverrides

/-- The hour of a calculated early close. -/
def calculatedClose (m : MarketHours) (d : Date) : Option Int :=
  match m.getEarlyClosesForYear d.year with
  | .ok closes => closes.get? d
  | .error _ => none

def configuredClose (m : MarketHours) (d : Date) : Option Int := m.earlyCloses.get? (dateKey d)

theorem exists_holidays (m : MarketHours) (d : Date) : ∃ l, m.getHolidaysForYear d.year = .ok l := by
  unfold getHolidaysForYear
  split
  · obtain ⟨l, hl, -⟩ := getCmeHolidaysForYear_eq d.yearRange
    exact ⟨l, by rw [hl]; rfl⟩
  · exact ⟨[], rfl⟩

theorem exists_earlyCloses (m : MarketHours) (d : Date) : ∃ closes, m.getEarlyClosesForYear d.year = .ok closes := by
  unfold getEarlyClosesForYear
  split
  · obtain ⟨closes, hcloses, -⟩ := getCmeEarlyClosesForYear_eq d.yearRange
    exact ⟨closes, by rw [hcloses]; rfl⟩
  · exact ⟨Dict.empty, rfl⟩

theorem isOpenOn_closed (h : m.ClosedOn d) : m.isOpenOn d s = .ok false := by
  obtain ⟨l, hl⟩ := m.exists_holidays d
  rw [ClosedOn, hl] at h
  rw [isOpenOn, hl]
  simp only [bind, Except.bind]
  rcases h with ⟨l', hl', hmem⟩ | hmem
  · cases hl'
    rw [if_pos hmem]
  · rw [if_pos hmem, ite_self]

/-- On other dates the calculated early close is looked up first, and the configured one only where there is none. -/
theorem isOpenOn_of_not_closed (h : ¬ m.ClosedOn d) :
    m.isOpenOn d s = match (m.calculatedClose d).or (m.configuredClose d) with
      | some hour => (timeOfHour hour).map fun close =>
          if close ≤ s ∧ s < 18 * hourMicros then false else openInWeek d.weekday s
      | none => .ok (openInWeek d.weekday s) := by
  obtain ⟨l, hl⟩ := m.exists_holidays d
  obtain ⟨closes, hcloses⟩ := m.exists_earlyCloses d
  rw [ClosedOn, hl, not_or] at h
  have hmem : d ∉ l := fun hmem => h.1 ⟨l, rfl, hmem⟩
  rw [isOpenOn, calculatedClose, configuredClose, hl, hcloses]
  simp only [bind, Except.bind, if_neg hmem, if_neg h.2]
  cases (closes.get? d).or (m.earlyCloses.get? (dateKey d)) with
  | none => rfl
  | some hour =>
    dsimp only
    cases timeOfHour hour with
    | error e => rfl
    | ok close => exact (apply_ite Except.ok _ _ _).symm

theorem timeOfHour_ok (h : 0 ≤ hour ∧ hour < 24) : timeOfHour hour = .ok (hour * hourMicros) := if_pos h

theorem timeOfHour_error (h : ¬ (0 ≤ hour ∧ hour < 24)) : ∃ e, timeOfHour hour = .error e := by
  rw [timeOfHour, if_neg h]
  split
  · exact ⟨_, rfl⟩
  · exact ⟨_, rfl⟩

/-- A date is closed, or raises, or is open in the week but for a window that ends at six in the evening. -/
theorem isOpenOn_cases (m : MarketHours) (d : Date) : (∀ s, m.isOpenOn d s = .ok false) ∨
    (∃ e, ∀ s, m.isOpenOn d s = .error e) ∨
      ∃ close, ∀ s, m.isOpenOn d s =
        .ok (if close ≤ s ∧ s < 18 * hourMicros then false else openInWeek d.weekday s) := by
  by_cases hclosed : m.ClosedOn d
  · exact .inl fun s => isOpenOn_closed hclosed
  right
  cases hclose : (m.calculatedClose d).or (m.configuredClose d) with
  | none =>
    refine .inr ⟨18 * hourMicros, fun s => ?_⟩
    rw [isOpenOn_of_not_closed hclosed, hclose, if_neg (by omega)]
  | some hour =>
    cases htime : timeOfHour hour with
    | error e =>
      refine .inl ⟨e, fun s => ?_⟩
      rw [isOpenOn_of_not_closed hclosed, hclose]
      dsimp only
      rw [htime]
      rfl
    | ok close =>
      refine .inr ⟨close, fun s => ?_⟩
      rw [isOpenOn_of_not_closed hclosed, hclose]
      dsimp only
      rw [htime]
      rfl

theorem calculatedClose_eq (h : m.calculatedClose d = some hour) : hour = 13 ∧ d.weekday < 5 := by
  unfold calculatedClose getEarlyClosesForYear at h
  obtain ⟨closes, hcloses, hall, -⟩ := getCmeEarlyClosesForYear_eq d.yearRange
  rw [hcloses] at h
  cases hm : m.useCalculatedHolidays with
  | true =>
    rw [hm, if_pos rfl] at h
    exact hall d hour h
  | false =>
    rw [hm] at h
    cases h

theorem calculatedClose_of_observed (hm : m.useCalculatedHolidays = true) (h : IsObservedNewYear d) :
    ∃ hour, m.calculatedClose d = some hour := by
  obtain ⟨closes, hcloses, -, hall⟩ := getCmeEarlyClosesForYear_eq d.yearRange
  rw [calculatedClose, getEarlyClosesForYear, if_pos hm, hcloses]
  exact Option.isSome_iff_exists.1 (hall d h rfl)

/-- The dates that a year lists and that the lookup misses are the observed New Years. -/
theorem observed_of_not_closed (hm : m.useCalculatedHolidays = true) (h : ¬ m.ClosedOn d) :
    (∃ year l, getCmeHolidaysForYear year = some l ∧ d ∈ l) ↔ IsObservedNewYear d := by
  rw [listed_iff]
  refine ⟨fun hlisted => hlisted.resolve_left ?_, .inr⟩
  rintro ⟨l, hl, hmem⟩
  refine h (.inl ⟨l, ?_, hmem⟩)
  rw [getHolidaysForYear, if_pos hm, hl]
  rfl

/-- The market is open before one o'clock on a weekday. -/
theorem openInWeek_morning {weekday : Nat} (h : weekday < 5) (hs : s < 13 * hourMicros) : openInWeek weekday s = true := by
  have hhour : hourMicros = 3600000000 := rfl
  unfold openInWeek
  split_ifs <;> first | rfl | omega

theorem openInWeek_fridayEvening (hs : 17 * hourMicros ≤ s) : openInWeek 4 s = false := by
  unfold openInWeek
  split_ifs <;> first | rfl | omega

end MarketHours

end PearlAlgo
