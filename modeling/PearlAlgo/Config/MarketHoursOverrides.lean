import PearlAlgo.Py.Seq
import PearlAlgo.Utils.MarketHours
import PearlAlgo.Yaml.Datum

/-!
# Overrides of the market hours (`config/config_loader.py`)

`parse_market_hours_overrides` skips what `int` does not read, and takes any hour. `honoursClosures_iff` is about the
market hours that are built with what it returns: where they are closed as the calendar and the overrides say.
-/

namespace PearlAlgo.MarketHours
open Py Yaml

section Parse
-- `str` of a key that is no text, and `int` of a date, a time or bytes.
variable (keyText : Nat → String) (otherInt : Nat → Except Raised Int)

/-- `int(text)` -/
def intOfStr (text : String) : Except Raised Int := orRaise (intOfText text)

/-- `int(value)` -/
def intOf : Datum → Except Raised Int
  | .scalar .null => .error .typeError
  | .scalar (.bool b) => .ok (if b then 1 else 0)
  | .scalar (.int n) => .ok n
  | .scalar (.float (.fin x)) => .ok (if 0 ≤ x then ⌊x⌋ else ⌈x⌉)
  | .scalar (.float .nan) => .error .valueError
  | .scalar (.float _) => .error .overflowError
  | .scalar (.str text) => intOfStr text
  | .scalar (.other n) => otherInt n
  | .list _ | .map _ => .error .typeError

/-- `except (ValueError, TypeError): pass` -/
def orSkip {α : Type} (old : α) : Except Raised α → Except Raised α
  | .error .valueError | .error .typeError => .ok old
  | result => result

def addHoliday (holidays : List (Int × Int × Int)) : Datum → Except Raised (List (Int × Int × Int))
  | .list [year, month, day] => orSkip holidays do
    let year ← intOf otherInt year
    let month ← intOf otherInt month
    let day ← intOf otherInt day
    .ok (holidays.insert (year, month, day))
  | _ => .ok holidays

def keyStr : Key → String
  | .str s => s
  | .other n => keyText n

def addEarlyClose (closes : Dict (Int × Int × Int) Int) (entry : Key × Datum) :
    Except Raised (Dict (Int × Int × Int) Int) :=
  match ((keyStr keyText entry.1).toList.splitOn '-').map String.ofList with
  | [year, month, day] => orSkip closes do
    let year ← intOfStr year
    let month ← intOfStr month
    let day ← intOfStr day
    let hour ← intOf otherInt entry.2
    .ok (closes.set (year, month, day) hour)
  | _ => .ok closes

def parseMarketHoursOverrides (config : Mapping) : Except Raised (List (Int × Int × Int) × Dict (Int × Int × Int) Int) :=
  match (Mapping.get? "market_hours" config).getD (.map []) with
  | .map mhConfig =>
    if ((Mapping.get? "enable_config_overrides" mhConfig).getD (.bool false)).truthy then do
      let holidays ← match (Mapping.get? "holiday_overrides" mhConfig).getD (.list []) with
        | .list rawHolidays => rawHolidays.foldlM (addHoliday otherInt) []
        | _ => .ok []
      let closes ← match (Mapping.get? "early_closes" mhConfig).getD (.map []) with
        | .map rawEarly => rawEarly.foldlM (addEarlyClose keyText otherInt) Dict.empty
        | _ => .ok Dict.empty
      .ok (holidays, closes)
    else .ok ([], Dict.empty)
  | _ => .ok ([], Dict.empty)

/-- `MarketHours(holiday_overrides=..., early_closes=...)` with the overrides of a config. -/
def ofConfig (tz : Int → Int) (config : Mapping) : Except Raised MarketHours :=
  (parseMarketHoursOverrides keyText otherInt config).map fun (holidays, closes) =>
    { tz := tz, holidayOverrides := holidays, earlyCloses := closes }

end Parse

/-! ### The closure rules -/

/-- The hour at which a date closes early: the earlier one where it is calculated and configured. -/
def closeHour (m : MarketHours) (d : Date) : Option Int :=
  match m.calculatedClose d, m.configuredClose d with
  | some hour, some hour' => some (min hour hour')
  | some hour, none => some hour
  | none, hour' => hour'

inductive MustBeClosed (m : MarketHours) (d : Date) (s : Int) : Prop
  | holiday (year : Nat) (l : List Date) (hl : getCmeHolidaysForYear year = some l) (hd : d ∈ l)
  | override (h : dateKey d ∈ m.holidayOverrides)
  | early (hour : Int) (hclose : m.closeHour d = some hour) (hfrom : hour * hourMicros ≤ s) (hto : s < 18 * hourMicros)

/-- `is_market_open` does not raise, and says that the market is closed when it must be. -/
def HonoursClosures (m : MarketHours) (now : Int) (dt : Datetime) : Prop :=
  ∃ b, m.isMarketOpen now (some dt) = .ok b ∧
    ∀ d, dateOf (m.wall (instant dt)) = some d → m.MustBeClosed d (timeOf (m.wall (instant dt))) → b = false

/-- Where the early closes of a date are looked up rightly. -/
inductive EarlyClosesRight (m : MarketHours) (d : Date) (s : Int) : Prop
  | configured (hnone : m.calculatedClose d = none)
    (hrange : ∀ hour, m.configuredClose d = some hour → 0 ≤ hour ∧ hour < 24)
  | come (hour : Int) (hclose : m.calculatedClose d = some hour) (hfrom : hour * hourMicros ≤ s)
  | notCome (hour : Int) (hclose : m.calculatedClose d = some hour) (hobserved : ¬ IsObservedNewYear d)
    (hconfigured : ∀ hour', m.configuredClose d = some hour' → s < hour' * hourMicros)

/-- The datetime is aware and in the years of dates on both clocks, and its date is a holiday of its own year or an
override, or one whose early closes are looked up rightly. -/
def ClosuresCovered (m : MarketHours) (dt : Datetime) : Prop :=
  dt.utcoffset.isSome ∧ Representable (instant dt) ∧ ∃ d, dateOf (m.wall (instant dt)) = some d ∧
    (m.ClosedOn d ∨ m.EarlyClosesRight d (timeOf (m.wall (instant dt))))

variable {m : MarketHours} {d : Date} {s hour : Int}

/-- A date that is not looked up as closed must be closed as an observed New Year, or early. -/
theorem mustBeClosed_iff (hm : m.useCalculatedHolidays = true) (h : ¬ m.ClosedOn d) : m.MustBeClosed d s ↔
    IsObservedNewYear d ∨ ∃ hour, m.closeHour d = some hour ∧ hour * hourMicros ≤ s ∧ s < 18 * hourMicros := by
  constructor
  · rintro (⟨year, l, hl, hd⟩ | hoverride | ⟨hour, hclose, hfrom, hto⟩)
    · exact .inl ((observed_of_not_closed hm h).1 ⟨year, l, hl, hd⟩)
    · exact absurd (.inr hoverride) h
    · exact .inr ⟨hour, hclose, hfrom, hto⟩
  · rintro (hobserved | ⟨hour, hclose, hfrom, hto⟩)
    · obtain ⟨year, l, hl, hd⟩ := (observed_of_not_closed hm h).2 hobserved
      exact .holiday year l hl hd
    · exact .early hour hclose hfrom hto

/-- On a date with a calculated early close. -/
theorem calculated_honours_iff (hm : m.useCalculatedHolidays = true) (h : ¬ m.ClosedOn d)
    (hclose : m.calculatedClose d = some hour) :
    (∃ b, m.isOpenOn d s = .ok b ∧ (m.MustBeClosed d s → b = false)) ↔ m.EarlyClosesRight d s := by
  have hhour : hourMicros = 3600000000 := rfl
  obtain ⟨rfl, hweekday⟩ := calculatedClose_eq hclose
  rw [isOpenOn_of_not_closed h, mustBeClosed_iff hm h, hclose, Option.some_or]
  dsimp only
  rw [timeOfHour_ok (by omega)]
  simp only [Except.map, Except.ok.injEq, exists_eq_left']
  by_cases hcome : 13 * hourMicros ≤ s
  · refine ⟨fun _ => .come 13 hclose hcome, fun _ hmust => ?_⟩
    split
    next => rfl
    next hnot =>
      rcases hmust with hobserved | ⟨hour, -, -, hto⟩
      · rw [hobserved.friday]
        exact openInWeek_fridayEvening (by omega)
      · exact absurd ⟨hcome, hto⟩ hnot
  rw [if_neg (by omega), openInWeek_morning hweekday (by omega)]
  simp only [Bool.true_eq_false, imp_false, not_or, not_exists, not_and]
  constructor
  · rintro ⟨hobserved, hearly⟩
    refine .notCome 13 hclose hobserved fun hour' hconfigured => ?_
    have hmin : m.closeHour d = some (min 13 hour') := by rw [closeHour, hclose, hconfigured]
    by_contra hnot
    exact hearly _ hmin (by rw [hhour] at hnot ⊢; omega) (by omega)
  · rintro (⟨hnone, -⟩ | ⟨hour, hclose', hfrom⟩ | ⟨hour, hclose', hobserved, hconfigured⟩)
    · rw [hclose] at hnone
      cases hnone
    · rw [hclose] at hclose'
      cases hclose'
      exact absurd hfrom hcome
    · refine ⟨hobserved, fun hour' hmin hfrom _ => ?_⟩
      rw [closeHour, hclose] at hmin
      cases hconf : m.configuredClose d with
      | none =>
        rw [hconf] at hmin
        cases hmin
        exact hcome hfrom
      | some configured =>
        rw [hconf] at hmin
        cases hmin
        have hlt := hconfigured configured hconf
        rw [min_def] at hfrom
        split at hfrom <;> omega

/-- On a date without one. -/
theorem configured_honours_iff (hm : m.useCalculatedHolidays = true) (h : ¬ m.ClosedOn d) (hnone : m.calculatedClose d = none) :
    (∃ b, m.isOpenOn d s = .ok b ∧ (m.MustBeClosed d s → b = false)) ↔ m.EarlyClosesRight d s := by
  have hobserved : ¬ IsObservedNewYear d := by
    intro hobserved
    obtain ⟨hour, hclose⟩ := calculatedClose_of_observed hm hobserved
    rw [hnone] at hclose
    cases hclose
  have hright : m.EarlyClosesRight d s ↔ ∀ hour, m.configuredClose d = some hour → 0 ≤ hour ∧ hour < 24 := by
    constructor
    · rintro (⟨-, hrange⟩ | ⟨hour, hclose, -⟩ | ⟨hour, hclose, -⟩)
      · exact hrange
      · rw [hnone] at hclose
        cases hclose
      · rw [hnone] at hclose
        cases hclose
    · exact .configured hnone
  rw [isOpenOn_of_not_closed h, mustBeClosed_iff hm h, hright, closeHour, hnone, Option.none_or]
  simp only [hobserved, false_or]
  cases hconf : m.configuredClose d with
  | none => simp
  | some hour =>
    dsimp only
    by_cases hrange : 0 ≤ hour ∧ hour < 24
    · rw [timeOfHour_ok hrange]
      refine ⟨fun _ hour' hhour => ?_, fun _ => ⟨_, rfl, ?_⟩⟩
      · cases hhour
        exact hrange
      · rintro ⟨hour', hhour, hwindow⟩
        cases hhour
        exact if_pos hwindow
    · obtain ⟨e, he⟩ := timeOfHour_error hrange
      rw [he]
      simp [Except.map, hrange]

theorem isOpenOn_honours_iff (hm : m.useCalculatedHolidays = true) :
    (∃ b, m.isOpenOn d s = .ok b ∧ (m.MustBeClosed d s → b = false)) ↔ m.ClosedOn d ∨ m.EarlyClosesRight d s := by
  by_cases h : m.ClosedOn d
  · exact ⟨fun _ => .inl h, fun _ => ⟨false, isOpenOn_closed h, fun _ => rfl⟩⟩
  · rw [or_iff_right h]
    cases hclose : m.calculatedClose d with
    | none => exact configured_honours_iff hm h hclose
    | some hour => exact calculated_honours_iff hm h hclose

theorem useCalculatedHolidays_ofConfig {keyText : Nat → String} {otherInt : Nat → Except Raised Int} {tz : Int → Int}
    {config : Mapping} (h : ofConfig keyText otherInt tz config = .ok m) : m.useCalculatedHolidays = true := by
  rw [ofConfig] at h
  cases hparse : parseMarketHoursOverrides keyText otherInt config with
  | error e =>
    rw [hparse] at h
    cases h
  | ok overrides =>
    rw [hparse] at h
    cases h
    rfl

/-- Exactly where market hours built from a config honour the closure rules. -/
theorem honoursClosures_iff {keyText : Nat → String} {otherInt : Nat → Except Raised Int} {tz : Int → Int} {config : Mapping}
    (h : ofConfig keyText otherInt tz config = .ok m) (now : Int) (dt : Datetime) :
    m.HonoursClosures now dt ↔ m.ClosuresCovered dt := by
  have hm := useCalculatedHolidays_ofConfig h
  constructor
  · rintro ⟨b, hb, hmust⟩
    obtain ⟨haware, hrepr, hb⟩ := isMarketOpen_eq_ok.1 hb
    rw [isOpenAt] at hb
    refine ⟨haware, hrepr, ?_⟩
    cases hdate : dateOf (m.wall (instant dt)) with
    | none =>
      rw [hdate] at hb
      cases hb
    | some d =>
      rw [hdate] at hb
      exact ⟨d, rfl, (isOpenOn_honours_iff hm).1 ⟨b, hb, hmust d hdate⟩⟩
  · rintro ⟨haware, hrepr, d, hdate, hd⟩
    obtain ⟨b, hb, hmust⟩ := (isOpenOn_honours_iff hm).2 hd
    refine ⟨b, isMarketOpen_eq_ok.2 ⟨haware, hrepr, ?_⟩, fun d' hdate' => ?_⟩
    · rw [isOpenAt, hdate]
      exact hb
    · rw [hdate] at hdate'
      cases hdate'
      exact hmust

def standardOffset (_ : Int) : Int := -18000000000

/-- A holiday on 20 March 2026 and an early close at noon on 25 November. -/
def sampleConfig : Mapping :=
  [("market_hours", .map
    [("enable_config_overrides", .bool true),
      ("holiday_overrides", .list [.list [.int 2026, .int 3, .int 20]]),
      ("early_closes", .map [("2026-11-25", .int 12)])])]

def sampleHours : MarketHours where
  tz := standardOffset
  holidayOverrides := [(2026, 3, 20)]
  earlyCloses := Dict.empty.set (2026, 11, 25) 12

def november25 : Date := (dateOfFields 2026 11 25).get (by decide)

/-- Half past noon in New York. -/
def afterNoon : Datetime where
  clock := (datetimeOfFields november25 17 30 0 0).get (by decide)
  utcoffset := some 0

/-- With this config the market is closed from noon. -/
theorem honoursClosures_afterNoon : sampleHours.HonoursClosures 0 afterNoon :=
  (honoursClosures_iff (show ofConfig (fun _ => "") (fun _ => .error .typeError) standardOffset sampleConfig =
      .ok sampleHours by rfl) 0 afterNoon).2
    ⟨rfl, by decide, november25, by decide +kernel,
      .inr (.configured (by decide +kernel) fun hour hconfigured => by
        have hnoon : sampleHours.configuredClose november25 = some 12 := by decide
        rw [hnoon] at hconfigured
        cases hconfigured
        decide)⟩

def december31 : Date := (dateOfFields 2021 12 31).get (by decide)

/-- Ten in the morning in New York, on the Friday before a New Year's Day on a Saturday. -/
def observedNewYear : Datetime where
  clock := (datetimeOfFields december31 15 0 0 0).get (by decide)
  utcoffset := some 0

/-- Without a config the market is open when New Year is observed. -/
theorem not_honoursClosures : ¬ ∀ (keyText : Nat → String) (otherInt : Nat → Except Raised Int) (tz : Int → Int)
    (config : Mapping) (m : MarketHours), ofConfig keyText otherInt tz config = .ok m →
      ∀ (now : Int) (dt : Datetime), m.HonoursClosures now dt := by
  intro h
  obtain ⟨b, hb, hmust⟩ := h (fun _ => "") (fun _ => .error .typeError) standardOffset [] { tz := standardOffset } rfl 0
    observedNewYear
  have hopen : isMarketOpen { tz := standardOffset } 0 (some observedNewYear) = .ok true := by decide +kernel
  rw [hopen] at hb
  cases hb
  obtain ⟨year, l, hl, hd⟩ := listed_iff.2 (.inr (by decide : IsObservedNewYear december31))
  have hdate : dateOf (wall { tz := standardOffset } (instant observedNewYear)) = some december31 := by decide +kernel
  cases hmust december31 hdate (.holiday year l hl hd)

end PearlAlgo.MarketHours
