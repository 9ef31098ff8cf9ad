import PearlAlgo.Py.LocalTime
import PearlAlgo.Py.While
import PearlAlgo.Utils.MarketHours
import Mathlib.Data.Int.LeastGreatest

/-!
# The next market open (`utils/market_hours.py`)

`get_next_market_open` steps by whole hours of the market's clock, from a day later where the market is open. The
market opens on the hour, so that the search finds the opening exactly from the instants that are on the hour
(`findsNextOpen_iff`).
-/

namespace PearlAlgo.MarketHours
open Py

/-! ### The search -/

/-- `is_market_open` of the datetime of an instant, which is there within the years of dates. -/
def isOpenUtc (m : MarketHours) (t : Int) : Except Raised Bool :=
  if Representable t then m.isOpenAt t else .error .overflowError

/-- `.astimezone(UTC)` -/
def astimezoneUtc (m : MarketHours) (r : Reading) : Except Raised Int :=
  if Representable (instantOf m.tz r) then .ok (instantOf m.tz r) else .error .overflowError

/-- `+ timedelta(microseconds=k)`, which goes by the clock and clears `fold`. -/
def addClock (r : Reading) (k : Int) : Except Raised Reading :=
  if Representable (r.wall + k) then .ok ⟨r.wall + k, false⟩ else .error .overflowError

/-- `not self.is_market_open(et_dt.astimezone(UTC))` -/
def notOpen (m : MarketHours) (r : Reading) : Except Raised Bool := ((m.astimezoneUtc r).bind m.isOpenAt).map not

/-- The loop, and the return. -/
def searchOpen (fuel : Nat) (m : MarketHours) (etDt : Reading) : Option (Except Raised Int) :=
  (whileRaising m.notOpen (fun r => addClock r hourMicros) fuel etDt).map fun result => result.bind m.astimezoneUtc

/-- `none` where the fuel does not reach the end of the loop. -/
def getNextMarketOpen (fuel : Nat) (m : MarketHours) (now : Int) (dt : Option Datetime) : Option (Except Raised Int) :=
  let start : Except Raised Reading := do
    let t ← toUtc now dt
    if Representable (m.wall t) then
      let isOpen ← m.isOpenAt t
      if isOpen then addClock (readingAt m.tz t) dayMicros else .ok (readingAt m.tz t)
    else .error .overflowError
  match start with
  | .ok etDt => searchOpen fuel m etDt
  | .error e => some (.error e)

/-! ### When the market opens -/

variable {m : MarketHours} {d : Date} {s t u e : Int}

theorem openInWeek_opening {weekday : Nat} (h : openInWeek weekday s = true) (hbefore : openInWeek weekday (s - 1) = false) :
    s = 18 * hourMicros := by
  have hhour : hourMicros = 3600000000 := rfl
  unfold openInWeek at h hbefore
  split_ifs at h hbefore <;> omega

/-- Within a date the market opens at six in the evening. -/
theorem isOpenOn_opening (h : m.isOpenOn d s = .ok true) (hbefore : m.isOpenOn d (s - 1) ≠ .ok true) :
    s = 18 * hourMicros := by
  rcases m.isOpenOn_cases d with hall | ⟨e, hall⟩ | ⟨close, hall⟩
  · rw [hall] at h
    cases h
  · rw [hall] at h
    cases h
  · rw [hall] at h hbefore
    simp only [ne_eq, Except.ok.injEq] at h hbefore
    split at h
    next => cases h
    next hwindow =>
      split at hbefore
      next => omega
      next => exact openInWeek_opening h (Bool.not_eq_true _ ▸ hbefore)

/-- Whether the market is open can be told on all of a date or on none of it. -/
theorem exists_isOpenOn {b : Bool} (h : m.isOpenOn d s = .ok b) (s' : Int) : ∃ b', m.isOpenOn d s' = .ok b' := by
  rcases m.isOpenOn_cases d with hall | ⟨e, hall⟩ | ⟨close, hall⟩
  · exact ⟨_, hall s'⟩
  · rw [hall] at h
    cases h
  · exact ⟨_, hall s'⟩

theorem isOpenOn_week (h : m.isOpenOn d s = .ok true) : openInWeek d.weekday s = true := by
  rcases m.isOpenOn_cases d with hall | ⟨e, hall⟩ | ⟨close, hall⟩
  · rw [hall] at h
    cases h
  · rw [hall] at h
    cases h
  · rw [hall, Except.ok.injEq] at h
    split at h
    · cases h
    · exact h

theorem openInWeek_sunday (h : s < 18 * hourMicros) : openInWeek 6 s = false := by
  unfold openInWeek
  split_ifs <;> first | rfl | omega

/-- What is open has a date, and is representable. -/
theorem isOpenUtc_eq_ok {b : Bool} : m.isOpenUtc t = .ok b ↔
    Representable t ∧ ∃ d, dateOf (clock m.tz t) = some d ∧ m.isOpenOn d (timeOf (clock m.tz t)) = .ok b := by
  have hwall : m.wall t = clock m.tz t := rfl
  rw [isOpenUtc, isOpenAt, hwall]
  by_cases hrepr : Representable t
  · rw [if_pos hrepr]
    cases hdate : dateOf (clock m.tz t) with
    | none => simp
    | some d => simp [hrepr]
  · simp [hrepr]

theorem not_onSunday (h : m.isOpenUtc t = .ok true) : ¬ OnSunday (clock m.tz t) := by
  obtain ⟨-, d, hdate, hopen⟩ := isOpenUtc_eq_ok.1 h
  rintro ⟨hsunday, hbefore⟩
  rw [dateOf_eq_some] at hdate
  have hweekday : d.weekday = 6 := by
    rw [hdate] at hsunday
    simp only [Date.weekday]
    omega
  have hweek := isOpenOn_week hopen
  rw [hweekday, timeOf, openInWeek_sunday hbefore] at hweek
  cases hweek

/-- The market opens on the hour. -/
theorem opens_on_the_hour (hz : EasternTime m.tz) (h : m.isOpenUtc e = .ok true) (hrepr : Representable (e - 1))
    (hbefore : m.isOpenUtc (e - 1) ≠ .ok true) : clock m.tz e % hourMicros = 0 := by
  have hsunday := not_onSunday h
  rcases lt_trichotomy (m.tz (e - 1)) (m.tz e) with hlt | heq | hgt
  · obtain ⟨hforward, day, htwo⟩ := hz.forward e hlt
    simp only [clock, dayMicros, hourMicros] at *
    omega
  · obtain ⟨-, d, hdate, hopen⟩ := isOpenUtc_eq_ok.1 h
    have hclock : clock m.tz (e - 1) = clock m.tz e - 1 := by
      rw [clock, clock, heq]
      omega
    by_cases hmidnight : clock m.tz e % dayMicros = 0
    · simp only [dayMicros, hourMicros] at *
      omega
    have hdate' : dateOf (clock m.tz (e - 1)) = some d := by
      rw [dateOf_eq_some] at hdate ⊢
      rw [hclock]
      simp only [dayMicros] at *
      omega
    have htime : timeOf (clock m.tz (e - 1)) = timeOf (clock m.tz e) - 1 := by
      rw [hclock]
      simp only [timeOf, dayMicros] at *
      omega
    have hbefore' : m.isOpenOn d (timeOf (clock m.tz e) - 1) ≠ .ok true := by
      intro hopen'
      rw [← htime] at hopen'
      exact hbefore (isOpenUtc_eq_ok.2 ⟨hrepr, d, hdate', hopen'⟩)
    have hsix := isOpenOn_opening hopen hbefore'
    simp only [timeOf, dayMicros, hourMicros] at *
    omega
  · obtain ⟨-, day, hday, hfrom, hto⟩ := hz.backward e hgt
    refine absurd ?_ hsunday
    simp only [OnSunday, clock, dayMicros, hourMicros] at *
    omega

/-! ### What the search finds -/

/-- The earliest open instant at or after `t`. -/
structure IsFirstOpen (m : MarketHours) (t e : Int) : Prop where
  le : t ≤ e
  isOpen : m.isOpenUtc e = .ok true
  first : ∀ u, t ≤ u → u < e → m.isOpenUtc u ≠ .ok true

def TellsUntil (m : MarketHours) (t e : Int) : Prop := ∀ u, t ≤ u → u ≤ e → ∃ b, m.isOpenUtc u = .ok b

/-- `is_market_open` does not raise from `t` on until it says that the market is open. -/
def OpensWithoutRaise (m : MarketHours) (t : Int) : Prop := ∃ e, t ≤ e ∧ m.isOpenUtc e = .ok true ∧ m.TellsUntil t e

theorem OpensWithoutRaise.exists_first (h : m.OpensWithoutRaise t) : ∃ e, m.IsFirstOpen t e ∧ m.TellsUntil t e := by
  obtain ⟨r, hle, hopen, htells⟩ := h
  obtain ⟨e, ⟨hte, he⟩, hleast⟩ := Int.exists_least_of_bdd (P := fun e => t ≤ e ∧ m.isOpenUtc e = .ok true)
    ⟨t, fun e he => he.1⟩ ⟨r, hle, hopen⟩
  refine ⟨e, ⟨hte, he, fun u htu hue hu => ?_⟩, fun u htu hue => htells u htu (hue.trans (hleast r ⟨hle, hopen⟩))⟩
  exact absurd (hleast u ⟨htu, hu⟩) (by omega)

theorem notOpen_eq_ok {r : Reading} {b : Bool} : m.notOpen r = .ok b ↔ m.isOpenUtc (instantOf m.tz r) = .ok (!b) := by
  have hbind : (m.astimezoneUtc r).bind m.isOpenAt = m.isOpenUtc (instantOf m.tz r) := by
    rw [astimezoneUtc, isOpenUtc]
    split <;> rfl
  rw [notOpen, hbind]
  cases m.isOpenUtc (instantOf m.tz r) with
  | error e => simp [Except.map]
  | ok b' => cases b <;> cases b' <;> simp [Except.map]

variable {start r : Reading} {j k : Nat}

theorem addClock_readings (h : Representable (readings start (j + 1)).wall) :
    addClock (readings start j) hourMicros = .ok (readings start (j + 1)) := by
  rw [addClock, wall_readings_succ, if_pos h]
  rfl

theorem eq_of_addClock (h : addClock (readings start j) hourMicros = .ok r) : r = readings start (j + 1) := by
  rw [addClock, wall_readings_succ] at h
  split at h
  · cases h
    rfl
  · cases h

/-- An open instant is the one that its reading means. -/
theorem instantOf_clock (hz : EasternTime m.tz) (h : m.isOpenUtc e = .ok true) :
    instantOf m.tz ⟨clock m.tz e, false⟩ = e := by
  have hsunday := not_onSunday h
  rcases hz.instantOf_spec (clock m.tz e) with ⟨hshown, hfirst⟩ | ⟨-, -, hskipped, -⟩
  · refine le_antisymm (hfirst e rfl) (not_lt.1 fun hlt => ?_)
    rcases hz.clock_lt_or hlt with hclock | ⟨-, hon, -⟩
    · omega
    · exact hsunday hon
  · exact absurd rfl (hskipped e)

/-- From the hour the readings come to the opening. -/
theorem exists_readings (hz : EasternTime m.tz) (hord : ReadInOrder m.tz start) (hhour : start.wall % hourMicros = 0)
    (hfirst : m.IsFirstOpen (instantOf m.tz start) e) (htells : m.TellsUntil (instantOf m.tz start) e) :
    ∃ k, instantOf m.tz (readings start k) = e := by
  rcases hfirst.le.eq_or_lt with heq | hlt
  · exact ⟨0, heq⟩
  obtain ⟨b, hb⟩ := htells (e - 1) (by omega) (by omega)
  have hopens := opens_on_the_hour hz hfirst.isOpen (isOpenUtc_eq_ok.1 hb).1 (hfirst.first (e - 1) (by omega) (by omega))
  have hwall := (hord.shows 0).le
  rcases hz.clock_lt_or hlt with hclock | ⟨-, hon, -⟩
  · obtain ⟨k, hk⟩ : ∃ k : Nat, start.wall + (k + 1 : Nat) * hourMicros = clock m.tz e := by
      refine ⟨((clock m.tz e - start.wall) / hourMicros).toNat - 1, ?_⟩
      simp only [readings, hourMicros] at *
      omega
    refine ⟨k + 1, ?_⟩
    rw [readings, hk]
    exact instantOf_clock hz hfirst.isOpen
  · exact absurd hon (not_onSunday hfirst.isOpen)

theorem searchOpen_of_first (hz : EasternTime m.tz) (hord : ReadInOrder m.tz start) (hstart : Representable start.wall)
    (hhour : start.wall % hourMicros = 0) (hfirst : m.IsFirstOpen (instantOf m.tz start) e)
    (htells : m.TellsUntil (instantOf m.tz start) e) : ∃ fuel, searchOpen fuel m start = some (.ok e) := by
  have hex := exists_readings hz hord hhour hfirst htells
  have hlast := Nat.find_spec hex
  have hne : ∀ j < Nat.find hex, instantOf m.tz (readings start j) ≠ e := fun j hj => Nat.find_min hex hj
  generalize Nat.find hex = k at hlast hne
  obtain ⟨hrepr, d, hdate, -⟩ := isOpenUtc_eq_ok.1 hfirst.isOpen
  have hclock := representable_of_dateOf hdate
  have hwall := (hord.shows k).le
  rw [hlast, wall_readings] at hwall
  have hend : m.notOpen (readings start k) = .ok false := by
    rw [notOpen_eq_ok, hlast]
    exact hfirst.isOpen
  suffices hrounds : ∀ j < k, m.notOpen (readings start j) = .ok true ∧
      addClock (readings start j) hourMicros = .ok (readings start (j + 1)) by
    have hloop : whileRaising m.notOpen (fun r => addClock r hourMicros) (k + 1) start = some (.ok (readings start k)) :=
      whileRaising_of_first (f := readings start) hrounds hend
    refine ⟨k + 1, ?_⟩
    rw [searchOpen, hloop]
    simp only [Option.map_some, Except.bind, astimezoneUtc, hlast, if_pos hrepr]
  refine fun j hj => ⟨?_, ?_⟩
  · have hle : instantOf m.tz (readings start j) ≤ e := by
      by_contra hnot
      rcases hz.clock_lt_or (not_le.1 hnot) with hlater | ⟨hon, -⟩
      · have hshows := (hord.shows j).le
        rw [wall_readings] at hshows
        simp only [hourMicros] at hwall hshows
        omega
      · exact not_onSunday hfirst.isOpen hon
    have hlt : instantOf m.tz (readings start j) < e := lt_of_le_of_ne hle (hne j hj)
    obtain ⟨b, hb⟩ := htells _ (hord.le j) hle
    have hclosed := hfirst.first _ (hord.le j) hlt
    rw [hb] at hclosed
    cases b with
    | false => exact notOpen_eq_ok.2 hb
    | true => exact absurd rfl hclosed
  · refine addClock_readings ?_
    rw [wall_readings]
    simp only [Representable, hourMicros] at *
    omega

theorem exists_of_searchOpen {fuel : Nat} (h : searchOpen fuel m start = some (.ok e)) :
    ∃ k, e = instantOf m.tz (readings start k) ∧ m.isOpenUtc e = .ok true ∧
      ∀ j < k, m.isOpenUtc (instantOf m.tz (readings start j)) = .ok false := by
  rw [searchOpen, Option.map_eq_some_iff] at h
  obtain ⟨result, hloop, hresult⟩ := h
  cases result with
  | error e => cases hresult
  | ok r =>
    obtain ⟨k, rfl, hend, hbefore⟩ :=
      exists_of_whileRaising (f := readings start) (fun j s hs => eq_of_addClock hs) hloop
    have hopen := notOpen_eq_ok.1 hend
    have he : instantOf m.tz (readings start k) = e := by
      have hrepr := (isOpenUtc_eq_ok.1 hopen).1
      simp only [Except.bind, astimezoneUtc, if_pos hrepr] at hresult
      exact Except.ok.inj hresult
    exact ⟨k, he.symm, he ▸ hopen, fun j hj => notOpen_eq_ok.1 (hbefore j hj)⟩

/-- Readings an hour apart come to every day. -/
theorem exists_reading_on {w day : Int} (hfrom : w / dayMicros ≤ day) (hto : day ≤ (w + k * hourMicros) / dayMicros) :
    ∃ j ≤ k, (w + j * hourMicros) / dayMicros = day := by
  induction k with
  | zero => exact ⟨0, le_rfl, by simp only [dayMicros, hourMicros] at *; omega⟩
  | succ k ih =>
    by_cases hle : day ≤ (w + k * hourMicros) / dayMicros
    · obtain ⟨j, hj, hday⟩ := ih hle
      exact ⟨j, hj.trans (Nat.le_succ k), hday⟩
    · exact ⟨k + 1, le_rfl, by simp only [dayMicros, hourMicros] at *; omega⟩

/-- A search that does not raise has come to every date up to its end. -/
theorem tellsUntil_of_search (hz : EasternTime m.tz) (hord : ReadInOrder m.tz start) (he : e = instantOf m.tz (readings start k))
    (hopen : m.isOpenUtc e = .ok true) (hbefore : ∀ j < k, m.isOpenUtc (instantOf m.tz (readings start j)) = .ok false) :
    m.TellsUntil (instantOf m.tz start) e := by
  have hall : ∀ j ≤ k, ∃ b, m.isOpenUtc (instantOf m.tz (readings start j)) = .ok b := by
    intro j hj
    rcases hj.lt_or_eq with hlt | rfl
    · exact ⟨false, hbefore j hlt⟩
    · exact ⟨true, he ▸ hopen⟩
  intro u hfrom hto
  have hlow : start.wall / dayMicros ≤ clock m.tz u / dayMicros := by
    have hday : clock m.tz (instantOf m.tz start) / dayMicros = start.wall / dayMicros := (hord.shows 0).day_eq
    rw [← hday]
    rcases hfrom.eq_or_lt with rfl | hlt
    · exact le_rfl
    · rcases hz.clock_lt_or hlt with hclock | ⟨-, -, hsame, -⟩
      · exact Int.ediv_le_ediv (by simp [dayMicros]) hclock.le
      · exact hsame.le
  have hhigh : clock m.tz u / dayMicros ≤ (start.wall + k * hourMicros) / dayMicros := by
    rw [← wall_readings, ← (hord.shows k).day_eq, ← he]
    rcases hto.eq_or_lt with rfl | hlt
    · exact le_rfl
    · rcases hz.clock_lt_or hlt with hclock | ⟨-, hon, -⟩
      · exact Int.ediv_le_ediv (by simp [dayMicros]) hclock.le
      · exact absurd hon (not_onSunday hopen)
  obtain ⟨j, hj, hday⟩ := exists_reading_on hlow hhigh
  obtain ⟨b, hb⟩ := hall j hj
  obtain ⟨b₀, hb₀⟩ := hall 0 k.zero_le
  obtain ⟨-, d, hdate, hd⟩ := isOpenUtc_eq_ok.1 hb
  obtain ⟨b', hb'⟩ := exists_isOpenOn hd (timeOf (clock m.tz u))
  refine ⟨b', isOpenUtc_eq_ok.2 ⟨?_, d, ?_, hb'⟩⟩
  · have hlo := (isOpenUtc_eq_ok.1 hb₀).1.1
    have hhi := (isOpenUtc_eq_ok.1 hopen).1.2
    exact ⟨hlo.trans hfrom, hto.trans_lt hhi⟩
  · rw [dateOf_eq_some] at hdate ⊢
    rw [← hday, ← wall_readings, ← (hord.shows j).day_eq]
    exact hdate

/-! ### Where it finds the next open -/

/-- A day later by the clock. -/
def dayLater (m : MarketHours) (t : Int) : Int := instantOf m.tz ⟨m.wall t + dayMicros, false⟩

/-- The first open instant after the next closure. -/
def IsReopening (m : MarketHours) (t e : Int) : Prop :=
  ∃ c, t < c ∧ m.isOpenUtc c = .ok false ∧ (∀ u, t ≤ u → u < c → m.isOpenUtc u ≠ .ok false) ∧ m.IsFirstOpen c e

def FindsNextOpen (m : MarketHours) (now : Int) (dt : Datetime) : Prop :=
  (m.isMarketOpen now (some dt) = .ok false →
    ∃ fuel e, getNextMarketOpen fuel m now (some dt) = some (.ok e) ∧ m.IsFirstOpen (instant dt) e) ∧
  (m.isMarketOpen now (some dt) = .ok true →
    ∃ fuel e, getNextMarketOpen fuel m now (some dt) = some (.ok e) ∧ m.IsReopening (instant dt) e)

def OnTheHour (m : MarketHours) (t : Int) : Prop := m.wall t % hourMicros = 0

/-- Within the day the market closes, and it does not open again before the day is over. -/
structure ClosesWithinDay (m : MarketHours) (t : Int) : Prop where
  closes : ∃ c, t < c ∧ c ≤ m.dayLater t ∧ m.isOpenUtc c = .ok false
  stays : ∀ c u, t < c → m.isOpenUtc c = .ok false → c < u → u < m.dayLater t → m.isOpenUtc u ≠ .ok true

/-- The datetime is on the hour; where the market is open, it closes within the day and stays closed until it is over;
and from there on nothing raises until the market is open. -/
def NextOpenCovered (m : MarketHours) (now : Int) (dt : Datetime) : Prop :=
  (m.isMarketOpen now (some dt) = .ok false → m.OnTheHour (instant dt) ∧ m.OpensWithoutRaise (instant dt)) ∧
  (m.isMarketOpen now (some dt) = .ok true →
    m.OnTheHour (instant dt) ∧ m.ClosesWithinDay (instant dt) ∧ m.OpensWithoutRaise (m.dayLater (instant dt)))

variable {now : Int} {dt : Datetime}

theorem isOpenUtc_of_isMarketOpen {b : Bool} (h : m.isMarketOpen now (some dt) = .ok b) : m.isOpenUtc (instant dt) = .ok b := by
  obtain ⟨-, hrepr, hopen⟩ := isMarketOpen_eq_ok.1 h
  rw [isOpenUtc, if_pos hrepr]
  exact hopen

theorem representable_wall {b : Bool} (h : m.isOpenUtc t = .ok b) : Representable (m.wall t) := by
  obtain ⟨-, d, hdate, -⟩ := isOpenUtc_eq_ok.1 h
  exact representable_of_dateOf hdate

theorem getNextMarketOpen_eq {b : Bool} (h : m.isMarketOpen now (some dt) = .ok b) (fuel : Nat) :
    getNextMarketOpen fuel m now (some dt) =
      match (if b then addClock (readingAt m.tz (instant dt)) dayMicros else .ok (readingAt m.tz (instant dt)) :
        Except Raised Reading) with
      | .ok etDt => searchOpen fuel m etDt
      | .error e => some (.error e) := by
  obtain ⟨haware, hrepr, hopen⟩ := isMarketOpen_eq_ok.1 h
  have hwall := representable_wall (isOpenUtc_of_isMarketOpen h)
  rw [getNextMarketOpen, toUtc_eq_ok.2 ⟨haware, hrepr, rfl⟩]
  simp only [bind, Except.bind, if_pos hwall, hopen]

/-- The opening that a search comes to is on the hour of its readings. -/
theorem emod_hour_of_opening (hz : EasternTime m.tz) (hord : ReadInOrder m.tz start) (he : e = instantOf m.tz (readings start k))
    {b : Bool} (ht : m.isOpenUtc t = .ok b) (hlt : t < e) (hopen : m.isOpenUtc e = .ok true)
    (hbefore : m.isOpenUtc (e - 1) ≠ .ok true) : start.wall % hourMicros = 0 := by
  have hlo := (isOpenUtc_eq_ok.1 ht).1.1
  have hhi := (isOpenUtc_eq_ok.1 hopen).1.2
  have hopens := opens_on_the_hour hz hopen ⟨by omega, by omega⟩ hbefore
  rwa [he, (hord.shows k).emod_hour, wall_readings, Int.add_mul_emod_self_right] at hopens

theorem closed_finds_iff (hz : EasternTime m.tz) (h : m.isOpenUtc t = .ok false) :
    (∃ fuel e, searchOpen fuel m (readingAt m.tz t) = some (.ok e) ∧ m.IsFirstOpen t e) ↔
      m.OnTheHour t ∧ m.OpensWithoutRaise t := by
  have hord := hz.readInOrder_readingAt t
  have hinstant := hz.instantOf_readingAt t
  constructor
  · rintro ⟨fuel, e, hsearch, hfirst⟩
    obtain ⟨k, he, hopen, hbefore⟩ := exists_of_searchOpen hsearch
    have htells := tellsUntil_of_search hz hord he hopen hbefore
    rw [hinstant] at htells
    refine ⟨?_, e, hfirst.le, hopen, htells⟩
    have hlt : t < e := by
      refine lt_of_le_of_ne hfirst.le ?_
      rintro rfl
      rw [h] at hopen
      cases hopen
    exact emod_hour_of_opening hz hord he h hlt hopen (hfirst.first (e - 1) (by omega) (by omega))
  · rintro ⟨hhour, hopens⟩
    obtain ⟨e, hfirst, htells⟩ := hopens.exists_first
    obtain ⟨fuel, hsearch⟩ := searchOpen_of_first hz hord (representable_wall h) hhour (hinstant.symm ▸ hfirst)
      (hinstant.symm ▸ htells)
    exact ⟨fuel, e, hsearch, hfirst⟩

theorem open_finds_iff (hz : EasternTime m.tz) (h : m.isOpenUtc t = .ok true) :
    (∃ fuel e, (match addClock (readingAt m.tz t) dayMicros with
      | .ok etDt => searchOpen fuel m etDt
      | .error e => some (.error e)) = some (.ok e) ∧ m.IsReopening t e) ↔
        m.OnTheHour t ∧ m.ClosesWithinDay t ∧ m.OpensWithoutRaise (m.dayLater t) := by
  have hord := hz.readInOrder_first (m.wall t + dayMicros)
  have hafter : t ≤ m.dayLater t := by
    refine hz.le_instantOf ?_
    simp only [wall, clock, dayMicros, hourMicros]
    omega
  have hmod : (m.wall t + dayMicros) % hourMicros = m.wall t % hourMicros := by
    simp only [dayMicros, hourMicros]
    omega
  constructor
  · rintro ⟨fuel, e, hsearch, c, htc, hc, hcfirst, hfirst⟩
    rw [addClock] at hsearch
    split at hsearch
    next etDt hstart =>
      split at hstart
      next =>
        cases hstart
        obtain ⟨k, he, hopen, hbefore⟩ := exists_of_searchOpen hsearch
        have htells := tellsUntil_of_search hz hord he hopen hbefore
        have hle : m.dayLater t ≤ e := he ▸ hord.le k
        have hce : c < e := by
          refine lt_of_le_of_ne hfirst.le ?_
          rintro rfl
          rw [hc] at hopen
          cases hopen
        refine ⟨?_, ⟨⟨c, htc, ?_, hc⟩, fun c' u htc' hc' hcu hu => ?_⟩, e, hle, hopen, htells⟩
        · have hwhole := emod_hour_of_opening hz hord he hc hce hopen (hfirst.first (e - 1) (by omega) (by omega))
          exact hmod.symm.trans hwhole
        · rcases Nat.eq_zero_or_pos k with rfl | hk
          · have hzero : e = m.dayLater t := he
            omega
          · by_contra hnot
            exact hcfirst (m.dayLater t) hafter (by omega) (hbefore 0 hk)
        · have hcc : c ≤ c' := by
            by_contra hnot
            exact hcfirst c' htc'.le (by omega) hc'
          exact hfirst.first u (by omega) (by omega)
      next => cases hstart
    next => cases hsearch
  · rintro ⟨hhour, ⟨⟨c₀, htc₀, hc₀le, hc₀⟩, hstays⟩, hopens⟩
    obtain ⟨e, hfirst, htells⟩ := hopens.exists_first
    obtain ⟨b, hb⟩ := htells (m.dayLater t) le_rfl hfirst.le
    have hrepr : Representable (m.wall t + dayMicros) := by
      have hday : clock m.tz (m.dayLater t) / dayMicros = (m.wall t + dayMicros) / dayMicros := (hord.shows 0).day_eq
      rw [representable_iff, ← hday, ← representable_iff]
      exact representable_wall hb
    obtain ⟨fuel, hsearch⟩ := searchOpen_of_first hz hord hrepr (hmod.trans hhour) hfirst htells
    have hstart : addClock (readingAt m.tz t) dayMicros = .ok ⟨m.wall t + dayMicros, false⟩ := if_pos hrepr
    obtain ⟨c, ⟨htc, hc⟩, hleast⟩ := Int.exists_least_of_bdd (P := fun c => t < c ∧ m.isOpenUtc c = .ok false)
      ⟨t, fun c hc => hc.1.le⟩ ⟨c₀, htc₀, hc₀⟩
    have hcle := hleast c₀ ⟨htc₀, hc₀⟩
    have hce := hfirst.le
    refine ⟨fuel, e, by rw [hstart]; exact hsearch, c, htc, hc, fun u htu huc hu => ?_, ⟨by omega, hfirst.isOpen, ?_⟩⟩
    · rcases htu.eq_or_lt with rfl | hlt
      · rw [h] at hu
        cases hu
      · exact absurd (hleast u ⟨hlt, hu⟩) (by omega)
    · intro u hcu hue
      rcases lt_or_ge u (m.dayLater t) with hlt | hge
      · rcases hcu.eq_or_lt with rfl | hcu
        · rw [hc]
          simp
        · exact hstays c u htc hc hcu hlt
      · exact hfirst.first u hge hue

/-- Exactly where `get_next_market_open` finds the next open, in any zone that keeps eastern time. -/
theorem findsNextOpen_iff (hz : EasternTime m.tz) (now : Int) (dt : Datetime) :
    m.FindsNextOpen now dt ↔ m.NextOpenCovered now dt := by
  refine and_congr (forall_congr' fun hclosed => ?_) (forall_congr' fun hopen => ?_)
  · rw [← closed_finds_iff hz (isOpenUtc_of_isMarketOpen hclosed)]
    simp only [getNextMarketOpen_eq hclosed]
    rfl
  · rw [← open_finds_iff hz (isOpenUtc_of_isMarketOpen hopen)]
    simp only [getNextMarketOpen_eq hopen]
    rfl

theorem easternTime_const {k : Int} (h : -dayMicros < k ∧ k < dayMicros) : EasternTime fun _ => k := by
  constructor
  · exact fun _ => h
  · exact fun _ _ hne _ _ => absurd rfl hne
  · exact fun _ hlt => absurd hlt (lt_irrefl k)
  · exact fun _ hlt => absurd hlt (lt_irrefl k)

def winterHours : MarketHours where
  tz _ := -18000000000

def monday : Date := (dateOfFields 2026 1 12).get (by decide)

/-- Five in the afternoon in New York, when the market closes for an hour. -/
def fiveOClock : Datetime where
  clock := (datetimeOfFields monday 22 0 0 0).get (by decide)
  utcoffset := some 0

theorem covered_fiveOClock : winterHours.NextOpenCovered 0 fiveOClock := by
  have hclosed : winterHours.isMarketOpen 0 (some fiveOClock) = .ok false := by decide +kernel
  have ht : instant fiveOClock = 63903938400000000 := by decide +kernel
  have hord : (monday.toordinal : Int) = 739628 := by decide
  have hsix : winterHours.isOpenOn monday (18 * hourMicros) = .ok true := by decide +kernel
  have hdate : ∀ u, instant fiveOClock ≤ u → u ≤ instant fiveOClock + hourMicros →
      Representable u ∧ dateOf (clock winterHours.tz u) = some monday := by
    intro u hfrom hto
    rw [dateOf_eq_some, hord]
    simp only [ht, Representable, clock, winterHours, dayMicros, hourMicros] at *
    omega
  have hhour : winterHours.wall (instant fiveOClock) % hourMicros = 0 := by decide +kernel
  have hle : instant fiveOClock ≤ instant fiveOClock + hourMicros := by simp [hourMicros]
  refine ⟨fun _ => ⟨hhour, instant fiveOClock + hourMicros, hle, ?_, fun u hfrom hto => ?_⟩, fun hopen => ?_⟩
  · obtain ⟨hrepr, hd⟩ := hdate (instant fiveOClock + hourMicros) hle le_rfl
    have htime : timeOf (clock winterHours.tz (instant fiveOClock + hourMicros)) = 18 * hourMicros := by decide +kernel
    exact isOpenUtc_eq_ok.2 ⟨hrepr, monday, hd, htime ▸ hsix⟩
  · obtain ⟨hrepr, hd⟩ := hdate u hfrom hto
    obtain ⟨b, hb⟩ := exists_isOpenOn hsix (timeOf (clock winterHours.tz u))
    exact ⟨b, isOpenUtc_eq_ok.2 ⟨hrepr, monday, hd, hb⟩⟩
  · rw [hclosed] at hopen
    cases hopen

/-- From five o'clock the search finds the opening at six. -/
theorem findsNextOpen_fiveOClock : winterHours.FindsNextOpen 0 fiveOClock :=
  (findsNextOpen_iff (easternTime_const (by decide)) 0 fiveOClock).2 covered_fiveOClock

/-- Half past five. -/
def halfPastFive : Datetime where
  clock := (datetimeOfFields monday 22 30 0 0).get (by decide)
  utcoffset := some 0

/-- From half past five the search steps over the opening at six. -/
theorem not_findsNextOpen :
    ¬ ∀ (m : MarketHours), EasternTime m.tz → ∀ (now : Int) (dt : Datetime), m.FindsNextOpen now dt := by
  intro h
  have hz : EasternTime winterHours.tz := easternTime_const (by decide)
  have hclosed : winterHours.isMarketOpen 0 (some halfPastFive) = .ok false := by decide +kernel
  obtain ⟨fuel, e, hsearch, hfirst⟩ := (h winterHours hz 0 halfPastFive).1 hclosed
  rw [getNextMarketOpen_eq hclosed] at hsearch
  have hhour := ((closed_finds_iff hz (isOpenUtc_of_isMarketOpen hclosed)).1 ⟨fuel, e, hsearch, hfirst⟩).1
  have hhalf : winterHours.wall (instant halfPastFive) % hourMicros ≠ 0 := by decide +kernel
  exact hhalf hhour

end PearlAlgo.MarketHours
