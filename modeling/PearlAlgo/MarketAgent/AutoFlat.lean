import Mathlib.Algebra.Order.Ring.Rat
import Mathlib.Data.Rat.Floor
import PearlAlgo.Lts.Reach

/-!
# Auto-flat (`market_agent/service.py`)

The daily, Friday and weekend rules of a service cycle, which flatten all virtual trades and remember the local date
on which they closed some. In between, trades are entered and closed by others. `autoFlat_of_safe` says what a run
whose steps are safe has closed.
-/

namespace PearlAlgo
open Lts

inductive FlatReason
  | dailyAutoFlat
  | fridayAutoFlat
  | weekendAutoFlat
deriving DecidableEq

/-- A time zone: what its clock shows, in seconds from a midnight. Its date does not go back. -/
structure LocalZone where
  wall : ℚ → ℚ
  mono : ∀ t t', t ≤ t' → (wall t / 86400).floor ≤ (wall t' / 86400).floor

namespace LocalZone
variable (z : LocalZone) (t : ℚ)

/-- `.date()`, where day 0 is a Thursday. -/
def date : Int := (z.wall t / 86400).floor

/-- `.time()`, in seconds. -/
def time : ℚ := z.wall t - z.date t * 86400

/-- Monday is 0. -/
def weekday : Int := (z.date t + 3) % 7

end LocalZone

/-- The settings. `zone` is `ZoneInfo(self._auto_flat_timezone)`, or `none` where that raises. Times are the seconds
of the day. -/
structure AutoFlatSettings where
  enabled : Bool := false
  dailyEnabled : Bool := false
  fridayEnabled : Bool := true
  weekendEnabled : Bool := true
  dailyTime : ℚ := 57300
  fridayTime : ℚ := 60900
  zone : Option LocalZone
  newYork : LocalZone
  virtualPnlEnabled : Bool := true

def AutoFlatSettings.localZone (cfg : AutoFlatSettings) : LocalZone := cfg.zone.getD cfg.newYork

structure OpenTrade where
  signalId : String
  entered : ℚ
deriving DecidableEq

/-- A record with status `entered` that the state manager returns, its id stripped, and what `track_exit` does with
it: raise, reject the prices, or close the trade if it is open. -/
structure ActiveRecord where
  signalId : String
  raises : Bool := false
  rejected : Bool := false
deriving DecidableEq

/-- What an auto-flat rule closed, in which cycle and on which local date. -/
structure FlatClose where
  reason : FlatReason
  date : Int
  cycle : Nat
  trade : OpenTrade
deriving DecidableEq

/-- The service. No code reads `cycles` and `closes`. -/
structure FlatState where
  book : List OpenTrade := []
  lastDates : FlatReason → Option Int := fun _ => none
  clock : ℚ
  cycles : Nat := 0
  closes : List FlatClose := []

/-- A cycle: the time, whether the market is open where that is known, the two reads of the records, and whether the
latest bar has a price. -/
structure FlatCycle where
  now : ℚ
  marketOpen : Option Bool
  active : List ActiveRecord
  closeable : List ActiveRecord
  priced : Bool

inductive FlatAct
  | enter (now : ℚ) (signalId : String)
  | exit (now : ℚ) (signalId : String)
  | cycle (c : FlatCycle)

section
variable (cfg : AutoFlatSettings)

namespace FlatState

def autoFlatDue (now : ℚ) (marketOpen : Option Bool) (s : FlatState) : Option FlatReason :=
  let z := cfg.localZone
  let date := z.date now
  let weekday := z.weekday now
  let time := z.time now
  let isWeekendWindow := weekday = 5 ∨ weekday = 6 ∧ time < 64800 ∨ weekday = 4 ∧ 61200 ≤ time
  if cfg.enabled ∧ cfg.dailyEnabled ∧ cfg.dailyTime ≤ time ∧ s.lastDates .dailyAutoFlat ≠ some date then
    some .dailyAutoFlat
  else if cfg.fridayEnabled ∧ weekday = 4 ∧ cfg.fridayTime ≤ time ∧ s.lastDates .fridayAutoFlat ≠ some date then
    some .fridayAutoFlat
  else if cfg.weekendEnabled ∧ marketOpen = some false ∧ isWeekendWindow ∧
      s.lastDates .weekendAutoFlat ≠ some date then
    some .weekendAutoFlat
  else none

/-- The loop of `_close_all_virtual_trades`: the trades that it closes, its count, and whether it raises. -/
def closeLoop : List OpenTrade → List ActiveRecord → List OpenTrade × Nat × Bool
  | _, [] => ([], 0, false)
  | book, r :: records =>
    if r.signalId = "" then closeLoop book records
    else if r.raises then ([], 0, true)
    else
      let closed := if r.rejected then [] else book.filter fun t => t.signalId = r.signalId
      let rest := closeLoop (book.filter fun t => t ∉ closed) records
      (closed ++ rest.1, rest.2.1 + 1, rest.2.2)

/-- `_close_all_virtual_trades` -/
def closeAll (c : FlatCycle) (s : FlatState) : List OpenTrade × Nat × Bool :=
  if cfg.virtualPnlEnabled ∧ c.priced then closeLoop s.book c.closeable else ([], 0, false)

/-- The date that is remembered: the local one, or the UTC one where the time zone cannot be read. -/
def recordedDate (now : ℚ) : Int :=
  match cfg.zone with
  | some z => z.date now
  | none => (now / 86400).floor

/-- The auto-flat rules at the end of a cycle. -/
def runCycle (c : FlatCycle) (s : FlatState) : FlatState :=
  let s := { s with clock := c.now, cycles := s.cycles + 1 }
  match s.autoFlatDue cfg c.now c.marketOpen with
  | none => s
  | some reason =>
    if c.active = [] then s
    else
      let (closed, count, raised) := s.closeAll cfg c
      { s with
        book := s.book.filter fun t => t ∉ closed
        closes := s.closes ++ closed.map fun t => ⟨reason, cfg.localZone.date c.now, s.cycles, t⟩
        lastDates := fun r =>
          if r = reason ∧ 0 < count ∧ ¬ raised then some (recordedDate cfg c.now) else s.lastDates r }

def step (s : FlatState) : FlatAct → Option FlatState
  | .enter now signalId => if s.clock ≤ now then some { s with book := s.book ++ [⟨signalId, now⟩], clock := now } else none
  | .exit now signalId =>
    if s.clock ≤ now then some { s with book := s.book.filter fun t => t.signalId ≠ signalId, clock := now } else none
  | .cycle c => if s.clock ≤ c.now then some (s.runCycle cfg c) else none

end FlatState

/-! ### What a run should close -/

/-- The record has the loop close the trade. -/
def ActiveRecord.Closes (book : List OpenTrade) (r : ActiveRecord) (t : OpenTrade) : Prop :=
  r.signalId ≠ "" ∧ r.raises = false ∧ r.rejected = false ∧ t ∈ book ∧ t.signalId = r.signalId

def OpenTrade.EnteredBefore (date : Int) (t : OpenTrade) : Prop :=
  cfg.localZone.wall t.entered < date * 86400 + cfg.dailyTime

namespace FlatState

/-- Each reason closes trades in one cycle of a date at most. -/
def OncePerDate (s : FlatState) : Prop :=
  ∀ f ∈ s.closes, ∀ f' ∈ s.closes, f.reason = f'.reason → f.date = f'.date → f.cycle = f'.cycle

def DailyBefore (s : FlatState) : Prop :=
  ∀ f ∈ s.closes, f.reason = .dailyAutoFlat → f.trade.EnteredBefore cfg f.date

/-- When a rule triggers: no `track_exit` raises after another one has closed a trade, the date that is remembered is
the local one, and the daily rule finds no trade that was entered at its time or later. -/
structure SafeCycle (s : FlatState) (reason : FlatReason) (c : FlatCycle) : Prop where
  raises : ∀ pre r post, c.closeable = pre ++ r :: post → r.signalId ≠ "" → r.raises = true →
    ∀ r' ∈ pre, ∀ t, ¬ r'.Closes s.book t
  zone : recordedDate cfg c.now = cfg.localZone.date c.now
  before : reason = .dailyAutoFlat → ∀ r ∈ c.closeable, ∀ t, r.Closes s.book t →
    t.EnteredBefore cfg (cfg.localZone.date c.now)

def Safe (s : FlatState) : FlatAct → Prop
  | .cycle c => ∀ reason, s.autoFlatDue cfg c.now c.marketOpen = some reason → c.active ≠ [] →
      cfg.virtualPnlEnabled = true → c.priced = true → s.SafeCycle cfg reason c
  | _ => True

end FlatState
end

/-! ### The loop -/

namespace FlatState
variable {cfg : AutoFlatSettings} {s s' : FlatState} {book : List OpenTrade} {records : List ActiveRecord}
  {t : OpenTrade}

theorem Closes.of_filter {r : ActiveRecord} {p : OpenTrade → Bool} (h : r.Closes (book.filter p) t) :
    r.Closes book t := by
  obtain ⟨hid, hraises, hrejected, hbook, hsame⟩ := h
  exact ⟨hid, hraises, hrejected, (List.mem_filter.1 hbook).1, hsame⟩

/-- A turn of the loop: the record closes the open trades with its id, unless it is rejected. -/
theorem closeLoop_cons (book : List OpenTrade) (records : List ActiveRecord) {r : ActiveRecord}
    (hid : r.signalId ≠ "") (hraises : r.raises = false) :
    ∃ closed p, (∀ t ∈ closed, r.Closes book t) ∧ closeLoop book (r :: records) =
      (closed ++ (closeLoop (book.filter p) records).1, (closeLoop (book.filter p) records).2.1 + 1,
        (closeLoop (book.filter p) records).2.2) := by
  let closed := if r.rejected then [] else book.filter fun t => t.signalId = r.signalId
  refine ⟨closed, fun t => t ∉ closed, ?_, ?_⟩
  · intro t ht
    by_cases hrejected : r.rejected = true
    · rw [show closed = [] from if_pos hrejected] at ht
      cases ht
    · rw [show closed = book.filter fun t => t.signalId = r.signalId from if_neg hrejected] at ht
      obtain ⟨hbook, hsame⟩ := List.mem_filter.1 ht
      exact ⟨hid, hraises, by simpa using hrejected, hbook, by simpa using hsame⟩
  · rw [closeLoop, if_neg hid, if_neg (by rw [hraises]; exact Bool.false_ne_true)]

theorem closeLoop_closed (h : t ∈ (closeLoop book records).1) : ∃ r ∈ records, r.Closes book t := by
  induction records generalizing book with
  | nil => cases h
  | cons r records ih =>
    by_cases hid : r.signalId = ""
    · rw [closeLoop, if_pos hid] at h
      obtain ⟨r', hmem, hr'⟩ := ih h
      exact ⟨r', List.mem_cons_of_mem _ hmem, hr'⟩
    rcases hraises : r.raises
    · obtain ⟨closed, p, hclosed, hloop⟩ := closeLoop_cons book records hid hraises
      rw [hloop] at h
      rcases List.mem_append.1 h with h | h
      · exact ⟨r, List.mem_cons_self, hclosed t h⟩
      · obtain ⟨r', hmem, hr'⟩ := ih h
        exact ⟨r', List.mem_cons_of_mem _ hmem, Closes.of_filter hr'⟩
    · rw [closeLoop, if_neg hid, if_pos hraises] at h
      cases h

/-- Where the loop raises, the records before that one closed what it closed. -/
theorem closeLoop_raised (h : (closeLoop book records).2.2 = true) :
    ∃ pre r post, records = pre ++ r :: post ∧ r.signalId ≠ "" ∧ r.raises = true ∧
      ∀ t ∈ (closeLoop book records).1, ∃ r' ∈ pre, r'.Closes book t := by
  induction records generalizing book with
  | nil => cases h
  | cons r records ih =>
    by_cases hid : r.signalId = ""
    · rw [closeLoop, if_pos hid] at h ⊢
      obtain ⟨pre, r', post, rfl, hid', hraises', hpre⟩ := ih h
      refine ⟨r :: pre, r', post, rfl, hid', hraises', fun t ht => ?_⟩
      obtain ⟨r'', hmem, hr''⟩ := hpre t ht
      exact ⟨r'', List.mem_cons_of_mem _ hmem, hr''⟩
    rcases hraises : r.raises
    · obtain ⟨closed, p, hclosed, hloop⟩ := closeLoop_cons book records hid hraises
      rw [hloop] at h ⊢
      obtain ⟨pre, r', post, rfl, hid', hraises', hpre⟩ := ih h
      refine ⟨r :: pre, r', post, rfl, hid', hraises', fun t ht => ?_⟩
      rcases List.mem_append.1 ht with ht | ht
      · exact ⟨r, List.mem_cons_self, hclosed t ht⟩
      · obtain ⟨r'', hmem, hr''⟩ := hpre t ht
        exact ⟨r'', List.mem_cons_of_mem _ hmem, Closes.of_filter hr''⟩
    · rw [closeLoop, if_neg hid, if_pos hraises] at h ⊢
      exact ⟨[], r, records, rfl, hid, hraises, fun t ht => absurd ht List.not_mem_nil⟩

theorem closeLoop_count (h : (closeLoop book records).1 ≠ []) : 0 < (closeLoop book records).2.1 := by
  induction records generalizing book with
  | nil => exact absurd rfl h
  | cons r records ih =>
    rw [closeLoop] at h ⊢
    split_ifs at h ⊢ with hid hraises
    · exact ih h
    · exact absurd rfl h
    · exact Nat.succ_pos _
    · exact Nat.succ_pos _

/-! ### Runs -/

/-- `autoFlatDue` gives no rule whose marker is the date. -/
theorem marker_ne_of_due {now : ℚ} {marketOpen : Option Bool} {reason : FlatReason}
    (h : s.autoFlatDue cfg now marketOpen = some reason) : s.lastDates reason ≠ some (cfg.localZone.date now) := by
  unfold autoFlatDue at h
  simp only at h
  split_ifs at h with hdaily hfriday hweekend
  · obtain rfl := Option.some.inj h
    exact hdaily.2.2.2
  · obtain rfl := Option.some.inj h
    exact hfriday.2.2.2
  · obtain rfl := Option.some.inj h
    exact hweekend.2.2.2

/-- What was closed is right, and the marker of its reason is no earlier than its date and no later than the date of
the clock. -/
structure Recorded (cfg : AutoFlatSettings) (s : FlatState) : Prop where
  once : s.OncePerDate
  before : s.DailyBefore cfg
  marker : ∀ f ∈ s.closes, ∃ d, s.lastDates f.reason = some d ∧ f.date ≤ d ∧ d ≤ cfg.localZone.date s.clock

theorem Recorded.tick (hs : s.Recorded cfg) (hcloses : s'.closes = s.closes) (hlast : s'.lastDates = s.lastDates)
    (hclock : s.clock ≤ s'.clock) : s'.Recorded cfg := by
  refine ⟨?_, ?_, ?_⟩
  · unfold OncePerDate
    rw [hcloses]
    exact hs.once
  · unfold DailyBefore
    rw [hcloses]
    exact hs.before
  · rw [hcloses, hlast]
    intro f hf
    obtain ⟨d, hd, hle, hclk⟩ := hs.marker f hf
    exact ⟨d, hd, hle, hclk.trans (cfg.localZone.mono _ _ hclock)⟩

/-- When a safe rule closes trades, it remembers the local date. -/
theorem closeAll_of_safe {c : FlatCycle} {reason : FlatReason} (hsafe : s.Safe cfg (.cycle c))
    (hdue : s.autoFlatDue cfg c.now c.marketOpen = some reason) (hactive : c.active ≠ []) :
    (∀ t ∈ (s.closeAll cfg c).1, reason = .dailyAutoFlat → t.EnteredBefore cfg (cfg.localZone.date c.now)) ∧
      ((s.closeAll cfg c).1 ≠ [] → 0 < (s.closeAll cfg c).2.1 ∧ (s.closeAll cfg c).2.2 = false) ∧
      (0 < (s.closeAll cfg c).2.1 → recordedDate cfg c.now = cfg.localZone.date c.now) := by
  by_cases hprice : cfg.virtualPnlEnabled = true ∧ c.priced = true
  · have hcycle := hsafe reason hdue hactive hprice.1 hprice.2
    rw [closeAll, if_pos hprice]
    refine ⟨fun t ht hdaily => ?_, fun hne => ⟨closeLoop_count hne, ?_⟩, fun _ => hcycle.zone⟩
    · obtain ⟨r, hmem, hr⟩ := closeLoop_closed ht
      exact hcycle.before hdaily r hmem t hr
    · by_contra hraised
      obtain ⟨pre, r, post, hsplit, hid, hraises, hpre⟩ := closeLoop_raised (by simpa using hraised)
      obtain ⟨t, ht⟩ := List.exists_mem_of_ne_nil _ hne
      obtain ⟨r', hmem, hr'⟩ := hpre t ht
      exact hcycle.raises pre r post hsplit hid hraises r' hmem t hr'
  · rw [closeAll, if_neg hprice]
    exact ⟨fun t ht => absurd ht List.not_mem_nil, fun hne => absurd rfl hne, fun hcount => absurd hcount (lt_irrefl 0)⟩

/-- Where the marker of a reason is not the date, everything closed for it was closed on an earlier one. -/
theorem Recorded.date_ne {now : ℚ} {reason : FlatReason} (hs : s.Recorded cfg) (hclock : s.clock ≤ now)
    (hmarker : s.lastDates reason ≠ some (cfg.localZone.date now)) :
    ∀ f ∈ s.closes, f.reason = reason → f.date ≠ cfg.localZone.date now := by
  intro f hf hreason hsame
  obtain ⟨d, hd, hle, hclk⟩ := hs.marker f hf
  have hdate : cfg.localZone.date s.clock ≤ cfg.localZone.date now := cfg.localZone.mono _ _ hclock
  rw [hreason] at hd
  have heq : d = cfg.localZone.date now := by omega
  exact hmarker (by rw [hd, heq])

theorem Recorded.runCycle {c : FlatCycle} (hs : s.Recorded cfg) (hclock : s.clock ≤ c.now)
    (hsafe : s.Safe cfg (.cycle c)) : (s.runCycle cfg c).Recorded cfg := by
  have hdue_eq : ({ s with clock := c.now, cycles := s.cycles + 1 } : FlatState).autoFlatDue cfg c.now c.marketOpen =
      s.autoFlatDue cfg c.now c.marketOpen := rfl
  have hclose_eq : ({ s with clock := c.now, cycles := s.cycles + 1 } : FlatState).closeAll cfg c = s.closeAll cfg c := rfl
  rcases hdue : s.autoFlatDue cfg c.now c.marketOpen with _ | reason
  · simp only [FlatState.runCycle, hdue_eq, hdue]
    exact hs.tick rfl rfl hclock
  by_cases hactive : c.active = []
  · simp only [FlatState.runCycle, hdue_eq, hdue, if_pos hactive]
    exact hs.tick rfl rfl hclock
  obtain ⟨hbefore, hclosed, hrecord⟩ := closeAll_of_safe hsafe hdue hactive
  have hearlier := hs.date_ne hclock (marker_ne_of_due hdue)
  simp only [FlatState.runCycle, hdue_eq, hdue, if_neg hactive, hclose_eq]
  rcases hall : s.closeAll cfg c with ⟨closed, count, raised⟩
  rw [hall] at hbefore hclosed hrecord
  have hdate : cfg.localZone.date s.clock ≤ cfg.localZone.date c.now := cfg.localZone.mono _ _ hclock
  refine ⟨?_, ?_, ?_⟩
  · intro f hf f' hf' hreason hsame
    rcases List.mem_append.1 hf with hf | hf
    · rcases List.mem_append.1 hf' with hf' | hf'
      · exact hs.once f hf f' hf' hreason hsame
      · obtain ⟨t, -, rfl⟩ := List.mem_map.1 hf'
        exact absurd hsame (hearlier f hf hreason)
    · obtain ⟨t, -, rfl⟩ := List.mem_map.1 hf
      rcases List.mem_append.1 hf' with hf' | hf'
      · exact absurd hsame.symm (hearlier f' hf' hreason.symm)
      · obtain ⟨t', -, rfl⟩ := List.mem_map.1 hf'
        rfl
  · intro f hf hdaily
    rcases List.mem_append.1 hf with hf | hf
    · exact hs.before f hf hdaily
    · obtain ⟨t, ht, rfl⟩ := List.mem_map.1 hf
      exact hbefore t ht hdaily
  · intro f hf
    rcases List.mem_append.1 hf with hf | hf
    · obtain ⟨d, hd, hle, hclk⟩ := hs.marker f hf
      by_cases hset : f.reason = reason ∧ 0 < count ∧ ¬ raised = true
      · refine ⟨cfg.localZone.date c.now, ?_, by omega, le_rfl⟩
        exact (if_pos hset).trans (congrArg some (hrecord hset.2.1))
      · exact ⟨d, (if_neg hset).trans hd, hle, hclk.trans hdate⟩
    · obtain ⟨t, ht, rfl⟩ := List.mem_map.1 hf
      obtain ⟨hcount, hraised⟩ := hclosed (List.ne_nil_of_mem ht)
      have hset : reason = reason ∧ 0 < count ∧ ¬ raised = true := ⟨rfl, hcount, by simpa using hraised⟩
      exact ⟨cfg.localZone.date c.now, (if_pos hset).trans (congrArg some (hrecord hcount)), le_rfl, le_rfl⟩

theorem Recorded.step {a : FlatAct} (hs : s.Recorded cfg) (hsafe : s.Safe cfg a) (h : s.step cfg a = some s') :
    s'.Recorded cfg := by
  cases a with
  | enter now signalId =>
    obtain ⟨hclock, ⟨⟩⟩ := Option.ite_none_right_eq_some.1 h
    exact hs.tick rfl rfl hclock
  | exit now signalId =>
    obtain ⟨hclock, ⟨⟩⟩ := Option.ite_none_right_eq_some.1 h
    exact hs.tick rfl rfl hclock
  | cycle c =>
    obtain ⟨hclock, ⟨⟩⟩ := Option.ite_none_right_eq_some.1 h
    exact hs.runCycle hclock hsafe

/-- A run whose steps are safe closes trades for a reason in one cycle of a date at most, and by the daily rule only
such as were entered before its time. -/
theorem autoFlat_of_safe {t₀ : ℚ} (h : Reach (FlatState.step cfg) (Safe cfg) { clock := t₀ } s) :
    s.OncePerDate ∧ s.DailyBefore cfg := by
  have hrecorded : s.Recorded cfg := by
    refine h.invariant ⟨?_, ?_, ?_⟩ fun s a s' hs ha hstep => hs.step ha hstep
    · rintro f hf
      cases hf
    · rintro f hf
      cases hf
    · rintro f hf
      cases hf
  exact ⟨hrecorded.once, hrecorded.before⟩

/-! ### A day -/

def winterZone : LocalZone where
  wall t := t - 18000
  mono t t' h := by
    have hwall : (t - 18000) / 86400 ≤ (t' - 18000) / 86400 := by linarith
    exact Int.floor_le_floor hwall

/-- The rules on, at 15:55. -/
def fiveToFour : AutoFlatSettings := { enabled := true, dailyEnabled := true, zone := some winterZone, newYork := winterZone }

/-- A cycle at `now` that reads one active trade. -/
def oneTrade (now : ℚ) : FlatCycle where
  now := now
  marketOpen := some true
  active := [⟨"a", false, false⟩]
  closeable := [⟨"a", false, false⟩]
  priced := true

/-- A trade of 10:00 is closed at 15:55. -/
theorem autoFlat_of_safe_day : ∃ s, Reach (FlatState.step fiveToFour) (Safe fiveToFour) { clock := 0 } s ∧
    s.closes.length = 1 ∧ s.OncePerDate ∧ s.DailyBefore fiveToFour := by
  have henter : FlatState.step fiveToFour { clock := 0 } (.enter 54000 "a") =
      some { book := [⟨"a", 54000⟩], clock := 54000 } := by
    rw [FlatState.step, if_pos (by norm_num)]
    rfl
  have hcycle : FlatState.step fiveToFour { book := [⟨"a", 54000⟩], clock := 54000 } (.cycle (oneTrade 75300)) =
      some (FlatState.runCycle fiveToFour (oneTrade 75300) { book := [⟨"a", 54000⟩], clock := 54000 }) :=
    by rw [FlatState.step, if_pos (by norm_num [oneTrade])]
  have hsafe : Safe fiveToFour { book := [⟨"a", 54000⟩], clock := 54000 } (.cycle (oneTrade 75300)) := by
    intro reason _ _ _ _
    refine ⟨fun pre r post hsplit _ hraises => ?_, rfl, fun _ r _ t hr => ?_⟩
    · have hmem : r ∈ (oneTrade 75300).closeable := by rw [hsplit]; simp
      obtain rfl := List.mem_singleton.1 hmem
      cases hraises
    · obtain rfl := List.mem_singleton.1 hr.2.2.2.1
      show (54000 : ℚ) - 18000 < (fiveToFour.localZone.date (oneTrade 75300).now : ℚ) * 86400 + 57300
      have hdate : fiveToFour.localZone.date (oneTrade 75300).now = 0 := by decide +kernel
      rw [hdate]
      norm_num
  have hreach : Reach (FlatState.step fiveToFour) (Safe fiveToFour) { clock := 0 }
      { book := [⟨"a", 54000⟩], clock := 54000 } := .step .start (a := .enter 54000 "a") trivial henter
  have h := hreach.step hsafe hcycle
  exact ⟨_, h, by decide +kernel, autoFlat_of_safe h⟩

/-- Nothing is open at 15:55, and a trade of 19:00 is closed by the daily rule. -/
theorem evening_trade_flattened : ¬ ∀ (cfg : AutoFlatSettings) (t₀ : ℚ) (s : FlatState),
    Reach (FlatState.step cfg) AnyStep { clock := t₀ } s → s.OncePerDate ∧ s.DailyBefore cfg := by
  intro h
  obtain ⟨s, hs, hclosed⟩ := exists_reach (FlatState.step fiveToFour) AnyStep { clock := 0 }
    [.cycle { oneTrade 75300 with active := [], closeable := [] }, .enter 86400 "a", .cycle (oneTrade 86460)]
    (fun s => s.closes = [⟨.dailyAutoFlat, 0, 2, ⟨"a", 86400⟩⟩]) (by decide +kernel)
  have hbefore := (h fiveToFour 0 s hs).2 ⟨.dailyAutoFlat, 0, 2, ⟨"a", 86400⟩⟩
    (by rw [of_decide_eq_true hclosed]; exact List.mem_singleton_self _) rfl
  revert hbefore
  show ¬ ((86400 : ℚ) - 18000 < ((0 : Int) : ℚ) * 86400 + 57300)
  norm_num

end FlatState

end PearlAlgo
