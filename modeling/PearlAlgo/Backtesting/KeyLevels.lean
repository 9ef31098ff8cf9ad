import Mathlib.Data.List.SplitBy
import PearlAlgo.Backtesting.GeneratorGlobals
import PearlAlgo.Py.Ordinal

/-!
# Key levels and their cache (`get_key_levels` of `trading_bots/signal_generator.py`)

The levels of a frame are those of its last two days, weeks and months, and they are remembered under a fingerprint of the
frame: a date, its length and its last closes. `transparent_iff` says which sequences of calls get from the cache what they
would compute: the frame that is remembered agrees with the one of the call in all that the levels are made of.
-/

namespace PearlAlgo.SignalGenerator
open Py

/-! ### Resampling -/

/-- `D`, `W` and `ME` -/
inductive Period
  | day
  | week
  | month
deriving DecidableEq

/-- Days, weeks from Monday to Sunday, and calendar months. -/
def Period.index : Period → Date → Nat
  | .day, d => d.toordinal
  | .week, d => (d.toordinal - 1) / 7
  | .month, d => d.year * 12 + d.month

/-- A row of a resampled frame, without the close. -/
structure PeriodBar where
  opening : ℚ
  high : ℚ
  low : ℚ

def periodBar (rows : List TimedBar) : PeriodBar where
  opening := (rows.head?.map fun b : TimedBar => b.opening).getD 0
  high := (rows.map fun b : TimedBar => b.high).max?.getD 0
  low := (rows.map fun b : TimedBar => b.low).min?.getD 0

/-- A data frame: its rows, whether it has a `timestamp` column or an index of times, the date that it shows of an instant,
and the first ten characters of its last timestamp or of the last entry of its index. -/
structure LevelFrame where
  rows : List TimedBar
  timed : Bool := true
  day : ℚ → Date
  label : String

namespace LevelFrame
variable (f : LevelFrame)

/-- `df["close"].iloc[-1]` -/
def close : ℚ := (f.rows.getLast?.map fun b : TimedBar => b.close).getD 0

/-- The rows in the order of time, by periods; periods without rows are dropped. -/
def resample (p : Period) : List PeriodBar :=
  ((sortedBy (fun b : TimedBar => b.timestamp) f.rows).splitBy
    fun a b => p.index (f.day a.timestamp) = p.index (f.day b.timestamp)).map periodBar

end LevelFrame

/-! ### Levels -/

/-- The keys of the levels. -/
inductive LevelName
  | currentClose  -- `current_close`
  | opening (p : Period)  -- `daily_open`, `weekly_open`, `monthly_open`
  | prevHigh (p : Period)  -- `prev_day_high`, ..
  | prevLow (p : Period)
  | prevMid (p : Period)
  | currDayHigh
  | currDayLow
deriving DecidableEq

/-- What the levels are made of: the last close, the opens of the last periods, the high and the low of the periods before
them, and those of the last day where there is a day before it. -/
structure LevelSummary where
  close : ℚ
  opening : Period → Option ℚ
  previous : Period → Option (ℚ × ℚ)
  today : Option (ℚ × ℚ)

def LevelName.ofPeriod (p : Period) : List LevelName := [.opening p, .prevHigh p, .prevLow p, .prevMid p]

/-- The keys in the order in which they are set. -/
def LevelName.all : List LevelName :=
  .currentClose :: (ofPeriod .day ++ ([.currDayHigh, .currDayLow] ++ (ofPeriod .week ++ ofPeriod .month)))

namespace LevelSummary
variable (s : LevelSummary)

def value : LevelName → Option ℚ
  | .currentClose => some s.close
  | .opening p => s.opening p
  | .prevHigh p => (s.previous p).map Prod.fst
  | .prevLow p => (s.previous p).map Prod.snd
  | .prevMid p => (s.previous p).map fun highLow => (highLow.1 + highLow.2) / 2
  | .currDayHigh => s.today.map Prod.fst
  | .currDayLow => s.today.map Prod.snd

/-- The items of the levels: a key is set where it has a value. -/
def entries : List (LevelName × ℚ) := LevelName.all.filterMap fun name => (s.value name).map fun x => (name, x)

end LevelSummary

/-- The levels, and those below and above the close by their distance. -/
structure LevelReport where
  entries : List (LevelName × ℚ)
  supportLevels : List (LevelName × ℚ)
  resistanceLevels : List (LevelName × ℚ)
deriving DecidableEq

def classify (close : ℚ) (entries : List (LevelName × ℚ)) : LevelReport where
  entries := entries
  supportLevels := sortedBy (fun e : LevelName × ℚ => -e.2) (entries.filter fun e => e.1 ≠ .currentClose ∧ e.2 < close)
  resistanceLevels := sortedBy (fun e : LevelName × ℚ => e.2) (entries.filter fun e => e.1 ≠ .currentClose ∧ close < e.2)

namespace LevelFrame
variable (f : LevelFrame)

def summary : LevelSummary where
  close := f.close
  opening p := (f.resample p).getLast?.map PeriodBar.opening
  previous p := (f.resample p).dropLast.getLast?.map fun b => (b.high, b.low)
  today := (f.resample .day).dropLast.getLast?.bind fun _ => (f.resample .day).getLast?.map fun b => (b.high, b.low)

def resampledLevels : LevelReport := classify f.close f.summary.entries

/-- The levels of the last rows in place of a period. -/
def windowEntries (p : Period) (rows : List TimedBar) : List (LevelName × ℚ) :=
  let b := periodBar rows
  [(.opening p, b.opening), (.prevHigh p, b.high), (.prevLow p, b.low), (.prevMid p, (b.high + b.low) / 2)]

/-- `_get_key_levels_simple` -/
def simpleLevels : LevelReport :=
  let daily := min 390 (f.rows.length - 1)
  let weekly := min 1950 f.rows.length
  classify f.close ((.currentClose, f.close) ::
    ((if 10 < daily then windowEntries .day (lastN daily f.rows) else []) ++
      if 50 < weekly then windowEntries .week (lastN weekly f.rows) else []))

/-- The levels of a frame of two rows or more. -/
def levels : LevelReport := if f.timed then f.resampledLevels else f.simpleLevels

/-- `get_key_levels(df, use_cache=False)`, `none` for no levels. -/
def uncached : Option LevelReport := if f.rows.length < 2 then none else some f.levels

end LevelFrame

/-! ### The cache -/

/-- `{date}_{len(df)}_{hash of the closes}` -/
structure Fingerprint where
  label : String
  length : Nat
  closes : Int
deriving DecidableEq

/-- `_get_key_levels_cache_key`, with the hash of a tuple as an argument -/
def LevelFrame.fingerprint (hash : List ℚ → Int) (f : LevelFrame) : Fingerprint where
  label := f.label
  length := f.rows.length
  closes := hash ((lastN 5 f.rows).map fun b => roundCents b.close)

structure LevelCall where
  frame : LevelFrame
  useCache : Bool := true

namespace LevelCall
variable (hash : List ℚ → Int)

/-- The call asks the cache. -/
def Asks (c : LevelCall) : Prop := 2 ≤ c.frame.rows.length ∧ c.useCache

instance : DecidablePred Asks := fun _ => instDecidableAnd

/-- `get_key_levels`; what frames without times get is not remembered. -/
def getKeyLevels (c : LevelCall) (cache : Dict Fingerprint LevelReport) :
    Dict Fingerprint LevelReport × Option LevelReport :=
  if c.Asks then
    let r := cache.memoize 10 (c.frame.fingerprint hash) (if c.frame.timed then some c.frame.resampledLevels else none)
      c.frame.simpleLevels
    (r.1, some r.2)
  else (cache, c.frame.uncached)

/-- The frames whose levels are in the cache, after the call. -/
def remember (c : LevelCall) (frames : Dict Fingerprint LevelFrame) : Dict Fingerprint LevelFrame :=
  if c.Asks then
    (frames.memoize 10 (c.frame.fingerprint hash) (if c.frame.timed then some c.frame else none) c.frame).1
  else frames

/-- The cache before call `i`. -/
def cacheBefore (calls : List LevelCall) (i : Nat) : Dict Fingerprint LevelReport :=
  (calls.take i).foldl (fun cache c => (c.getKeyLevels hash cache).1) .empty

def framesBefore (calls : List LevelCall) (i : Nat) : Dict Fingerprint LevelFrame :=
  (calls.take i).foldl (fun frames c => c.remember hash frames) .empty

/-- Every call returns what an uncached one does. -/
def Transparent (calls : List LevelCall) : Prop :=
  ∀ i, ∀ c : LevelCall, calls[i]? = some c → (c.getKeyLevels hash (cacheBefore hash calls i)).2 = c.frame.uncached

end LevelCall

/-! ### Levels from summaries -/

/-- `levels[name]` -/
def look (name : LevelName) (entries : List (LevelName × ℚ)) : Option ℚ :=
  (entries.find? fun e => e.1 = name).map Prod.snd

section Look
variable {name : LevelName} {s s' : LevelSummary}

theorem look_filterMap (v : LevelName → Option ℚ) (names : List LevelName) :
    look name (names.filterMap fun n => (v n).map fun x => (n, x)) = if name ∈ names then v name else none := by
  induction names with
  | nil => rfl
  | cons n names ih =>
    by_cases h : n = name
    · subst h
      rw [if_pos (List.mem_cons_self ..)]
      rcases hv : v n with _ | x
      · rw [List.filterMap_cons_none (by rw [hv]; rfl), ih, hv]
        exact ite_self none
      · rw [List.filterMap_cons_some (b := (n, x)) (by rw [hv]; rfl)]
        simp [look]
    · have hmem : name ∈ n :: names ↔ name ∈ names := by
        rw [List.mem_cons]
        exact or_iff_right (Ne.symm h)
      simp only [hmem, ← ih]
      rcases hv : v n with _ | x
      · rw [List.filterMap_cons_none (by rw [hv]; rfl)]
      · rw [List.filterMap_cons_some (b := (n, x)) (by rw [hv]; rfl)]
        simp [look, h]

theorem look_entries (name : LevelName) : look name s.entries = s.value name := by
  have hmem : name ∈ LevelName.all := by
    rcases name with _ | (_ | _ | _) | (_ | _ | _) | (_ | _ | _) | (_ | _ | _) | _ | _ <;> decide
  unfold LevelSummary.entries
  rw [look_filterMap, if_pos hmem]

/-- The levels tell their summary. -/
theorem entries_injective (h : s.entries = s'.entries) : s = s' := by
  have hvalue : ∀ name, s.value name = s'.value name := by
    intro name
    rw [← look_entries, h, look_entries]
  have hpair : ∀ {o o' : Option (ℚ × ℚ)}, o.map Prod.fst = o'.map Prod.fst → o.map Prod.snd = o'.map Prod.snd → o = o' := by
    intro o o' hfst hsnd
    rcases o with _ | ⟨x, y⟩ <;> rcases o' with _ | ⟨x', y'⟩ <;> simp_all
  obtain ⟨close, opening, previous, today⟩ := s
  obtain ⟨close', opening', previous', today'⟩ := s'
  congr 1
  · exact Option.some.inj (hvalue .currentClose)
  · exact funext fun p => hvalue (.opening p)
  · exact funext fun p => hpair (hvalue (.prevHigh p)) (hvalue (.prevLow p))
  · exact hpair (hvalue .currDayHigh) (hvalue .currDayLow)

end Look

namespace LevelFrame
variable {f g : LevelFrame}

theorem resampledLevels_eq_iff : f.resampledLevels = g.resampledLevels ↔ f.summary = g.summary := by
  constructor
  · exact fun h => entries_injective (congrArg LevelReport.entries h)
  · intro h
    have hclose : f.close = g.close := congrArg LevelSummary.close h
    unfold resampledLevels
    rw [h, hclose]

/-- A frame with times always has a monthly open, and a frame without times never. -/
theorem resampledLevels_ne_simple (hf : f.rows ≠ []) : f.resampledLevels ≠ g.simpleLevels := by
  intro h
  have hlook := congrArg (fun r => look (.opening .month) r.entries) h
  have hsorted : sortedBy (fun b : TimedBar => b.timestamp) f.rows ≠ [] := by
    rw [← List.length_pos_iff, length_sortedBy]
    exact List.length_pos_iff.2 hf
  have hsome : (f.resample .month).getLast?.map PeriodBar.opening ≠ none := by
    rw [Ne, Option.map_eq_none_iff, List.getLast?_eq_none_iff]
    unfold resample
    rw [List.map_eq_nil_iff, List.splitBy_eq_nil]
    exact hsorted
  refine hsome ?_
  refine (look_entries (s := f.summary) (.opening .month)).symm.trans (hlook.trans ?_)
  unfold simpleLevels classify windowEntries
  dsimp only
  split <;> split <;> simp [look]

theorem levels_eq_iff (hf : f.rows ≠ []) : f.resampledLevels = g.levels ↔ g.timed ∧ f.summary = g.summary := by
  unfold levels
  split
  next htimed => rw [resampledLevels_eq_iff, and_iff_right htimed]
  next htimed => exact iff_of_false (resampledLevels_ne_simple hf) fun h => htimed h.1

end LevelFrame

/-! ### Runs -/

namespace LevelCall
variable {hash : List ℚ → Int} {calls : List LevelCall} {cache : Dict Fingerprint LevelReport}
  {frames : Dict Fingerprint LevelFrame} {c : LevelCall}

/-- The invariant of a run: the cache has the levels of the remembered frames, which have rows. -/
structure Remembers (cache : Dict Fingerprint LevelReport) (frames : Dict Fingerprint LevelFrame) : Prop where
  mirrors : Dict.Mirrors LevelFrame.resampledLevels cache frames
  rows : ∀ k f, frames.get? k = some f → f.rows ≠ []

theorem Remembers.empty : Remembers .empty .empty where
  mirrors := rfl
  rows := fun k f h => by cases h

theorem rows_ne_nil (h : c.Asks) : c.frame.rows ≠ [] := by
  have hlen := h.1
  exact List.ne_nil_of_length_pos (by omega)

theorem Remembers.step (h : Remembers cache frames) (hash : List ℚ → Int) (c : LevelCall) :
    Remembers (c.getKeyLevels hash cache).1 (c.remember hash frames) := by
  unfold getKeyLevels remember
  split
  next hasks =>
    refine ⟨?_, fun k f hget => ?_⟩
    · have hsource : (if c.frame.timed then some c.frame.resampledLevels else none) =
          (if c.frame.timed then some c.frame else none).map LevelFrame.resampledLevels := by
        split <;> rfl
      dsimp only
      rw [hsource]
      exact h.mirrors.memoize
    · rcases Dict.get?_memoize hget with hold | hnew
      · exact h.rows k f hold
      · split at hnew
        · obtain rfl := Option.some.inj hnew
          exact rows_ne_nil hasks
        · cases hnew
  next hasks => exact h

/-- A call returns what an uncached one does exactly if the frame that is remembered for it has the same levels. -/
theorem getKeyLevels_eq_iff (h : Remembers cache frames) (c : LevelCall) :
    (c.getKeyLevels hash cache).2 = c.frame.uncached ↔
      (c.Asks → ∀ f, frames.get? (c.frame.fingerprint hash) = some f → c.frame.timed ∧ f.summary = c.frame.summary) := by
  unfold getKeyLevels
  split
  next hasks =>
    have hget := h.mirrors.get? (c.frame.fingerprint hash)
    have huncached : c.frame.uncached = some c.frame.levels := if_neg (not_lt.2 hasks.1)
    rw [huncached]
    unfold Dict.memoize
    rcases hf : frames.get? (c.frame.fingerprint hash) with _ | f
    · rw [hf] at hget
      rw [show cache.get? (c.frame.fingerprint hash) = none from hget]
      refine iff_of_true ?_ fun _ f hf' => by cases hf'
      unfold LevelFrame.levels
      by_cases htimed : c.frame.timed
      · rw [if_pos htimed, if_pos htimed]
      · rw [if_neg htimed, if_neg htimed]
    · rw [hf] at hget
      rw [show cache.get? (c.frame.fingerprint hash) = some f.resampledLevels from hget]
      simp only [Option.some.injEq, forall_eq', LevelFrame.levels_eq_iff (h.rows _ f hf)]
      exact (imp_iff_right hasks).symm
  next hasks => exact iff_of_true rfl fun hasks' => absurd hasks' hasks

theorem before_remembers (hash : List ℚ → Int) (calls : List LevelCall) (i : Nat) :
    Remembers (cacheBefore hash calls i) (framesBefore hash calls i) := by
  unfold cacheBefore framesBefore
  generalize calls.take i = l
  suffices hfold : ∀ (l : List LevelCall) (cache : Dict Fingerprint LevelReport) (frames : Dict Fingerprint LevelFrame),
      Remembers cache frames → Remembers (l.foldl (fun cache c => (c.getKeyLevels hash cache).1) cache)
        (l.foldl (fun frames c => c.remember hash frames) frames) from hfold l _ _ .empty
  intro l
  induction l with
  | nil => exact fun _ _ h => h
  | cons c l ih => exact fun _ _ h => ih _ _ (h.step hash c)

/-- The cache is transparent exactly in the runs in which every call that finds a frame remembered agrees with it. -/
theorem transparent_iff (hash : List ℚ → Int) (calls : List LevelCall) :
    Transparent hash calls ↔ ∀ i, ∀ c : LevelCall, calls[i]? = some c → c.Asks →
      ∀ f, (framesBefore hash calls i).get? (c.frame.fingerprint hash) = some f →
        c.frame.timed ∧ f.summary = c.frame.summary :=
  forall_congr' fun i => forall_congr' fun c => forall_congr' fun _ =>
    getKeyLevels_eq_iff (before_remembers hash calls i) c

/-- Two rows of one day that close at 100, with another open. -/
def openedAt (d : Date) (opening : ℚ) : LevelFrame where
  rows := [{ opening, high := 102, low := 98, close := 100, volume := 1, timestamp := 0 },
    { opening := 100, high := 101, low := 99, close := 100, volume := 1, timestamp := 60 }]
  day := fun _ => d
  label := "2026-07-01"

theorem not_levelsTransparent :
    ∃ calls : List LevelCall, (∀ c ∈ calls, c.frame.timed) ∧ ∀ hash, ¬ Transparent hash calls := by
  let d : Date := ⟨2026, 7, 1, by decide, by decide, by decide⟩
  refine ⟨[{ frame := openedAt d 99 }, { frame := openedAt d 101 }], ?_, fun hash h => ?_⟩
  · intro c hc
    rcases List.mem_cons.1 hc with rfl | hc
    · rfl
    · rw [List.mem_singleton.1 hc]
      rfl
  · have hfound : (framesBefore hash [{ frame := openedAt d 99 }, { frame := openedAt d 101 }] 1).get?
        ((openedAt d 101).fingerprint hash) = some (openedAt d 99) := Dict.get?_set_self ..
    have hsame := (getKeyLevels_eq_iff (before_remembers hash _ 1) _).1 (h 1 { frame := openedAt d 101 } rfl)
      (show _ ∧ _ from ⟨Nat.le_refl 2, rfl⟩) (openedAt d 99) hfound
    have hopen : (openedAt d 99).summary.opening .day = (openedAt d 101).summary.opening .day := by rw [hsame.2]
    exact absurd hopen (by decide +kernel)

end LevelCall

end PearlAlgo.SignalGenerator
