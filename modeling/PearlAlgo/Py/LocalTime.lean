import PearlAlgo.Py.Clock

/-!
# Local time

What a clock shows at an instant, and the instant that a reading means. A reading that is shown twice means the first
instant unless `fold` is set, and one that is skipped counts from the offset before. `EasternTime` is what the zone
`America/New_York` does in every year: its clock is put forward by an hour at two o'clock, and back on a Sunday before
six in the evening.
-/

namespace Py

/-- An aware datetime of the zone. -/
structure Reading where
  wall : Int
  fold : Bool

section
variable (tz : Int → Int)

/-- `.astimezone(tz)`, from the offset at the instant -/
def clock (t : Int) : Int := t + tz t

/-- `.astimezone(timezone.utc)` -/
def instantOf (r : Reading) : Int :=
  let before := r.wall - tz (r.wall - dayMicros)
  let after := r.wall - tz (r.wall + dayMicros)
  if r.fold then
    if clock tz after = r.wall then after else if clock tz before = r.wall then before else after
  else
    if clock tz before = r.wall then before else if clock tz after = r.wall then after else before

def readingAt (t : Int) : Reading := ⟨clock tz t, instantOf tz ⟨clock tz t, false⟩ ≠ t⟩

structure EasternTime : Prop where
  bound : ∀ t, -dayMicros < tz t ∧ tz t < dayMicros
  apart : ∀ t u, tz (t - 1) ≠ tz t → tz (u - 1) ≠ tz u → t < u → t + 2 * dayMicros ≤ u
  /-- By an hour, at two o'clock. -/
  forward : ∀ t, tz (t - 1) < tz t → tz t = tz (t - 1) + hourMicros ∧
    ∃ day, t + tz (t - 1) = day * dayMicros + 2 * hourMicros
  /-- By an hour at most, within a Sunday before six in the evening. -/
  backward : ∀ t, tz t < tz (t - 1) → tz (t - 1) ≤ tz t + hourMicros ∧
    ∃ day, day % 7 = 0 ∧ day * dayMicros ≤ t + tz t ∧ t + tz (t - 1) ≤ day * dayMicros + 18 * hourMicros

end

/-- On a Sunday before six in the evening. -/
def OnSunday (w : Int) : Prop := w / dayMicros % 7 = 0 ∧ w % dayMicros < 18 * hourMicros

theorem exists_change_of_ne {f : Int → Int} {u v : Int} (huv : u ≤ v) (hne : f v ≠ f u) :
    ∃ c, u < c ∧ c ≤ v ∧ f (c - 1) ≠ f c := by
  by_contra hnot
  push Not at hnot
  refine hne ?_
  induction v, huv using Int.leInduction with
  | base => rfl
  | succ v huv ih =>
    have hstep := hnot (v + 1) (by omega) le_rfl
    rw [show v + 1 - 1 = v by omega] at hstep
    by_cases hv : f v = f u
    · rw [← hstep, hv]
    · exact absurd (ih hv fun c hc hcv => hnot c hc (by omega)) hv

namespace EasternTime
variable {tz : Int → Int} {t u s w : Int}

/-- Within two days the offset changes once at most. -/
theorem eq_of_eq (hz : EasternTime tz) (hnear : u - t ≤ 2 * dayMicros) (heq : tz u = tz t) (hts : t ≤ s) (hsu : s ≤ u) :
    tz s = tz t := by
  by_contra hne
  obtain ⟨c, htc, hcs, hc⟩ := exists_change_of_ne hts hne
  obtain ⟨c', hsc', hc'u, hc'⟩ := exists_change_of_ne (f := tz) hsu (by rw [heq]; exact Ne.symm hne)
  have hapart := hz.apart c c' hc hc' (by omega)
  omega

theorem one_change (hz : EasternTime tz) (htu : t ≤ u) (hnear : u - t ≤ 2 * dayMicros) (hne : tz u ≠ tz t) :
    ∃ c, t < c ∧ c ≤ u ∧ (∀ s, t ≤ s → s < c → tz s = tz t) ∧ (∀ s, c ≤ s → s ≤ u → tz s = tz u) := by
  obtain ⟨c, htc, hcu, hc⟩ := exists_change_of_ne htu hne
  refine ⟨c, htc, hcu, fun s hts hsc => ?_, fun s hcs hsu => ?_⟩
  · by_contra hs
    obtain ⟨c', htc', hc's, hc'⟩ := exists_change_of_ne hts hs
    have hapart := hz.apart c' c hc' hc (by omega)
    omega
  · by_contra hs
    obtain ⟨c', hsc', hc'u, hc'⟩ := exists_change_of_ne hsu (Ne.symm hs)
    have hapart := hz.apart c c' hc hc' (by omega)
    omega

/-- A later instant is shown later, but for the Sundays on which the clock is put back. -/
theorem clock_lt_or (hz : EasternTime tz) (h : t < u) : clock tz t < clock tz u ∨
    OnSunday (clock tz t) ∧ OnSunday (clock tz u) ∧ clock tz t / dayMicros = clock tz u / dayMicros ∧
      clock tz t < clock tz u + hourMicros := by
  have ht := hz.bound t
  have hu := hz.bound u
  by_cases hnear : u - t ≤ 2 * dayMicros
  · by_cases heq : tz u = tz t
    · left
      simp only [clock]
      omega
    obtain ⟨c, htc, hcu, hbefore, hafter⟩ := hz.one_change h.le hnear heq
    have hc := hafter c le_rfl hcu
    have hc' := hbefore (c - 1) (by omega) (by omega)
    rcases lt_or_gt_of_ne heq with hlt | hgt
    · obtain ⟨hhour, day, hsunday, hfrom, hto⟩ := hz.backward c (by omega)
      rw [hc, hc'] at hhour
      rw [hc] at hfrom
      rw [hc'] at hto
      simp only [clock, OnSunday, dayMicros, hourMicros] at *
      omega
    · left
      simp only [clock]
      omega
  · left
    simp only [clock]
    omega

/-- What a reading means is the first instant that shows it. One that is skipped is from two o'clock to three, and means
the instant that shows it an hour later. -/
theorem instantOf_spec (hz : EasternTime tz) (w : Int) :
    (clock tz (instantOf tz ⟨w, false⟩) = w ∧ ∀ t, clock tz t = w → instantOf tz ⟨w, false⟩ ≤ t) ∨
      (clock tz (instantOf tz ⟨w, false⟩) = w + hourMicros ∧
        (∃ day, day * dayMicros + 2 * hourMicros ≤ w ∧ w < day * dayMicros + 3 * hourMicros) ∧
        (∀ t, clock tz t ≠ w) ∧ ∀ t, clock tz t = w + hourMicros → instantOf tz ⟨w, false⟩ ≤ t) := by
  have hday : dayMicros = 86400000000 := rfl
  have hhour : hourMicros = 3600000000 := rfl
  have hlo := hz.bound (w - dayMicros)
  have hhi := hz.bound (w + dayMicros)
  have hwithin : ∀ t, clock tz t = w → w - dayMicros < t ∧ t < w + dayMicros := by
    intro t ht
    have hbound := hz.bound t
    simp only [clock] at ht
    omega
  unfold instantOf
  dsimp only
  by_cases heq : tz (w + dayMicros) = tz (w - dayMicros)
  · left
    have hconst : ∀ s, w - dayMicros ≤ s → s ≤ w + dayMicros → tz s = tz (w - dayMicros) :=
      fun s hlo' hhi' => hz.eq_of_eq (by omega) heq hlo' hhi'
    have hbefore : clock tz (w - tz (w - dayMicros)) = w := by
      rw [clock, hconst (w - tz (w - dayMicros)) (by omega) (by omega)]
      omega
    rw [if_neg Bool.false_ne_true, if_pos hbefore]
    refine ⟨hbefore, fun t ht => ?_⟩
    have hin := hwithin t ht
    rw [clock, hconst t (by omega) (by omega)] at ht
    omega
  obtain ⟨c, htc, hcu, hbefore, hafter⟩ := hz.one_change (t := w - dayMicros) (u := w + dayMicros) (by omega) (by omega) heq
  rw [if_neg Bool.false_ne_true]
  by_cases hlt : w - tz (w - dayMicros) < c
  · left
    have hshown : clock tz (w - tz (w - dayMicros)) = w := by
      rw [clock, hbefore (w - tz (w - dayMicros)) (by omega) hlt]
      omega
    rw [if_pos hshown]
    refine ⟨hshown, fun t ht => ?_⟩
    have hin := hwithin t ht
    rcases lt_or_ge t c with htc' | htc'
    · rw [clock, hbefore t (by omega) htc'] at ht
      omega
    · omega
  have hbefore' : clock tz (w - tz (w - dayMicros)) ≠ w := by
    rw [clock, hafter (w - tz (w - dayMicros)) (by omega) (by omega)]
    omega
  rw [if_neg hbefore']
  by_cases hge : c ≤ w - tz (w + dayMicros)
  · left
    have hshown : clock tz (w - tz (w + dayMicros)) = w := by
      rw [clock, hafter (w - tz (w + dayMicros)) hge (by omega)]
      omega
    rw [if_pos hshown]
    refine ⟨hshown, fun t ht => ?_⟩
    have hin := hwithin t ht
    rcases lt_or_ge t c with htc' | htc'
    · rw [clock, hbefore t (by omega) htc'] at ht
      omega
    · rw [clock, hafter t htc' (by omega)] at ht
      omega
  · right
    have hskipped : clock tz (w - tz (w + dayMicros)) ≠ w := by
      rw [clock, hbefore (w - tz (w + dayMicros)) (by omega) (by omega)]
      omega
    rw [if_neg hskipped]
    have hc := hafter c le_rfl hcu
    have hc' := hbefore (c - 1) (by omega) (by omega)
    obtain ⟨hforward, day, htwo⟩ := hz.forward c (by omega)
    rw [hc, hc'] at hforward
    rw [hc'] at htwo
    refine ⟨?_, ⟨day, by omega, by omega⟩, fun t ht => ?_, fun t ht => ?_⟩
    · rw [clock, hafter (w - tz (w - dayMicros)) (by omega) (by omega)]
      omega
    · have hin := hwithin t ht
      rcases lt_or_ge t c with htc' | htc'
      · rw [clock, hbefore t (by omega) htc'] at ht
        omega
      · rw [clock, hafter t htc' (by omega)] at ht
        omega
    · by_contra hnot
      have hbound := hz.bound t
      simp only [clock] at ht
      rcases lt_or_ge t c with htc' | htc'
      · rw [hbefore t (by omega) htc'] at ht
        omega
      · rw [hafter t htc' (by omega)] at ht
        omega

/-- The datetime of an instant means that instant. -/
theorem instantOf_readingAt (hz : EasternTime tz) (t : Int) : instantOf tz (readingAt tz t) = t := by
  have hday : dayMicros = 86400000000 := rfl
  have hbound := hz.bound t
  by_cases hfirst : instantOf tz ⟨clock tz t, false⟩ = t
  · rw [readingAt, decide_eq_false (not_not_intro hfirst)]
    exact hfirst
  have hmeans : t = clock tz t - tz (clock tz t - dayMicros) ∨ t = clock tz t - tz (clock tz t + dayMicros) := by
    simp only [clock]
    by_cases heq : tz (t + tz t + dayMicros) = tz (t + tz t - dayMicros)
    · left
      rw [← hz.eq_of_eq (by omega) heq (s := t) (by omega) (by omega)]
      omega
    · obtain ⟨c, -, -, hbefore, hafter⟩ := hz.one_change (by omega) (by omega) heq
      rcases lt_or_ge t c with htc | htc
      · left
        rw [← hbefore t (by omega) htc]
        omega
      · right
        rw [← hafter t htc (by omega)]
        omega
  rw [readingAt, decide_eq_true hfirst]
  unfold instantOf at hfirst ⊢
  dsimp only at hfirst ⊢
  rw [if_neg Bool.false_ne_true] at hfirst
  rw [if_pos rfl]
  rcases hmeans with hbefore | hafter
  · rw [← hbefore, if_pos rfl] at hfirst
    exact absurd rfl hfirst
  · rw [← hafter, if_pos rfl]

end EasternTime

/-! ### Readings an hour apart -/

/-- The clock shows the reading, or an hour more where that is skipped. -/
def Shows (tz : Int → Int) (w t : Int) : Prop :=
  clock tz t = w ∨
    clock tz t = w + hourMicros ∧ ∃ day, day * dayMicros + 2 * hourMicros ≤ w ∧ w < day * dayMicros + 3 * hourMicros

namespace Shows
variable {tz : Int → Int} {w t : Int}

theorem day_eq (h : Shows tz w t) : clock tz t / dayMicros = w / dayMicros := by
  rcases h with rfl | ⟨hlater, day, hfrom, hto⟩
  · rfl
  · rw [hlater]
    simp only [dayMicros, hourMicros] at *
    omega

theorem emod_hour (h : Shows tz w t) : clock tz t % hourMicros = w % hourMicros := by
  rcases h with rfl | ⟨hlater, -⟩
  · rfl
  · rw [hlater, Int.add_emod_right]

theorem le (h : Shows tz w t) : w ≤ clock tz t ∧ clock tz t ≤ w + hourMicros := by
  have hhour : hourMicros = 3600000000 := rfl
  rcases h with rfl | ⟨hlater, -⟩
  · omega
  · omega

end Shows

/-- The readings of `while ...: et_dt = et_dt + timedelta(hours=1)`. -/
def readings (start : Reading) : Nat → Reading
  | 0 => start
  | j + 1 => ⟨start.wall + (j + 1 : Nat) * hourMicros, false⟩

theorem wall_readings (start : Reading) (j : Nat) : (readings start j).wall = start.wall + j * hourMicros := by
  cases j with
  | zero => simp [readings]
  | succ j => rfl

theorem wall_readings_succ (start : Reading) (j : Nat) :
    (readings start j).wall + hourMicros = (readings start (j + 1)).wall := by
  rw [wall_readings, wall_readings, hourMicros]
  omega

/-- A reading from which the readings go on in order. -/
structure ReadInOrder (tz : Int → Int) (start : Reading) : Prop where
  shows : ∀ j, Shows tz (readings start j).wall (instantOf tz (readings start j))
  le : ∀ j, instantOf tz start ≤ instantOf tz (readings start j)

namespace EasternTime
variable {tz : Int → Int} {t w : Int}

theorem instantOf_shows (hz : EasternTime tz) (w : Int) : Shows tz w (instantOf tz ⟨w, false⟩) := by
  rcases hz.instantOf_spec w with ⟨hshown, -⟩ | ⟨hlater, hgap, -, -⟩
  · exact .inl hshown
  · exact .inr ⟨hlater, hgap⟩

/-- A reading an hour after what is shown means no earlier instant. -/
theorem le_instantOf (hz : EasternTime tz) (h : clock tz t + hourMicros ≤ w) : t ≤ instantOf tz ⟨w, false⟩ := by
  have hhour : hourMicros = 3600000000 := rfl
  have hshows := (hz.instantOf_shows w).le
  by_contra hlt
  rcases hz.clock_lt_or (not_le.1 hlt) with hclock | ⟨-, -, -, hclock⟩
  · omega
  · omega

theorem le_instantOf_succ (hz : EasternTime tz) (w : Int) :
    instantOf tz ⟨w, false⟩ ≤ instantOf tz ⟨w + hourMicros, false⟩ := by
  rcases hz.instantOf_spec w with ⟨hshown, -⟩ | ⟨hlater, ⟨day, hfrom, hto⟩, -, hfirst⟩
  · exact hz.le_instantOf (by rw [hshown])
  · rcases hz.instantOf_spec (w + hourMicros) with ⟨hshown, -⟩ | ⟨-, ⟨day', hfrom', hto'⟩, -, -⟩
    · exact hfirst _ hshown
    · simp only [dayMicros, hourMicros] at *
      omega

theorem readInOrder_readingAt (hz : EasternTime tz) (t : Int) : ReadInOrder tz (readingAt tz t) := by
  constructor
  · intro j
    cases j with
    | zero => exact .inl (by rw [readings, hz.instantOf_readingAt]; rfl)
    | succ j => exact hz.instantOf_shows _
  · intro j
    cases j with
    | zero => exact le_rfl
    | succ j =>
      rw [hz.instantOf_readingAt]
      refine hz.le_instantOf ?_
      simp only [readingAt, hourMicros]
      omega

theorem readInOrder_first (hz : EasternTime tz) (w : Int) : ReadInOrder tz ⟨w, false⟩ := by
  constructor
  · intro j
    cases j with
    | zero => exact hz.instantOf_shows w
    | succ j => exact hz.instantOf_shows _
  · intro j
    cases j with
    | zero => exact le_rfl
    | succ j =>
      cases j with
      | zero => simpa [readings] using hz.le_instantOf_succ w
      | succ j =>
        have hshows := (hz.instantOf_shows w).le
        refine hz.le_instantOf ?_
        simp only [hourMicros] at hshows ⊢
        omega

end EasternTime

end Py
