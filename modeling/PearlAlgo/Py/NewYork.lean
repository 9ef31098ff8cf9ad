import Mathlib.Data.Int.Basic
import Mathlib.Tactic.NormNum

/-!
# The zone `America/New_York`

The clock is four or five hours behind UTC, and is changed when it shows two o'clock on a Sunday. It is in order except
within the two hours after a midnight. Instants are seconds since the epoch, and day 0 is a Thursday.
-/

namespace Py

structure NewYork where
  /-- `utcoffset`, in seconds. -/
  offset : Int → Int
  offset_eq : ∀ t, offset t = -14400 ∨ offset t = -18000
  /-- The clock of before the change would show 2:00 on a Sunday. -/
  change : ∀ t, offset t ≠ offset (t - 1) → (t + offset (t - 1)) % 604800 = 266400

namespace NewYork
variable (z : NewYork) (t w : Int)

/-- What the clock shows, in seconds from the midnight of day 0. -/
def wall : Int := t + z.offset t

/-- `.date()` -/
def day : Int := z.wall t / 86400

/-- `.time()`, in seconds -/
def second : Int := z.wall t % 86400

/-- `.weekday()` of a date; Monday is 0. -/
def weekday (day : Int) : Int := (day + 3) % 7

/-- `.timestamp()` of what the clock shows, the first of two instants where it is shown twice. -/
def instant : Int := if z.wall (w + 14400) = w then w + 14400 else w + 18000

variable {z} {t u v : Int}

/-- Between two offsets the clock is changed. -/
theorem exists_change (huv : u ≤ v) (hne : z.offset v ≠ z.offset u) :
    ∃ t, u < t ∧ t ≤ v ∧ z.offset (t - 1) = z.offset u ∧ z.offset t ≠ z.offset u := by
  induction v, huv using Int.leInduction with
  | base => exact absurd rfl hne
  | succ v huv ih =>
    by_cases hv : z.offset v = z.offset u
    · refine ⟨v + 1, by omega, le_rfl, ?_, hne⟩
      rw [show v + 1 - 1 = v by omega]
      exact hv
    · obtain ⟨t, hut, htv, hbefore, hafter⟩ := ih hv
      exact ⟨t, hut, by omega, hbefore, hafter⟩

/-- The clock goes back only within the two hours after a midnight. -/
theorem wall_le_or (huv : u ≤ v) : z.wall u ≤ z.wall v ∨ (z.day u = z.day v ∧ z.second u < 7200 ∧ z.second v < 7200) := by
  by_cases hne : z.offset v = z.offset u
  · left
    unfold wall
    omega
  obtain ⟨t, hut, htv, hbefore, hafter⟩ := exists_change huv hne
  have hchange := z.change t (by rw [hbefore]; exact hafter)
  rw [hbefore] at hchange
  unfold day second wall
  rcases z.offset_eq u with hu | hu
  · rcases z.offset_eq v with hv | hv
    · omega
    · rw [hu] at hchange
      rw [hu, hv]
      omega
  · rcases z.offset_eq v with hv | hv
    · rw [hu, hv]
      omega
    · omega

/-- After two o'clock an instant that is later is shown later. -/
theorem wall_mono (huv : u ≤ v) (h : 7200 ≤ z.second u ∨ 7200 ≤ z.second v) : z.wall u ≤ z.wall v := by
  rcases wall_le_or huv with hle | ⟨-, hu, hv⟩
  · exact hle
  · omega

end NewYork

end Py
