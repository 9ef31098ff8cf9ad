import Mathlib.Data.List.Count
import Mathlib.Data.List.Pairwise
import Mathlib.Order.Lattice

/-!
# Sliding windows

A bucket of the times of the last events, from which those that no longer count are taken out. However it is taken out,
the bucket has the events that still count (`Tracks`), so whoever admits an event only while there are fewer than `max` of
them has at most `max` in every window (`Bounded`).
-/

namespace Py

/-- Whether an event at the time `t` counts at the time `now`. -/
structure SlidingWindow (T : Type) [LinearOrder T] where
  counts : T → T → Bool
  counts_mono {now now' t : T} : now ≤ now' → counts now' t = true → counts now t = true
  counts_later {now t t' : T} : t ≤ t' → counts now t = true → counts now t' = true

namespace SlidingWindow

variable {T : Type} [LinearOrder T] (W : SlidingWindow T)

/-- The bucket has what counts of the events, now and later. -/
def Tracks (now : T) (bucket events : List T) : Prop :=
  ∀ t, now ≤ t → bucket.filter (W.counts t) = events.filter (W.counts t)

/-- No window has more events than this. -/
def Bounded (max : Nat) (events : List T) : Prop := ∀ now, events.countP (fun t => decide (t ≤ now) && W.counts now t) ≤ max

variable {W} {now now' : T} {bucket events : List T} {max : Nat}

theorem tracks_nil (now : T) : W.Tracks now [] [] := fun _ _ => rfl

theorem Tracks.mono (h : W.Tracks now bucket events) (hle : now ≤ now') : W.Tracks now' bucket events :=
  fun t ht => h t (hle.trans ht)

theorem Tracks.concat (h : W.Tracks now bucket events) (t : T) : W.Tracks now (bucket ++ [t]) (events ++ [t]) := by
  intro t' ht'
  rw [List.filter_append, List.filter_append, h t' ht']

theorem Tracks.filter (h : W.Tracks now bucket events) (hle : now ≤ now') :
    W.Tracks now' (bucket.filter (W.counts now')) events := by
  intro t ht
  have hboth : ∀ a, (W.counts t a && W.counts now' a) = W.counts t a := by
    intro a
    cases ha : W.counts t a with
    | false => rfl
    | true => rw [W.counts_mono ht ha, Bool.and_self]
  rw [List.filter_filter]
  simp only [hboth]
  exact h t (hle.trans ht)

/-- In order of time, the events that no longer count are at the front. -/
theorem dropWhile_eq_filter (h : bucket.Pairwise (· ≤ ·)) (now : T) :
    bucket.dropWhile (fun t => !W.counts now t) = bucket.filter (W.counts now) := by
  induction bucket with
  | nil => rfl
  | cons t bucket ih =>
    obtain ⟨hfirst, hrest⟩ := List.pairwise_cons.1 h
    cases ht : W.counts now t with
    | false =>
      rw [List.dropWhile_cons_of_pos (by rw [ht]; rfl), List.filter_cons_of_neg (by rw [ht]; simp)]
      exact ih hrest
    | true =>
      have hall : ∀ a ∈ t :: bucket, W.counts now a = true := by
        intro a ha
        rcases List.mem_cons.1 ha with rfl | ha
        · exact ht
        · exact W.counts_later (hfirst a ha) ht
      rw [List.dropWhile_cons_of_neg (by rw [ht]; simp), List.filter_eq_self.2 hall]

theorem bounded_nil (max : Nat) : W.Bounded max [] := fun _ => Nat.zero_le _

/-- An event that comes while fewer than `max` count. -/
theorem Bounded.concat (h : W.Bounded max events)
    (hroom : (events.filter (W.counts now)).length < max) : W.Bounded max (events ++ [now]) := by
  intro t
  rw [List.countP_append, List.countP_singleton]
  rcases lt_or_ge t now with hlt | hge
  · rw [if_neg (by simp [not_le.2 hlt])]
    exact h t
  · have hle : events.countP (fun a => decide (a ≤ t) && W.counts t a) ≤ (events.filter (W.counts now)).length := by
      rw [← List.countP_eq_length_filter]
      refine List.countP_mono_left fun a _ ha => ?_
      rw [Bool.and_eq_true] at ha
      exact W.counts_mono hge ha.2
    split <;> omega

/-! ### Buckets in order of time -/

/-- The bucket of a limiter whose last event was not after `now`. -/
structure Keeps (W : SlidingWindow T) (now : T) (bucket events : List T) : Prop where
  tracks : W.Tracks now bucket events
  sorted : bucket.Pairwise (· ≤ ·)
  past : ∀ t ∈ bucket, t ≤ now

namespace Keeps

theorem nil (now : T) : W.Keeps now [] [] := ⟨tracks_nil now, .nil, by simp⟩

theorem mono (h : W.Keeps now bucket events) (hle : now ≤ now') : W.Keeps now' bucket events :=
  ⟨h.tracks.mono hle, h.sorted, fun t ht => (h.past t ht).trans hle⟩

theorem evict (h : W.Keeps now bucket events) (hle : now ≤ now') : W.Keeps now' (bucket.filter (W.counts now')) events :=
  ⟨h.tracks.filter hle, h.sorted.filter _, fun t ht => (h.past t (List.mem_filter.1 ht).1).trans hle⟩

theorem concat (h : W.Keeps now bucket events) : W.Keeps now (bucket ++ [now]) (events ++ [now]) := by
  refine ⟨h.tracks.concat now, ?_, fun t ht => ?_⟩
  · refine List.pairwise_append.2 ⟨h.sorted, List.pairwise_singleton _ _, fun a ha b hb => ?_⟩
    rw [List.mem_singleton.1 hb]
    exact h.past a ha
  · rcases List.mem_append.1 ht with ht | ht
    · exact h.past t ht
    · exact (List.mem_singleton.1 ht).le

/-- Where the last event does not count, none does. -/
theorem clear (h : W.Keeps now bucket events) (hlast : ∀ t ∈ bucket.getLast?, W.counts now t = false) :
    W.Keeps now [] events := by
  refine ⟨fun t ht => ?_, .nil, by simp⟩
  rw [← h.tracks t ht, List.filter_nil, eq_comm, List.filter_eq_nil_iff]
  intro a ha hcounts
  rcases List.eq_nil_or_concat bucket with rfl | ⟨bucket, b, rfl⟩
  · cases ha
  rw [List.concat_eq_append] at h hlast ha
  have hle : a ≤ b := by
    rcases List.mem_append.1 ha with ha | ha
    · exact (List.pairwise_append.1 h.sorted).2.2 a ha b (List.mem_singleton_self b)
    · exact (List.mem_singleton.1 ha).le
  have hb := hlast b (by rw [List.getLast?_concat]; rfl)
  rw [W.counts_later hle (W.counts_mono ht hcounts)] at hb
  cases hb

/-- The bucket that has been cleaned is what counts. -/
theorem length_filter (h : W.Keeps now bucket events) (hle : now ≤ now') :
    (bucket.filter (W.counts now')).length = (events.filter (W.counts now')).length := by
  rw [h.tracks now' hle]

end Keeps

end SlidingWindow

end Py
