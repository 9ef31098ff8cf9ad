import Mathlib.Algebra.Order.Ring.Rat
import Mathlib.Tactic.Linarith
import PearlAlgo.Py.Dict

/-!
# Keys seen lately

An ordered dictionary of keys with the times at which they were recorded, bounded in age and in number. `check` tells
whether a key was recorded within the last `ttl` seconds, and records it if not; beyond the capacity the oldest go.
`check_iff_of_remembers`: a recorded key is found again if and only if the window has not passed and fewer keys than
the capacity have been recorded since.
-/

namespace Py.RecentKeys

variable {κ : Type} [DecidableEq κ]

/-- `while d and first value < cutoff: d.popitem(last=False)` -/
def evictBefore (cutoff : ℚ) (d : Dict κ ℚ) : Dict κ ℚ :=
  ⟨d.entries.dropWhile fun e => e.2 < cutoff, ((List.dropWhile_sublist _).map _).nodup d.nodup⟩

/-- `d.move_to_end(key)` -/
def moveToEnd (key : κ) (d : Dict κ ℚ) : Dict κ ℚ :=
  ⟨d.entries.filter (fun e => ¬ e.1 = key) ++ d.entries.filter (fun e => e.1 = key), by
    have hperm := (List.filter_append_perm (fun e : κ × ℚ => ¬ e.1 = key) d.entries).map Prod.fst
    simp only [decide_not, Bool.not_not] at hperm ⊢
    exact hperm.nodup_iff.2 d.nodup⟩

/-- `while len(d) > capacity: d.popitem(last=False)` -/
def keepLast (capacity : Nat) (d : Dict κ ℚ) : Dict κ ℚ :=
  ⟨d.entries.drop (d.entries.length - capacity), ((List.drop_sublist _ _).map _).nodup d.nodup⟩

/-- Whether the key was recorded lately; it is now. -/
def check (ttl : ℚ) (capacity : Nat) (key : κ) (now : ℚ) (d : Dict κ ℚ) : Bool × Dict κ ℚ :=
  let d := evictBefore (now - ttl) d
  if (d.get? key).any fun t => now - ttl ≤ t then (true, d)
  else (false, keepLast capacity (moveToEnd key (d.set key now)))

/-- The keys stand in the order in which they were recorded, none after `now`. -/
structure InOrder (now : ℚ) (d : Dict κ ℚ) : Prop where
  sorted : d.entries.Pairwise fun e e' => e.2 ≤ e'.2
  le : ∀ e ∈ d.entries, e.2 ≤ now

omit [DecidableEq κ] in
theorem dropWhile_eq_filter {l : List (κ × ℚ)} (h : l.Pairwise fun e e' => e.2 ≤ e'.2) (cutoff : ℚ) :
    l.dropWhile (fun e => e.2 < cutoff) = l.filter fun e => cutoff ≤ e.2 := by
  induction l with
  | nil => rfl
  | cons e l ih =>
    obtain ⟨he, hl⟩ := List.pairwise_cons.1 h
    by_cases hcut : e.2 < cutoff
    · rw [List.dropWhile_cons_of_pos (by simpa using hcut), List.filter_cons_of_neg (by simpa using hcut)]
      exact ih hl
    · have hle : cutoff ≤ e.2 := not_lt.1 hcut
      rw [List.dropWhile_cons_of_neg (by simpa using hcut), List.filter_cons_of_pos (by simpa using hle)]
      congr 1
      exact (List.filter_eq_self.2 fun e' he' => decide_eq_true (hle.trans (he e' he'))).symm

section check
variable {ttl now now' t : ℚ} {capacity c : Nat} {key k : κ} {d : Dict κ ℚ}

omit [DecidableEq κ] in
theorem InOrder.mono (h : InOrder now d) (hnow : now ≤ now') : InOrder now' d :=
  ⟨h.sorted, fun e he => (h.le e he).trans hnow⟩

omit [DecidableEq κ] in
theorem InOrder.empty : InOrder now (Dict.empty : Dict κ ℚ) := ⟨List.Pairwise.nil, fun e he => by cases he⟩

omit [DecidableEq κ] in
theorem InOrder.evictBefore_entries (h : InOrder now d) (cutoff : ℚ) :
    (evictBefore cutoff d).entries = d.entries.filter fun e => cutoff ≤ e.2 :=
  dropWhile_eq_filter h.sorted cutoff

theorem InOrder.check_fst (h : InOrder now d) :
    (check ttl capacity key now d).1 = true ↔ ∃ t, (key, t) ∈ d.entries ∧ now - ttl ≤ t := by
  have hget : ∀ t, (evictBefore (now - ttl) d).get? key = some t ↔ (key, t) ∈ d.entries ∧ now - ttl ≤ t := by
    intro t
    rw [Dict.get?_eq_some, h.evictBefore_entries]
    simp
  unfold check
  dsimp only
  constructor
  · intro hcheck
    split at hcheck
    next hfound =>
      obtain ⟨t, ht, -⟩ := Option.any_eq_true _ _ |>.1 hfound
      exact ⟨t, (hget t).1 ht⟩
    · cases hcheck
  · rintro ⟨t, ht⟩
    rw [if_pos]
    rw [(hget t).2 ht]
    exact decide_eq_true ht.2

theorem check_snd_of_true (h : (check ttl capacity key now d).1 = true) :
    (check ttl capacity key now d).2 = evictBefore (now - ttl) d := by
  unfold check at h ⊢
  dsimp only at h ⊢
  split at h
  next hfound => rw [if_pos hfound]
  · cases h

theorem InOrder.check_snd_of_false (h : InOrder now d) (hnew : (check ttl capacity key now d).1 = false) :
    (check ttl capacity key now d).2.entries =
      let l := d.entries.filter (fun e => now - ttl ≤ e.2) ++ [(key, now)]
      l.drop (l.length - capacity) := by
  have hout : key ∉ (d.entries.filter fun e => now - ttl ≤ e.2).map Prod.fst := by
    intro hmem
    obtain ⟨e, he, rfl⟩ := List.mem_map.1 hmem
    obtain ⟨he, hle⟩ := List.mem_filter.1 he
    rw [h.check_fst.2 ⟨e.2, he, of_decide_eq_true hle⟩] at hnew
    cases hnew
  unfold check at hnew ⊢
  dsimp only at hnew ⊢
  split at hnew
  · cases hnew
  next hfound =>
    rw [if_neg hfound]
    generalize hfresh : d.entries.filter (fun e => now - ttl ≤ e.2) = l at hout ⊢
    have hset : ((evictBefore (now - ttl) d).set key now).entries =
        l ++ [(key, now)] := by
      show Dict.upsert key now (evictBefore (now - ttl) d).entries = _
      rw [h.evictBefore_entries, hfresh, Dict.upsert_of_notMem hout]
    have hmove : (moveToEnd key ((evictBefore (now - ttl) d).set key now)).entries = l ++ [(key, now)] := by
      show List.filter _ (Dict.set _ key now).entries ++ List.filter _ (Dict.set _ key now).entries = _
      have hold : ∀ e ∈ l, e.1 ≠ key := fun e he hek => hout (List.mem_map.2 ⟨e, he, hek⟩)
      have hothers : l.filter (fun e => ¬ e.1 = key) = l := List.filter_eq_self.2 fun e he => decide_eq_true (hold e he)
      have hnone : l.filter (fun e => e.1 = key) = [] := List.filter_eq_nil_iff.2 fun e he => by simpa using hold e he
      rw [hset, List.filter_append, List.filter_append, hothers, hnone]
      simp
    show List.drop _ (moveToEnd key _).entries = _
    rw [hmove]

theorem InOrder.check (h : InOrder now d) : InOrder now (check ttl capacity key now d).2 := by
  rcases hcheck : (RecentKeys.check ttl capacity key now d).1
  · have hsorted : (d.entries.filter (fun e => now - ttl ≤ e.2) ++ [(key, now)]).Pairwise fun e e' => e.2 ≤ e'.2 := by
      refine List.pairwise_append.2 ⟨h.sorted.filter _, List.pairwise_singleton _ _, fun e he e' he' => ?_⟩
      rw [List.mem_singleton.1 he']
      exact h.le e (List.mem_filter.1 he).1
    refine ⟨?_, fun e he => ?_⟩
    · rw [h.check_snd_of_false hcheck]
      exact hsorted.drop
    · rw [h.check_snd_of_false hcheck] at he
      rcases List.mem_append.1 (List.mem_of_mem_drop he) with he | he
      · exact h.le e (List.mem_filter.1 he).1
      · rw [List.mem_singleton.1 he]
  · rw [check_snd_of_true hcheck]
    have hsub : (evictBefore (now - ttl) d).entries.Sublist d.entries := List.dropWhile_sublist _
    exact ⟨h.sorted.sublist hsub, fun e he => h.le e (hsub.subset he)⟩

/-- What is left of a key that was recorded at `t` and after which `c` others were. -/
def Remembers (ttl : ℚ) (capacity : Nat) (k : κ) (t : ℚ) (c : Nat) (now : ℚ) (d : Dict κ ℚ) : Prop :=
  (∃ pre later, d.entries = pre ++ (k, t) :: later ∧ later.length = c ∧ c < capacity) ∨
    k ∉ d.entries.map Prod.fst ∧ (capacity ≤ c ∨ t < now - ttl)

theorem InOrder.remembers_new (h : InOrder now d) (hcapacity : 0 < capacity)
    (hnew : (RecentKeys.check ttl capacity k now d).1 = false) :
    Remembers ttl capacity k now 0 now (RecentKeys.check ttl capacity k now d).2 := by
  refine .inl ⟨(d.entries.filter fun e => now - ttl ≤ e.2).drop
    ((d.entries.filter fun e => now - ttl ≤ e.2).length + 1 - capacity), [], ?_, rfl, hcapacity⟩
  rw [h.check_snd_of_false hnew]
  dsimp only
  rw [List.length_append, List.length_singleton, List.drop_append_of_le_length (by omega)]

theorem InOrder.mem_keys_check (h : InOrder now d)
    (hk : k ∈ (RecentKeys.check ttl capacity key now d).2.entries.map Prod.fst) :
    k = key ∨ ∃ t, (k, t) ∈ d.entries ∧ now - ttl ≤ t := by
  obtain ⟨e, he, rfl⟩ := List.mem_map.1 hk
  have hold : e ∈ d.entries.filter (fun e => now - ttl ≤ e.2) → ∃ t, (e.1, t) ∈ d.entries ∧ now - ttl ≤ t := fun he =>
    ⟨e.2, (List.mem_filter.1 he).1, of_decide_eq_true (List.mem_filter.1 he).2⟩
  rcases hcheck : (RecentKeys.check ttl capacity key now d).1
  · rw [h.check_snd_of_false hcheck] at he
    rcases List.mem_append.1 (List.mem_of_mem_drop he) with he | he
    · exact .inr (hold he)
    · exact .inl (congrArg Prod.fst (List.mem_singleton.1 he))
  · rw [check_snd_of_true hcheck, h.evictBefore_entries] at he
    exact .inr (hold he)

omit [DecidableEq κ] in
/-- What comes after a key that is not evicted is not evicted either. -/
theorem InOrder.filter_entries {pre later : List (κ × ℚ)} (h : InOrder now d) (hd : d.entries = pre ++ (k, t) :: later)
    (hfresh : now - ttl ≤ t) : d.entries.filter (fun e => now - ttl ≤ e.2) =
      pre.filter (fun e => now - ttl ≤ e.2) ++ (k, t) :: later := by
  have hlater : later.filter (fun e => now - ttl ≤ e.2) = later := by
    refine List.filter_eq_self.2 fun e he => decide_eq_true (hfresh.trans ?_)
    have hsorted := h.sorted
    rw [hd, List.pairwise_append, List.pairwise_cons] at hsorted
    exact hsorted.2.1.1 e he
  rw [hd, List.filter_append, List.filter_cons_of_pos (by simpa using hfresh), hlater]

/-- A new key pushes the oldest one out of a full dictionary. -/
theorem InOrder.remembers_pushed {pre later : List (κ × ℚ)} (h : InOrder now d)
    (hd : d.entries = pre ++ (k, t) :: later) (hfresh : now - ttl ≤ t) (hne : k ≠ key)
    (hnew : (RecentKeys.check ttl capacity key now d).1 = false) :
    Remembers ttl capacity k t (later.length + 1) now (RecentKeys.check ttl capacity key now d).2 := by
  have hentries := h.check_snd_of_false hnew
  rw [h.filter_entries hd hfresh] at hentries
  generalize pre.filter (fun e => now - ttl ≤ e.2) = pre' at hentries
  dsimp only at hentries
  rw [List.append_assoc, List.cons_append] at hentries
  have hl : (pre' ++ (k, t) :: (later ++ [(key, now)])).length = pre'.length + (later.length + 2) := by simp
  rw [hl] at hentries
  by_cases hfull : later.length + 1 < capacity
  · refine .inl ⟨pre'.drop (pre'.length + (later.length + 2) - capacity), later ++ [(key, now)], ?_, by simp, hfull⟩
    rw [hentries, List.drop_append_of_le_length (by omega)]
  · refine .inr ⟨fun hk => ?_, .inl (not_lt.1 hfull)⟩
    rw [hentries] at hk
    obtain ⟨e, he, hek⟩ := List.mem_map.1 hk
    have he' : e ∈ later ++ [(key, now)] := by
      have hdrop : (pre' ++ (k, t) :: (later ++ [(key, now)])).drop (pre'.length + 1) = later ++ [(key, now)] := by
        rw [List.drop_append, List.drop_of_length_le (by omega), List.nil_append]
        simp
      rw [← hdrop]
      exact (List.drop_sublist_drop_left _ (by omega)).subset he
    have hnodup := d.nodup
    rw [hd, List.map_append, List.map_cons, List.nodup_append, List.nodup_cons] at hnodup
    rcases List.mem_append.1 he' with he' | he'
    · exact hnodup.2.1.1 (List.mem_map.2 ⟨e, he', hek⟩)
    · rw [List.mem_singleton.1 he'] at hek
      exact hne hek.symm

theorem Remembers.check {now₀ : ℚ} (hr : Remembers ttl capacity k t c now₀ d) (h : InOrder now d) (hnow : now₀ ≤ now)
    (hne : k ≠ key) : Remembers ttl capacity k t (if (RecentKeys.check ttl capacity key now d).1 then c else c + 1) now
      (RecentKeys.check ttl capacity key now d).2 := by
  rcases hr with ⟨pre, later, hd, rfl, hc⟩ | ⟨hout, hgone⟩
  · by_cases hold : t < now - ttl
    · -- the entry is evicted
      refine .inr ⟨fun hk => ?_, .inr hold⟩
      obtain ⟨t', ht', hle⟩ := (h.mem_keys_check hk).resolve_left hne
      have heq : t' = t := by
        have hget := Dict.get?_eq_some.2 ht'
        rw [Dict.get?_eq_some.2 (show (k, t) ∈ d.entries by rw [hd]; simp)] at hget
        exact (Option.some.inj hget).symm
      exact absurd hold (not_lt.2 (heq ▸ hle))
    · rcases hcheck : (RecentKeys.check ttl capacity key now d).1
      · exact h.remembers_pushed hd (not_lt.1 hold) hne hcheck
      · refine .inl ⟨pre.filter (fun e => now - ttl ≤ e.2), later, ?_, rfl, hc⟩
        rw [check_snd_of_true hcheck, h.evictBefore_entries, h.filter_entries hd (not_lt.1 hold)]
  · refine .inr ⟨fun hk => ?_, ?_⟩
    · obtain ⟨t', ht', -⟩ := (h.mem_keys_check hk).resolve_left hne
      exact hout (List.mem_map.2 ⟨_, ht', rfl⟩)
    · refine hgone.imp (fun hc => hc.trans ?_) fun ht => ht.trans_le (sub_le_sub_right hnow ttl)
      split
      · exact le_rfl
      · exact Nat.le_succ c

omit [DecidableEq κ] in
theorem Remembers.mono {now₀ : ℚ} (hr : Remembers ttl capacity k t c now₀ d) (hnow : now₀ ≤ now) :
    Remembers ttl capacity k t c now d :=
  hr.imp_right fun ⟨hout, hgone⟩ => ⟨hout, hgone.imp_right fun ht => ht.trans_le (sub_le_sub_right hnow ttl)⟩

theorem Remembers.check_iff {now₀ : ℚ} (hr : Remembers ttl capacity k t c now₀ d) (h : InOrder now d) (hnow : now₀ ≤ now) :
    (RecentKeys.check ttl capacity k now d).1 = true ↔ now - ttl ≤ t ∧ c < capacity := by
  rw [h.check_fst]
  rcases hr with ⟨pre, later, hd, hlength, hc⟩ | ⟨hout, hgone⟩
  · have hget : d.get? k = some t := Dict.get?_eq_some.2 (by rw [hd]; simp)
    constructor
    · rintro ⟨t', ht', hle⟩
      have hget' := Dict.get?_eq_some.2 ht'
      rw [hget] at hget'
      exact ⟨Option.some.inj hget' ▸ hle, hc⟩
    · rintro ⟨hle, -⟩
      exact ⟨t, Dict.get?_eq_some.1 hget, hle⟩
  · constructor
    · rintro ⟨t', ht', -⟩
      exact absurd (List.mem_map.2 ⟨_, ht', rfl⟩) hout
    · rintro ⟨hle, hc⟩
      rcases hgone with hfull | hlate
      · exact absurd hc (not_lt.2 hfull)
      · linarith

end check

end Py.RecentKeys
