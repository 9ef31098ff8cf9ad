import PearlAlgo.Tradovate.Segments

/-!
# At most one entry per signal id

`place_bracket` looks a signal id up at its start and marks it just before it sends, so that a second
call finds the mark. Between the two the call may wait for the positions and the contract, and a second
call with the same id that starts then finds no mark. `sent_once` says that without such an overlap two
entries of one signal id are sent at least the deduplication TTL apart.
-/

namespace PearlAlgo
open Py Coop

/-- The signal id and the time of the entry that this turn sent, if it sent one. -/
def sentAt : AdapterTurn → Option (String × ℚ)
  | .seg (.placeBracket sig uuid) _ _ s t => if sends t then some (sig.idOr uuid, s.monotonic) else none
  | _ => none

/-- The entries sent so far, the latest first. -/
def sent (log : List AdapterTurn) : List (String × ℚ) := log.filterMap sentAt

/-- Two entries of one signal id are at least the TTL apart. -/
def Deduplicated (log : List AdapterTurn) : Prop :=
  (sent log).Pairwise fun new old => new.1 = old.1 → SIGNAL_DEDUP_TTL ≤ new.2 - old.2

/-- The signal id of a call between its duplicate check and its mark. -/
def uncheckedId (e : Call × To Request Returned) : Option String :=
  match e with
  | (.placeBracket sig uuid, t) => if t.isWaiting && !sends t then some (sig.idOr uuid) else none
  | _ => none

/-- A call whose checks let it through starts while no other call with its signal id is between check and
mark. -/
def ChecksAlone (cfg : ExecutionConfig) (v : AdapterView) : AdapterAct → Prop
  | .spawn (.placeBracket sig uuid) => Admitted cfg sig (sig.idOr uuid) v.shared →
    ∀ e ∈ v.calls, uncheckedId e ≠ some (sig.idOr uuid)
  | _ => True

instance (cfg : ExecutionConfig) (v : AdapterView) (a : AdapterAct) : Decidable (ChecksAlone cfg v a) :=
  match a with
  | .spawn (.placeBracket sig uuid) => inferInstanceAs (Decidable
    (Admitted cfg sig (sig.idOr uuid) v.shared → ∀ e ∈ v.calls, uncheckedId e ≠ some (sig.idOr uuid)))
  | .spawn .cancelAll | .spawn .flattenAllPositions | .spawn (.getPositions _) | .resume _ _ | .env _ => .isTrue trivial

/-! ### Marks -/

/-- An entry is marked in `ids`, or as old as the TTL. -/
def Marked (ids : Dict String ℚ) (now : ℚ) (e : String × ℚ) : Prop :=
  (∃ ts, ids.get? e.1 = some ts ∧ e.2 ≤ ts) ∨ SIGNAL_DEDUP_TTL ≤ now - e.2

section Marked
variable {ids : Dict String ℚ} {now : ℚ} {e : String × ℚ}

theorem Marked.mono {now' : ℚ} (hn : now ≤ now') (h : Marked ids now e) : Marked ids now' e :=
  h.imp_right fun h => h.trans (sub_le_sub_right hn _)

theorem Marked.evict {w : World} (h : Marked w.executedSignalIds w.monotonic e) :
    Marked w.evictSignalIds.executedSignalIds w.monotonic e := by
  rcases h with ⟨ts, hts, hle⟩ | h
  · by_cases hd : w.monotonic - ts < SIGNAL_DEDUP_TTL
    · refine .inl ⟨ts, ?_, hle⟩
      rw [World.evictSignalIds, Dict.get?_filter, hts]
      simp [Option.filter, hd]
    · exact .inr ((not_lt.1 hd).trans (sub_le_sub_left hle _))
  · exact .inr h

theorem Marked.old (h : Marked ids now e) (hc : ids.contains e.1 = false) :
    SIGNAL_DEDUP_TTL ≤ now - e.2 := by
  rcases h with ⟨ts, hts, -⟩ | h
  · rw [Dict.contains_eq_false] at hc
    rw [hc] at hts
    cases hts
  · exact h

theorem Marked.set {sid : String} (h : Marked ids now e) (ho : e.1 = sid → SIGNAL_DEDUP_TTL ≤ now - e.2) :
    Marked (ids.set sid now) now e := by
  by_cases hs : e.1 = sid
  · exact .inr (ho hs)
  · exact h.imp_left fun ⟨ts, hts, hle⟩ => ⟨ts, by rw [Dict.get?_set_ne _ _ hs, hts], hle⟩

end Marked

/-! ### Invariant -/

structure DedupInv (v : AdapterView) : Prop where
  apart : Deduplicated v.log
  marked : ∀ e ∈ sent v.log, Marked v.shared.executedSignalIds v.shared.monotonic e
  /-- A call between check and mark may send: the earlier entries of its id are old. -/
  fresh : ∀ c ∈ v.calls, ∀ e ∈ sent v.log, uncheckedId c = some e.1 →
    SIGNAL_DEDUP_TTL ≤ v.shared.monotonic - e.2
  unique : ∀ (i j : Nat) c c', v.calls[i]? = some c → v.calls[j]? = some c' → uncheckedId c ≠ none →
    uncheckedId c = uncheckedId c' → i = j

theorem sent_cons_of_not_sends {log : List AdapterTurn} {c : Call} {w : From Answer} {s₀ s : World}
    {t : To Request Returned} (ht : sends t = false) : sent (.seg c w s₀ s t :: log) = sent log := by
  refine List.filterMap_cons_none ?_
  cases c with
  | placeBracket sig uuid => simp [sentAt, ht]
  | _ => rfl

section
variable {cfg : ExecutionConfig} {sig : Signal} {uuid : String} {w : From Answer} {v : AdapterView}
  {s' : World} {t : To Request Returned}

/-- What a segment of `place_bracket` does to the log and the marks, when its call may send. -/
theorem DedupInv.seg (h : DedupInv v) (hk : BracketSeg cfg sig (sig.idOr uuid) w v.shared s' t)
    (hold : t.isWaiting = true → ∀ e ∈ sent v.log, e.1 = sig.idOr uuid →
      SIGNAL_DEDUP_TTL ≤ v.shared.monotonic - e.2) :
    Deduplicated (.seg (.placeBracket sig uuid) w v.shared s' t :: v.log) ∧
      ∀ e ∈ sent (.seg (.placeBracket sig uuid) w v.shared s' t :: v.log),
        Marked s'.executedSignalIds s'.monotonic e := by
  have hids : ∀ e ∈ sent v.log, Marked (evictedIds w v.shared) s'.monotonic e := fun e he => by
    rw [hk.clock]
    cases w with
    | start => exact (h.marked e he).evict
    | answer q r => exact h.marked e he
  have hexec := hk.executed
  cases ht : sends t with
  | false =>
    rw [ht] at hexec
    rw [Deduplicated, sent_cons_of_not_sends ht, hexec]
    exact ⟨h.apart, hids⟩
  | true =>
    have hold' := hold (by cases t <;> [cases ht; rfl])
    rw [← hk.clock] at hold'
    have hsent : sent (.seg (.placeBracket sig uuid) w v.shared s' t :: v.log) =
        (sig.idOr uuid, s'.monotonic) :: sent v.log :=
      List.filterMap_cons_some (by simp [sentAt, ht])
    rw [ht] at hexec
    rw [Deduplicated, hsent, hexec]
    refine ⟨List.pairwise_cons.2 ⟨fun e he hid => hold' e he hid.symm, h.apart⟩, fun e he => ?_⟩
    rcases List.mem_cons.1 he with rfl | he
    · exact .inl ⟨_, Dict.get?_set_self _ _ _, le_rfl⟩
    · exact (hids e he).set (hold' e he)

/-- A call of `place_bracket` that goes on is between check and mark, and was so before. -/
theorem BracketSeg.unchecked {q : Request} {r : Answer q}
    (hk : BracketSeg cfg sig (sig.idOr uuid) (.answer q r) v.shared s' t) (ht : t.isWaiting = true) :
    uncheckedId (.placeBracket sig uuid, .waiting q) = some (sig.idOr uuid) := by
  cases q with
  | placeOso b => rw [hk.answered rfl] at ht; cases ht
  | _ => rfl

end

theorem uncheckedId_placeBracket {sig : Signal} {uuid : String} {t : To Request Returned}
    (h : uncheckedId (.placeBracket sig uuid, t) ≠ none) :
    t.isWaiting = true ∧ sends t = false ∧
      uncheckedId (.placeBracket sig uuid, t) = some (sig.idOr uuid) := by
  simp only [uncheckedId] at h ⊢
  split at h
  next ht =>
    simp only [Bool.and_eq_true, Bool.not_eq_true'] at ht
    exact ⟨ht.1, ht.2, by simp [ht]⟩
  next => exact absurd rfl h

/-- No call of `calls'` is between check and mark that was not so, with the same id, in `calls`. -/
def Shrinks (calls calls' : List (Call × To Request Returned)) : Prop :=
  ∀ (k : Nat) c, calls'[k]? = some c → uncheckedId c ≠ none →
    ∃ c₀, calls[k]? = some c₀ ∧ uncheckedId c₀ = uncheckedId c

section
variable {v : AdapterView} {calls : List (Call × To Request Returned)}

theorem DedupInv.unique_of_shrinks (h : DedupInv v) (hs : Shrinks v.calls calls) (i j : Nat)
    (c c' : Call × To Request Returned) (hi : calls[i]? = some c) (hj : calls[j]? = some c')
    (hc : uncheckedId c ≠ none) (hcc : uncheckedId c = uncheckedId c') : i = j := by
  obtain ⟨c₀, hi₀, hc₀⟩ := hs i c hi hc
  obtain ⟨c₀', hj₀, hc₀'⟩ := hs j c' hj (hcc ▸ hc)
  exact h.unique i j c₀ c₀' hi₀ hj₀ (hc₀ ▸ hc) (by rw [hc₀, hc₀', hcc])

theorem DedupInv.fresh_of_shrinks (h : DedupInv v) (hs : Shrinks v.calls calls)
    (c : Call × To Request Returned) (hc : c ∈ calls) (e : String × ℚ) (he : e ∈ sent v.log)
    (hid : uncheckedId c = some e.1) : SIGNAL_DEDUP_TTL ≤ v.shared.monotonic - e.2 := by
  obtain ⟨k, hk⟩ := List.mem_iff_getElem?.1 hc
  obtain ⟨c₀, hk₀, hc₀⟩ := hs k c hk (by rw [hid]; nofun)
  exact h.fresh c₀ (List.mem_of_getElem? hk₀) e he (hc₀.trans hid)

theorem DedupInv.quiet (h : DedupInv v) {s' : World} (turn : AdapterTurn) (hs : Shrinks v.calls calls)
    (hlog : sent (turn :: v.log) = sent v.log) (hclock : v.shared.monotonic ≤ s'.monotonic)
    (hids : s'.executedSignalIds = v.shared.executedSignalIds) : DedupInv ⟨s', calls, turn :: v.log⟩ := by
  refine ⟨?_, fun e he => ?_, fun c hc e he hid => ?_, h.unique_of_shrinks hs⟩
  · rw [Deduplicated, hlog]; exact h.apart
  · rw [hlog] at he
    rw [hids]
    exact (h.marked e he).mono hclock
  · rw [hlog] at he
    exact (h.fresh_of_shrinks hs c hc e he hid).trans (sub_le_sub_right hclock _)

end

theorem shrinks_append {calls : List (Call × To Request Returned)} {e : Call × To Request Returned}
    (he : uncheckedId e = none) : Shrinks calls (calls ++ [e]) := by
  intro k c hk hc
  rw [List.getElem?_append] at hk
  split at hk
  · exact ⟨c, hk, rfl⟩
  · rcases List.mem_singleton.1 (List.mem_of_getElem? hk) with rfl
    exact absurd he hc

theorem shrinks_set {calls : List (Call × To Request Returned)} {i : Nat} {e e₀ : Call × To Request Returned}
    (hi : calls[i]? = some e₀) (he : uncheckedId e ≠ none → uncheckedId e₀ = uncheckedId e) :
    Shrinks calls (calls.set i e) := by
  intro k c hk hc
  rw [List.getElem?_set] at hk
  split at hk
  next h =>
    subst h
    split at hk
    · cases hk; exact ⟨e₀, hi, he hc⟩
    · cases hk
  next => exact ⟨c, hk, rfl⟩

section
variable {cfg : ExecutionConfig} {sig : Signal} {uuid : String} {v : AdapterView} {s' : World}
  {t : To Request Returned}

theorem DedupInv.spawn (h : DedupInv v) (hk : BracketSeg cfg sig (sig.idOr uuid) .start v.shared s' t)
    (hP : ChecksAlone cfg v (.spawn (.placeBracket sig uuid))) :
    DedupInv ⟨s', v.calls ++ [(.placeBracket sig uuid, t)],
      .seg (.placeBracket sig uuid) .start v.shared s' t :: v.log⟩ := by
  -- a call that is let through found no mark
  have hold (ht : t.isWaiting = true) : ∀ e ∈ sent v.log, e.1 = sig.idOr uuid →
      SIGNAL_DEDUP_TTL ≤ v.shared.monotonic - e.2 := fun e he hid =>
    (h.marked e he).evict.old (hid ▸ (hk.started rfl ht).fresh)
  have hnone (ht : t.isWaiting = true) : ∀ e ∈ v.calls, uncheckedId e ≠ some (sig.idOr uuid) :=
    hP (hk.started rfl ht)
  obtain ⟨hapart, hmarked⟩ := h.seg hk hold
  refine ⟨hapart, hmarked, fun c hc e he hid => ?_, fun i j c c' hi hj hc hcc => ?_⟩
  · show SIGNAL_DEDUP_TTL ≤ s'.monotonic - e.2
    rw [hk.clock]
    cases ht : sends t with
    | false =>
      rw [sent_cons_of_not_sends ht] at he
      rcases List.mem_append.1 hc with hc | hc
      · exact h.fresh c hc e he hid
      · rw [List.mem_singleton.1 hc] at hid
        obtain ⟨hw, -, hid'⟩ := uncheckedId_placeBracket (hid.trans_ne nofun)
        exact hold hw e he (Option.some.inj (hid.symm.trans hid'))
    | true =>
      have hw : t.isWaiting = true := by cases t <;> [cases ht; rfl]
      rcases List.mem_append.1 hc with hc | hc
      · rcases List.mem_filterMap.1 he with ⟨turn, hturn, hsent⟩
        rcases List.mem_cons.1 hturn with rfl | hturn
        · simp only [sentAt, ht, ↓reduceIte, Option.some.injEq] at hsent
          subst hsent
          exact absurd hid (hnone hw c hc)
        · exact h.fresh c hc e (List.mem_filterMap.2 ⟨turn, hturn, hsent⟩) hid
      · rw [List.mem_singleton.1 hc] at hid
        exact absurd (uncheckedId_placeBracket (hid.trans_ne nofun)).2.1 (by simp [ht])
  · -- two calls with one id would be an old one and the new one
    have hnew {k : Nat} {c c₁ : Call × To Request Returned} (hc : [(Call.placeBracket sig uuid, t)][k]? = some c)
        (h₁ : c₁ ∈ v.calls) (hne : uncheckedId c ≠ none) : uncheckedId c₁ ≠ uncheckedId c := by
      rw [List.mem_singleton.1 (List.mem_of_getElem? hc)] at hne ⊢
      obtain ⟨hw, -, hid⟩ := uncheckedId_placeBracket hne
      rw [hid]
      exact hnone hw c₁ h₁
    rw [List.getElem?_append] at hi hj
    split at hi <;> split at hj
    · exact h.unique i j c c' hi hj hc hcc
    · exact absurd hcc (hnew hj (List.mem_of_getElem? hi) (hcc ▸ hc))
    · exact absurd hcc.symm (hnew hi (List.mem_of_getElem? hj) hc)
    · have := (List.getElem?_eq_some_iff.1 hi).1
      have := (List.getElem?_eq_some_iff.1 hj).1
      simp only [List.length_singleton] at *
      omega

theorem DedupInv.resume (h : DedupInv v) {i : Nat} {ans : (q : Request) → Answer q} {q : Request}
    (hi : v.calls[i]? = some (.placeBracket sig uuid, .waiting q))
    (hk : BracketSeg cfg sig (sig.idOr uuid) (.answer q (ans q)) v.shared s' t) :
    DedupInv ⟨s', v.calls.set i (.placeBracket sig uuid, t),
      .seg (.placeBracket sig uuid) (.answer q (ans q)) v.shared s' t :: v.log⟩ := by
  have hold (ht : t.isWaiting = true) : ∀ e ∈ sent v.log, e.1 = sig.idOr uuid →
      SIGNAL_DEDUP_TTL ≤ v.shared.monotonic - e.2 := fun e he hid =>
    h.fresh _ (List.mem_of_getElem? hi) e he ((hk.unchecked ht).trans (congrArg some hid.symm))
  have hshrinks : Shrinks v.calls (v.calls.set i (.placeBracket sig uuid, t)) :=
    shrinks_set hi fun hne => by
      obtain ⟨hw, -, hid⟩ := uncheckedId_placeBracket hne
      rw [hid, hk.unchecked hw]
  cases ht : sends t with
  | false =>
    refine h.quiet _ hshrinks (sent_cons_of_not_sends ht) hk.clock.ge ?_
    have := hk.executed
    rwa [ht] at this
  | true =>
    have hw : t.isWaiting = true := by cases t <;> [cases ht; rfl]
    obtain ⟨hapart, hmarked⟩ := h.seg hk hold
    refine ⟨hapart, hmarked, fun c hc e he hid => ?_, h.unique_of_shrinks hshrinks⟩
    show SIGNAL_DEDUP_TTL ≤ s'.monotonic - e.2
    rw [hk.clock]
    rcases List.mem_filterMap.1 he with ⟨turn, hturn, hsent⟩
    rcases List.mem_cons.1 hturn with rfl | hturn
    · -- the call that has just sent was the only one between check and mark
      simp only [sentAt, ht, ↓reduceIte, Option.some.injEq] at hsent
      subst hsent
      obtain ⟨k, hk'⟩ := List.mem_iff_getElem?.1 hc
      obtain ⟨c₀, hk₀, hc₀⟩ := hshrinks k c hk' (by rw [hid]; nofun)
      have hki : k = i := h.unique k i c₀ _ hk₀ hi (by rw [hc₀, hid]; nofun)
        (by rw [hc₀, hid, hk.unchecked hw])
      subst hki
      rw [List.getElem?_set_self (List.getElem?_eq_some_iff.1 hk₀).1] at hk'
      cases hk'
      exact absurd (uncheckedId_placeBracket (hid.trans_ne nofun)).2.1 (by simp [ht])
    · exact h.fresh_of_shrinks hshrinks c hc e (List.mem_filterMap.2 ⟨turn, hturn, hsent⟩) hid

end

theorem envStep_marks (cfg : ExecutionConfig) (e : EnvEvent) (w : World) :
    w.monotonic ≤ (envStep cfg e w).monotonic ∧
      (envStep cfg e w).executedSignalIds = w.executedSignalIds := by
  cases e with
  | elapse d hd => exact ⟨le_add_of_nonneg_right hd, rfl⟩
  | wsEvent e =>
    obtain ⟨-, hclock, hids, -⟩ := handleWsEvent_frame e w
    exact ⟨hclock.ge, hids⟩
  | _ => exact ⟨le_rfl, rfl⟩

theorem dedupInv_step {cfg : ExecutionConfig} (v : AdapterView) (a : AdapterAct) (v' : AdapterView)
    (h : DedupInv v) (hP : ChecksAlone cfg v a) (hm : (machine cfg).Move (contract cfg) v a v') :
    DedupInv v' := by
  cases hm with
  | @spawn s' c t hk =>
    have other {d : Bool} (hk : OtherSeg d .start v.shared s' t) (hc : uncheckedId (c, t) = none) :=
      h.quiet (.seg c .start v.shared s' t) (shrinks_append hc) (sent_cons_of_not_sends hk.unsent)
        hk.clock.ge hk.executed
    cases c with
    | placeBracket sig uuid => exact h.spawn hk hP
    | cancelAll => exact other hk rfl
    | flattenAllPositions => exact other hk rfl
    | getPositions forceRest => exact other hk rfl
  | @resume s' i ans c q t hi hk =>
    have other {d : Bool} (hk : OtherSeg d (.answer q (ans q)) v.shared s' t) (hc : uncheckedId (c, t) = none) :=
      h.quiet (.seg c (.answer q (ans q)) v.shared s' t) (shrinks_set hi fun hne => absurd hc hne)
        (sent_cons_of_not_sends hk.unsent) hk.clock.ge hk.executed
    cases c with
    | placeBracket sig uuid => exact h.resume hi hk
    | cancelAll => exact other hk rfl
    | flattenAllPositions => exact other hk rfl
    | getPositions forceRest => exact other hk rfl
  | @env e =>
    exact h.quiet _ (fun k c hk _ => ⟨c, hk, rfl⟩) (List.filterMap_cons_none rfl)
      (envStep_marks cfg e v.shared).1 (envStep_marks cfg e v.shared).2

theorem dedupInv_start (cfg : ExecutionConfig) (t : ℚ) : DedupInv (start cfg t).view :=
  ⟨List.Pairwise.nil, fun _ h => absurd h List.not_mem_nil, fun _ h => absurd h List.not_mem_nil,
    fun _ _ _ _ h => by cases h⟩

/-- In every run in which no two calls with one signal id are between check and mark together, entries of
one signal id are at least the TTL apart. -/
theorem sent_once {cfg : ExecutionConfig} {t : ℚ} {acts : List AdapterAct}
    {s : Sys World Answer Returned Call EnvEvent} (hr : Runs cfg t acts s)
    (hP : Machine.Admits (machine cfg) (ChecksAlone cfg) (start cfg t) acts) : Deduplicated s.log :=
  (Machine.invariant (machine_obeys cfg) dedupInv_step (Machine.ok_init _)
    (dedupInv_start cfg t) hP hr).2.apart

/-- Two calls with one signal id, one after the other: the second is rejected. -/
def placeTwice : List AdapterAct :=
  placeOne ++ [.spawn (.placeBracket (sampleSignal "s1") "")]

theorem sent_once_placeTwice : ∃ s, Runs sampleConfig 0 placeTwice s ∧ Deduplicated s.log := by
  obtain ⟨s, hs, -⟩ := exists_runs sampleConfig 0 placeTwice (fun _ => true) (by decide +kernel)
  exact ⟨s, hs, sent_once hs (by decide +kernel)⟩

instance (log : List AdapterTurn) : Decidable (Deduplicated log) :=
  inferInstanceAs (Decidable (List.Pairwise _ _))

/-- Two calls with one signal id that both wait for the positions: both entries are sent at once. -/
def placeOverlapping : List AdapterAct :=
  connect ++ [.spawn (.placeBracket (sampleSignal "s1") ""), .spawn (.placeBracket (sampleSignal "s1") ""),
    .resume 0 acceptAll, .resume 1 acceptAll, .resume 0 acceptAll, .resume 1 acceptAll]

theorem sent_twice : ∃ s, Runs sampleConfig 0 placeOverlapping s ∧ ¬ Deduplicated s.log := by
  obtain ⟨s, hs, h⟩ := exists_runs sampleConfig 0 placeOverlapping (fun s => ¬ Deduplicated s.log)
    (by decide +kernel)
  exact ⟨s, hs, by simpa using h⟩

end PearlAlgo
