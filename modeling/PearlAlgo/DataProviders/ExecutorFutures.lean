import PearlAlgo.DataProviders.Executor

/-!
# The futures of the IBKR executor

A caller waits on the future that `submit_task` gave it. What becomes of it is said here by the history alone (`Fate`);
that the executor keeps to it goes through `_results`.
-/

namespace PearlAlgo.Ibkr
open Py

variable {Id ρ : Type} [DecidableEq Id]

/-- What the history says of a future: its task is on its way, or another was submitted under the same id before it
was finished, or the caller has cancelled, or it has the outcome of the first task of its id that finished. -/
inductive Fate (ρ : Type)
  | waiting
  | overwritten
  | cancelled
  | done (o : Outcome ρ)

def Fate.state : Fate ρ → FutureState ρ
  | .waiting | .overwritten => .pending
  | .cancelled => .cancelled
  | .done o => .done o

/-- The fate of the `f`-th future, of the given id, after a further event. -/
def Fate.next (f : Nat) (id : Id) : Fate ρ → Event Id ρ → Fate ρ
  | .waiting, .submitted _ id' => if id' = id then .overwritten else .waiting
  | .waiting, .finished id' o => if id' = id then .done o else .waiting
  | .waiting, .cancelled g => if g = f then .cancelled else .waiting
  | .overwritten, .cancelled g => if g = f then .cancelled else .overwritten
  | x, _ => x

def nextOf (f : Nat) : Option (Id × Fate ρ) → Event Id ρ → Option (Id × Fate ρ)
  | none, .submitted g id => if g = f then some (id, .waiting) else none
  | none, _ => none
  | some (id, x), e => some (id, x.next f id e)

/-- The id and the fate of the `f`-th future, if there is one. -/
def fateOf (f : Nat) (log : List (Event Id ρ)) : Option (Id × Fate ρ) := log.foldl (nextOf f) none

def putIds (log : List (Event Id ρ)) : List Id := log.filterMap fun
  | .put id => some id
  | _ => none

def finishedIds (log : List (Event Id ρ)) : List Id := log.filterMap fun
  | .finished id _ => some id
  | _ => none

theorem fateOf_concat (f : Nat) (log : List (Event Id ρ)) (e : Event Id ρ) :
    fateOf f (log ++ [e]) = nextOf f (fateOf f log) e := by
  rw [fateOf, List.foldl_append]
  rfl

def Executor.queued (s : Executor Id ρ) : List (Task Id) := s.queue.filterMap Item.task?

/-- The tasks that are still to finish. -/
def Executor.coming (s : Executor Id ρ) : List (Task Id) := s.submitting ++ s.queued ++ s.pc.task?.toList

/-- The futures are what the history says, `_results` leads from each id to the future that waits under it, and the tasks
finish in the order in which they were put. -/
structure Inv (s : Executor Id ρ) : Prop where
  fates : ∀ f, s.futures[f]? = (fateOf f s.log).map fun e => (e.1, e.2.state)
  results : ∀ id f, s.results.get? id = some f →
    fateOf f s.log = some (id, .waiting) ∨ fateOf f s.log = some (id, .cancelled)
  waiting : ∀ f id, fateOf f s.log = some (id, .waiting) → s.results.get? id = some f
  coming : ∀ id f, s.results.get? id = some f → ∃ t ∈ s.coming, t.taskId = id
  order : putIds s.log = finishedIds s.log ++ s.pc.task?.toList.map Task.taskId ++ s.queued.map Task.taskId

section
variable {f g : Nat} {id id' : Id} {x : Option (Id × Fate ρ)} {o : Outcome ρ}

theorem nextOf_put : nextOf f x (.put id) = x := by
  rcases x with _ | ⟨id', _ | _ | _ | _⟩ <;> rfl

theorem nextOf_submitted_waiting : nextOf f x (.submitted g id') = some (id, .waiting) ↔
    (x = none ∧ g = f ∧ id' = id) ∨ (x = some (id, .waiting) ∧ id' ≠ id) := by
  rcases x with _ | ⟨id'', _ | _ | _ | _⟩ <;> simp [nextOf, Fate.next]
  grind

theorem nextOf_cancelled_waiting : nextOf f x (.cancelled g) = some (id, .waiting) ↔
    x = some (id, .waiting) ∧ g ≠ f := by
  rcases x with _ | ⟨id', _ | _ | _ | _⟩ <;> simp [nextOf, Fate.next]
  grind

theorem nextOf_finished_waiting : nextOf f x (.finished id' o) = some (id, .waiting) ↔
    x = some (id, .waiting) ∧ id' ≠ id := by
  rcases x with _ | ⟨id'', _ | _ | _ | _⟩ <;> simp [nextOf, Fate.next]
  grind

/-- A future that its id leads to, or did before its caller cancelled. -/
def Led (id : Id) (x : Option (Id × Fate ρ)) : Prop := x = some (id, .waiting) ∨ x = some (id, .cancelled)

theorem Led.submitted (h : Led id x) (hid : id' ≠ id) : Led id (nextOf f x (.submitted g id')) := by
  rcases h with rfl | rfl
  · exact .inl (nextOf_submitted_waiting.2 (.inr ⟨rfl, hid⟩))
  · exact .inr rfl

theorem Led.cancelled (h : Led id x) : Led id (nextOf f x (.cancelled g)) := by
  rcases h with rfl | rfl
  · by_cases hg : g = f
    · exact .inr (by simp [nextOf, Fate.next, hg])
    · exact .inl (nextOf_cancelled_waiting.2 ⟨rfl, hg⟩)
  · exact .inr rfl

theorem Led.finished (h : Led id x) (hid : id' ≠ id) : Led id (nextOf f x (.finished id' o)) := by
  rcases h with rfl | rfl
  · exact .inl (nextOf_finished_waiting.2 ⟨rfl, hid⟩)
  · exact .inr rfl

end

namespace Inv
variable {s s' : Executor Id ρ}

theorem start (now : ℚ) : Inv ({ now } : Executor Id ρ) where
  fates f := rfl
  results id f h := by cases h
  waiting f id h := by cases h
  coming id f h := by cases h
  order := rfl

theorem congr (h : Inv s) (hfutures : s'.futures = s.futures) (hresults : s'.results = s.results) (hlog : s'.log = s.log)
    (hsubmitting : s'.submitting = s.submitting) (hqueued : s'.queued = s.queued) (hpc : s'.pc.task? = s.pc.task?) :
    Inv s' where
  fates f := by
    rw [hfutures, hlog]
    exact h.fates f
  results id f := by
    rw [hresults, hlog]
    exact h.results id f
  waiting f id := by
    rw [hresults, hlog]
    exact h.waiting f id
  coming id f := by
    rw [hresults, Executor.coming, hsubmitting, hqueued, hpc]
    exact h.coming id f
  order := by
    rw [hlog, hqueued, hpc]
    exact h.order

theorem none_of_le (h : Inv s) {f : Nat} (hf : s.futures.length ≤ f) : fateOf f s.log = none := by
  have hfate := h.fates f
  rw [List.getElem?_eq_none hf] at hfate
  exact Option.map_eq_none_iff.1 hfate.symm

theorem submitTask (h : Inv s) (t : Task Id) : Inv (s.submitTask t) where
  fates f := by
    rw [Executor.submitTask, fateOf_concat]
    by_cases hf : f = s.futures.length
    · rw [hf, h.none_of_le le_rfl, List.getElem?_concat_length]
      simp [nextOf, Fate.state]
    · have hget : (s.futures ++ [(t.taskId, FutureState.pending)])[f]? = s.futures[f]? := by
        rcases Nat.lt_or_gt_of_ne hf with hlt | hgt
        · exact List.getElem?_append_left hlt
        · rw [List.getElem?_eq_none (by simpa [Nat.succ_le_iff] using hgt), List.getElem?_eq_none hgt.le]
      rw [hget, h.fates f]
      rcases fateOf f s.log with _ | ⟨id, x⟩
      · simp [nextOf, Ne.symm hf]
      · cases x <;> simp only [nextOf, Fate.next, Option.map_some]
        split <;> rfl
  results id f hf := by
    rw [Executor.submitTask, Dict.get?_set] at hf
    rw [Executor.submitTask, fateOf_concat]
    split at hf
    next hid =>
      cases hf
      rw [h.none_of_le le_rfl]
      simp [nextOf, hid]
    next hid => exact Led.submitted (h.results id f hf) (Ne.symm hid)
  waiting f id hf := by
    rw [Executor.submitTask, fateOf_concat, nextOf_submitted_waiting] at hf
    rw [Executor.submitTask]
    rcases hf with ⟨-, rfl, rfl⟩ | ⟨hf, hid⟩
    · exact Dict.get?_set_self ..
    · rw [Dict.get?_set_ne _ _ (Ne.symm hid)]
      exact h.waiting f id hf
  coming id f hf := by
    rw [Executor.submitTask, Dict.get?_set] at hf
    split at hf
    next hid => exact ⟨t, by simp [Executor.coming, Executor.submitTask], hid.symm⟩
    next hid =>
      obtain ⟨t', ht', hid'⟩ := h.coming id f hf
      refine ⟨t', ?_, hid'⟩
      simp only [Executor.coming, Executor.submitTask, List.mem_append] at ht' ⊢
      tauto
  order := by
    have horder := h.order
    simpa [Executor.submitTask, putIds, finishedIds, Executor.queued] using horder

theorem put (h : Inv s) {k : Nat} {t : Task Id} (ht : s.submitting[k]? = some t) : Inv { s with
    submitting := s.submitting.eraseIdx k
    queue := s.queue ++ [.task t]
    log := s.log ++ [.put t.taskId] } where
  fates f := by
    rw [fateOf_concat, nextOf_put]
    exact h.fates f
  results id f hf := by
    rw [fateOf_concat, nextOf_put]
    exact h.results id f hf
  waiting f id hf := by
    rw [fateOf_concat, nextOf_put] at hf
    exact h.waiting f id hf
  coming id f hf := by
    obtain ⟨t', ht', hid⟩ := h.coming id f hf
    refine ⟨t', ?_, hid⟩
    have herase : t' ∈ s.submitting → t' ∈ s.submitting.eraseIdx k ∨ t' = t := by
      intro hmem
      obtain ⟨i, hi⟩ := List.mem_iff_getElem?.1 hmem
      by_cases hk : i = k
      · rw [hk, ht] at hi
        exact .inr (Option.some.inj hi).symm
      · exact .inl (List.mem_eraseIdx_iff_getElem?.2 ⟨i, hk, hi⟩)
    simp only [Executor.coming, Executor.queued, List.filterMap_append, List.filterMap_cons, List.filterMap_nil,
      Item.task?, List.mem_append, List.mem_singleton] at ht' ⊢
    tauto
  order := by
    have horder := h.order
    simp only [putIds, finishedIds, Executor.queued, List.filterMap_append] at horder ⊢
    rw [horder]
    simp [Item.task?]

theorem cancel (h : Inv s) {f : Nat} {id : Id} (hf : s.futures[f]? = some (id, .pending)) :
    Inv { s with futures := s.futures.set f (id, .cancelled), log := s.log ++ [.cancelled f] } where
  fates g := by
    have hfate := h.fates g
    rw [fateOf_concat, List.getElem?_set]
    split
    next hg =>
      subst hg
      have hlt : f < s.futures.length := (List.getElem?_eq_some_iff.1 hf).1
      rw [if_pos hlt]
      rw [hf] at hfate
      rcases hx : fateOf f s.log with _ | ⟨id', x⟩
      · rw [hx] at hfate
        cases hfate
      · rw [hx] at hfate
        cases x <;> simp_all [nextOf, Fate.next, Fate.state]
    next hg =>
      rw [hfate]
      rcases fateOf g s.log with _ | ⟨id', x⟩
      · rfl
      · cases x <;> simp [nextOf, Fate.next, hg]
  results id f hf := by
    rw [fateOf_concat]
    exact Led.cancelled (h.results id f hf)
  waiting f id hf := by
    rw [fateOf_concat, nextOf_cancelled_waiting] at hf
    exact h.waiting f id hf.1
  coming := h.coming
  order := by
    have horder := h.order
    simpa [putIds, finishedIds, Executor.queued] using horder

/-- The thread takes the first task. -/
theorem take (h : Inv s) {t : Task Id} {queue : List (Item Id)} (hpc : s.pc.task? = none)
    (hqueue : s.queue = .task t :: queue) {line : List Sign} :
    Inv { s with queue, pc := .checking t, line } where
  fates := h.fates
  results := h.results
  waiting := h.waiting
  coming id f hf := by
    obtain ⟨t', ht', hid⟩ := h.coming id f hf
    refine ⟨t', ?_, hid⟩
    simp only [Executor.coming, Executor.queued, hqueue, hpc, List.filterMap_cons, Item.task?, List.mem_append,
      List.mem_cons, Option.toList_none, List.not_mem_nil, or_false] at ht'
    simp only [Executor.coming, Executor.queued, Pc.task?, List.mem_append, Option.toList_some, List.mem_singleton]
    tauto
  order := by
    have horder := h.order
    simp only [Executor.queued, hqueue, hpc, List.filterMap_cons, Item.task?] at horder
    simpa [Executor.queued, Pc.task?] using horder

/-- A future of the id that is settled is the one that `_results` leads to. -/
theorem fates_finished (h : Inv s) {id : Id} {f : Nat} (hf : s.results.get? id ≠ some f) (o : Outcome ρ) :
    (nextOf f (fateOf f s.log) (.finished id o)).map (fun e => (e.1, e.2.state)) = s.futures[f]? := by
  rw [h.fates f]
  rcases hx : fateOf f s.log with _ | ⟨id', x⟩
  · rfl
  · cases x <;> simp only [nextOf, Fate.next, Option.map_some]
    split
    next hid => exact absurd (hid ▸ h.waiting f id' hx) hf
    next => rfl

theorem noteFailure (h : Inv s) (o : Outcome ρ) : Inv (s.noteFailure o) := by
  cases o with
  | result r => exact h
  | exception text =>
    simp only [Executor.noteFailure]
    split
    next => exact h.congr rfl rfl rfl rfl rfl rfl
    next => exact h

theorem finish (h : Inv s) {t : Task Id} {o : Outcome ρ} (hpc : s.pc.task? = some t) (hpc' : s'.pc.task? = none)
    (hlog : s'.log = s.log ++ [.finished t.taskId o]) (hsubmitting : s'.submitting = s.submitting)
    (hqueued : s'.queued = s.queued)
    (hresults : ∀ id, s'.results.get? id = if id = t.taskId then none else s.results.get? id)
    (hfutures : ∀ f, s'.futures[f]? =
      (nextOf f (fateOf f s.log) (.finished t.taskId o)).map fun e => (e.1, e.2.state)) : Inv s' where
  fates f := by
    rw [hlog, fateOf_concat]
    exact hfutures f
  results id f hf := by
    rw [hresults] at hf
    rw [hlog, fateOf_concat]
    split at hf
    next => cases hf
    next hid => exact Led.finished (h.results id f hf) (Ne.symm hid)
  waiting f id hf := by
    rw [hlog, fateOf_concat, nextOf_finished_waiting] at hf
    rw [hresults, if_neg (Ne.symm hf.2)]
    exact h.waiting f id hf.1
  coming id f hf := by
    rw [hresults] at hf
    split at hf
    next => cases hf
    next hid =>
      obtain ⟨t', ht', hid'⟩ := h.coming id f hf
      have hne : t' ≠ t := by
        rintro rfl
        exact hid hid'.symm
      refine ⟨t', ?_, hid'⟩
      rw [Executor.coming, hsubmitting, hqueued, hpc']
      simpa [Executor.coming, hpc, hne] using ht'
  order := by
    have horder := h.order
    rw [hlog, hqueued, hpc']
    simpa [putIds, finishedIds, hpc] using horder

theorem settle (h : Inv s) {t : Task Id} {o : Outcome ρ} (hpc : s.pc = .settling t o) : Inv (s.settle t o) := by
  have htask : s.pc.task? = some t := by rw [hpc]; rfl
  have hpop : ∀ id, (s.results.pop t.taskId).get? id = if id = t.taskId then none else s.results.get? id := by
    intro id
    split
    next hid => rw [hid, Dict.get?_pop_self]
    next hid => exact Dict.get?_pop_ne _ hid
  unfold Executor.settle
  dsimp only
  split
  next hnone =>
    apply noteFailure
    refine h.finish htask rfl rfl rfl rfl (fun id => ?_) fun f => ?_
    · split
      next hid => rw [hid, hnone]
      next => rfl
    · exact (h.fates_finished (by simp [hnone]) o).symm
  next f hsome =>
    have hother : ∀ g, g ≠ f → (nextOf g (fateOf g s.log) (.finished t.taskId o)).map (fun e => (e.1, e.2.state)) =
        s.futures[g]? := by
      intro g hg
      refine h.fates_finished (fun heq => hg ?_) o
      rw [hsome] at heq
      exact (Option.some.inj heq).symm
    have hled := h.results _ _ hsome
    have hfate := h.fates f
    split
    next id hf =>
      -- Nobody cancelled.
      rw [hf] at hfate
      have hwaiting : fateOf f s.log = some (t.taskId, .waiting) := by
        rcases hled with hx | hx
        · exact hx
        · rw [hx] at hfate
          cases hfate
      apply noteFailure
      refine h.finish htask rfl rfl rfl rfl hpop fun g => ?_
      rw [List.getElem?_set]
      split
      next hg =>
        subst hg
        rw [if_pos (List.getElem?_eq_some_iff.1 hf).1, hwaiting]
        simp [nextOf, Fate.next, Fate.state]
      next hg => exact (hother g (Ne.symm hg)).symm
    next hf =>
      have hcancelled : fateOf f s.log = some (t.taskId, .cancelled) := by
        rcases hled with hx | hx
        · rw [hx] at hfate
          exact absurd hfate (hf t.taskId)
        · exact hx
      have hall : ∀ g, s.futures[g]? =
          (nextOf g (fateOf g s.log) (.finished t.taskId o)).map fun e => (e.1, e.2.state) := by
        intro g
        by_cases hg : g = f
        · rw [hg, hfate, hcancelled]
          rfl
        · exact (hother g hg).symm
      split
      · exact h.finish htask rfl rfl rfl rfl hpop hall
      · exact h.finish htask rfl rfl rfl rfl hpop hall

end Inv

variable {c : Config} {s s' : Executor Id ρ}

theorem turn_inv (h : Inv s) (hs : s.turn = some s') : Inv s' := by
  have same : ∀ {s' : Executor Id ρ}, s'.futures = s.futures → s'.results = s.results → s'.log = s.log →
      s'.submitting = s.submitting → s'.queue = s.queue → s'.pc.task? = s.pc.task? → Inv s' :=
    fun hfutures hresults hlog hsubmitting hqueue hpc =>
      h.congr hfutures hresults hlog hsubmitting (congrArg (List.filterMap Item.task?) hqueue) hpc
  unfold Executor.turn at hs
  split at hs
  next hpc =>
    split at hs
    · cases hs
      exact same rfl rfl rfl rfl rfl (by rw [hpc]; rfl)
    · split at hs
      · cases hs
        exact h
      next t queue hqueue =>
        cases hs
        exact h.take (by rw [hpc]; rfl) hqueue
      next queue hqueue =>
        cases hs
        refine h.congr rfl rfl rfl rfl ?_ (by rw [hpc]; rfl)
        rw [Executor.queued, Executor.queued, hqueue]
        rfl
  next t hpc =>
    repeat' split at hs
    all_goals
      cases hs
      exact same rfl rfl rfl rfl rfl (by rw [hpc]; rfl)
  next t wakes hpc =>
    repeat' split at hs
    all_goals
      cases hs
      try exact same rfl rfl rfl rfl rfl (by rw [hpc]; rfl)
  next t hpc =>
    dsimp only at hs
    split at hs
    all_goals
      cases hs
      exact same rfl rfl rfl rfl rfl (by rw [hpc]; rfl)
  next t wakes hpc =>
    split at hs
    all_goals
      cases hs
      try exact same rfl rfl rfl rfl rfl (by rw [hpc]; rfl)
  next t o hpc =>
    cases hs
    exact h.settle hpc
  next wakes hpc =>
    split at hs
    all_goals
      cases hs
      try exact same rfl rfl rfl rfl rfl (by rw [hpc]; rfl)
  all_goals cases hs

theorem step_inv {a : Act Id ρ} (h : Inv s) (hs : s.step c a = some s') : Inv s' := by
  cases a with
  | submit t =>
    simp only [Executor.step] at hs
    split at hs
    · cases hs
      exact h.submitTask t
    · cases hs
  | put k =>
    simp only [Executor.step] at hs
    split at hs
    next t ht =>
      cases hs
      exact h.put ht
    · cases hs
  | cancel f =>
    simp only [Executor.step] at hs
    split at hs
    next id hf =>
      cases hs
      exact h.cancel hf
    · cases hs
  | tick d =>
    simp only [Executor.step] at hs
    split at hs
    · cases hs
      exact h.congr rfl rfl rfl rfl rfl rfl
    · cases hs
  | drop =>
    cases hs
    exact h.congr rfl rfl rfl rfl rfl rfl
  | stop =>
    simp only [Executor.step, Executor.stop] at hs
    split at hs
    · split at hs
      · cases hs
        exact h.congr rfl rfl rfl rfl rfl rfl
      · cases hs
    · cases hs
      exact h.congr rfl rfl rfl rfl rfl rfl
    · cases hs
      refine h.congr rfl rfl rfl rfl ?_ rfl
      simp [Executor.queued, Item.task?]
    · cases hs
      exact h.congr rfl rfl rfl rfl rfl rfl
    · cases hs
  | connects ok up text =>
    simp only [Executor.step, Executor.connectEnds] at hs
    split at hs
    next t hpc =>
      split at hs
      · cases hs
        exact h.congr rfl rfl rfl rfl rfl (by rw [hpc]; rfl)
      · split at hs
        all_goals
          cases hs
          exact h.congr rfl rfl rfl rfl rfl (by rw [hpc]; rfl)
    · cases hs
  | returns o up =>
    simp only [Executor.step] at hs
    split at hs
    next t hpc =>
      cases hs
      exact h.congr rfl rfl rfl rfl rfl (by rw [hpc]; rfl)
    · cases hs
  | turn => exact turn_inv h hs

/-- The thread has left its loop, and nobody but the caller has settled the future. -/
def Stranded (f : Nat) (id : Id) (s : Executor Id ρ) : Prop :=
  s.pc = .ended ∧ (s.futures[f]? = some (id, .pending) ∨ s.futures[f]? = some (id, .cancelled))

theorem Stranded.keep {f : Nat} {id : Id} (h : Stranded f id s) (hpc : s'.pc = s.pc)
    (hfutures : s'.futures[f]? = s.futures[f]?) : Stranded f id s' := by
  unfold Stranded
  rw [hpc, hfutures]
  exact h

theorem step_stranded {f : Nat} {id : Id} {a : Act Id ρ} (h : Stranded f id s) (hs : s.step c a = some s') :
    Stranded f id s' := by
  have hlt : f < s.futures.length := by
    rcases h.2 with hf | hf <;> exact (List.getElem?_eq_some_iff.1 hf).1
  cases a with
  | submit t =>
    simp only [Executor.step] at hs
    split at hs
    · cases hs
      exact h.keep rfl (List.getElem?_append_left hlt)
    · cases hs
  | put k =>
    simp only [Executor.step] at hs
    split at hs
    · cases hs
      exact h.keep rfl rfl
    · cases hs
  | cancel g =>
    simp only [Executor.step] at hs
    split at hs
    next id' hg =>
      cases hs
      by_cases heq : g = f
      · subst heq
        have hid : id' = id := by
          rcases h.2 with hf | hf <;> rw [hg] at hf <;> cases hf
          rfl
        refine ⟨h.1, .inr ?_⟩
        rw [hid]
        exact List.getElem?_set_self hlt
      · exact h.keep rfl (List.getElem?_set_ne heq)
    · cases hs
  | tick d =>
    simp only [Executor.step] at hs
    split at hs
    · cases hs
      exact h.keep rfl rfl
    · cases hs
  | drop =>
    cases hs
    exact h.keep rfl rfl
  | stop =>
    simp only [Executor.step, Executor.stop] at hs
    repeat' split at hs
    all_goals
      cases hs
      try exact h.keep rfl rfl
  | connects ok up text => simp [Executor.step, Executor.connectEnds, h.1] at hs
  | returns o up => simp [Executor.step, h.1] at hs
  | turn => simp [Executor.step, Executor.turn, h.1] at hs

open Lts in
/-- Whatever threads submit, give up waiting or stop the executor, and whatever becomes of the connection and of the
requests: every future is what the history says of it, tasks finish in the order in which they were put, no future is left
waiting once nothing is on its way, and after the end of the thread none is settled. -/
theorem executor_futures (c : Config) (now : ℚ) (s : Executor Id ρ)
    (h : Reach (Executor.step c) AnyStep { now } s) :
    (∀ f, s.futures[f]? = (fateOf f s.log).map fun e => (e.1, e.2.state)) ∧
      putIds s.log = finishedIds s.log ++ s.pc.task?.toList.map Task.taskId ++ s.queued.map Task.taskId ∧
      (s.coming = [] → ∀ f id, fateOf f s.log ≠ some (id, .waiting)) ∧
      ∀ s' f id, Reach (Executor.step c) AnyStep s s' → Stranded f id s → Stranded f id s' := by
  have hinv : Inv s := h.invariant (I := Inv) (Inv.start now) fun s a s' hs _ hstep => step_inv hs hstep
  refine ⟨hinv.fates, hinv.order, fun hcoming f id hf => ?_, fun s' f id h' hstranded => ?_⟩
  · obtain ⟨t, ht, -⟩ := hinv.coming id f (hinv.waiting f id hf)
    rw [hcoming] at ht
    exact absurd ht List.not_mem_nil
  · exact h'.invariant (I := Stranded f id) hstranded fun s a s' hs _ hstep => step_stranded hs hstep

/-- Two submissions under one id before the first is finished; the second caller gets the first task's outcome. -/
def sampleRun : List (Act Nat Nat) :=
  [.submit ⟨1, true⟩, .submit ⟨1, true⟩, .put 0, .put 0, .turn, .turn, .turn, .returns (.result 7) true, .turn, .turn,
    .turn, .turn, .tick 1, .turn, .returns (.exception "no connection") true, .turn, .stop, .turn]

theorem executor_futures_sampleRun : ∃ s : Executor Nat Nat,
    Lts.Reach (Executor.step ⟨2, 3⟩) Lts.AnyStep { now := 5 } s ∧
      s.futures = [(1, .pending), (1, .done (.result 7))] ∧
      (∀ f, s.futures[f]? = (fateOf f s.log).map fun e => (e.1, e.2.state)) ∧
      putIds s.log = finishedIds s.log ++ s.pc.task?.toList.map Task.taskId ++ s.queued.map Task.taskId ∧
      (s.coming = [] → ∀ f id, fateOf f s.log ≠ some (id, .waiting)) ∧
      ∀ s' f id, Lts.Reach (Executor.step ⟨2, 3⟩) Lts.AnyStep s s' → Stranded f id s → Stranded f id s' := by
  obtain ⟨s, hreach, hs⟩ := Lts.exists_reach (Executor.step ⟨2, 3⟩) Lts.AnyStep ({ now := 5 } : Executor Nat Nat) sampleRun
    (fun s => decide (s.futures = [(1, .pending), (1, .done (.result 7))])) (by decide +kernel)
  exact ⟨s, hreach, of_decide_eq_true hs, executor_futures ⟨2, 3⟩ 5 s hreach⟩

end PearlAlgo.Ibkr
