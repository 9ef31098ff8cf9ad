import PearlAlgo.MarketAgent.AuditWorker

/-!
# What becomes of an audit event

Whatever the threads do in between: an event that was accepted is in one place, the counters tell how many were written
and how many failed, and after a `flush` that did not give up, or a `stop` after which all workers have ended, the table
has every accepted event that SQLite took. As long as no `stop` gives up, the table has them in the order of the calls.
-/

namespace PearlAlgo.AuditLogger

variable {E : Type}

/-! ### The invariant -/

/-- The events wherever they can be. -/
def Logger.places (s : Logger E) : List E :=
  s.queue ++ (s.workers.flatMap Worker.holds ++ (s.table ++ (s.errored ++ s.lost)))

/-- What a `flush` and a `stop` rely on while they wait. -/
def MainOk (s : Logger E) : Prop :=
  match s.main with
  | .flushTest processed => processed ≤ s.totalWrites + s.totalErrors
  | .flushEmpty | .flushed => s.accepted.length ≤ s.totalWrites + s.totalErrors
  | .joining i => i + 1 = s.workers.length
  | .stopped i => i + 1 = s.workers.length ∧ s.running = false
  | .idle | .counting | .flushing => True

structure Accounted (s : Logger E) : Prop where
  places : s.accepted.Perm s.places
  writes : s.totalWrites + (s.workers.map Worker.uncounted).sum = s.table.length
  errors : s.totalErrors = s.errored.length
  enqueued : s.totalEnqueued + (if s.main = .counting then 1 else 0) = s.accepted.length
  sound : ∀ w ∈ s.workers, w.Sound
  main : MainOk s
  lost : s.lost = [] ∨ ∃ w ∈ s.workers, w.pc = .dead
  quiet : s.shutdown = true → s.running = false ∨ ∃ i, s.main = .joining i
  working : s.running = true → s.workers ≠ []
  last : ∀ w ∈ s.workers.getLast?, (w.pc.Left → s.shutdown = true) ∧ (w.pc.SawEmpty → s.queue = [])

theorem accounted_start (maxQueueSize : Nat) : Accounted ({ maxQueueSize } : Logger E) where
  places := .refl _
  writes := rfl
  errors := rfl
  enqueued := rfl
  sound := by simp
  main := trivial
  lost := .inl rfl
  quiet := by simp
  working := by simp
  last := by simp

section
variable {s s' : Logger E} {i : Nat} {w w' : Worker E}

theorem getLast?_set {α : Type} {l : List α} {a a' b : α} (ha : l[i]? = some a) (hb : b ∈ (l.set i a').getLast?) :
    b ∈ l.getLast? ∨ b = a' ∧ a ∈ l.getLast? := by
  obtain ⟨l₁, l₂, rfl, -, hset⟩ := Lts.exists_split ha
  rw [hset] at hb
  rcases List.eq_nil_or_concat l₂ with rfl | ⟨l₂, c, rfl⟩
  · simp only [List.getLast?_append, List.getLast?_singleton, Option.some_or, Option.mem_some_iff] at hb ⊢
    exact .inr ⟨hb.symm, trivial⟩
  · simp only [List.concat_eq_append, List.getLast?_append, List.getLast?_cons] at hb ⊢
    exact .inl hb

theorem Works.accounted (hworks : Works s i w s' w') (hw : s.workers[i]? = some w) (h : Accounted s) : Accounted s' where
  places := by
    classical
    refine List.perm_iff_count.2 fun a => ?_
    have hold := h.places.count_eq a
    have hnew := hworks.places.count_eq a
    have hset := (Lts.flatMap_set_perm hw Worker.holds w').count_eq a
    simp only [Logger.places, hworks.workers, hworks.accepted, List.count_append] at hold hnew hset ⊢
    omega
  writes := by
    have hset := Lts.sum_map_set hw Worker.uncounted w'
    have hold := h.writes
    have hnew := hworks.writes
    rw [hworks.workers]
    omega
  errors := by
    have hold := h.errors
    have hnew := hworks.errors
    omega
  enqueued := by
    rw [hworks.enqueued, hworks.main, hworks.accepted]
    exact h.enqueued
  sound := by
    rw [hworks.workers]
    exact Lts.forall_mem_set h.sound hworks.sound
  main := by
    have hmono := Nat.add_le_add hworks.writes_mono hworks.errors_mono
    have hmain := h.main
    unfold MainOk at hmain ⊢
    rw [hworks.main, hworks.workers, hworks.accepted, hworks.running, List.length_set]
    cases hpc : s.main <;> rw [hpc] at hmain <;> dsimp only at hmain ⊢ <;> omega
  lost := by
    have hdead (hlost : s'.lost = s.lost) : s'.lost = [] ∨ ∃ w ∈ s'.workers, w.pc = .dead := by
      rw [hlost]
      rcases h.lost with hlost' | ⟨v, hv, hpc⟩
      · exact .inl hlost'
      refine .inr ⟨v, ?_, hpc⟩
      obtain ⟨l₁, l₂, hsplit, -, hset⟩ := Lts.exists_split hw
      rw [hworks.workers, hset]
      rw [hsplit] at hv
      have hne : v ≠ w := fun heq => hworks.unfinished (.inr (heq ▸ hpc))
      simp only [List.mem_append, List.mem_cons] at hv ⊢
      tauto
    refine hworks.lost.elim hdead fun hpc => .inr ⟨w', ?_, hpc⟩
    rw [hworks.workers]
    exact List.mem_set (List.getElem?_eq_some_iff.1 hw).1 _
  quiet := by
    rw [hworks.shutdown, hworks.running, hworks.main]
    exact h.quiet
  working := by
    rw [hworks.running, hworks.workers]
    intro hrunning hnil
    exact h.working hrunning ((List.set_eq_nil_iff _ _).1 hnil)
  last := by
    intro v hv
    rw [hworks.workers] at hv
    rw [hworks.shutdown]
    rcases getLast?_set hw hv with hv | ⟨rfl, hlast⟩
    · exact ⟨(h.last v hv).1, fun hempty => hworks.queue ((h.last v hv).2 hempty)⟩
    · refine ⟨fun hleft => ?_, fun hempty => hworks.queue ?_⟩
      · exact (hworks.left hleft).elim (h.last w hlast).1 id
      · exact (hworks.sawEmpty hempty).elim (h.last w hlast).2 id

/-- The thread of the event loop goes on, and nothing else changes but whether the logger runs. -/
theorem Accounted.turn {main : MainPc} {running : Bool} (h : Accounted s) (hmain : main ≠ .counting)
    (hpc : s.main ≠ .counting) (hok : MainOk { s with main, running }) (hquiet : s.shutdown = true → running = false ∨ ∃ i, main = .joining i)
    (hrunning : running = true → s.running = true) : Accounted { s with main, running } where
  places := h.places
  writes := h.writes
  errors := h.errors
  enqueued := by
    have hold := h.enqueued
    rw [if_neg hpc] at hold
    rw [if_neg hmain]
    exact hold
  sound := h.sound
  main := hok
  lost := h.lost
  quiet := hquiet
  working hr := h.working (hrunning hr)
  last := h.last

theorem Accounted.go {main : MainPc} (h : Accounted s) (hmain : main ≠ .counting) (hpc : s.main ≠ .counting)
    (hjoining : ∀ i, s.main ≠ .joining i) (hok : MainOk { s with main }) : Accounted { s with main } := by
  refine h.turn hmain hpc hok (fun hshutdown => .inl ?_) id
  rcases h.quiet hshutdown with hrunning | ⟨i, hi⟩
  · exact hrunning
  · exact absurd hi (hjoining i)

theorem Accounted.enqueue (h : Accounted s) (hmain : s.main = .idle) (event : E) (raises : Bool) :
    Accounted (s.enqueue event raises) := by
  have hdrop : Accounted { s with totalDrops := s.totalDrops + 1 } :=
    ⟨h.places, h.writes, h.errors, h.enqueued, h.sound, h.main, h.lost, h.quiet, h.working, h.last⟩
  unfold Logger.enqueue
  split
  next hrunning =>
    split
    · exact hdrop
    · -- Nothing is put into the queue after a shutdown.
      have hshutdown : s.shutdown = false := by
        cases hs : s.shutdown with
        | false => rfl
        | true =>
          rcases h.quiet hs with hr | ⟨i, hi⟩
          · rw [hrunning] at hr
            cases hr
          · rw [hmain] at hi
            cases hi
      refine ⟨?_, h.writes, h.errors, ?_, h.sound, trivial, h.lost, ?_, h.working,
        fun v hv => ⟨(h.last v hv).1, fun he => ?_⟩⟩
      · classical
        refine List.perm_iff_count.2 fun a => ?_
        have hold := h.places.count_eq a
        simp only [Logger.places, List.count_append] at hold ⊢
        omega
      · have hold := h.enqueued
        rw [hmain] at hold
        simpa using hold
      · simp [hshutdown]
      · have hleft : v.pc.Left := by
          revert he
          cases v.pc with
          | committing next | counting next => cases next <;> simp [WorkerPc.SawEmpty, WorkerPc.Left]
          | _ => simp [WorkerPc.SawEmpty, WorkerPc.Left]
        rw [(h.last v hv).1 hleft] at hshutdown
        cases hshutdown
  next => exact hdrop

theorem Accounted.count (h : Accounted s) (hmain : s.main = .counting) :
    Accounted { s with totalEnqueued := s.totalEnqueued + 1, main := .idle } := by
  refine ⟨h.places, h.writes, h.errors, ?_, h.sound, trivial, h.lost, fun hs => ?_, h.working, h.last⟩
  · have hold := h.enqueued
    rw [hmain] at hold
    simpa using hold
  · rcases h.quiet hs with hrunning | ⟨i, hi⟩
    · exact .inl hrunning
    · rw [hmain] at hi
      cases hi

theorem Accounted.startWorker (h : Accounted s) (hmain : s.main = .idle) : Accounted s.startWorker := by
  unfold Logger.startWorker
  split
  · exact h
  refine ⟨?_, ?_, h.errors, h.enqueued, ?_, ?_, ?_, by simp, by simp, ?_⟩
  · have hplaces := h.places
    unfold Logger.places at hplaces ⊢
    rw [List.flatMap_append]
    simpa [Worker.holds, WorkerPc.held] using hplaces
  · simpa [Worker.uncounted] using h.writes
  · intro w hw
    rcases List.mem_append.1 hw with hw | hw
    · exact h.sound w hw
    · rw [List.mem_singleton.1 hw]
      exact ⟨rfl, rfl⟩
  · unfold MainOk
    dsimp only
    rw [hmain]
    trivial
  · rcases h.lost with hlost | ⟨w, hw, hpc⟩
    · exact .inl hlost
    · exact .inr ⟨w, List.mem_append_left _ hw, hpc⟩
  · intro w hw
    rw [List.getLast?_concat, Option.mem_some_iff] at hw
    rw [← hw]
    exact ⟨False.elim, False.elim⟩

theorem Accounted.stop (h : Accounted s) (hmain : s.main = .idle) : Accounted s.stop := by
  unfold Logger.stop
  split
  next hrunning =>
    refine ⟨h.places, h.writes, h.errors, ?_, h.sound, ?_, h.lost, fun _ => .inr ⟨_, rfl⟩, h.working,
      fun v hv => ⟨fun _ => rfl, (h.last v hv).2⟩⟩
    · have hold := h.enqueued
      rw [hmain] at hold
      simpa using hold
    · exact Nat.succ_pred_eq_of_pos (List.length_pos_iff.2 (h.working hrunning))
  next => exact h

/-- Every step keeps the invariant. -/
theorem step_accounted {a : Act E} (h : Accounted s) (hs : s.step a = some s') : Accounted s' := by
  cases a with
  | enqueue event raises =>
    simp only [Logger.step] at hs
    split at hs
    next hmain =>
      cases hs
      exact h.enqueue hmain event raises
    · cases hs
  | count =>
    simp only [Logger.step] at hs
    split at hs
    next hmain =>
      cases hs
      exact h.count hmain
    · cases hs
  | start =>
    simp only [Logger.step] at hs
    split at hs
    next hmain =>
      cases hs
      exact h.startWorker hmain
    · cases hs
  | stop =>
    simp only [Logger.step] at hs
    split at hs
    next hmain =>
      cases hs
      exact h.stop hmain
    · cases hs
  | joined =>
    simp only [Logger.step] at hs
    split at hs
    next i hmain =>
      obtain ⟨w, hw, hs⟩ := Option.bind_eq_some_iff.1 hs
      have hok := h.main
      unfold MainOk at hok
      rw [hmain] at hok
      split at hs
      · cases hs
        exact h.turn (by simp) (by simp [hmain]) ⟨hok, rfl⟩ (fun _ => .inl rfl) (by simp)
      · cases hs
        exact h.turn (by simp) (by simp [hmain]) ⟨hok, rfl⟩ (fun _ => .inl rfl) (by simp)
      · cases hs
    · cases hs
  | joinTimeout =>
    simp only [Logger.step] at hs
    split at hs
    next i hmain =>
      cases hs
      exact h.turn (by simp) (by simp [hmain]) trivial (fun _ => .inl rfl) (by simp)
    · cases hs
  | flush =>
    simp only [Logger.step] at hs
    split at hs
    next hmain =>
      cases hs
      exact h.go (by simp) (by simp [hmain.1]) (by simp [hmain.1]) trivial
    · cases hs
  | flushStep =>
    simp only [Logger.step] at hs
    have hok := h.main
    have henqueued := h.enqueued
    unfold MainOk at hok
    split at hs
    next hmain =>
      cases hs
      exact h.go (by simp) (by simp [hmain]) (by simp [hmain]) (le_refl (s.totalWrites + s.totalErrors))
    next processed hmain =>
      rw [hmain] at hok henqueued
      cases hs
      split
      next htest => exact h.go (by simp) (by simp [hmain]) (by simp [hmain]) (henqueued.symm.trans_le (htest.trans hok))
      next => exact h.go (by simp) (by simp [hmain]) (by simp [hmain]) trivial
    next hmain =>
      rw [hmain] at hok
      cases hs
      split
      next => exact h.go (by simp) (by simp [hmain]) (by simp [hmain]) hok
      next => exact h.go (by simp) (by simp [hmain]) (by simp [hmain]) trivial
    · cases hs
  | flushTimeout =>
    simp only [Logger.step] at hs
    split at hs
    next hmain =>
      cases hs
      exact h.go (by simp) (by simp [hmain]) (by simp [hmain]) trivial
    · cases hs
  | back =>
    simp only [Logger.step] at hs
    split at hs
    next hmain =>
      cases hs
      exact h.go (by simp) (by simp [hmain]) (by simp [hmain]) trivial
    next hmain =>
      cases hs
      exact h.go (by simp) (by simp [hmain]) (by simp [hmain]) trivial
    · cases hs
  | work i raises =>
    obtain ⟨w, hw, hs⟩ := Option.bind_eq_some_iff.1 hs
    obtain ⟨w', hworks⟩ := workerStep_works (h.sound w (List.mem_of_getElem? hw)) hs
    exact hworks.accounted hw h
  | tick d =>
    simp only [Logger.step] at hs
    split at hs
    · cases hs
      exact ⟨h.places, h.writes, h.errors, h.enqueued, h.sound, h.main, h.lost, h.quiet, h.working, h.last⟩
    · cases hs

theorem Worker.Sound.holds_eq (hsound : w.Sound) (h : w.pc.Finished) : w.holds = [] := by
  unfold Worker.Sound at hsound
  unfold Worker.holds
  rcases h with h | h
  · rw [h] at hsound ⊢
    rw [hsound.1]
    rfl
  · rw [h] at hsound ⊢
    rw [hsound]
    rfl

theorem reach_accounted {P : Logger E → Act E → Prop} {maxQueueSize : Nat}
    (h : Lts.Reach Logger.step P { maxQueueSize } s) : Accounted s :=
  h.invariant (accounted_start maxQueueSize) fun _ _ _ hinv _ hs => step_accounted hinv hs

/-! ### Order -/

/-- All workers but the last have ended, and what is not written yet comes after what is. -/
structure Ordered (s : Logger E) : Prop where
  finished : ∀ i w, s.workers[i]? = some w → i + 1 < s.workers.length → w.pc.Finished
  idle : s.running = false → ∀ w ∈ s.workers, w.pc.Finished
  order : (s.table ++ (s.workers.flatMap Worker.holds ++ s.queue)).Sublist s.accepted

theorem Ordered.congr (h : Ordered s) (hworkers : s'.workers = s.workers)
    (hrunning : s'.running = false → s.running = false ∨ ∀ w ∈ s.workers, w.pc.Finished) (htable : s'.table = s.table)
    (hqueue : s'.queue = s.queue) (haccepted : s'.accepted = s.accepted) : Ordered s' where
  finished := by
    rw [hworkers]
    exact h.finished
  idle hr := by
    rw [hworkers]
    exact (hrunning hr).elim h.idle id
  order := by
    rw [htable, hworkers, hqueue, haccepted]
    exact h.order

/-- Only the last worker works. -/
theorem Ordered.works (h : Ordered s) (hinv : Accounted s) (hw : s.workers[i]? = some w) (hworks : Works s i w s' w') :
    Ordered s' := by
  have hlast : i + 1 = s.workers.length := by
    have hlt := (List.getElem?_eq_some_iff.1 hw).1
    have hnot : ¬ i + 1 < s.workers.length := fun hlt => hworks.unfinished (h.finished i w hw hlt)
    omega
  obtain ⟨l₁, l₂, hsplit, hlength, hset⟩ := Lts.exists_split hw
  have hl₂ : l₂ = [] := by
    rw [hsplit, List.length_append, List.length_cons] at hlast
    exact List.length_eq_zero_iff.1 (by omega)
  have hfinished : ∀ v ∈ l₁, v.pc.Finished := by
    intro v hv
    obtain ⟨j, hj, hget⟩ := List.mem_iff_getElem.1 hv
    refine h.finished j v ?_ (by omega)
    rw [hsplit, List.getElem?_append_left hj, List.getElem?_eq_getElem hj, hget]
  have hnil : l₁.flatMap Worker.holds = [] := by
    refine List.flatMap_eq_nil_iff.2 fun v hv => Worker.Sound.holds_eq (hinv.sound v ?_) (hfinished v hv)
    rw [hsplit]
    exact List.mem_append_left _ hv
  refine ⟨?_, fun hrunning => ?_, ?_⟩
  · intro j v hv hj
    rw [hworks.workers, List.length_set] at hj
    have hji : i ≠ j := by omega
    rw [hworks.workers, List.getElem?_set_ne hji] at hv
    exact h.finished j v hv hj
  · rw [hworks.running] at hrunning
    exact absurd (h.idle hrunning w (List.mem_of_getElem? hw)) hworks.unfinished
  · have hold := h.order
    rw [hworks.workers, hset, hworks.accepted, hl₂, List.flatMap_append, hnil]
    rw [hsplit, hl₂, List.flatMap_append, hnil] at hold
    simp only [List.nil_append, List.flatMap_cons, List.flatMap_nil, List.append_nil] at hold ⊢
    exact hworks.order.trans hold

theorem step_ordered {a : Act E} (hinv : Accounted s) (h : Ordered s) (ha : a ≠ .joinTimeout) (hs : s.step a = some s') :
    Ordered s' := by
  cases a with
  | enqueue event raises =>
    simp only [Logger.step, Logger.enqueue] at hs
    split at hs
    · cases hs
      split
      · split
        · exact h.congr rfl .inl rfl rfl rfl
        · refine ⟨h.finished, h.idle, ?_⟩
          have hold := h.order.append (List.Sublist.refl [event])
          simpa using hold
      · exact h.congr rfl .inl rfl rfl rfl
    · cases hs
  | start =>
    simp only [Logger.step, Logger.startWorker] at hs
    split at hs
    · cases hs
      split
      · exact h
      next hrunning =>
        have hall := h.idle (by simpa using hrunning)
        refine ⟨fun j v hv hj => ?_, by simp, ?_⟩
        · rw [List.length_append, List.length_singleton] at hj
          rw [List.getElem?_append_left (by omega)] at hv
          exact hall v (List.mem_of_getElem? hv)
        · have hold := h.order
          simpa [Worker.holds, WorkerPc.held] using hold
    · cases hs
  | stop =>
    simp only [Logger.step, Logger.stop] at hs
    split at hs
    · cases hs
      split <;> exact h.congr rfl .inl rfl rfl rfl
    · cases hs
  | joined =>
    simp only [Logger.step] at hs
    split at hs
    next i hmain =>
      obtain ⟨w, hw, hs⟩ := Option.bind_eq_some_iff.1 hs
      have hlast := hinv.main
      unfold MainOk at hlast
      rw [hmain] at hlast
      dsimp only at hlast
      have hall (hfinished : w.pc.Finished) : ∀ v ∈ s.workers, v.pc.Finished := by
        intro v hv
        obtain ⟨j, hj, hget⟩ := List.mem_iff_getElem.1 hv
        have hj' : s.workers[j]? = some v := by rw [List.getElem?_eq_getElem hj, hget]
        by_cases hji : j = i
        · rw [hji, hw] at hj'
          cases hj'
          exact hfinished
        · exact h.finished j v hj' (by omega)
      split at hs
      next hpc =>
        cases hs
        exact h.congr rfl (fun _ => .inr (hall (.inl hpc))) rfl rfl rfl
      next hpc =>
        cases hs
        exact h.congr rfl (fun _ => .inr (hall (.inr hpc))) rfl rfl rfl
      · cases hs
    · cases hs
  | joinTimeout => exact absurd rfl ha
  | work i raises =>
    obtain ⟨w, hw, hs⟩ := Option.bind_eq_some_iff.1 hs
    obtain ⟨w', hworks⟩ := workerStep_works (hinv.sound w (List.mem_of_getElem? hw)) hs
    exact h.works hinv hw hworks
  | count | flush | flushStep | flushTimeout | back | tick d =>
    simp only [Logger.step] at hs
    split at hs <;> cases hs <;> exact h.congr rfl .inl rfl rfl rfl

end

/-! ### The results -/

/-- Whatever the threads do: an accepted event is in the queue, with one worker, in the table, or was lost, once; and the
counters tell how many. -/
theorem audit_places (maxQueueSize : Nat) (s : Logger E) (h : Lts.Reach Logger.step Lts.AnyStep { maxQueueSize } s) :
    s.accepted.Perm s.places ∧ s.totalWrites + (s.workers.map Worker.uncounted).sum = s.table.length ∧
      s.totalErrors = s.errored.length ∧ (s.main ≠ .counting → s.totalEnqueued = s.accepted.length) := by
  have hinv := reach_accounted h
  refine ⟨hinv.places, hinv.writes, hinv.errors, fun hmain => ?_⟩
  have henqueued := hinv.enqueued
  rw [if_neg hmain] at henqueued
  exact henqueued

/-- SQLite refuses the first of two events; the worker commits the second, late, while `flush` waits. -/
def sampleRun : List (Act Nat) :=
  [.start, .work 0 false, .enqueue 7 false, .count, .enqueue 8 false, .count, .work 0 false, .work 0 false, .work 0 true,
    .work 0 false, .work 0 false, .work 0 false, .work 0 false, .tick 3, .work 0 false, .flush, .work 0 false, .flushStep,
    .work 0 false, .flushStep, .flushStep, .flushStep, .flushStep]

theorem audit_places_sampleRun : ∃ s : Logger Nat, Lts.Reach Logger.step Lts.AnyStep {} s ∧ s.table = [8] ∧
    s.accepted.Perm s.places ∧ s.totalWrites + (s.workers.map Worker.uncounted).sum = s.table.length ∧
      s.totalErrors = s.errored.length ∧ (s.main ≠ .counting → s.totalEnqueued = s.accepted.length) := by
  obtain ⟨s, hreach, hs⟩ := Lts.exists_reach Logger.step Lts.AnyStep ({} : Logger Nat) sampleRun (fun s => s.table = [8])
    (by decide +kernel)
  exact ⟨s, hreach, of_decide_eq_true hs, audit_places 5000 s hreach⟩

/-- When `flush` returns before its deadline, or when `stop` returns and all workers have ended without dying, nothing is
left over: the table has all accepted events but those that SQLite refused. -/
theorem audit_settled (maxQueueSize : Nat) (s : Logger E) (h : Lts.Reach Logger.step Lts.AnyStep { maxQueueSize } s)
    (hdone : s.main = .flushed ∨ (∃ i, s.main = .stopped i) ∧ ∀ w ∈ s.workers, w.pc = .exited) :
    s.queue = [] ∧ s.accepted.Perm (s.table ++ s.errored) := by
  have hinv := reach_accounted h
  have hplaces := hinv.places
  have hlength := hplaces.length_eq
  have hmain := hinv.main
  unfold MainOk at hmain
  unfold Logger.places at hplaces
  simp only [Logger.places, List.length_append] at hlength
  rcases hdone with hflushed | ⟨⟨i, hi⟩, hexited⟩
  · rw [hflushed] at hmain
    dsimp only at hmain
    have hwrites := hinv.writes
    have herrors := hinv.errors
    have hqueue : s.queue = [] := List.length_eq_zero_iff.1 (by omega)
    have hholds : s.workers.flatMap Worker.holds = [] := List.length_eq_zero_iff.1 (by omega)
    have hlost : s.lost = [] := List.length_eq_zero_iff.1 (by omega)
    refine ⟨hqueue, ?_⟩
    simpa [hqueue, hholds, hlost] using hplaces
  · rw [hi] at hmain
    have hlast : ∃ w ∈ s.workers.getLast?, w.pc = .exited := by
      have hne : s.workers ≠ [] := by
        intro hnil
        rw [hnil] at hmain
        cases hmain.1
      exact ⟨_, List.getLast?_eq_some_getLast hne, hexited _ (List.getLast_mem hne)⟩
    obtain ⟨w, hw, hpc⟩ := hlast
    have hqueue : s.queue = [] := (hinv.last w hw).2 (by rw [hpc]; trivial)
    have hholds : s.workers.flatMap Worker.holds = [] :=
      List.flatMap_eq_nil_iff.2 fun v hv => Worker.Sound.holds_eq (hinv.sound v hv) (.inl (hexited v hv))
    have hlost : s.lost = [] := by
      rcases hinv.lost with hlost | ⟨v, hv, hdead⟩
      · exact hlost
      · rw [hexited v hv] at hdead
        cases hdead
    refine ⟨hqueue, ?_⟩
    simpa [hqueue, hholds, hlost] using hplaces

theorem audit_settled_sampleRun : ∃ s : Logger Nat, Lts.Reach Logger.step Lts.AnyStep {} s ∧ s.main = .flushed ∧
    s.queue = [] ∧ s.accepted.Perm (s.table ++ s.errored) := by
  obtain ⟨s, hreach, hs⟩ := Lts.exists_reach Logger.step Lts.AnyStep ({} : Logger Nat) sampleRun
    (fun s => s.main = .flushed)
    (by decide +kernel)
  exact ⟨s, hreach, of_decide_eq_true hs, audit_settled 5000 s hreach (.inl (of_decide_eq_true hs))⟩

/-- As long as no `stop` gives up waiting, the table has the events in the order in which they were accepted, and what is
still under way comes after them. -/
theorem audit_order (maxQueueSize : Nat) (s : Logger E)
    (h : Lts.Reach Logger.step (fun _ a => a ≠ .joinTimeout) { maxQueueSize } s) :
    (s.table ++ (s.workers.flatMap Worker.holds ++ s.queue)).Sublist s.accepted := by
  have hinv : Accounted s ∧ Ordered s := by
    refine h.invariant (I := fun s => Accounted s ∧ Ordered s) ⟨accounted_start maxQueueSize, by simp, by simp, .refl _⟩
      fun s a s' hs ha hstep => ?_
    exact ⟨step_accounted hs.1 hstep, step_ordered hs.1 hs.2 ha hstep⟩
  exact hinv.2.order

theorem audit_order_sampleRun : ∃ s : Logger Nat, Lts.Reach Logger.step (fun _ a => a ≠ .joinTimeout) {} s ∧
    s.table = [8] ∧ (s.table ++ (s.workers.flatMap Worker.holds ++ s.queue)).Sublist s.accepted := by
  obtain ⟨s, hreach, hs⟩ := Lts.exists_reach Logger.step (fun _ a => a ≠ .joinTimeout) ({} : Logger Nat) sampleRun
    (fun s => s.table = [8]) (by decide +kernel)
  exact ⟨s, hreach, of_decide_eq_true hs, audit_order 5000 s hreach⟩

end PearlAlgo.AuditLogger
