import PearlAlgo.MarketAgent.AuditLogger

/-!
# What an audit worker can do

`Works` says of one step of a worker how it changes the logger: the events move between the queue, the worker and the
table, or fail; the counters follow.
-/

namespace PearlAlgo.AuditLogger

variable {E : Type}

def Worker.holds (w : Worker E) : List E := w.transaction ++ w.pc.held

/-- What is committed, but not yet in `_total_writes`. -/
def Worker.uncounted (w : Worker E) : Nat :=
  match w.pc with
  | .counting _ => w.pending
  | _ => 0

def Worker.Sound (w : Worker E) : Prop :=
  match w.pc with
  | .connecting | .exited => w.transaction = [] ∧ w.pending = 0
  | .counting _ | .dead => w.transaction = []
  | _ => w.pending = w.transaction.length

/-- The worker has left its loop, and has not died. -/
def WorkerPc.Left : WorkerPc E → Prop
  | .leaving | .committing .drain | .committing .exit | .counting .drain | .counting .exit | .draining | .taking
  | .flushing _ | .drained | .exited => True
  | _ => False

/-- The worker has found the queue empty after its loop. -/
def WorkerPc.SawEmpty : WorkerPc E → Prop
  | .drained | .committing .exit | .counting .exit | .exited => True
  | _ => False

/-- What a worker can do to the rest of the logger, and to itself. -/
structure Works (s : Logger E) (i : Nat) (w : Worker E) (s' : Logger E) (w' : Worker E) : Prop where
  workers : s'.workers = s.workers.set i w'
  main : s'.main = s.main
  running : s'.running = s.running
  shutdown : s'.shutdown = s.shutdown
  accepted : s'.accepted = s.accepted
  enqueued : s'.totalEnqueued = s.totalEnqueued
  unfinished : ¬ w.pc.Finished
  places : (s'.queue ++ (w'.holds ++ (s'.table ++ (s'.errored ++ s'.lost)))).Perm
    (s.queue ++ (w.holds ++ (s.table ++ (s.errored ++ s.lost))))
  order : (s'.table ++ (w'.holds ++ s'.queue)).Sublist (s.table ++ (w.holds ++ s.queue))
  writes : s'.totalWrites + w'.uncounted + s.table.length = s.totalWrites + w.uncounted + s'.table.length
  writes_mono : s.totalWrites ≤ s'.totalWrites
  errors : s'.totalErrors + s.errored.length = s.totalErrors + s'.errored.length
  errors_mono : s.totalErrors ≤ s'.totalErrors
  sound : w'.Sound
  left : w'.pc.Left → w.pc.Left ∨ s.shutdown = true
  sawEmpty : w'.pc.SawEmpty → w.pc.SawEmpty ∨ s.queue = []
  queue : s.queue = [] → s'.queue = []
  lost : s'.lost = s.lost ∨ w'.pc = .dead

section
variable {s s' : Logger E} {i : Nat} {w : Worker E}

/-- Only the worker itself changes. -/
theorem Works.turn {w' : Worker E} (hunfinished : ¬ w.pc.Finished) (hholds : w'.holds = w.holds)
    (huncounted : w'.uncounted = w.uncounted) (hsound : w'.Sound) (hleft : w'.pc.Left → w.pc.Left ∨ s.shutdown = true)
    (hsawEmpty : w'.pc.SawEmpty → w.pc.SawEmpty ∨ s.queue = []) : Works s i w (s.setWorker i w') w' where
  workers := rfl
  main := rfl
  running := rfl
  shutdown := rfl
  accepted := rfl
  enqueued := rfl
  unfinished := hunfinished
  places := by rw [hholds]; exact .refl _
  order := by rw [hholds]; exact .refl _
  writes := by rw [huncounted]; rfl
  writes_mono := le_rfl
  errors := rfl
  errors_mono := le_rfl
  sound := hsound
  left := hleft
  sawEmpty := hsawEmpty
  queue h := h
  lost := .inl rfl

/-- The worker takes the first event of the queue. -/
theorem Works.take {event : E} {queue : List E} {pc : WorkerPc E} (hqueue : s.queue = event :: queue)
    (hunfinished : ¬ w.pc.Finished) (hheld : w.pc.held = []) (hheld' : pc.held = [event]) (hcount : w.uncounted = 0)
    (hcount' : ({ w with pc } : Worker E).uncounted = 0) (hsound : ({ w with pc } : Worker E).Sound)
    (hleft : pc.Left → w.pc.Left) (hsawEmpty : ¬ pc.SawEmpty) :
    Works s i w { s.setWorker i { w with pc } with queue } { w with pc } where
  workers := rfl
  main := rfl
  running := rfl
  shutdown := rfl
  accepted := rfl
  enqueued := rfl
  unfinished := hunfinished
  places := by
    classical
    refine List.perm_iff_count.2 fun a => ?_
    simp only [hqueue, Worker.holds, hheld, hheld', Logger.setWorker, List.count_append, List.count_cons, List.count_nil]
    omega
  order := by
    simp only [hqueue, Worker.holds, hheld, hheld', List.append_nil, List.append_assoc, List.cons_append, List.nil_append]
    exact .refl _
  writes := by rw [hcount, hcount']; rfl
  writes_mono := le_rfl
  errors := rfl
  errors_mono := le_rfl
  sound := hsound
  left h := .inl (hleft h)
  sawEmpty h := absurd h hsawEmpty
  queue h := absurd (hqueue.symm.trans h) (List.cons_ne_nil _ _)
  lost := .inl rfl

/-- An event goes into the transaction, or SQLite does not take it. -/
theorem Works.insert {event : E} {raises : Bool} {pc : WorkerPc E} (hunfinished : ¬ w.pc.Finished)
    (hheld : w.pc.held = [event]) (hheld' : pc.held = []) (hcount : w.uncounted = 0)
    (hcount' : ∀ transaction pending, ({ w with pc, transaction, pending } : Worker E).uncounted = 0)
    (hsound : w.pending = w.transaction.length)
    (hsound' : ∀ transaction : List E, ({ w with pc, transaction, pending := transaction.length } : Worker E).Sound)
    (hleft : pc.Left → w.pc.Left) (hsawEmpty : ¬ pc.SawEmpty) : ∃ w', Works s i w (s.insert i w event raises pc) w' := by
  cases raises with
  | true =>
    have hnew : ({ w with pc } : Worker E).Sound := by
      rw [show ({ w with pc } : Worker E) = { w with pc, pending := w.transaction.length } by rw [← hsound]]
      exact hsound' w.transaction
    refine ⟨{ w with pc }, ⟨rfl, rfl, rfl, rfl, rfl, rfl, hunfinished, ?_, ?_, ?_, le_rfl, ?_, Nat.le_succ _, hnew,
      fun h => .inl (hleft h), fun h => absurd h hsawEmpty, fun h => h, .inl rfl⟩⟩
    · classical
      refine List.perm_iff_count.2 fun a => ?_
      simp only [Logger.insert, if_true, Logger.setWorker, Worker.holds, hheld, hheld', List.count_append, List.count_cons,
        List.count_nil]
      omega
    · simp only [Logger.insert, if_true, Logger.setWorker, Worker.holds, hheld, hheld', List.append_nil, List.append_assoc]
      exact .append_left (.append_left (List.sublist_append_right _ _) _) _
    · rw [hcount, hcount' w.transaction w.pending]
      rfl
    · simp only [Logger.insert, if_true, Logger.setWorker, List.length_append, List.length_singleton]
      omega
  | false =>
    have hnew : ({ w with pc, transaction := w.transaction ++ [event], pending := w.pending + 1 } : Worker E).Sound := by
      have hlength : w.pending + 1 = (w.transaction ++ [event]).length := by rw [hsound, List.length_append]; rfl
      rw [hlength]
      exact hsound' _
    refine ⟨{ w with pc, transaction := w.transaction ++ [event], pending := w.pending + 1 },
      ⟨rfl, rfl, rfl, rfl, rfl, rfl, hunfinished, ?_, ?_, ?_, le_rfl, rfl, le_rfl, hnew, fun h => .inl (hleft h), fun h => absurd h hsawEmpty, fun h => h,
      .inl rfl⟩⟩
    · simp only [Logger.insert, Bool.false_eq_true, if_false, Logger.setWorker, Worker.holds, hheld, hheld',
        List.append_nil]
      exact .refl _
    · simp only [Logger.insert, Bool.false_eq_true, if_false, Logger.setWorker, Worker.holds, hheld, hheld',
        List.append_nil]
      exact .refl _
    · rw [hcount, hcount']
      rfl

/-- The transaction is committed, or lost with the worker. -/
theorem Works.commit {next : Next} (hpc : w.pc = .committing next) (hsound : w.Sound) (raises : Bool) :
    ∃ w', Works s i w (if raises then
        { s.setWorker i { w with pc := .dead, transaction := [] } with lost := s.lost ++ w.transaction }
      else { s.setWorker i { w with pc := .counting next, transaction := [] } with
        table := s.table ++ w.transaction }) w' := by
  have hpending : w.pending = w.transaction.length := by
    unfold Worker.Sound at hsound
    rw [hpc] at hsound
    exact hsound
  have hunfinished : ¬ w.pc.Finished := by simp [hpc, WorkerPc.Finished]
  have hcount : w.uncounted = 0 := by rw [Worker.uncounted, hpc]
  cases raises with
  | true =>
    refine ⟨{ w with pc := .dead, transaction := [] }, ⟨rfl, rfl, rfl, rfl, rfl, rfl, hunfinished, ?_, ?_, ?_, le_rfl, rfl,
      le_rfl, rfl, False.elim, False.elim, fun h => h, .inr rfl⟩⟩
    · classical
      refine List.perm_iff_count.2 fun a => ?_
      simp only [if_true, Logger.setWorker, Worker.holds, hpc, WorkerPc.held, List.append_nil, List.count_append,
        List.count_nil]
      omega
    · simp only [if_true, Logger.setWorker, Worker.holds, hpc, WorkerPc.held, List.append_nil, List.nil_append]
      exact .append_left (List.sublist_append_right _ _) _
    · rw [hcount]
      rfl
  | false =>
    refine ⟨{ w with pc := .counting next, transaction := [] },
      ⟨rfl, rfl, rfl, rfl, rfl, rfl, hunfinished, ?_, ?_, ?_, le_rfl, rfl, le_rfl, rfl, fun h => .inl ?_, fun h => .inl ?_, fun h => h, .inl rfl⟩⟩
    · classical
      refine List.perm_iff_count.2 fun a => ?_
      simp only [Bool.false_eq_true, if_false, Logger.setWorker, Worker.holds, hpc, WorkerPc.held, List.append_nil,
        List.count_append, List.count_nil]
      omega
    · simp only [Bool.false_eq_true, if_false, Logger.setWorker, Worker.holds, hpc, WorkerPc.held, List.append_nil,
        List.nil_append, List.append_assoc]
      exact .refl _
    · rw [hcount]
      simp only [Bool.false_eq_true, if_false, Logger.setWorker, Worker.uncounted, List.length_append, hpending]
      omega
    · rw [hpc]
      cases next <;> exact h
    · rw [hpc]
      cases next <;> exact h

theorem Works.count {next : Next} (hpc : w.pc = .counting next) (hsound : w.Sound) :
    Works s i w { s.setWorker i { w with pc := next.pc, pending := 0, lastCommit := s.clock } with
      totalWrites := s.totalWrites + w.pending } { w with pc := next.pc, pending := 0, lastCommit := s.clock } := by
  have htransaction : w.transaction = [] := by
    unfold Worker.Sound at hsound
    rw [hpc] at hsound
    exact hsound
  have hholds : ({ w with pc := next.pc, pending := 0, lastCommit := s.clock } : Worker E).holds = w.holds := by
    simp only [Worker.holds, hpc]
    cases next <;> rfl
  refine ⟨rfl, rfl, rfl, rfl, rfl, rfl, by simp [hpc, WorkerPc.Finished], ?_, ?_, ?_, Nat.le_add_right _ _, rfl, le_rfl, ?_,
    fun h => .inl ?_, fun h => .inl ?_, fun h => h, .inl rfl⟩
  · rw [hholds]
    exact .refl _
  · rw [hholds]
    exact .refl _
  · have hcount : w.uncounted = w.pending := by rw [Worker.uncounted, hpc]
    have hcount' : ({ w with pc := next.pc, pending := 0, lastCommit := s.clock } : Worker E).uncounted = 0 := by
      cases next <;> rfl
    rw [hcount, hcount']
    rfl
  · unfold Worker.Sound
    dsimp only
    cases next <;> simp [Next.pc, htransaction]
  · rw [hpc]
    cases next <;> exact h
  · rw [hpc]
    cases next <;> exact h

theorem workerStep_works {raises : Bool} (hsound : w.Sound) (h : s.workerStep i w raises = some s') :
    ∃ w', Works s i w s' w' := by
  have hpending := hsound
  unfold Worker.Sound at hpending
  unfold Logger.workerStep at h
  cases hpc : w.pc with
  | connecting =>
    rw [hpc] at h hpending
    dsimp only at h hpending
    cases h
    refine ⟨_, .turn (by simp [hpc, WorkerPc.Finished]) ?_ ?_ ?_ ?_ ?_⟩ <;> cases raises <;>
      simp [Worker.holds, Worker.uncounted, Worker.Sound, WorkerPc.held, WorkerPc.Left, WorkerPc.SawEmpty, hpc, hpending]
  | looping =>
    rw [hpc] at h hpending
    dsimp only at h hpending
    cases h
    refine ⟨_, .turn (by simp [hpc, WorkerPc.Finished]) ?_ ?_ ?_ ?_ ?_⟩ <;> cases hshutdown : s.shutdown <;>
      simp [Worker.holds, Worker.uncounted, Worker.Sound, WorkerPc.held, WorkerPc.Left, WorkerPc.SawEmpty, hpc, hpending]
  | getting =>
    rw [hpc] at h hpending
    dsimp only at h hpending
    rcases hqueue : s.queue with _ | ⟨event, queue⟩
    · rw [hqueue] at h
      cases h
      refine ⟨_, .turn (by simp [hpc, WorkerPc.Finished]) ?_ ?_ ?_ ?_ ?_⟩ <;>
        simp [Worker.holds, Worker.uncounted, Worker.Sound, WorkerPc.held, WorkerPc.Left, WorkerPc.SawEmpty, hpc, hpending]
    · rw [hqueue] at h
      cases h
      refine ⟨_, .take hqueue ?_ ?_ rfl ?_ ?_ ?_ ?_ ?_⟩ <;>
        simp [Worker.uncounted, Worker.Sound, WorkerPc.Finished, WorkerPc.held, WorkerPc.Left, WorkerPc.SawEmpty, hpc,
          hpending]
  | idle =>
    rw [hpc] at h hpending
    dsimp only at h hpending
    cases h
    refine ⟨_, .turn (by simp [hpc, WorkerPc.Finished]) ?_ ?_ ?_ ?_ ?_⟩ <;> split <;>
      simp [Worker.holds, Worker.uncounted, Worker.Sound, WorkerPc.held, WorkerPc.Left, WorkerPc.SawEmpty, hpc, hpending]
  | inserting event =>
    rw [hpc] at h hpending
    dsimp only at h hpending
    cases h
    refine Works.insert ?_ (by rw [hpc]; rfl) rfl ?_ (fun _ _ => rfl) hpending (fun _ => rfl) False.elim (fun hf => hf) <;>
      simp [Worker.uncounted, WorkerPc.Finished, hpc]
  | batchCheck =>
    rw [hpc] at h hpending
    dsimp only at h hpending
    cases h
    refine ⟨_, .turn (by simp [hpc, WorkerPc.Finished]) ?_ ?_ ?_ ?_ ?_⟩ <;> split <;>
      simp [Worker.holds, Worker.uncounted, Worker.Sound, WorkerPc.held, WorkerPc.Left, WorkerPc.SawEmpty, hpc, hpending]
  | committing next =>
    rw [hpc] at h
    dsimp only at h
    cases h
    exact Works.commit hpc hsound raises
  | counting next =>
    rw [hpc] at h
    dsimp only at h
    cases h
    exact ⟨_, .count hpc hsound⟩
  | leaving =>
    rw [hpc] at h hpending
    dsimp only at h hpending
    cases h
    refine ⟨_, .turn (by simp [hpc, WorkerPc.Finished]) ?_ ?_ ?_ ?_ ?_⟩ <;> split <;>
      simp [Worker.holds, Worker.uncounted, Worker.Sound, WorkerPc.held, WorkerPc.Left, WorkerPc.SawEmpty, hpc, hpending]
  | draining =>
    rw [hpc] at h hpending
    dsimp only at h hpending
    cases h
    refine ⟨_, .turn (by simp [hpc, WorkerPc.Finished]) ?_ ?_ ?_ ?_ ?_⟩ <;> split <;>
      simp_all [Worker.holds, Worker.uncounted, Worker.Sound, WorkerPc.held, WorkerPc.Left, WorkerPc.SawEmpty]
  | taking =>
    rw [hpc] at h hpending
    dsimp only at h hpending
    rcases hqueue : s.queue with _ | ⟨event, queue⟩
    · rw [hqueue] at h
      cases h
      refine ⟨_, .turn (by simp [hpc, WorkerPc.Finished]) ?_ ?_ ?_ ?_ ?_⟩ <;>
        simp [Worker.holds, Worker.uncounted, Worker.Sound, WorkerPc.held, WorkerPc.Left, WorkerPc.SawEmpty, hpc, hpending,
          hqueue]
    · rw [hqueue] at h
      cases h
      refine ⟨_, .take hqueue ?_ ?_ rfl ?_ ?_ ?_ ?_ ?_⟩ <;>
        simp [Worker.uncounted, Worker.Sound, WorkerPc.Finished, WorkerPc.held, WorkerPc.Left, WorkerPc.SawEmpty, hpc,
          hpending]
  | flushing event =>
    rw [hpc] at h hpending
    dsimp only at h hpending
    cases h
    refine Works.insert ?_ (by rw [hpc]; rfl) rfl ?_ (fun _ _ => rfl) hpending (fun _ => rfl) (fun _ => ?_)
      (fun hf => hf) <;>
      simp [Worker.uncounted, WorkerPc.Finished, WorkerPc.Left, hpc]
  | drained =>
    rw [hpc] at h hpending
    dsimp only at h hpending
    cases h
    refine ⟨_, .turn (by simp [hpc, WorkerPc.Finished]) ?_ ?_ ?_ ?_ ?_⟩ <;> split <;>
      simp_all [Worker.holds, Worker.uncounted, Worker.Sound, WorkerPc.held, WorkerPc.Left, WorkerPc.SawEmpty]
  | exited =>
    rw [hpc] at h
    cases h
  | dead =>
    rw [hpc] at h
    cases h

end

end PearlAlgo.AuditLogger
