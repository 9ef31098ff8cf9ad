import PearlAlgo.Storage.AsyncSQLiteQueue

/-!
# No HIGH write is lost (`storage/async_sqlite_queue.py`)

`enqueue` never drops a HIGH write and `stop()` flushes what is pending. `noLoss_of_safe`: that holds of every
run whose steps are `safe`. The others lose a write: the worker empties the overflow and takes the size of the
queue once on its way out, while calls of `enqueue` still find `_running` set, and the overflow has a cap.
-/

namespace PearlAlgo
open Py Lts
namespace QueueSys

/-- When a call of `stop` has returned, each HIGH write whose call has returned `True` has been executed once, or
failed once and was counted. -/
def NoLoss (s : QueueSys) : Prop :=
  .returned ∈ s.stops →
    (∀ c ∈ s.calls, c.write.priority = .high → c.pc = .returned true →
      s.executed.countP (fun e => e.write = c.write ∧ e.outcome ≠ .unknownOperation) = 1) ∧
    s.totalErrors = s.executed.countP (·.outcome = .raised)

instance (s : QueueSys) : Decidable s.NoLoss := inferInstanceAs (Decidable (_ → _ ∧ _))

/-- `stop` sets the event, the worker finds nothing to flush and exits, and only then comes the `put_nowait` of a
call that has seen `_running`: the write stays in the queue. -/
theorem high_write_lost :
    ¬ ∀ (maxQueueSize : Int) (s : QueueSys), Reach step AnyStep (start maxQueueSize) s → s.NoLoss := by
  intro hall
  obtain ⟨s, hreach, hs⟩ := exists_reach step AnyStep (start 1000)
    [.enqueue "add_trade" .high, .stop, .stopping 0, .worker false, .worker false, .worker false, .call 0, .stopping 0,
      .stopping 0] (fun s => ¬ s.NoLoss) (by decide +kernel)
  exact of_decide_eq_true hs (hall _ s hreach)

/-- The steps at which no HIGH write gets lost. -/
def safe (s : QueueSys) : QueueAct → Bool
  | .enqueue operation priority => priority ≠ .high ∨ operation ∈ operations
  | .call i =>
    match s.calls[i]? with
    | none => true
    | some c =>
      if c.pc = .spilling then s.overflow.length < MAX_OVERFLOW_SIZE ∧ s.worker.leftOverflow = false
      else s.Full ∨ c.write.priority ≠ .high ∨ s.worker ≠ .exited
  | .worker _ =>
    match s.worker with
    | .flushing remaining flushed => flushed < remaining ∨ ∀ w ∈ s.queue.items, w.priority ≠ .high
    | _ => true
  | .stop => true
  | .stopping i => s.stops[i]? ≠ some .joining ∨ s.worker = .exited

structure Sound (s : QueueSys) : Prop where
  accounted : s.Accounted
  known : ∀ c ∈ s.calls, c.write.priority = .high → c.write.operation ∈ operations
  evicted : s.evicted = []
  overflow : s.worker.leftOverflow = true → s.overflow = []
  exited : s.worker = .exited → ∀ w ∈ s.queue.items, w.priority ≠ .high
  stopped : .joined ∈ s.stops ∨ .returned ∈ s.stops ∨ s.running = false → s.worker = .exited
  errors : s.totalErrors = s.executed.countP (·.outcome = .raised)

variable {s s' : QueueSys}

theorem sound_start (maxQueueSize : Int) : (start maxQueueSize).Sound where
  accounted := accounted .start (P := AnyStep)
  known := fun c hc => absurd hc List.not_mem_nil
  evicted := rfl
  overflow := nofun
  exited := nofun
  stopped := by rintro (h | h | h) <;> cases h
  errors := rfl

theorem execute_errors (e : Execution) (h : s.totalErrors = s.executed.countP (·.outcome = .raised)) :
    (s.execute e).totalErrors = (s.execute e).executed.countP (·.outcome = .raised) := by
  simp only [execute, List.countP_append, ← h, List.countP_singleton, decide_eq_true_eq]
  split <;> rfl

theorem WorkerMove.sound (hmove : s.WorkerMove s') (hrun : s.worker ≠ .exited) (hs : s.Sound)
    (hsafe : ∀ r f, s.worker = .flushing r f → r ≤ f → ∀ w ∈ s.queue.items, w.priority ≠ .high)
    (haccounted : s'.Accounted) : s'.Sound := by
  have hstopped : ¬ (.joined ∈ s.stops ∨ .returned ∈ s.stops ∨ s.running = false) := fun h => hrun (hs.stopped h)
  cases hmove with
  | turn hbatch hexecuting hbatch' hexecuting' hleft hexit =>
    refine ⟨haccounted, hs.known, hs.evicted, fun h => hs.overflow (hleft ▸ h), fun h => ?_,
      fun h => absurd h hstopped, hs.errors⟩
    rcases hexit h with hempty | ⟨r, f, hworker, hbudget⟩
    · intro w hw
      exact absurd (hempty ▸ hw) List.not_mem_nil
    · exact hsafe r f hworker hbudget
  | drain hbatch hexecuting hbatch' hexecuting' hexit =>
    exact ⟨haccounted, hs.known, hs.evicted, fun _ => rfl, fun h => absurd h hexit, fun h => absurd h hstopped,
      hs.errors⟩
  | overflowWrite hbatch hexecuting hbatch' hexecuting' hleft hexit =>
    exact ⟨haccounted, hs.known, hs.evicted, fun h => hs.overflow (hleft ▸ h), fun h => absurd h hexit,
      fun h => absurd h hstopped, execute_errors _ hs.errors⟩
  | take hget hbatch hexecuting hbatch' hexecuting' hleft hexit =>
    exact ⟨haccounted, hs.known, hs.evicted, fun h => hs.overflow (hleft ▸ h), fun h => absurd h hexit,
      fun h => absurd h hstopped, hs.errors⟩
  | write hbatch hexecuting hbatch' hexecuting' hleft hexit =>
    exact ⟨haccounted, hs.known, hs.evicted, fun h => hs.overflow (hleft ▸ h), fun h => absurd h hexit,
      fun h => absurd h hstopped, execute_errors _ hs.errors⟩

theorem call_sound {i : Nat} (hs : s.Sound) (hsafe : s.safe (.call i) = true) (h : s.step (.call i) = some s') :
    s'.Sound := by
  have haccounted := step_accounted h hs.accounted
  simp only [step, Option.bind_eq_bind, Option.bind_eq_some_iff] at h
  obtain ⟨c, hc, ⟨s₁, pc⟩, hstep, h⟩ := h
  cases h
  simp only [safe, hc] at hsafe
  have hknown : ∀ c' ∈ s.calls.set i { c with pc }, c'.write.priority = .high → c'.write.operation ∈ operations := by
    intro c' hc' hhigh
    rcases List.mem_or_eq_of_mem_set hc' with hc' | rfl
    · exact hs.known c' hc' hhigh
    · exact hs.known c (List.mem_of_getElem? hc) hhigh
  rcases enqueueStep_cases hstep with ⟨rfl, -⟩ | ⟨rfl, -, hpc, hfull⟩ | ⟨rfl, -, hpc⟩
  · exact ⟨haccounted, hknown, hs.evicted, hs.overflow, hs.exited, hs.stopped, hs.errors⟩
  · rw [if_neg hpc, decide_eq_true_eq] at hsafe
    refine ⟨haccounted, hknown, hs.evicted, hs.overflow, fun hexit w hw => ?_, hs.stopped, hs.errors⟩
    have hw := (PriorityQueue.items_put s.queue c.write).mem_iff.1 hw
    rcases List.mem_cons.1 hw with rfl | hw
    · exact (hsafe.resolve_left hfull).resolve_right (not_not.2 hexit)
    · exact hs.exited hexit w hw
  · rw [if_pos hpc, decide_eq_true_eq] at hsafe
    obtain ⟨hroom, hleft⟩ := hsafe
    have hspill : s.spill c.write = { s with
        overflow := s.overflow ++ [c.write], enqueued := s.enqueued ++ [c.write], spilled := s.spilled ++ [c.write] } := by
      rw [spill, if_neg (not_le.2 hroom)]
    rw [hspill] at haccounted ⊢
    refine ⟨haccounted, hknown, hs.evicted, fun h => ?_, hs.exited, hs.stopped, hs.errors⟩
    rw [hleft] at h
    cases h

theorem stopping_sound {i : Nat} (hs : s.Sound) (hsafe : s.safe (.stopping i) = true)
    (h : s.step (.stopping i) = some s') : s'.Sound := by
  have haccounted := step_accounted h hs.accounted
  simp only [step, Option.bind_eq_bind, Option.bind_eq_some_iff] at h
  obtain ⟨pc, hpc, ⟨s₁, pc'⟩, hstep, h⟩ := h
  cases h
  simp only [safe, decide_eq_true_eq, hpc] at hsafe
  rcases stopStep_cases hstep with ⟨rfl, rfl, rfl⟩ | ⟨rfl, rfl, rfl⟩ | ⟨rfl, rfl, rfl⟩
  · refine ⟨haccounted, hs.known, hs.evicted, hs.overflow, hs.exited, fun h => hs.stopped ?_, hs.errors⟩
    rcases h with h | h | h
    · rcases List.mem_or_eq_of_mem_set h with h | h
      · exact .inl h
      · cases h
    · rcases List.mem_or_eq_of_mem_set h with h | h
      · exact .inr (.inl h)
      · cases h
    · exact .inr (.inr h)
  · exact ⟨haccounted, hs.known, hs.evicted, hs.overflow, hs.exited, fun _ => hsafe.resolve_left (not_not.2 rfl),
      hs.errors⟩
  · exact ⟨haccounted, hs.known, hs.evicted, hs.overflow, hs.exited,
      fun _ => hs.stopped (.inl (List.mem_of_getElem? hpc)), hs.errors⟩

theorem step_sound {a : QueueAct} (hs : s.Sound) (hsafe : s.safe a = true) (h : s.step a = some s') : s'.Sound := by
  have haccounted := step_accounted h hs.accounted
  cases a with
  | enqueue operation priority =>
    cases h
    simp only [safe, decide_eq_true_eq] at hsafe
    refine ⟨haccounted, fun c hc hhigh => ?_, hs.evicted, hs.overflow, hs.exited, hs.stopped, hs.errors⟩
    rcases List.mem_append.1 hc with hc | hc
    · exact hs.known c hc hhigh
    · obtain rfl := List.mem_singleton.1 hc
      exact hsafe.resolve_left (not_not.2 hhigh)
  | call i => exact call_sound hs hsafe h
  | worker dbRaises =>
    obtain ⟨hmove, hrun⟩ := workerStep_move h
    refine hmove.sound hrun hs (fun r f hworker hbudget => ?_) haccounted
    simp only [safe, hworker, decide_eq_true_eq] at hsafe
    exact hsafe.resolve_left (not_lt.2 hbudget)
  | stop =>
    cases h
    refine ⟨haccounted, hs.known, hs.evicted, hs.overflow, hs.exited, fun h => hs.stopped ?_, hs.errors⟩
    rw [List.mem_append, List.mem_append, List.mem_singleton, List.mem_singleton] at h
    cases hrunning : s.running with
    | false => exact .inr (.inr rfl)
    | true =>
      rw [hrunning] at h
      simpa using h
  | stopping i => exact stopping_sound hs hsafe h

theorem Sound.noLoss (hs : s.Sound) : s.NoLoss := by
  intro hreturned
  have hexit : s.worker = .exited := hs.stopped (.inr (.inl hreturned))
  refine ⟨fun c hc hhigh hpc => ?_, hs.errors⟩
  -- the executed writes and the queue are the only places left, and there is no HIGH write in the queue
  have hone := hs.accounted.count_eq_one hc hpc
  have hqueue : s.queue.items.count c.write = 0 :=
    List.count_eq_zero.2 fun hw => hs.exited hexit c.write hw hhigh
  have hoverflow : s.overflow = [] := hs.overflow (by rw [hexit]; rfl)
  simp only [places, hexit, hoverflow, hs.evicted, WorkerPc.overflowBatch, WorkerPc.executing, Option.toList_none,
    List.nil_append, List.append_nil, List.count_append, hqueue, Nat.add_zero] at hone
  rw [List.count, List.countP_map] at hone
  rw [← hone]
  refine List.countP_congr fun e _ => ?_
  have hknown : e.write = c.write → e.outcome ≠ .unknownOperation := by
    intro hw
    unfold Execution.outcome
    rw [hw, if_pos (hs.known c hc hhigh)]
    split <;>
    · intro h
      cases h
  simpa using hknown

/-- In a run of safe steps no HIGH write is lost. -/
theorem noLoss_of_safe {maxQueueSize : Int} (h : Reach step (fun s a => s.safe a = true) (start maxQueueSize) s) :
    s.NoLoss :=
  (h.invariant (sound_start maxQueueSize) fun _ _ _ hs hsafe hstep => step_sound hs hsafe hstep).noLoss

/-- Two HIGH writes that `stop` flushes, one of them from the overflow. -/
theorem noLoss_of_safe_flush : ∃ s, Reach step (fun s a => s.safe a = true) (start 1) s ∧
    (.returned ∈ s.stops ∧ s.executed.length = 2) ∧ s.NoLoss := by
  obtain ⟨s, hreach, hs⟩ := exists_reach step (fun s a => s.safe a = true) (start 1)
    [.enqueue "add_trade" .high, .enqueue "add_trade" .high, .call 0, .call 1, .call 1, .stop, .stopping 0, .worker false,
      .worker false, .worker true, .worker false, .worker false, .worker false, .worker false, .stopping 0, .stopping 0]
    (fun s => .returned ∈ s.stops ∧ s.executed.length = 2) (by decide +kernel)
  exact ⟨s, hreach, of_decide_eq_true hs, noLoss_of_safe hreach⟩

end QueueSys

end PearlAlgo
