import PearlAlgo.Storage.AsyncSQLiteQueue

/-!
# The order of the writes (`storage/async_sqlite_queue.py`)

`__lt__` compares priorities only, so the heap may turn round writes of one priority, and the worker does not look
into the overflow between it and `get`. `queue_order` says what order is left.
-/

namespace PearlAlgo
open Py Lts
namespace QueueSys

def executedWrites (s : QueueSys) : List QueuedWrite := s.executed.map (·.write)

/-- Writes of one priority are executed in the order in which they were enqueued. -/
def EqualInOrder (s : QueueSys) : Prop :=
  ∀ x ∈ s.executedWrites, ∀ y ∈ s.executedWrites, x.priority = y.priority → [x, y].Sublist s.enqueued →
    [x, y].Sublist s.executedWrites

/-- No write is executed while one of a higher priority waits that was enqueued earlier. -/
def HigherFirst (s : QueueSys) : Prop :=
  ∀ w ∈ s.worker.executing, ∀ x ∈ s.queue.items ++ s.overflow, x.rank < w.rank → ¬ [x, w].Sublist s.enqueued

instance (s : QueueSys) : Decidable s.EqualInOrder :=
  inferInstanceAs (Decidable (∀ x ∈ s.executedWrites, ∀ y ∈ s.executedWrites, _ → _ → _))

instance (s : QueueSys) : Decidable s.HigherFirst :=
  inferInstanceAs (Decidable (∀ w ∈ s.worker.executing, ∀ x ∈ s.queue.items ++ s.overflow, _ → _))

/-- The heap executes the third of four MEDIUM writes before the second. And a HIGH write that finds the queue full
reaches the overflow when the worker has looked there: it waits while a later MEDIUM write is executed. -/
theorem not_ordered :
    (¬ ∀ (maxQueueSize : Int) (s : QueueSys), Reach step AnyStep (start maxQueueSize) s → s.EqualInOrder) ∧
    ¬ ∀ (maxQueueSize : Int) (s : QueueSys), Reach step AnyStep (start maxQueueSize) s → s.HigherFirst := by
  constructor
  · intro hall
    obtain ⟨s, hreach, hs⟩ := exists_reach step AnyStep (start 1000)
      ([.enqueue "add_signal_event" .medium, .enqueue "add_signal_event" .medium, .enqueue "add_signal_event" .medium,
        .enqueue "add_signal_event" .medium, .call 0, .call 1, .call 2, .call 3] ++ List.replicate 16 (.worker false))
      (fun s => ¬ s.EqualInOrder) (by decide +kernel)
    exact of_decide_eq_true hs (hall _ s hreach)
  · intro hall
    obtain ⟨s, hreach, hs⟩ := exists_reach step AnyStep (start 2)
      [.enqueue "add_regime_snapshot" .low, .enqueue "add_regime_snapshot" .low, .enqueue "add_trade" .high,
        .enqueue "add_signal_event" .medium, .call 0, .call 1, .call 2, .worker false, .worker false, .worker false,
        .worker false, .worker false, .worker false, .call 2, .call 3, .worker false]
      (fun s => ¬ s.HigherFirst) (by decide +kernel)
    exact of_decide_eq_true hs (hall _ s hreach)

/-- The worker's next step takes `w` from the queue, to execute it. -/
def Takes (s : QueueSys) (w : QueuedWrite) : Prop :=
  ∃ dbRaises s', s.workerStep dbRaises = some s' ∧ s.worker.executing = none ∧ s'.worker.executing = some w

/-- The writes from the overflow, in the order of their executions. -/
def overflowExecuted (s : QueueSys) : List QueuedWrite := (s.executed.filter (·.fromOverflow)).map (·.write)

/-- What the worker has made of the overflow since it last emptied it, and before. -/
structure Drained (s : QueueSys) : Prop where
  le : s.drained ≤ s.spilled.length
  taken : (s.overflowExecuted ++ s.worker.overflowBatch).Sublist (s.spilled.take s.drained)
  waiting : s.overflow.Sublist (s.spilled.drop s.drained)
  mem_taken : ∀ x ∈ s.spilled.take s.drained,
    x ∈ s.overflowExecuted ++ s.worker.overflowBatch ∨ x ∈ s.evicted
  mem_waiting : ∀ x ∈ s.spilled.drop s.drained, x ∈ s.overflow ∨ x ∈ s.evicted

variable {s s' : QueueSys}

theorem overflowExecuted_execute (w : QueuedWrite) (b dbRaises : Bool) :
    (s.execute ⟨w, b, dbRaises⟩).overflowExecuted = s.overflowExecuted ++ if b then [w] else [] := by
  cases b <;> simp [overflowExecuted, execute]

theorem WorkerMove.drained (hmove : s.WorkerMove s') (hs : s.Drained) : s'.Drained := by
  obtain ⟨hle, htaken, hwaiting, hmem, hmem'⟩ := hs
  cases hmove with
  | turn hbatch hexecuting hbatch' hexecuting' hleft hexit =>
    rw [hbatch] at htaken hmem
    exact ⟨hle, by rw [hbatch']; exact htaken, hwaiting, by rw [hbatch']; exact hmem, hmem'⟩
  | drain hbatch hexecuting hbatch' hexecuting' hexit =>
    rw [hbatch, List.append_nil] at htaken hmem
    have hall : s.spilled = s.spilled.take s.drained ++ s.spilled.drop s.drained := (List.take_append_drop _ _).symm
    constructor
    · exact le_refl _
    · show (s.overflowExecuted ++ _).Sublist (s.spilled.take s.spilled.length)
      rw [hbatch', List.take_length, hall]
      exact htaken.append hwaiting
    · exact List.nil_sublist _
    · intro x hx
      show x ∈ s.overflowExecuted ++ _ ∨ x ∈ s.evicted
      have hx : x ∈ s.spilled.take s.spilled.length := hx
      rw [List.take_length, hall] at hx
      rw [hbatch', List.mem_append]
      rcases List.mem_append.1 hx with hx | hx
      · rcases hmem x hx with hx | hx <;> simp [hx]
      · rcases hmem' x hx with hx | hx <;> simp [hx]
    · intro x hx
      have hx : x ∈ s.spilled.drop s.spilled.length := hx
      rw [List.drop_length] at hx
      exact absurd hx List.not_mem_nil
  | @overflowWrite pc w b dbRaises hbatch hexecuting hbatch' hexecuting' hleft hexit =>
    have hsame : (s.execute ⟨w, true, dbRaises⟩).overflowExecuted ++ b = s.overflowExecuted ++ s.worker.overflowBatch := by
      rw [overflowExecuted_execute, hbatch]
      exact List.append_assoc _ _ _
    rw [← hsame, ← hbatch'] at htaken hmem
    exact ⟨hle, htaken, hwaiting, hmem, hmem'⟩
  | take hget hbatch hexecuting hbatch' hexecuting' hleft hexit =>
    rw [hbatch] at htaken hmem
    exact ⟨hle, by rw [hbatch']; exact htaken, hwaiting, by rw [hbatch']; exact hmem, hmem'⟩
  | @write pc w dbRaises hbatch hexecuting hbatch' hexecuting' hleft hexit =>
    have hsame : (s.execute ⟨w, false, dbRaises⟩).overflowExecuted = s.overflowExecuted := by
      rw [overflowExecuted_execute]
      exact List.append_nil _
    rw [hbatch, ← hbatch', ← hsame] at htaken hmem
    exact ⟨hle, htaken, hwaiting, hmem, hmem'⟩

theorem drained_evict (hs : s.Drained) : s.evict.Drained := by
  obtain ⟨hle, htaken, hwaiting, hmem, hmem'⟩ := hs
  refine ⟨hle, htaken, (List.tail_sublist _).trans hwaiting, fun x hx => ?_, fun x hx => ?_⟩
  · rcases hmem x hx with hx | hx
    · exact .inl hx
    · exact .inr (List.mem_append_left _ hx)
  · rcases hmem' x hx with hx | hx
    · rcases hoverflow : s.overflow with _ | ⟨w, rest⟩ <;> rw [hoverflow] at hx
      · exact absurd hx List.not_mem_nil
      · simp only [evict, hoverflow, List.tail_cons, List.take_succ_cons, List.take_zero, List.mem_append,
          List.mem_singleton]
        rcases List.mem_cons.1 hx with rfl | hx <;> simp [*]
    · exact .inr (List.mem_append_left _ hx)

theorem drained_spill (w : QueuedWrite) (hs : s.Drained) : (s.spill w).Drained := by
  have happend (s : QueueSys) (hs : s.Drained) : Drained { s with
      overflow := s.overflow ++ [w], enqueued := s.enqueued ++ [w], spilled := s.spilled ++ [w] } := by
    obtain ⟨hle, htaken, hwaiting, hmem, hmem'⟩ := hs
    have htake : (s.spilled ++ [w]).take s.drained = s.spilled.take s.drained := List.take_append_of_le_length hle
    have hdrop : (s.spilled ++ [w]).drop s.drained = s.spilled.drop s.drained ++ [w] :=
      List.drop_append_of_le_length hle
    constructor
    · show s.drained ≤ (s.spilled ++ [w]).length
      rw [List.length_append]
      omega
    · exact htake ▸ htaken
    · exact hdrop ▸ hwaiting.append_right [w]
    · exact htake ▸ hmem
    · intro x hx
      rcases List.mem_append.1 (hdrop ▸ hx) with hx | hx
      · exact (hmem' x hx).imp_left (List.mem_append_left _)
      · exact .inl (List.mem_append_right _ hx)
  unfold spill
  split
  · exact happend _ (drained_evict hs)
  · exact happend _ hs

theorem step_drained {a : QueueAct} (hs : s.Drained) (h : s.step a = some s') : s'.Drained := by
  cases a with
  | enqueue operation priority =>
    cases h
    exact ⟨hs.le, hs.taken, hs.waiting, hs.mem_taken, hs.mem_waiting⟩
  | call i =>
    simp only [step, Option.bind_eq_bind, Option.bind_eq_some_iff] at h
    obtain ⟨c, hc, ⟨s₁, pc⟩, hstep, h⟩ := h
    cases h
    have hs₁ : s₁.Drained := by
      rcases enqueueStep_cases hstep with ⟨rfl, -⟩ | ⟨rfl, -⟩ | ⟨rfl, -⟩
      · exact hs
      · exact ⟨hs.le, hs.taken, hs.waiting, hs.mem_taken, hs.mem_waiting⟩
      · exact drained_spill c.write hs
    exact ⟨hs₁.le, hs₁.taken, hs₁.waiting, hs₁.mem_taken, hs₁.mem_waiting⟩
  | worker dbRaises => exact (workerStep_move h).1.drained hs
  | stop =>
    cases h
    exact ⟨hs.le, hs.taken, hs.waiting, hs.mem_taken, hs.mem_waiting⟩
  | stopping i =>
    simp only [step, Option.bind_eq_bind, Option.bind_eq_some_iff] at h
    obtain ⟨pc, hpc, ⟨s₁, pc'⟩, hstep, h⟩ := h
    cases h
    rcases stopStep_cases hstep with ⟨-, rfl, -⟩ | ⟨-, rfl, -⟩ | ⟨-, rfl, -⟩ <;>
      exact ⟨hs.le, hs.taken, hs.waiting, hs.mem_taken, hs.mem_waiting⟩

theorem Takes.least {w : QueuedWrite} (h : s.Takes w) :
    s.worker.overflowBatch = [] ∧ ∀ x ∈ s.queue.items, w.rank ≤ x.rank := by
  obtain ⟨dbRaises, s', hstep, hnone, hsome⟩ := h
  cases (workerStep_move hstep).1 with
  | turn hbatch hexecuting hbatch' hexecuting' => cases hexecuting'.symm.trans hsome
  | drain hbatch hexecuting hbatch' hexecuting' => cases hexecuting'.symm.trans hsome
  | overflowWrite hbatch hexecuting hbatch' hexecuting' => cases hexecuting'.symm.trans hsome
  | take hget hbatch hexecuting hbatch' hexecuting' =>
    cases hexecuting'.symm.trans hsome
    exact ⟨hbatch, (PriorityQueue.get?_eq_some hget).2⟩
  | write hbatch hexecuting => cases hexecuting.symm.trans hnone

/-- What the worker takes from the queue has a highest priority there. Only a write that was put into the overflow
after the worker last emptied it can have a higher one and wait; all that it found there has been executed or
was dropped at the cap. The writes from the overflow are executed in the order in which they came to it. -/
theorem queue_order {maxQueueSize : Int} (h : Reach step AnyStep (start maxQueueSize) s) :
    (∀ w, s.Takes w →
      (∀ x ∈ s.queue.items ++ s.overflow, x.rank < w.rank → x ∉ s.queue.items ∧ x ∈ s.spilled.drop s.drained) ∧
      ∀ x ∈ s.spilled.take s.drained, x ∈ s.overflowExecuted ∨ x ∈ s.evicted) ∧
    (s.overflowExecuted ++ s.worker.overflowBatch ++ s.overflow).Sublist s.spilled := by
  have hs : s.Drained := by
    refine h.invariant ⟨le_refl _, .refl _, .refl _, ?_, ?_⟩ fun _ _ _ hs _ hstep => step_drained hs hstep <;>
      exact fun x hx => absurd hx List.not_mem_nil
  constructor
  · intro w hw
    obtain ⟨hbatch, hleast⟩ := hw.least
    refine ⟨fun x hx hlt => ?_, fun x hx => ?_⟩
    · have hqueue : x ∉ s.queue.items := fun hx => absurd (hleast x hx) (not_le.2 hlt)
      exact ⟨hqueue, hs.waiting.subset ((List.mem_append.1 hx).resolve_left hqueue)⟩
    · simpa [hbatch] using hs.mem_taken x hx
  · have := hs.taken.append hs.waiting
    rwa [List.take_append_drop] at this

/-- A HIGH write waits in the overflow while a MEDIUM write is taken. -/
theorem queue_order_overflow : ∃ s w, Reach step AnyStep (start 2) s ∧ s.Takes w ∧ w.priority = .medium ∧
    ∀ x ∈ s.queue.items ++ s.overflow, x.rank < w.rank → x ∉ s.queue.items ∧ x ∈ s.spilled.drop s.drained := by
  obtain ⟨s, hreach, hs⟩ := exists_reach step AnyStep (start 2)
    [.enqueue "add_signal_event" .medium, .enqueue "add_signal_event" .medium, .enqueue "add_trade" .high,
      .call 0, .call 1, .worker false, .worker false, .call 2, .call 2]
    (fun s => ((s.workerStep false).map fun s' => (s.overflow.length, s.worker.executing, s'.worker.executing)) =
      some (1, none, some ⟨.medium, "add_signal_event", 0⟩)) (by decide +kernel)
  obtain ⟨s', hstep, h⟩ := Option.map_eq_some_iff.1 (of_decide_eq_true hs)
  obtain ⟨-, hnone, hsome⟩ : _ ∧ s.worker.executing = none ∧ s'.worker.executing = _ := by simpa using h
  have htakes : s.Takes ⟨.medium, "add_signal_event", 0⟩ := ⟨false, s', hstep, hnone, hsome⟩
  exact ⟨s, _, hreach, htakes, rfl, ((queue_order hreach).1 _ htakes).1⟩

end QueueSys

end PearlAlgo
