import PearlAlgo.Fs.RotatingLog
import PearlAlgo.Lts.Reach

/-!
# The log of gate decisions (`market_agent/signal_audit_logger.py`)

`record` puts a record into a bounded queue; a worker thread takes it out and appends its line to `signal_audit.jsonl`,
which becomes `signal_audit.jsonl.1` when it is full. The logger is enabled. `none` in the queue is the sentinel of
`shutdown`.

`accepted` is what `record` put into the queue, `attempted` what the worker took out, each record with the number of
characters of its line that were written, and `ended` how much had been accepted when the worker ended.
-/

namespace PearlAlgo.SignalAuditLogger
open Fs

variable {P : Type}

structure AuditConfig (P : Type) where
  maxQueueSize : Int := 5000
  rotationBytes : Nat := 20 * 1024 * 1024
  retention : ℚ := 14 * 86400
  /-- `json.dumps(payload, default=str, separators=(",", ":")) + "\n"`, which is ASCII. -/
  line : P → List Char

/-- Where `_run_worker` stands. -/
inductive WorkerPc (P : Type)
  | testing
  | getting
  | writing (payload : P) (drain : Bool)
  | draining
  | done
deriving DecidableEq

structure State (P : Type) where
  queue : List (Option P) := []
  droppedCount : Nat := 0
  stopped : Bool := false
  worker : WorkerPc P := .testing
  files : RotatingLog Char := {}
  now : ℚ := 0
  accepted : List P := []
  attempted : List (P × Nat) := []
  ended : Option Nat := none

/-- How `_write_one` goes. `expires` tells whether the old backup can be looked at and removed, and `written` how many
characters of the line reach the file: fewer than it has where the write raises. -/
structure Write where
  dumps : Bool := true
  rotation : RotateFault := .none
  expires : Bool := true
  written : Nat
deriving DecidableEq

inductive Act (P : Type)
  | record (payload : P)
  | shutdown
  | worker (w : Write)
  | tick (d : ℚ)

variable (c : AuditConfig P)

namespace State

def full (s : State P) : Bool := 0 < c.maxQueueSize && c.maxQueueSize ≤ s.queue.length

def record (s : State P) (payload : P) : State P :=
  if s.full c then { s with droppedCount := s.droppedCount + 1 }
  else { s with queue := s.queue ++ [some payload], accepted := s.accepted ++ [payload] }

def shutdown (s : State P) : State P :=
  if s.stopped then s
  else if s.full c then { s with stopped := true }
  else { s with stopped := true, queue := s.queue ++ [none] }

/-- `_rotate_if_needed` and `_trim_old_backups`. -/
def rotated (s : State P) (w : Write) : RotatingLog Char :=
  let r := s.files.rotate c.rotationBytes w.rotation
  if r.2 && w.expires then r.1.expire (s.now - c.retention) else r.1

def writeOne (s : State P) (payload : P) (w : Write) : State P :=
  if w.dumps then
    { s with
      files := (s.rotated c w).append s.now ((c.line payload).take w.written)
      attempted := s.attempted ++ [(payload, w.written)] }
  else { s with attempted := s.attempted ++ [(payload, 0)] }

/-- The next item of the queue; without one the loop tests its flag again, and the drain ends. -/
def take (s : State P) (drain : Bool) : State P :=
  match s.queue with
  | [] => if drain then { s with worker := .done, ended := some s.accepted.length } else { s with worker := .testing }
  | none :: queue => { s with queue := queue, worker := .draining }
  | some payload :: queue => { s with queue := queue, worker := .writing payload drain }

def workerStep (s : State P) (w : Write) : Option (State P) :=
  match s.worker with
  | .testing => some { s with worker := if s.stopped then .draining else .getting }
  | .getting => some (s.take false)
  | .writing payload drain => some { s.writeOne c payload w with worker := if drain then .draining else .testing }
  | .draining => some (s.take true)
  | .done => none

def step (s : State P) : Act P → Option (State P)
  | .record payload => some (s.record c payload)
  | .shutdown => some (s.shutdown c)
  | .worker w => s.workerStep c w
  | .tick d => if 0 ≤ d then some { s with now := s.now + d } else none

/-- The record the worker has in hand. -/
def inHand (s : State P) : List P :=
  match s.worker with
  | .writing payload _ => [payload]
  | _ => []

def queued (s : State P) : List P := s.queue.filterMap id

/-- What has reached the files, of each record. -/
def written (s : State P) : List Char := s.attempted.flatMap fun r => (c.line r.1).take r.2

end State

/-- Each record is once in one place, in the order in which they came; the files hold what was written. -/
structure AuditInv (s : State P) : Prop where
  order : s.attempted.map Prod.fst ++ s.inHand ++ s.queued = s.accepted
  ended : ∀ n, s.ended = some n →
    s.worker = .done ∧ n ≤ s.accepted.length ∧ s.attempted.map Prod.fst = s.accepted.take n
  text : s.files.log.map Prod.fst = s.written c
  times : ∀ x ∈ s.files.log, x.2 ≤ s.now
  retains : s.files.Retains c.rotationBytes fun t => t < s.now - c.retention

namespace AuditInv
variable {c} {s s' : State P}

theorem start : AuditInv c ({} : State P) where
  order := rfl
  ended n h := by cases h
  text := rfl
  times x hx := by cases hx
  retains := .start

/-- A worker that goes on has not ended. -/
theorem not_ended (h : AuditInv c s) (hworker : s.worker ≠ .done) : s.ended = none := by
  cases hended : s.ended with
  | none => rfl
  | some n => exact absurd (h.ended n hended).1 hworker

theorem record (h : AuditInv c s) (payload : P) : AuditInv c (s.record c payload) := by
  unfold State.record
  split
  · exact ⟨h.order, h.ended, h.text, h.times, h.retains⟩
  · refine ⟨?_, fun n hn => ?_, h.text, h.times, h.retains⟩
    · have horder := h.order
      simp only [State.queued, State.inHand, List.filterMap_append] at horder ⊢
      rw [← List.append_assoc, horder]
      rfl
    · obtain ⟨hdone, hle, htake⟩ := h.ended n hn
      refine ⟨hdone, hle.trans (by simp), htake.trans ?_⟩
      exact (List.take_append_of_le_length hle).symm

theorem shutdown (h : AuditInv c s) : AuditInv c (s.shutdown c) := by
  unfold State.shutdown
  split
  · exact h
  · split
    · exact ⟨h.order, h.ended, h.text, h.times, h.retains⟩
    · refine ⟨?_, h.ended, h.text, h.times, h.retains⟩
      have horder := h.order
      simpa [State.queued, State.inHand, List.filterMap_append] using horder

theorem log_rotated (s : State P) (w : Write) : (s.rotated c w).log = s.files.log := by
  unfold State.rotated
  dsimp only
  split
  · rw [RotatingLog.log_expire, RotatingLog.log_rotate]
  · rw [RotatingLog.log_rotate]

theorem rotated (h : AuditInv c s) (w : Write) :
    (s.rotated c w).Retains c.rotationBytes fun t => t < s.now - c.retention := by
  unfold State.rotated
  dsimp only
  split
  · exact (h.retains.rotate w.rotation).expire fun _ => id
  · exact h.retains.rotate w.rotation

theorem take (h : AuditInv c s) {drain : Bool} (hhand : s.inHand = []) (hworker : s.worker ≠ .done) :
    AuditInv c (s.take drain) := by
  have horder := h.order
  have hended := h.not_ended hworker
  rw [hhand, List.append_nil] at horder
  unfold State.take
  split
  next hqueue =>
    split
    · refine ⟨?_, fun n hn => ?_, h.text, h.times, h.retains⟩
      · simpa [State.inHand, State.queued] using horder
      · cases hn
        refine ⟨rfl, le_rfl, ?_⟩
        simpa [State.queued, hqueue] using horder
    · refine ⟨?_, fun n hn => ?_, h.text, h.times, h.retains⟩
      · simpa [State.inHand, State.queued] using horder
      · simp [hended] at hn
  next queue hqueue =>
    refine ⟨?_, fun n hn => ?_, h.text, h.times, h.retains⟩
    · simpa [State.inHand, State.queued, hqueue] using horder
    · simp [hended] at hn
  next payload queue hqueue =>
    refine ⟨?_, fun n hn => ?_, h.text, h.times, h.retains⟩
    · simpa [State.inHand, State.queued, hqueue] using horder
    · simp [hended] at hn

theorem writeOne (h : AuditInv c s) {payload : P} {drain : Bool} (hworker : s.worker = .writing payload drain) (w : Write)
    {pc : WorkerPc P} (hpc : pc = .draining ∨ pc = .testing) :
    AuditInv c { s.writeOne c payload w with worker := pc } := by
  have horder := h.order
  have hended := h.not_ended (by simp [hworker])
  simp only [State.inHand, hworker] at horder
  have hhand (s' : State P) : State.inHand { s' with worker := pc } = [] := by
    rcases hpc with rfl | rfl <;> rfl
  unfold State.writeOne
  split
  · refine ⟨?_, fun n hn => ?_, ?_, fun x hx => ?_, ?_⟩
    · rw [hhand]
      simpa [State.queued] using horder
    · simp [hended] at hn
    · have htext := h.text
      simp only [State.written, List.flatMap_append, RotatingLog.log_append, List.map_append, log_rotated] at htext ⊢
      rw [htext]
      simp [Function.comp_def]
    · rw [RotatingLog.log_append, log_rotated] at hx
      rcases List.mem_append.1 hx with hx | hx
      · exact h.times x hx
      · obtain ⟨a, -, rfl⟩ := List.mem_map.1 hx
        exact le_rfl
    · exact (h.rotated w).append s.now (by rw [log_rotated]; exact h.times) _
  · refine ⟨?_, fun n hn => ?_, ?_, h.times, h.retains⟩
    · rw [hhand]
      simpa [State.queued] using horder
    · simp [hended] at hn
    · have htext := h.text
      simp only [State.written, List.flatMap_append] at htext ⊢
      rw [htext]
      simp

theorem step (h : AuditInv c s) {a : Act P} (hs : s.step c a = some s') : AuditInv c s' := by
  cases a with
  | record payload =>
    cases hs
    exact h.record payload
  | shutdown =>
    cases hs
    exact h.shutdown
  | worker w =>
    simp only [State.step, State.workerStep] at hs
    split at hs
    next hworker =>
      cases hs
      have hended := h.not_ended (by simp [hworker])
      have horder := h.order
      refine ⟨?_, fun n hn => ?_, h.text, h.times, h.retains⟩
      · simp only [State.inHand, hworker] at horder
        split <;> simpa [State.inHand, State.queued] using horder
      · simp [hended] at hn
    next hworker =>
      cases hs
      exact h.take (by simp [State.inHand, hworker]) (by simp [hworker])
    next payload drain hworker =>
      cases hs
      exact h.writeOne hworker w (by cases drain <;> simp)
    next hworker =>
      cases hs
      exact h.take (by simp [State.inHand, hworker]) (by simp [hworker])
    · cases hs
  | tick d =>
    simp only [State.step] at hs
    split at hs
    next hd =>
      cases hs
      refine ⟨h.order, h.ended, h.text, fun x hx => (h.times x hx).trans (le_add_of_nonneg_right hd), ?_⟩
      exact h.retains.mono fun t ht => ht.trans_le (by simpa using hd)
    · cases hs

end AuditInv

variable {c}

/-- In every run each accepted record is written by the worker, in its hand or in the queue, in the order in which they were
accepted, and what the worker leaves in the queue was accepted after its end. -/
theorem signal_audit_order {s : State P} (h : Lts.Reach (State.step c) Lts.AnyStep {} s) :
    s.attempted.map Prod.fst ++ s.inHand ++ s.queued = s.accepted ∧
      ∀ n, s.ended = some n → s.attempted.map Prod.fst = s.accepted.take n := by
  have hinv := h.invariant AuditInv.start fun _ _ _ hinv _ hs => AuditInv.step hinv hs
  exact ⟨hinv.order, fun n hn => (hinv.ended n hn).2.2⟩

/-- In every run the two files hold the end of what was written; a character is missing from them only where
`rotation_bytes` younger ones follow it, or where it is older than the retention. -/
theorem signal_audit_files {s : State P} (h : Lts.Reach (State.step c) Lts.AnyStep {} s) :
    s.files.log.map Prod.fst = s.written c ∧ s.files.text <:+ s.files.log ∧
      ∀ before x later, s.files.log = before ++ x :: later → later.length < c.rotationBytes →
        s.now - c.retention ≤ x.2 → x :: later <:+ s.files.text := by
  have hinv := h.invariant AuditInv.start fun _ _ _ hinv _ hs => AuditInv.step hinv hs
  exact ⟨hinv.text, hinv.retains.suffix, fun before x later hlog hlen hyoung =>
    hinv.retains.recent hlog hlen (not_lt.2 hyoung)⟩

/-- A rotation does not fail. -/
def Rotates (_ : State P) : Act P → Prop
  | .worker w => w.rotation = .none
  | _ => True

instance (s : State P) : (a : Act P) → Decidable (Rotates s a)
  | .worker w => inferInstanceAs (Decidable (w.rotation = .none))
  | .record _ | .shutdown | .tick _ => .isTrue trivial

namespace State
variable {s : State P}

theorem files_record (payload : P) : (s.record c payload).files = s.files := by
  unfold record
  split <;> rfl

theorem files_shutdown : (s.shutdown c).files = s.files := by
  unfold shutdown
  split
  · rfl
  · split <;> rfl

theorem files_take (drain : Bool) : (s.take drain).files = s.files := by
  unfold take
  split
  · split <;> rfl
  · rfl
  · rfl

theorem small_writeOne {longest : Nat} (hline : ∀ payload, (c.line payload).length ≤ longest)
    (hsmall : s.files.Small (c.rotationBytes + longest)) {w : Write} (hrotation : w.rotation = .none) (payload : P) :
    (s.writeOne c payload w).files.Small (c.rotationBytes + longest) := by
  have hroom := RotatingLog.currentData_rotate s.files c.rotationBytes
  have hrotated : (s.rotated c w).Small (c.rotationBytes + longest) ∧
      (s.rotated c w).currentData.length ≤ c.rotationBytes := by
    unfold rotated
    dsimp only
    rw [hrotation]
    split
    · exact ⟨(hsmall.rotate _).expire _, by rw [RotatingLog.currentData_expire]; exact hroom⟩
    · exact ⟨hsmall.rotate _, hroom⟩
  unfold writeOne
  split
  · refine hrotated.1.append ?_ _
    have htaken : ((c.line payload).take w.written).length ≤ longest :=
      (List.length_take_le' _ _).trans (hline payload)
    exact Nat.add_le_add hrotated.2 htaken
  · exact hsmall

end State

/-- While no rotation fails, neither file is longer than `rotation_bytes` and a line. -/
theorem signal_audit_size {s : State P} {longest : Nat} (hline : ∀ payload, (c.line payload).length ≤ longest)
    (h : Lts.Reach (State.step c) Rotates {} s) : s.files.Small (c.rotationBytes + longest) := by
  refine h.invariant (I := fun s => s.files.Small (c.rotationBytes + longest)) ⟨Nat.zero_le _, Nat.zero_le _⟩ ?_
  intro s a s' hsmall hrotates hs
  cases a with
  | record payload =>
    cases hs
    rw [State.files_record]
    exact hsmall
  | shutdown =>
    cases hs
    rw [State.files_shutdown]
    exact hsmall
  | worker w =>
    simp only [State.step, State.workerStep] at hs
    split at hs
    · cases hs
      exact hsmall
    · cases hs
      rw [State.files_take]
      exact hsmall
    next payload drain hworker =>
      cases hs
      exact State.small_writeOne hline hsmall hrotates payload
    · cases hs
      rw [State.files_take]
      exact hsmall
    · cases hs
  | tick d =>
    simp only [State.step] at hs
    split at hs
    · cases hs
      exact hsmall
    · cases hs

/-- Files of four characters, and records of one letter. -/
def sampleConfig : AuditConfig Char where
  maxQueueSize := 3
  rotationBytes := 4
  retention := 10
  line := fun payload => [payload, '\n']

def sampleRun : List (Act Char) :=
  [.record 'a', .record 'b', .record 'c', .record 'd'] ++
    List.replicate 9 (.worker { written := 2 }) ++ [.record 'e', .tick 1, .shutdown] ++
    List.replicate 5 (.worker { written := 2 }) ++ [.record 'f']

theorem signal_audit_order_sampleRun : ∃ s, Lts.Reach (State.step sampleConfig) Lts.AnyStep {} s ∧
    (s.worker = .done ∧ s.droppedCount = 1 ∧ s.ended = some 4 ∧ s.accepted = ['a', 'b', 'c', 'e', 'f']) ∧
      s.attempted.map Prod.fst = s.accepted.take 4 := by
  obtain ⟨s, hreach, hp⟩ := Lts.exists_reach (State.step sampleConfig) Lts.AnyStep {} sampleRun
    (fun s => decide (s.worker = .done ∧ s.droppedCount = 1 ∧ s.ended = some 4 ∧
      s.accepted = ['a', 'b', 'c', 'e', 'f'])) (by decide +kernel)
  have hs := of_decide_eq_true hp
  exact ⟨s, hreach, hs, (signal_audit_order hreach).2 4 hs.2.2.1⟩

theorem signal_audit_files_sampleRun : ∃ s, Lts.Reach (State.step sampleConfig) Lts.AnyStep {} s ∧
    s.files.text.map Prod.fst = "a\nb\nc\ne\n".toList ∧ s.files.log.map Prod.fst = s.written sampleConfig := by
  obtain ⟨s, hreach, hp⟩ := Lts.exists_reach (State.step sampleConfig) Lts.AnyStep {} sampleRun
    (fun s => decide (s.files.text.map Prod.fst = "a\nb\nc\ne\n".toList)) (by decide +kernel)
  exact ⟨s, hreach, of_decide_eq_true hp, (signal_audit_files hreach).1⟩

theorem signal_audit_size_sampleRun : ∃ s, Lts.Reach (State.step sampleConfig) Rotates {} s ∧
    s.files.backup.isSome = true ∧ s.files.Small 6 := by
  obtain ⟨s, hreach, hp⟩ := Lts.exists_reach (State.step sampleConfig) Rotates {} sampleRun
    (fun s => s.files.backup.isSome) (by decide +kernel)
  have hsize : s.files.Small (sampleConfig.rotationBytes + 2) := signal_audit_size (fun _ => le_rfl) hreach
  exact ⟨s, hreach, hp, hsize⟩

end PearlAlgo.SignalAuditLogger
