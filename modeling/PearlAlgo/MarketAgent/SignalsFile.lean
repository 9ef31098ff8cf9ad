import PearlAlgo.Lts.Reach
import PearlAlgo.MarketAgent.PerformanceTracker
import PearlAlgo.Py.Datetime
import PearlAlgo.Py.File
import PearlAlgo.Py.Seq

/-!
# Who writes `signals.jsonl` (`state_manager.py`, `performance_tracker.py`, `scheduled_tasks.py`)

`save_signal` appends and rotates under the file lock, the price, metadata and status updates rewrite the file
under it, a status record is appended without it once SQLite is on, and the pruning thread does not take it. A step
is one file operation of one call. `kept_of_safe` says when no appended record is lost. Failing file operations are
left out.
-/

namespace PearlAlgo
open Py Lts

/-! ### The lines -/

/-- The text under `timestamp`, as `parse_utc_timestamp` reads it. -/
inductive Stamp
  | missing
  | time (et : ℚ)
  | unparsable
deriving DecidableEq

structure ExecutionFields where
  status : Option String := none
  orderId : Option String := none
  stopOrderId : Option String := none
  takeProfitOrderId : Option String := none
deriving DecidableEq

namespace ExecutionFields

/-- The fields that are neither `None` nor empty. -/
def present (e : ExecutionFields) : ExecutionFields where
  status := e.status.filter (· ≠ "")
  orderId := e.orderId.filter (· ≠ "")
  stopOrderId := e.stopOrderId.filter (· ≠ "")
  takeProfitOrderId := e.takeProfitOrderId.filter (· ≠ "")

def update (e e' : ExecutionFields) : ExecutionFields where
  status := e'.status <|> e.status
  orderId := e'.orderId <|> e.orderId
  stopOrderId := e'.stopOrderId <|> e.stopOrderId
  takeProfitOrderId := e'.takeProfitOrderId <|> e.takeProfitOrderId

end ExecutionFields

/-- A dictionary on a line. No code reads `call`, the call that appended it. -/
structure LineRecord extends SignalRecord where
  call : Option Nat := none
  timestamp : Stamp := .missing
  execution : ExecutionFields := {}
deriving DecidableEq

inductive SignalLine
  | record (r : LineRecord)
  /-- JSON that is no dictionary. -/
  | value
  | malformed
  | blank
deriving DecidableEq

def SignalLine.call : SignalLine → Option Nat
  | record r => r.call
  | _ => none

/-! ### The rewrites -/

inductive Rewrite
  /-- `update_signal_execution_metadata` -/
  | executionMetadata (signalId : String) (fields : ExecutionFields)
  /-- `update_signal_prices` -/
  | prices (signalId : String) (stopLoss takeProfit : Option Number)
  /-- `_update_signal_status` without SQLite -/
  | status (change : SignalRecord)

namespace Rewrite

def signalId : Rewrite → String
  | executionMetadata signalId _ => signalId
  | prices signalId _ _ => signalId
  | status change => change.signalId

def hasWork : Rewrite → Bool
  | executionMetadata signalId fields => signalId ≠ "" ∧ fields.present ≠ {}
  | prices _ stopLoss takeProfit => stopLoss.isSome || takeProfit.isSome
  | status _ => true

def update (r : LineRecord) : Rewrite → LineRecord
  | executionMetadata _ fields =>
    { r with signal := some (r.signal.getD {}), execution := r.execution.update fields.present }
  | prices _ stopLoss takeProfit =>
    { r with signal := some ((r.signal.getD {}).update { stopLoss, takeProfit }) }
  | status change => { r with toSignalRecord := r.toSignalRecord.update change }

/-- `for record in records`: the lines with the first record of the signal updated; `none` where there is none, or
one of the lines before it is no dictionary, which raises. -/
def updateFirst (rw : Rewrite) : List SignalLine → Option (List SignalLine)
  | [] => none
  | .record r :: rest =>
    if r.signalId = rw.signalId then some (.record (rw.update r) :: rest)
    else (rw.updateFirst rest).map (.record r :: ·)
  | _ :: _ => none

def parses : SignalLine → Bool
  | .record _ => true
  | .value => true
  | .malformed => false
  | .blank => false

/-- The lines that are written; `none` where the file is left as it is. -/
def apply (rw : Rewrite) (lines : List SignalLine) : Option (List SignalLine) :=
  rw.updateFirst (lines.filter parses)

end Rewrite

/-! ### Pruning -/

def parseUtcTimestamp : Stamp → Except PyErr PyDatetime
  | .time et => .ok (.naive et)
  | _ => .error .valueError

/-- What pruning makes of a line: prune it, keep it, or leave it out of both files. -/
def pruneLine (cutoff : PyDatetime) : SignalLine → Except PyErr (Option Bool)
  | .blank => .ok none
  | .malformed => .ok (some false)
  | .value => .error .attributeError
  | .record r =>
    if r.timestamp = .missing then .ok (some false)
    else
      match (do (← parseUtcTimestamp r.timestamp).lt cutoff : Except PyErr Bool) with
      | .ok old => .ok (some old)
      | .error _ => .ok (some false)

/-- The lines that `_prune_signals_file` keeps and prunes. -/
def pruneScan (cutoff : PyDatetime) : List SignalLine → Except PyErr (List SignalLine × List SignalLine)
  | [] => .ok ([], [])
  | line :: lines => do
    let verdict ← pruneLine cutoff line
    let (keep, prune) ← pruneScan cutoff lines
    return match verdict with
      | none => (keep, prune)
      | some false => (line :: keep, prune)
      | some true => (keep, line :: prune)

theorem pruneScan_cons {cutoff : PyDatetime} {line : SignalLine} {lines keep prune : List SignalLine}
    (h : pruneScan cutoff (line :: lines) = .ok (keep, prune)) :
    ∃ verdict keep' prune', pruneLine cutoff line = .ok verdict ∧ pruneScan cutoff lines = .ok (keep', prune') ∧
      (keep, prune) = match verdict with
        | none => (keep', prune')
        | some false => (line :: keep', prune')
        | some true => (keep', line :: prune') := by
  unfold pruneScan at h
  rcases hline : pruneLine cutoff line with _ | verdict
  · rw [hline] at h
    cases h
  rcases hrest : pruneScan cutoff lines with _ | ⟨keep', prune'⟩
  · rw [hline, hrest] at h
    cases h
  rw [hline, hrest] at h
  exact ⟨verdict, keep', prune', rfl, rfl, (Except.ok.inj h).symm⟩

theorem pruneLine_ne {t : ℚ} (line : SignalLine) : pruneLine (.aware t) line ≠ .ok (some true) := by
  cases line with
  | record r =>
    rcases htimestamp : r.timestamp with _ | et | _
    · rw [pruneLine, if_pos htimestamp]
      nofun
    · rw [pruneLine, if_neg (by rw [htimestamp]; nofun), htimestamp]
      nofun
    · rw [pruneLine, if_neg (by rw [htimestamp]; nofun), htimestamp]
      nofun
  | value => nofun
  | malformed => nofun
  | blank => nofun

/-- The timestamps of the lines are naive and the cutoff is aware: no line is old enough. -/
theorem pruneScan_prune {t : ℚ} {lines keep prune : List SignalLine}
    (h : pruneScan (.aware t) lines = .ok (keep, prune)) : prune = [] := by
  induction lines generalizing keep prune with
  | nil =>
    cases h
    rfl
  | cons line lines ih =>
    obtain ⟨verdict, keep', prune', hline, hrest, h⟩ := pruneScan_cons h
    obtain rfl := ih hrest
    rcases verdict with _ | _ | _
    · cases h
      rfl
    · cases h
      rfl
    · exact absurd hline (pruneLine_ne line)

/-! ### The writers -/

inductive SignalsOp
  | saveSignal (record : LineRecord)
  /-- `track_signal_generated` without a state manager -/
  | trackSignalGenerated (record : LineRecord)
  /-- `_update_signal_status` with SQLite -/
  | updateSignalStatus (change : LineRecord)
  | rewrite (rw : Rewrite)
  /-- `_prune_signals_file`, called with an aware time. -/
  | prune (nowUtc signalRetention : ℚ)

inductive SignalsPc
  | begin
  /-- Before the lock. -/
  | locking
  /-- Before `open(signals_file, "a")`. -/
  | opening
  | writing (inode : Nat)
  | rotating
  | reading
  /-- Before `os.replace`; `counted` is what a rotation makes of the line count. -/
  | replacing (lines : List SignalLine) (counted : Option Int)
  | unlocking
  | finished
deriving DecidableEq

structure SignalsCall where
  op : SignalsOp
  pc : SignalsPc

/-- `appended` lists the calls whose record has been written; no code reads it. -/
structure SignalFiles where
  signalsFile : File SignalLine := {}
  archive : List SignalLine := []
  pruned : List SignalLine := []
  appended : List Nat := []

structure SignalsDir extends SignalFiles where
  lock : Bool := false
  maxSignalLines : Int := 5000
  sidecar : Option Int := none
  signalCount : Option Int := none
  signalWriteCount : Nat := 0
  calls : List SignalsCall := []

inductive SignalsAct
  | call (op : SignalsOp)
  /-- The `i`-th call goes on. -/
  | step (i : Nat)
  /-- `get_signal_count` -/
  | getSignalCount

namespace SignalsDir

def getSignalCount (s : SignalsDir) : SignalsDir :=
  match s.signalCount, s.sidecar with
  | some _, _ => s
  | none, some count => { s with signalCount := some count }
  | none, none =>
    let count : Int := if s.signalsFile.exists? then s.signalsFile.lines.length else 0
    { s with signalCount := some count, sidecar := some count }

/-- `_rotate_signals_file`, up to the replacement of the file. -/
def rotate (s : SignalsDir) : SignalsDir × SignalsPc :=
  if s.signalsFile.exists? then
    let lineCount := s.sidecar.getD s.signalsFile.lines.length
    if lineCount ≤ s.maxSignalLines then (s, .unlocking)
    else
      let skipCount := (lineCount - s.maxSignalLines).toNat
      ({ s with archive := s.archive ++ s.signalsFile.lines.take skipCount },
        .replacing (s.signalsFile.lines.drop skipCount) (some s.maxSignalLines))
  else (s, .unlocking)

def append (s : SignalsDir) (i inode : Nat) (r : LineRecord) : SignalsDir :=
  { s with
    signalsFile := s.signalsFile.append inode (.record { r with call := some i })
    appended := s.appended ++ [i] }

/-- What `save_signal` does after its write. -/
def countWrite (s : SignalsDir) : SignalsDir :=
  { s with
    signalCount := s.signalCount.map (· + 1)
    sidecar := (s.signalCount.map (· + 1)) <|> s.sidecar
    signalWriteCount := s.signalWriteCount + 1 }

/-- What the `i`-th call does next; `none` while it waits for the lock, and when it has finished. -/
def callStep (s : SignalsDir) (i : Nat) (c : SignalsCall) : Option (SignalsDir × SignalsPc) :=
  match c.pc with
  | .begin =>
    match c.op with
    | .saveSignal _ => some (s, .locking)
    | .trackSignalGenerated _ => some (s, .opening)
    | .updateSignalStatus _ => some (s, if s.signalsFile.exists? then .opening else .finished)
    | .rewrite rw => some (s, if rw.hasWork ∧ s.signalsFile.exists? then .locking else .finished)
    | .prune _ _ => some (s, if s.signalsFile.exists? then .reading else .finished)
  | .locking =>
    if s.lock then none
    else
      match c.op with
      | .saveSignal _ => some ({ s with lock := true }, .opening)
      | _ => some ({ s with lock := true }, .reading)
  | .opening =>
    let (inode, signalsFile) := s.signalsFile.openAppend
    some ({ s with signalsFile }, .writing inode)
  | .writing inode =>
    match c.op with
    | .saveSignal r =>
      let s := (s.append i inode r).countWrite
      some (s, if s.signalWriteCount % 100 = 0 then .rotating else .unlocking)
    | .trackSignalGenerated r => some (s.append i inode r, .finished)
    | .updateSignalStatus r => some (s.append i inode { r with statusChange := true }, .finished)
    | _ => none
  | .rotating => some s.rotate
  | .reading =>
    match c.op with
    | .rewrite rw =>
      match rw.apply s.signalsFile.lines with
      | some lines => some (s, .replacing lines none)
      | none => some (s, .unlocking)
    | .prune nowUtc signalRetention =>
      match pruneScan (.aware (nowUtc - signalRetention)) s.signalsFile.lines with
      | .ok (keep, prune) =>
        if prune = [] then some (s, .finished)
        else some ({ s with pruned := s.pruned ++ prune }, .replacing keep none)
      | .error _ => some (s, .finished)
    | _ => none
  | .replacing lines counted =>
    let s := { s with
      signalsFile := s.signalsFile.replace lines
      signalCount := counted <|> s.signalCount
      sidecar := counted <|> s.sidecar }
    match c.op with
    | .prune _ _ => some (s, .finished)
    | _ => some (s, .unlocking)
  | .unlocking => some ({ s with lock := false }, .finished)
  | .finished => none

def step (s : SignalsDir) : SignalsAct → Option SignalsDir
  | .call op => some { s with calls := s.calls ++ [⟨op, .begin⟩] }
  | .step i => do
    let c ← s.calls[i]?
    let (s', pc) ← s.callStep i c
    return { s' with calls := s'.calls.set i { c with pc } }
  | .getSignalCount => some s.getSignalCount

/-- The record of the `i`-th call is on one of the lines. -/
def Holds (lines : List SignalLine) (i : Nat) : Prop := ∃ line ∈ lines, line.call = some i

instance (lines : List SignalLine) (i : Nat) : Decidable (Holds lines i) :=
  inferInstanceAs (Decidable (∃ line ∈ lines, line.call = some i))

end SignalsDir

/-- Each appended record is in the file, in the archive, or in the backup of the pruning. -/
def SignalFiles.Kept (s : SignalFiles) : Prop :=
  ∀ i ∈ s.appended, SignalsDir.Holds (s.signalsFile.lines ++ (s.archive ++ s.pruned)) i

instance (s : SignalFiles) : Decidable s.Kept := inferInstanceAs (Decidable (∀ i ∈ s.appended, _))

namespace SignalsDir

/-- A trailing stop is moved while a signal exits: the price update has read the file when the status record is
appended, and puts the file back without it. -/
theorem status_record_lost : ¬ ∀ (s s' : SignalsDir), s.calls = [] → s.appended = [] →
    Reach step AnyStep s s' → s'.Kept := by
  intro hall
  obtain ⟨s', hreach, hs'⟩ := exists_reach step AnyStep {}
    ([.call (.saveSignal { signalId := "s1", status := .generated }), .step 0, .step 0, .step 0, .step 0, .step 0,
      .call (.rewrite (.prices "s1" (some (.fin 99)) none)), .step 1, .step 1, .step 1,
      .call (.updateSignalStatus { signalId := "s1", status := .exited }), .step 2, .step 2, .step 2, .step 1])
    (fun s => ¬ s.Kept) (by decide +kernel)
  exact of_decide_eq_true hs' (hall _ s' rfl rfl hreach)

end SignalsDir

namespace SignalsPc

def isWriting : SignalsPc → Bool
  | writing _ => true
  | _ => false

def isReplacing : SignalsPc → Bool
  | replacing _ _ => true
  | _ => false

end SignalsPc

/-! ### What a step does to the files -/

namespace SignalsDir
variable {lines lines' : List SignalLine} {i j : Nat}

theorem holds_append : Holds (lines ++ lines') i ↔ Holds lines i ∨ Holds lines' i := by
  simp only [Holds, List.mem_append, or_and_right, exists_or]

theorem holds_cons {line : SignalLine} : Holds (line :: lines) i ↔ line.call = some i ∨ Holds lines i := by
  simp [Holds]

theorem updateFirst_holds {rw' : Rewrite} (h : rw'.updateFirst lines = some lines') (hi : Holds lines i) :
    Holds lines' i := by
  induction lines generalizing lines' with
  | nil => cases h
  | cons line lines ih =>
    cases line with
    | record r =>
      unfold Rewrite.updateFirst at h
      split at h
      · cases h
        have hcall : (rw'.update r).call = r.call := by cases rw' <;> rfl
        rcases holds_cons.1 hi with hi | hi
        · exact holds_cons.2 (.inl (hcall.trans hi))
        · exact holds_cons.2 (.inr hi)
      · obtain ⟨rest, hrest, rfl⟩ := Option.map_eq_some_iff.1 h
        exact holds_cons.2 ((holds_cons.1 hi).imp_right (ih hrest))
    | value => cases h
    | malformed => cases h
    | blank => cases h

theorem apply_holds {rw' : Rewrite} (h : rw'.apply lines = some lines') (hi : Holds lines i) : Holds lines' i := by
  refine updateFirst_holds h ?_
  obtain ⟨line, hmem, hcall⟩ := hi
  refine ⟨line, List.mem_filter.2 ⟨hmem, ?_⟩, hcall⟩
  cases line <;> first | rfl | cases hcall

theorem pruneLine_ne_none {cutoff : PyDatetime} {line : SignalLine} (h : line.call = some i) :
    pruneLine cutoff line ≠ .ok none := by
  cases line with
  | record r =>
    rw [pruneLine]
    split
    · nofun
    · split <;> nofun
  | value => cases h
  | malformed => cases h
  | blank => cases h

theorem pruneScan_holds {cutoff : PyDatetime} {keep prune : List SignalLine}
    (h : pruneScan cutoff lines = .ok (keep, prune)) (hi : Holds lines i) : Holds (keep ++ prune) i := by
  induction lines generalizing keep prune with
  | nil =>
    obtain ⟨line, hmem, -⟩ := hi
    exact absurd hmem List.not_mem_nil
  | cons line lines ih =>
    obtain ⟨verdict, keep', prune', hline, hrest, h⟩ := pruneScan_cons h
    rcases holds_cons.1 hi with hi | hi
    · rcases verdict with _ | _ | _
      · exact absurd hline (pruneLine_ne_none hi)
      · cases h
        exact holds_cons.2 (.inl hi)
      · cases h
        exact holds_append.2 (.inr (holds_cons.2 (.inl hi)))
    · have hi := holds_append.1 (ih hrest hi)
      rcases verdict with _ | _ | _ <;> cases h
      · exact holds_append.2 hi
      · exact holds_append.2 (hi.imp_left fun hi => holds_cons.2 (.inr hi))
      · exact holds_append.2 (hi.imp_right fun hi => holds_cons.2 (.inr hi))

/-- What a step of a call does to the files. -/
inductive Move (s : SignalFiles) (i : Nat) (c : SignalsCall) : SignalFiles → SignalsPc → Prop
  | quiet {pc : SignalsPc} (hpc : pc.isWriting = false ∧ pc.isReplacing = false) : Move s i c s pc
  | opened : Move s i c { s with signalsFile := s.signalsFile.openAppend.2 } (.writing s.signalsFile.openAppend.1)
  | wrote {pc : SignalsPc} {inode : Nat} {r : LineRecord} (hc : c.pc = .writing inode) (hr : r.call = some i)
    (hpc : pc.isWriting = false ∧ pc.isReplacing = false) :
    Move s i c { s with
      signalsFile := s.signalsFile.append inode (.record r), appended := s.appended ++ [i] } pc
  /-- The call has read the file, and has put aside what it does not keep. -/
  | read {lines archive pruned : List SignalLine} {counted : Option Int}
    (haside : ∀ j, Holds (s.archive ++ s.pruned) j → Holds (archive ++ pruned) j)
    (hall : ∀ j, Holds s.signalsFile.lines j → Holds (lines ++ (archive ++ pruned)) j) :
    Move s i c { s with archive, pruned } (.replacing lines counted)
  | replaced {pc : SignalsPc} {lines : List SignalLine} {counted : Option Int} (hc : c.pc = .replacing lines counted)
    (hpc : pc.isWriting = false ∧ pc.isReplacing = false) :
    Move s i c { s with signalsFile := s.signalsFile.replace lines } pc

variable {s s' : SignalsDir}

theorem rotate_move {c : SignalsCall} : Move s.toSignalFiles i c s.rotate.1.toSignalFiles s.rotate.2 ∧
    s.rotate.1.calls = s.calls := by
  unfold rotate
  split
  · dsimp only
    split
    · exact ⟨.quiet ⟨rfl, rfl⟩, rfl⟩
    · refine ⟨.read ?_ ?_, rfl⟩
      · intro j hj
        simp only [holds_append] at hj ⊢
        tauto
      · intro j hj
        rw [← List.take_append_drop (s.sidecar.getD s.signalsFile.lines.length - s.maxSignalLines).toNat
          s.signalsFile.lines] at hj
        simp only [holds_append] at hj ⊢
        tauto
  · exact ⟨.quiet ⟨rfl, rfl⟩, rfl⟩

theorem callStep_move {c : SignalsCall} {pc : SignalsPc} (h : s.callStep i c = some (s', pc)) :
    Move s.toSignalFiles i c s'.toSignalFiles pc ∧ s'.calls = s.calls := by
  unfold callStep at h
  split at h
  case h_1 =>
    split at h <;> cases h <;> refine ⟨.quiet ?_, rfl⟩ <;> (try split) <;> exact ⟨rfl, rfl⟩
  case h_2 =>
    split at h
    · cases h
    · split at h <;> cases h <;> exact ⟨.quiet ⟨rfl, rfl⟩, rfl⟩
  case h_3 =>
    cases h
    exact ⟨.opened, rfl⟩
  case h_4 inode hpc =>
    split at h
    · cases h
      refine ⟨.wrote hpc rfl ?_, rfl⟩
      split <;> exact ⟨rfl, rfl⟩
    · cases h
      exact ⟨.wrote hpc rfl ⟨rfl, rfl⟩, rfl⟩
    · cases h
      exact ⟨.wrote hpc rfl ⟨rfl, rfl⟩, rfl⟩
    · cases h
  case h_5 =>
    have hrotate : s.rotate = (s', pc) := Option.some.inj h
    have hmove := rotate_move (s := s) (i := i) (c := c)
    rw [hrotate] at hmove
    exact hmove
  case h_6 =>
    split at h
    · split at h
      next lines hlines =>
        cases h
        exact ⟨.read (fun j hj => hj) fun j hj => holds_append.2 (.inl (apply_holds hlines hj)), rfl⟩
      · cases h
        exact ⟨.quiet ⟨rfl, rfl⟩, rfl⟩
    · split at h
      next keep prune hscan =>
        split at h
        · cases h
          exact ⟨.quiet ⟨rfl, rfl⟩, rfl⟩
        · cases h
          refine ⟨.read ?_ ?_, rfl⟩
          · intro j hj
            simp only [holds_append] at hj ⊢
            tauto
          · intro j hj
            have hj := pruneScan_holds hscan hj
            simp only [holds_append] at hj ⊢
            tauto
      · cases h
        exact ⟨.quiet ⟨rfl, rfl⟩, rfl⟩
    · cases h
  case h_7 lines counted hpc =>
    dsimp only at h
    split at h <;> cases h <;> exact ⟨.replaced hpc ⟨rfl, rfl⟩, rfl⟩
  case h_8 =>
    cases h
    exact ⟨.quiet ⟨rfl, rfl⟩, rfl⟩
  case h_9 => cases h

/-- The steps that lose no record: no call replaces the file while another one has it open for an append, and none
appends between the read and the replacement of another one. -/
def safe (s : SignalsDir) : SignalsAct → Bool
  | .step i =>
    match s.calls[i]? with
    | none => true
    | some c =>
      if c.pc.isReplacing then ∀ c' ∈ s.calls, c'.pc.isWriting = false
      else if c.pc.isWriting then ∀ c' ∈ s.calls, c'.pc.isReplacing = false
      else true
  | _ => true

structure Sound (f : SignalFiles) (calls : List SignalsCall) : Prop where
  kept : f.Kept
  opened : ∀ c ∈ calls, ∀ inode, c.pc = .writing inode → f.signalsFile.current = some inode
  read : ∀ c ∈ calls, ∀ lines counted, c.pc = .replacing lines counted →
    ∀ j ∈ f.appended, Holds (lines ++ (f.archive ++ f.pruned)) j

/-- The call that has moved is at `pc`, and the others are where they were. -/
theorem Sound.set {f : SignalFiles} {calls : List SignalsCall} {c : SignalsCall} {pc : SignalsPc} (hs : Sound f calls)
    (hopened : ∀ inode, pc = .writing inode → f.signalsFile.current = some inode)
    (hread : ∀ lines counted, pc = .replacing lines counted →
      ∀ j ∈ f.appended, Holds (lines ++ (f.archive ++ f.pruned)) j) :
    Sound f (calls.set i { c with pc }) := by
  refine ⟨hs.kept, ?_, ?_⟩
  · intro c' hc' inode hw
    rcases List.mem_or_eq_of_mem_set hc' with hc' | rfl
    · exact hs.opened c' hc' inode hw
    · exact hopened inode hw
  · intro c' hc' lines counted hr
    rcases List.mem_or_eq_of_mem_set hc' with hc' | rfl
    · exact hs.read c' hc' lines counted hr
    · exact hread lines counted hr

theorem Sound.setQuiet {f : SignalFiles} {calls : List SignalsCall} {c : SignalsCall} {pc : SignalsPc}
    (hs : Sound f calls) (hpc : pc.isWriting = false ∧ pc.isReplacing = false) :
    Sound f (calls.set i { c with pc }) := by
  refine hs.set ?_ ?_
  · rintro inode rfl
    cases hpc.1
  · rintro lines counted rfl
    cases hpc.2

theorem Move.sound {f f' : SignalFiles} {calls : List SignalsCall} {c : SignalsCall} {pc : SignalsPc}
    (hmove : Move f i c f' pc) (hs : Sound f calls) (hc : c ∈ calls)
    (hwriting : ∀ inode, c.pc = .writing inode → ∀ c' ∈ calls, c'.pc.isReplacing = false)
    (hreplacing : ∀ lines counted, c.pc = .replacing lines counted → ∀ c' ∈ calls, c'.pc.isWriting = false) :
    Sound f' (calls.set i { c with pc }) := by
  cases hmove with
  | quiet hpc => exact hs.setQuiet hpc
  | opened =>
    refine Sound.set ⟨?_, ?_, hs.read⟩ ?_ ?_
    · intro j hj
      rw [File.lines_openAppend]
      exact hs.kept j hj
    · intro c' hc' inode hw
      exact File.current_openAppend_of_some (hs.opened c' hc' inode hw)
    · intro inode hpc
      cases hpc
      exact File.current_openAppend
    · intro lines counted hpc
      cases hpc
  | @wrote _ inode r hcpc hr hpc =>
    refine Sound.setQuiet ⟨?_, hs.opened, ?_⟩ hpc
    · intro j hj
      rw [File.lines_append (hs.opened c hc inode hcpc)]
      rcases List.mem_append.1 hj with hj | hj
      · have := hs.kept j hj
        simp only [holds_append] at this ⊢
        tauto
      · obtain rfl := List.mem_singleton.1 hj
        exact holds_append.2 (.inl (holds_append.2 (.inr (holds_cons.2 (.inl hr)))))
    · intro c' hc' lines counted hr'
      -- no call replaces the file now
      have hquiet := hwriting inode hcpc c' hc'
      rw [hr'] at hquiet
      cases hquiet
  | @read lines archive pruned counted haside hall =>
    refine Sound.set ⟨?_, hs.opened, ?_⟩ ?_ ?_
    · intro j hj
      have hkept := holds_append.1 (hs.kept j hj)
      exact holds_append.2 (hkept.imp_right (haside j))
    · intro c' hc' lines' counted' hr j hj
      have hread := holds_append.1 (hs.read c' hc' lines' counted' hr j hj)
      exact holds_append.2 (hread.imp_right (haside j))
    · intro inode hpc
      cases hpc
    · intro lines' counted' hpc j hj
      cases hpc
      rcases holds_append.1 (hs.kept j hj) with hj | hj
      · exact hall j hj
      · exact holds_append.2 (.inr (haside j hj))
  | @replaced _ lines counted hcpc hpc =>
    refine Sound.setQuiet ⟨?_, ?_, hs.read⟩ hpc
    · intro j hj
      rw [File.lines_replace]
      exact hs.read c hc lines counted hcpc j hj
    · intro c' hc' inode hw
      -- no call has the file open now
      have hquiet := hreplacing lines counted hcpc c' hc'
      rw [hw] at hquiet
      cases hquiet

theorem step_sound {a : SignalsAct} (hs : Sound s.toSignalFiles s.calls) (hsafe : s.safe a = true)
    (h : s.step a = some s') : Sound s'.toSignalFiles s'.calls := by
  cases a with
  | call op =>
    cases h
    refine ⟨hs.kept, fun c hc inode hpc => ?_, fun c hc lines counted hpc => ?_⟩ <;>
      rcases List.mem_append.1 hc with hc | hc
    · exact hs.opened c hc inode hpc
    · obtain rfl := List.mem_singleton.1 hc
      cases hpc
    · exact hs.read c hc lines counted hpc
    · obtain rfl := List.mem_singleton.1 hc
      cases hpc
  | getSignalCount =>
    cases h
    unfold getSignalCount
    split <;> exact hs
  | step i =>
    simp only [step, Option.bind_eq_bind, Option.bind_eq_some_iff] at h
    obtain ⟨c, hc, ⟨s₁, pc⟩, hstep, h⟩ := h
    cases h
    obtain ⟨hmove, hcalls⟩ := callStep_move hstep
    simp only [safe, hc] at hsafe
    show Sound s₁.toSignalFiles (s₁.calls.set i { c with pc })
    rw [hcalls]
    refine hmove.sound hs (List.mem_of_getElem? hc) (fun inode hpc => ?_) fun lines counted hpc => ?_
    · rw [hpc] at hsafe
      exact of_decide_eq_true hsafe
    · rw [hpc] at hsafe
      exact of_decide_eq_true hsafe

/-- In a run of safe steps no appended record is lost. -/
theorem kept_of_safe {s₀ : SignalsDir} (hcalls : s₀.calls = []) (happended : s₀.appended = [])
    (h : Reach step (fun s a => s.safe a = true) s₀ s) : s.Kept := by
  have hstart : Sound s₀.toSignalFiles s₀.calls := by
    refine ⟨fun j hj => ?_, fun c hc => ?_, fun c hc => ?_⟩
    · rw [happended] at hj
      cases hj
    · rw [hcalls] at hc
      cases hc
    · rw [hcalls] at hc
      cases hc
  exact (h.invariant (I := fun s => Sound s.toSignalFiles s.calls) hstart
    fun _ _ _ hs hsafe hstep => step_sound hs hsafe hstep).kept

/-- The status record is appended after the price update has put the file back. -/
theorem kept_of_safe_update : ∃ s, Reach step (fun s a => s.safe a = true) {} s ∧ s.appended = [0, 2] ∧ s.Kept := by
  obtain ⟨s, hreach, hs⟩ := exists_reach step (fun s a => s.safe a = true) {}
    ([.call (.saveSignal { signalId := "s1", status := .generated }), .step 0, .step 0, .step 0, .step 0, .step 0,
      .call (.rewrite (.prices "s1" (some (.fin 99)) none)), .step 1, .step 1, .step 1, .step 1,
      .call (.updateSignalStatus { signalId := "s1", status := .exited }), .step 2, .step 2, .step 2])
    (fun s => s.appended = [0, 2]) (by decide +kernel)
  exact ⟨s, hreach, of_decide_eq_true hs, kept_of_safe rfl rfl hreach⟩

end SignalsDir

end PearlAlgo
