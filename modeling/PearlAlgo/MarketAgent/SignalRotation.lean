import PearlAlgo.MarketAgent.SignalStores

/-!
# The rotation of `signals.jsonl` (`market_agent/state_manager.py`)

Every hundredth `save_signal` checks the size of the file by a counter in `signals_meta.json`, which only
`save_signal` and `get_signal_count` maintain: the status lines of the tracker are not counted. SQLite is on and the
calls come one after the other.
-/

namespace PearlAlgo
open Lts

/-- The stores and `signals_archive.jsonl`. -/
structure SignalLog extends SignalStores where
  archive : List LineRecord := []

inductive LogAct
  | saveSignal (record : LineRecord) (isTest : Bool)
  | updateSignalStatus (change : SignalRecord) (preserve : Option SignalRecord) (serializable : Bool)
  | getSignalCount
  /-- A new `_SignalStore` on the same files. -/
  | restart (maxSignalLines : Int)

namespace SignalLog

def saveSignal (record : LineRecord) (s : SignalLog) : SignalLog :=
  let s' := s.appendSignal record
  { toSignalStores := s.toSignalStores.saveSignal record
    archive := if s'.signalWriteCount % 100 = 0 then s.archive ++ s'.lines.take s'.skipCount else s.archive }

def getSignalCount (s : SignalLog) : SignalLog :=
  match s.signalCount, s.sidecar with
  | some _, _ => s
  | none, some count => { s with signalCount := some count }
  | none, none => { s with signalCount := some s.lines.length, sidecar := some s.lines.length }

def apply (s : SignalLog) : LogAct → SignalLog
  | .saveSignal record isTest => if isTest then s else s.saveSignal record
  | .updateSignalStatus change preserve serializable =>
    { s with toSignalStores := s.updateSignalStatus change preserve serializable }
  | .getSignalCount => s.getSignalCount
  | .restart maxSignalLines => { s with signalCount := none, signalWriteCount := 0, maxSignalLines }

/-- The lines that a call writes; a status line needs the file. -/
def writes (s : SignalLog) : LogAct → List LineRecord
  | .saveSignal record isTest => if isTest then [] else [record]
  | .updateSignalStatus change _ _ =>
    if s.signalsFile.isSome then [{ toSignalRecord := { change with statusChange := true } }] else []
  | .getSignalCount | .restart _ => []

def written (s : SignalLog) : List LogAct → List LineRecord
  | [] => []
  | a :: acts => s.writes a ++ (s.apply a).written acts

/-- The stores as the rotation check of the call finds them, when it makes one. -/
def check (s : SignalLog) : LogAct → Option SignalStores
  | .saveSignal record isTest =>
    let s' := s.appendSignal record
    if isTest = false ∧ s'.signalWriteCount % 100 = 0 then some s' else none
  | _ => none

/-- The check leaves the newest lines, up to the limit. -/
def KeepsNewest (s : SignalLog) (a : LogAct) : Prop :=
  ∀ s' ∈ s.check a, (s.apply a).lines = s'.lines.drop (s'.lines.length - min s'.lines.length s.maxSignalLines.toNat)

/-- At the check the counter is the number of lines, or neither is above the limit; a limit that is not positive is
also kept by a counter that is too high. -/
def CountFits (s : SignalLog) (a : LogAct) : Prop :=
  ∀ s' ∈ s.check a,
    let count := s'.sidecar.getD s'.lines.length
    count = s'.lines.length ∨ (count ≤ s.maxSignalLines ∧ (s'.lines.length : Int) ≤ s.maxSignalLines) ∨
      (s.maxSignalLines ≤ 0 ∧ (s'.lines.length : Int) ≤ count - s.maxSignalLines)

instance (s : SignalLog) (a : LogAct) : Decidable (s.KeepsNewest a) :=
  inferInstanceAs (Decidable (∀ s' ∈ s.check a, _ = _))

variable {s : SignalLog} {record : LineRecord}

theorem lines_saveSignal (s : SignalLog) (record : LineRecord) :
    (s.saveSignal record).lines =
      if (s.appendSignal record).signalWriteCount % 100 = 0 then
        (s.appendSignal record).lines.drop (s.appendSignal record).skipCount
      else (s.appendSignal record).lines := by
  show (if (s.appendSignal record).signalWriteCount % 100 = 0 then (s.appendSignal record).rotate
    else s.appendSignal record).lines = _
  split
  · exact SignalStores.lines_rotate _
  · rfl

/-- A call adds the lines that it writes to the end of the archive and the file. -/
theorem log_apply (s : SignalLog) (a : LogAct) :
    (s.apply a).archive ++ (s.apply a).lines = s.archive ++ s.lines ++ s.writes a := by
  rcases a with ⟨record, isTest⟩ | ⟨change, preserve, serializable⟩ | _ | maxSignalLines
  · rcases isTest with _ | _
    · show (s.saveSignal record).archive ++ (s.saveSignal record).lines = s.archive ++ s.lines ++ [record]
      have happend : (s.appendSignal record).lines = s.lines ++ [record] := rfl
      rw [lines_saveSignal, List.append_assoc, ← happend]
      show (if (s.appendSignal record).signalWriteCount % 100 = 0 then _ else _) ++ _ = _
      split
      · rw [List.append_assoc, List.take_append_drop]
      · rfl
    · exact (List.append_nil _).symm
  · show s.archive ++ (s.signalsFile.map _).getD [] = s.archive ++ s.signalsFile.getD [] ++ if s.signalsFile.isSome then _ else _
    rw [List.append_assoc]
    rcases s.signalsFile with _ | lines
    · rfl
    · rfl
  · show s.getSignalCount.archive ++ s.getSignalCount.lines = _
    rw [writes, List.append_nil]
    unfold getSignalCount
    rcases s.signalCount with _ | count
    · rcases s.sidecar with _ | count
      · rfl
      · rfl
    · rfl
  · exact (List.append_nil _).symm

theorem mem_check {a : LogAct} {s' : SignalStores} (h : s' ∈ s.check a) :
    ∃ record, a = .saveSignal record false ∧ (s.appendSignal record).signalWriteCount % 100 = 0 ∧ s' = s.appendSignal record := by
  rcases a with ⟨record, isTest⟩ | _ | _ | _
  · rw [check] at h
    split at h
    next hcheck =>
      obtain ⟨rfl, hcount⟩ := hcheck
      exact ⟨record, rfl, hcount, (Option.some.inj h).symm⟩
    · cases h
  · cases h
  · cases h
  · cases h

theorem keepsNewest_iff (s : SignalLog) (a : LogAct) : s.KeepsNewest a ↔ s.CountFits a := by
  refine forall₂_congr fun s' hs' => ?_
  obtain ⟨record, rfl, hcount, rfl⟩ := mem_check hs'
  have hlines : (s.apply (.saveSignal record false)).lines =
      (s.appendSignal record).lines.drop (s.appendSignal record).skipCount := by
    refine (lines_saveSignal s record).trans ?_
    rw [if_pos hcount]
  have hpos : 0 < (s.appendSignal record).lines.length := by
    show 0 < (s.lines ++ [record]).length
    rw [List.length_append, List.length_singleton]
    omega
  have hskip : (s.appendSignal record).skipCount =
      ((s.appendSignal record).sidecar.getD (s.appendSignal record).lines.length - s.maxSignalLines).toNat := rfl
  rw [hlines, hskip, List.drop_eq_drop_iff]
  dsimp only
  generalize (s.appendSignal record).sidecar.getD (s.appendSignal record).lines.length = count
  omega

/-- In every run the archive and the file hold, in order, the lines that they held and all lines written since; and
every rotation check keeps the newest lines up to the limit if and only if the counter fits at every check. -/
theorem rotation_log (s : SignalLog) (acts : List LogAct) :
    ((acts.foldl apply s).archive ++ (acts.foldl apply s).lines = s.archive ++ s.lines ++ s.written acts) ∧
      (Along apply KeepsNewest s acts ↔ Along apply CountFits s acts) := by
  induction acts generalizing s with
  | nil => exact ⟨(List.append_nil _).symm, .rfl⟩
  | cons a acts ih =>
    obtain ⟨hlog, hchecks⟩ := ih (s.apply a)
    refine ⟨?_, and_congr (keepsNewest_iff s a) hchecks⟩
    rw [List.foldl_cons, hlog, log_apply, written, List.append_assoc]

/-- A store that has counted its file, with a limit of 100 lines. -/
def countedLog : SignalLog := { maxSignalLines := 100, sidecar := some 0, signalCount := some 0 }

def savedSignal (n : Nat) : LogAct := .saveSignal { signalId := toString n, status := .generated, signal := some {} } false

/-- A hundred signals and one status line: the check counts 100 lines and leaves all 101. -/
theorem not_rotation_log : ¬ ∀ (s : SignalLog) (acts : List LogAct),
    ((acts.foldl apply s).archive ++ (acts.foldl apply s).lines = s.archive ++ s.lines ++ s.written acts) ∧
      Along apply KeepsNewest s acts := by
  intro h
  have hkept := (h countedLog (((List.range 99).map savedSignal) ++
    [.updateSignalStatus { signalId := "0", status := .entered } none true, savedSignal 99])).2
  exact absurd hkept (by decide +kernel)

end SignalLog

end PearlAlgo
