import PearlAlgo.MarketAgent.SignalsFile

/-!
# A pruning run (`market_agent/scheduled_tasks.py`)

`_prune_signals_file` on a live file and the backup file of the day, with the values under `timestamp` as the lines
have them and the file operation that raises. `prune_exact_iff` says when a run is exact.
-/

namespace PearlAlgo
open Py

/-- The value under `timestamp` of a record. -/
inductive TimestampValue
  /-- No value, or one that is falsy. -/
  | absent
  | naiveEt (wall : ℚ)
  | utcAware (instant : ℚ)
  /-- A text that `fromisoformat` refuses. -/
  | unparsable
  | noText
deriving DecidableEq

/-- `_ET`: the clock of an instant, `none` where `astimezone` overflows, and the instant that a naive text means. -/
structure EtZone where
  astimezone : ℚ → Option ℚ
  instant : ℚ → ℚ

inductive PruneErr
  | py (e : PyErr)
  | overflowError
  | osError
deriving DecidableEq

/-- A line of the file; the record on it has `timestamp`. -/
structure FileLine where
  line : SignalLine
  timestamp : TimestampValue := .absent
deriving DecidableEq

structure PruneFiles where
  live : List FileLine
  /-- `signals_pruned_<date>.jsonl` -/
  backup : List FileLine := []
deriving DecidableEq

/-- The file operation that raises: the reading, the append to the backup after so many lines, the temporary file,
or `os.replace`. -/
inductive PruneFault
  | read
  | backup (written : Nat)
  | temp
  | replace
deriving DecidableEq

/-! ### The run -/

/-- `parse_utc_timestamp`, called on a truthy value; the errors that the loop does not catch escape. -/
def TimestampValue.parse (z : EtZone) : TimestampValue → Except PruneErr Stamp
  | absent => .ok .missing
  | naiveEt wall => .ok (.time wall)
  | utcAware instant =>
    match z.astimezone instant with
    | some wall => .ok (.time wall)
    | none => .error .overflowError
  | unparsable => .ok .unparsable
  | noText => .error (.py .attributeError)

namespace FileLine

def parse (z : EtZone) (l : FileLine) : Except PruneErr SignalLine :=
  match l.line with
  | .record r => do return .record { r with timestamp := ← l.timestamp.parse z }
  | line => .ok line

/-- What the loop makes of a line: prune it, keep it, or skip it. -/
def prune (z : EtZone) (cutoff : ℚ) (l : FileLine) : Except PruneErr (Option Bool) := do
  let line ← l.parse z
  (pruneLine (.aware cutoff) line).mapError .py

end FileLine

/-- `keep_lines` and `prune_lines` -/
def pruneLines (z : EtZone) (cutoff : ℚ) : List FileLine → Except PruneErr (List FileLine × List FileLine)
  | [] => .ok ([], [])
  | l :: lines => do
    let verdict ← l.prune z cutoff
    let (keep, prune) ← pruneLines z cutoff lines
    return match verdict with
      | none => (keep, prune)
      | some false => (l :: keep, prune)
      | some true => (keep, l :: prune)

def pruneSignalsFile (z : EtZone) (nowUtc signalRetentionDays : ℚ) (fault : Option PruneFault) (files : PruneFiles) :
    Except PruneErr (Nat × Nat) × PruneFiles :=
  if fault = some .read then (.error .osError, files)
  else
    match pruneLines z (nowUtc - signalRetentionDays * 86400) files.live with
    | .error e => (.error e, files)
    | .ok (keep, prune) =>
      if prune = [] then (.ok (0, keep.length), files)
      else
        match fault with
        | some (.backup written) => (.error .osError, { files with backup := files.backup ++ prune.take written })
        | some _ => (.error .osError, { files with backup := files.backup ++ prune })
        | none => (.ok (prune.length, keep.length), { live := keep, backup := files.backup ++ prune })

/-! ### What a run should do -/

namespace FileLine

def isBlank (l : FileLine) : Bool := l.line = .blank

/-- The timestamp of the record on the line is older than `cutoff`. -/
def isOld (z : EtZone) (cutoff : ℚ) (l : FileLine) : Bool :=
  match l.line, l.timestamp with
  | .record _, .naiveEt wall => z.instant wall < cutoff
  | .record _, .utcAware instant => instant < cutoff
  | _, _ => false

/-- Reading the line raises an error that the loop does not catch: no dictionary, a timestamp that is no text, or one
with no Eastern clock. -/
def escapes (z : EtZone) (l : FileLine) : Bool :=
  match l.line, l.timestamp with
  | .value, _ => true
  | .record _, .noText => true
  | .record _, .utcAware instant => (z.astimezone instant).isNone
  | _, _ => false

end FileLine

/-- A run that completes moves the old lines to the backup and keeps the other lines that are not blank, in order; a
run that fails leaves the live file. -/
def PruneExact (z : EtZone) (nowUtc signalRetentionDays : ℚ) (files : PruneFiles)
    (run : Except PruneErr (Nat × Nat) × PruneFiles) : Prop :=
  let old := FileLine.isOld z (nowUtc - signalRetentionDays * 86400)
  match run.1 with
  | .error _ => run.2.live = files.live
  | .ok _ =>
    run.2.live.filter (fun l => !l.isBlank) = files.live.filter (fun l => !l.isBlank && !old l) ∧
      run.2.backup = files.backup ++ files.live.filter old

/-! ### The lines -/

/-- The time of a record is naive and the cutoff aware: they do not compare, and the record is kept. -/
theorem pruneLine_record (cutoff : ℚ) (r : LineRecord) : pruneLine (.aware cutoff) (.record r) = .ok (some false) := by
  rcases htimestamp : r.timestamp with _ | wall | _
  · rw [pruneLine, if_pos htimestamp]
  · rw [pruneLine, if_neg (by simp [htimestamp]), htimestamp]
    rfl
  · rw [pruneLine, if_neg (by simp [htimestamp]), htimestamp]
    rfl

namespace FileLine
variable {z : EtZone} {l : FileLine}

theorem parse_of_not_escapes (h : l.escapes z = false) : ∃ line, l.parse z = .ok line ∧
    (line = .blank ↔ l.isBlank = true) ∧ line ≠ .value := by
  obtain ⟨line, timestamp⟩ := l
  rcases line with r | _ | _ | _
  · rcases timestamp with _ | wall | instant | _ | _
    · exact ⟨_, rfl, by simp [isBlank], by simp⟩
    · exact ⟨_, rfl, by simp [isBlank], by simp⟩
    · rcases hwall : z.astimezone instant with _ | wall
      · simp [escapes, hwall] at h
      · refine ⟨.record { r with timestamp := .time wall }, ?_, by simp [isBlank], by simp⟩
        simp only [parse, TimestampValue.parse, hwall]
        rfl
    · exact ⟨_, rfl, by simp [isBlank], by simp⟩
    · simp [escapes] at h
  · simp [escapes] at h
  · exact ⟨_, rfl, by simp [isBlank], by simp⟩
  · exact ⟨_, rfl, by simp [isBlank], by simp⟩

theorem parse_of_escapes (h : l.escapes z = true) :
    (∃ e, l.parse z = .error e) ∨ l.parse z = .ok .value := by
  obtain ⟨line, timestamp⟩ := l
  rcases line with r | _ | _ | _
  · rcases timestamp with _ | wall | instant | _ | _
    · simp [escapes] at h
    · simp [escapes] at h
    · rcases hwall : z.astimezone instant with _ | wall
      · refine Or.inl ⟨.overflowError, ?_⟩
        simp only [parse, TimestampValue.parse, hwall]
        rfl
      · simp [escapes, hwall] at h
    · simp [escapes] at h
    · exact Or.inl ⟨_, rfl⟩
  · exact Or.inr rfl
  · simp [escapes] at h
  · simp [escapes] at h

theorem prune_of_not_escapes (cutoff : ℚ) (h : l.escapes z = false) :
    l.prune z cutoff = .ok (if l.isBlank then none else some false) := by
  obtain ⟨line, hparse, hblank, hvalue⟩ := parse_of_not_escapes h
  have hprune : l.prune z cutoff = (pruneLine (.aware cutoff) line).mapError .py := by
    rw [prune, hparse]
    rfl
  rw [hprune]
  by_cases hl : line = .blank
  · rw [if_pos (hblank.1 hl), hl]
    rfl
  rw [if_neg (fun h => hl (hblank.2 h))]
  rcases line with r | _ | _ | _
  · rw [pruneLine_record]
    rfl
  · exact absurd rfl hvalue
  · rfl
  · exact absurd rfl hl

theorem prune_of_escapes (cutoff : ℚ) (h : l.escapes z = true) : ∃ e, l.prune z cutoff = .error e := by
  rcases parse_of_escapes h with ⟨e, hparse⟩ | hparse
  · refine ⟨e, ?_⟩
    rw [prune, hparse]
    rfl
  · refine ⟨.py .attributeError, ?_⟩
    rw [prune, hparse]
    rfl

end FileLine

/-! ### The outcome -/

variable {z : EtZone} {lines : List FileLine}

theorem pruneLines_of_not_escapes (cutoff : ℚ) (h : ∀ l ∈ lines, l.escapes z = false) :
    pruneLines z cutoff lines = .ok (lines.filter (fun l => !l.isBlank), []) := by
  induction lines with
  | nil => rfl
  | cons l lines ih =>
    have hl := FileLine.prune_of_not_escapes cutoff (h l List.mem_cons_self)
    have hrest := ih fun l' hl' => h l' (List.mem_cons_of_mem _ hl')
    by_cases hblank : l.isBlank = true
    · rw [if_pos hblank] at hl
      rw [pruneLines, hl, hrest, List.filter_cons_of_neg (by simp [hblank])]
      rfl
    · rw [if_neg hblank] at hl
      rw [pruneLines, hl, hrest, List.filter_cons_of_pos (by simpa using hblank)]
      rfl

theorem pruneLines_of_escapes (cutoff : ℚ) {l : FileLine} (hmem : l ∈ lines) (h : l.escapes z = true) :
    ∃ e, pruneLines z cutoff lines = .error e := by
  induction lines with
  | nil => exact absurd hmem List.not_mem_nil
  | cons l' lines ih =>
    rcases List.mem_cons.1 hmem with rfl | hmem
    · obtain ⟨e, he⟩ := FileLine.prune_of_escapes cutoff h
      exact ⟨e, by rw [pruneLines, he]; rfl⟩
    · obtain ⟨e, he⟩ := ih hmem
      rcases hl : l'.prune z cutoff with e' | verdict
      · exact ⟨e', by rw [pruneLines, hl]; rfl⟩
      · exact ⟨e, by rw [pruneLines, hl, he]; rfl⟩

section
variable (z : EtZone) (nowUtc days : ℚ) (fault : Option PruneFault) (files : PruneFiles)

/-- A run leaves both files as they are. -/
theorem pruneSignalsFile_files : (pruneSignalsFile z nowUtc days fault files).2 = files := by
  unfold pruneSignalsFile
  split
  · rfl
  by_cases h : ∀ l ∈ files.live, l.escapes z = false
  · rw [pruneLines_of_not_escapes _ h]
    rfl
  · push Not at h
    obtain ⟨l, hmem, hl⟩ := h
    obtain ⟨e, he⟩ := pruneLines_of_escapes (nowUtc - days * 86400) hmem (by simpa using hl)
    rw [he]

/-- When a run completes. -/
theorem pruneSignalsFile_isOk : (∃ counts, (pruneSignalsFile z nowUtc days fault files).1 = .ok counts) ↔
    fault ≠ some .read ∧ ∀ l ∈ files.live, l.escapes z = false := by
  unfold pruneSignalsFile
  constructor
  · rintro ⟨counts, h⟩
    split at h
    · cases h
    next hread =>
      refine ⟨hread, fun l hmem => ?_⟩
      by_contra hl
      obtain ⟨e, he⟩ := pruneLines_of_escapes (nowUtc - days * 86400) hmem (by simpa using hl)
      rw [he] at h
      cases h
  · rintro ⟨hread, h⟩
    rw [if_neg hread, pruneLines_of_not_escapes _ h]
    exact ⟨_, rfl⟩

/-- A run is exact when it fails, or when no line is old enough to be pruned. -/
theorem prune_exact_iff : PruneExact z nowUtc days files (pruneSignalsFile z nowUtc days fault files) ↔
    fault = some .read ∨ (∃ l ∈ files.live, l.escapes z = true) ∨
      ∀ l ∈ files.live, l.isOld z (nowUtc - days * 86400) = false := by
  have hfiles := pruneSignalsFile_files z nowUtc days fault files
  have hok := pruneSignalsFile_isOk z nowUtc days fault files
  rcases hrun : pruneSignalsFile z nowUtc days fault files with ⟨result, files'⟩
  rw [hrun] at hfiles hok
  obtain rfl : files' = files := hfiles
  rcases result with e | counts
  · -- the run fails, and the files are as they were
    have hfail : ¬ (fault ≠ some .read ∧ ∀ l ∈ files'.live, l.escapes z = false) := by
      rw [← hok]
      rintro ⟨counts, h⟩
      cases h
    refine iff_of_true rfl ?_
    by_cases hread : fault = some .read
    · exact Or.inl hread
    · refine Or.inr (Or.inl ?_)
      by_contra h
      refine hfail ⟨hread, fun l hmem => ?_⟩
      by_contra hl
      exact h ⟨l, hmem, by simpa using hl⟩
  · -- the run completes without a change
    obtain ⟨hread, hescapes⟩ := hok.1 ⟨counts, rfl⟩
    simp only [PruneExact]
    constructor
    · rintro ⟨-, hbackup⟩
      refine Or.inr (Or.inr fun l hmem => ?_)
      have hnil : files'.live.filter (FileLine.isOld z (nowUtc - days * 86400)) = [] :=
        List.self_eq_append_right.1 hbackup
      simpa using List.filter_eq_nil_iff.1 hnil l hmem
    · rintro (h | ⟨l, hmem, h⟩ | h)
      · exact absurd h hread
      · rw [hescapes l hmem] at h
        cases h
      · refine ⟨?_, ?_⟩
        · refine List.filter_congr fun l hmem => ?_
          rw [h l hmem, Bool.not_false, Bool.and_true]
        · rw [List.filter_eq_nil_iff.2 fun l hmem => by rw [h l hmem]; exact Bool.false_ne_true, List.append_nil]

end

/-- A zone five hours behind UTC. -/
def EtZone.winter : EtZone where
  astimezone t := some (t - 18000)
  instant wall := wall + 18000

/-- Two records of the first day, one naive and one aware, with a retention of thirty days on the hundredth. -/
theorem old_records_kept : ¬ ∀ (z : EtZone) (nowUtc days : ℚ) (fault : Option PruneFault) (files : PruneFiles),
    PruneExact z nowUtc days files (pruneSignalsFile z nowUtc days fault files) := by
  intro h
  have hexact := h .winter 8640000 30 none
    { live := [⟨.record { signalId := "a", status := .exited }, .naiveEt 3600⟩,
        ⟨.record { signalId := "b", status := .exited }, .utcAware 3600⟩] }
  have hbackup := hexact.2
  rw [pruneSignalsFile_files] at hbackup
  revert hbackup
  decide +kernel

end PearlAlgo
