import PearlAlgo.Fs.LockedUpdate
import PearlAlgo.Py.Seq
import PearlAlgo.Utils.JsonlRoundTrip

/-!
# `performance.json` under concurrent saves

`_save_performance` changes the file as `Fs.LockedUpdate` does: `file_lock` on `performance.lock`, `json.load`, the new
record at the end, the last `_max_records` of them, and `atomic_write_json`, which writes a temporary file, syncs it and
renames it. `load_performance_data` takes no lock.
-/

namespace PearlAlgo.PerformanceFile

open Py Py.Json
open Fs (Register Disk)
open Fs.LockedUpdate
open Lts (Reach AnyStep)
open StateIo (Record)

/-- A file that is no list of JSON counts as an empty one. -/
def loadPerformanceData (file : Option (List Char)) : List Json.Value :=
  match file with
  | none => []
  | some text =>
    match Json.loads text with
    | some (.list data) => data
    | _ => []

/-- What `_save_performance` makes of the records that it has read. -/
def savePerformance (maxRecords : Nat) (performances : List Json.Value) (performance : Record) : List Json.Value :=
  trimTo maxRecords (performances ++ [performance.value])

theorem dumpableItems_iff {l : List Json.Value} : DumpableItems l ↔ ∀ v ∈ l, Dumpable v := by
  induction l with
  | nil => simp [DumpableItems]
  | cons v l ih => simp [DumpableItems, ih]

theorem dumpableItems_savePerformance (maxRecords : Nat) {l : List Json.Value} (h : DumpableItems l) (r : Record) :
    DumpableItems (savePerformance maxRecords l r) := by
  have hall := forall_mem_concat (dumpableItems_iff.1 h) r.dumpable_value
  refine dumpableItems_iff.2 fun v hv => hall v ?_
  unfold savePerformance trimTo at hv
  split at hv
  · exact mem_of_mem_lastN hv
  · exact hv

/-- `atomic_write_json` indents by two. -/
def register (maxRecords : Nat) : Register Char (List Json.Value) Record where
  encode performances := dumps (some 2) (.list performances)
  decode text :=
    match Json.loads text with
    | some (.list data) => some data
    | _ => none
  default := []
  apply := savePerformance maxRecords
  Valid := DumpableItems
  decode_encode performances h := by
    rw [loads_dumps (some 2) (v := .list performances) h]
  valid_default := trivial
  valid_apply _ r h := dumpableItems_savePerformance maxRecords h r

/-- What is in the file. -/
def text (d : Disk Char) : Option (List Char) := d.entry.map fun ino => ((d.inodes[ino]?).map Fs.Inode.data).getD []

/-- The file when the processes start, which `_save_performance` wrote if there is one. -/
def startDisk : Option (List Record) → Disk Char
  | none => {}
  | some records =>
    { inodes := [{ data := dumps (some 2) (.list (records.map Record.value)), synced := true }]
      entry := some 0
      stored := some 0 }

def startRecords (file : Option (List Record)) : List Json.Value := (file.getD []).map Record.value

section
variable {maxRecords : Nat} {file : Option (List Record)}

theorem readFile_eq (d : Disk Char) (h : ∀ ino ∈ d.entry, ino < d.inodes.length) :
    (register maxRecords).readFile d = loadPerformanceData (text d) := by
  unfold Register.readFile text
  rcases hentry : d.entry with _ | ino
  · rfl
  · rw [Option.map_some, Option.map_some, Option.getD_some, Register.readInode,
      List.getElem?_eq_getElem (h ino hentry)]
    simp only [Option.bind_some, Option.map_some, Option.getD_some, loadPerformanceData, register]
    split <;> rfl

theorem dumpableItems_startRecords (file : Option (List Record)) : DumpableItems (startRecords file) := by
  refine dumpableItems_iff.2 fun v hv => ?_
  obtain ⟨r, _, rfl⟩ := List.mem_map.1 hv
  exact r.dumpable_value

theorem fileHolds_startDisk (file : Option (List Record)) :
    (register maxRecords).FileHolds (startDisk file) (startDisk file).entry (startRecords file) := by
  cases file <;> rfl

/-- Trimming after every save keeps what trimming once would. -/
theorem value_eq (l : List Json.Value) (rs : List Record) : (register maxRecords).value l rs =
    if rs = [] then l else trimTo maxRecords (l ++ rs.map Record.value) := by
  induction rs using List.reverseRecOn with
  | nil => rfl
  | append_singleton rs r ih =>
    have hne : rs ++ [r] ≠ [] := by simp
    rw [Register.value_concat, ih, if_neg hne, List.map_append]
    change trimTo maxRecords ((if rs = [] then l else trimTo maxRecords (l ++ rs.map Record.value)) ++ [r.value]) = _
    split
    next hrs => simp [hrs]
    next => rw [trimTo_append, List.append_assoc, List.map_singleton]

end

/-- Whatever processes save, fail, are killed or read at the same time, and whenever the power fails: the file holds the
last records of those whose renames happened, no save that returned is lost before a power failure, a reader gets what the
file held when it was opened, and one process at a time is between its lock and its unlock. -/
theorem performanceFile_atomic (maxRecords : Nat) (file : Option (List Record))
    (s : Fs.LockedUpdate.State Char (List Json.Value) Record)
    (h : Reach (Fs.LockedUpdate.step (register maxRecords) (startRecords file)) AnyStep { disk := startDisk file } s) :
    loadPerformanceData (text s.disk) = (if s.commits = [] then startRecords file
      else trimTo maxRecords (startRecords file ++ s.commits.map Record.value)) ∧
      s.returned.Sublist s.commits ∧ s.storedCommits <+: s.commits ∧ (∀ r ∈ s.observed, r.1 = r.2) ∧
      ∀ p q, (s.stages p).InSection → (s.stages q).InSection → p = q := by
  have hvalid : (register maxRecords).Valid (startRecords file) := dumpableItems_startRecords file
  have hinv := reach_inv hvalid (fileHolds_startDisk file) (by cases file <;> rfl) h
  have hentry : ∀ ino ∈ s.disk.entry, ino < s.disk.inodes.length := by
    intro ino hino
    have hfile := hinv.file
    rw [Option.mem_def.1 hino] at hfile
    exact Fs.Disk.Holds.lt hfile
  refine ⟨?_, hinv.returned, hinv.storedCommits_first, hinv.observed, fun p q hp hq => ?_⟩
  · rw [← readFile_eq s.disk hentry, hinv.readFile_eq hvalid, value_eq]
  · have hlock := ((hinv.section_lock p).1 hp).symm.trans ((hinv.section_lock q).1 hq)
    exact Option.some.inj hlock

theorem dumpableMembers_sample : DumpableMembers [([0x70], .int 1)] := by
  simp [DumpableMembers, Dumpable, IsString, IsHigh]

def sampleRecord : Record := ⟨[([0x70], .int 1)], dumpableMembers_sample⟩

def sampleFile : Option (List Record) := some [sampleRecord]

/-- Two saves at once, the second of which waits; a reader opens the file before the first save renames its own; the power
fails after the directory was written back. -/
def sampleRun : List (Fs.LockedUpdate.Act Char Record) :=
  [.call 0 sampleRecord, .call 1 sampleRecord, .acquire 0, .load 0, .create 0, .write 0 4, .openFile 2, .write 0 100,
    .fsync 0, .replace 0, .read 2, .release 0, .writeBack, .acquire 1, .load 1, .create 1, .write 1 100, .fsync 1,
    .replace 1, .openFile 2, .read 2, .powerFailure fun _ => []]

theorem performanceFile_atomic_sampleRun : ∃ s,
    Reach (Fs.LockedUpdate.step (register 1000) (startRecords sampleFile)) AnyStep { disk := startDisk sampleFile } s ∧
      s.commits.length = 1 ∧
      loadPerformanceData (text s.disk) = (if s.commits = [] then startRecords sampleFile
        else trimTo 1000 (startRecords sampleFile ++ s.commits.map Record.value)) ∧
      s.returned.Sublist s.commits ∧ s.storedCommits <+: s.commits ∧ (∀ r ∈ s.observed, r.1 = r.2) ∧
      ∀ p q, (s.stages p).InSection → (s.stages q).InSection → p = q := by
  obtain ⟨s, hreach, hs⟩ := Lts.exists_reach (Fs.LockedUpdate.step (register 1000) (startRecords sampleFile)) AnyStep
    { disk := startDisk sampleFile } sampleRun (fun s => s.commits.length = 1 && s.observed.length = 2) (by decide +kernel)
  have hlength := (Bool.and_eq_true _ _ ▸ hs).1
  exact ⟨s, hreach, of_decide_eq_true hlength, performanceFile_atomic 1000 sampleFile s hreach⟩

end PearlAlgo.PerformanceFile
