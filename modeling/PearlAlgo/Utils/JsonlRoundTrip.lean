import PearlAlgo.Py.JsonDumps
import PearlAlgo.Utils.StateIo

/-!
# The files that `atomic_write_jsonl` writes

One record a line, as `json.dumps` writes it. `load_jsonl_file` reads the last of them back, however the lines lie across
the chunks that it reads.
-/

namespace PearlAlgo.StateIo

open Py Py.Json

/-- A dict that `json.dumps` writes so that `json.loads` reads it back. -/
structure Record where
  members : List (List Nat × Json.Value)
  dumpable : DumpableMembers members

namespace Record

def value (r : Record) : Json.Value := .dict r.members

theorem dumpable_value (r : Record) : Dumpable r.value := r.dumpable

/-- `json.dumps(record)`. -/
def line (r : Record) : List Char := dumps none r.value

theorem getLast?_line (r : Record) : r.line.getLast? = some '}' := by
  obtain ⟨members, hmembers⟩ := r
  cases members with
  | nil => rfl
  | cons m members =>
    change (valueText none 0 (.dict (m :: members))).getLast? = _
    rw [valueText, ← List.cons_append, ← List.append_assoc, ← List.append_assoc, List.getLast?_append]
    rfl

theorem object_line (r : Record) : ObjectLine r.line := by
  refine ⟨?_, r.getLast?_line, isPrintable_dumps r.dumpable_value, ?_⟩
  · obtain ⟨members, hmembers⟩ := r
    cases members <;> rfl
  · rw [line, loads_dumps none r.dumpable_value]
    rfl

end Record

/-- The text that `atomic_write_jsonl` gives the file. -/
def jsonlText (records : List Record) : List Char := records.flatMap fun r => r.line ++ ['\n']

def jsonlFile (records : List Record) : JsonlFile where
  lines := records.map Record.line
  torn := []
  lines_object l hl := by
    obtain ⟨r, _, rfl⟩ := List.mem_map.1 hl
    exact r.object_line
  torn_prefix := ⟨_, sampleLine_object, List.nil_prefix⟩

theorem text_jsonlFile (records : List Record) : (jsonlFile records).text = jsonlText records := by
  unfold JsonlFile.text jsonlText jsonlFile
  rw [List.append_nil, List.map_map, List.flatMap_def]
  rfl

/-- Every line is an object, so none is passed over. -/
theorem filterMap_loads_lines (records : List Record) :
    ((records.map Record.line).filter fun l => decide (ObjectLine l)).filterMap Json.loads = records.map Record.value := by
  have hall : ∀ l ∈ records.map Record.line, decide (ObjectLine l) = true := by
    intro l hl
    obtain ⟨r, _, rfl⟩ := List.mem_map.1 hl
    exact decide_eq_true r.object_line
  rw [List.filter_eq_self.2 hall, List.filterMap_map]
  have hloads : Json.loads ∘ Record.line = fun r => some r.value := by
    funext r
    exact loads_dumps none r.dumpable_value
  rw [hloads, List.filterMap_eq_map']

theorem map_lastN {α β : Type} (f : α → β) (n : Nat) (l : List α) : lastN n (l.map f) = (lastN n l).map f := by
  unfold lastN
  split
  · rfl
  · rw [List.length_map, List.map_drop]

theorem loadJsonlFile_jsonlFile (records : List Record) {maxLines : Nat} (h : 1 ≤ maxLines) :
    loadJsonlFile (some (jsonlFile records).data) maxLines = some ((lastN maxLines records).map Record.value) := by
  have hlines : (jsonlFile records).allLines = records.map Record.line := by simp [JsonlFile.allLines, jsonlFile]
  rw [JsonlFile.loadJsonlFile_eq_loadWhole h, JsonlFile.loadWhole_data h, hlines, map_lastN, filterMap_loads_lines]

/-- What is written is what is read: the last `maxLines` of the records, in order. -/
theorem loadJsonlFile_jsonlText (records : List Record) {maxLines : Nat} (h : 1 ≤ maxLines) :
    loadJsonlFile (some (asciiBytes (jsonlText records))) maxLines = some ((lastN maxLines records).map Record.value) := by
  rw [← text_jsonlFile]
  exact loadJsonlFile_jsonlFile records h

/-- A key that is no ASCII, and a nested value. -/
def sampleMembers : List (List Nat × Json.Value) :=
  [([0x22, 0x1F600], .list [.null, .int (-1)]), ([0x61], .float ['0', '.', '5'])]

theorem sampleMembers_dumpable : DumpableMembers sampleMembers := by
  have hfloat : IsFloatText ['0', '.', '5'] := by
    refine .inr (.inr (.inr ⟨fun c hc => ?_, by rfl⟩))
    exact List.all_eq_true.1 (show ['0', '.', '5'].all isNumberChar = true by decide) c hc
  simp [sampleMembers, DumpableMembers, Dumpable, DumpableItems, IsString, IsHigh, IsLow, hfloat]

theorem loadJsonlFile_jsonlText_sample : loadJsonlFile (some (asciiBytes (jsonlText
    [⟨sampleMembers, sampleMembers_dumpable⟩, ⟨[], trivial⟩]))) 1 = some [.dict []] :=
  loadJsonlFile_jsonlText [⟨sampleMembers, sampleMembers_dumpable⟩, ⟨[], trivial⟩] (by decide)

end PearlAlgo.StateIo
