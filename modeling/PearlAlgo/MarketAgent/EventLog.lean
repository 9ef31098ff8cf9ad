import PearlAlgo.Fs.RotatingLog
import PearlAlgo.Lts.Reach
import PearlAlgo.Utils.JsonlRoundTrip

/-!
# The event log (`market_agent/state_manager.py`)

`append_event` appends a record to `events.jsonl`, which becomes `events.jsonl.1` when it is full; where that raises it
appends once more, without the lock. `get_recent_events` reads the file alone.
-/

namespace PearlAlgo.EventLog
open Fs Py StateIo

def EVENTS_MAX_BYTES : Nat := 10 * 1024 * 1024

structure State where
  files : RotatingLog Char := {}
  events : List Record := []

/-- How `append_event` goes: whether it gets the lock, where the rotation stops, how many characters each attempt writes,
and whether the first one raises. -/
structure Append where
  locked : Bool := true
  rotation : RotateFault := .none
  written : Nat
  raises : Bool := false
  fallback : Nat := 0
deriving DecidableEq

/-- `json.dumps(record) + "\n"` -/
def lineOf (e : Record) : List Char := e.line ++ ['\n']

namespace State

/-- Only the order of the writes counts here, so all of them are at time zero. -/
def appendEvent (s : State) (e : Record) (a : Append) : State :=
  let files :=
    if a.locked then
      let files := (s.files.rotate EVENTS_MAX_BYTES a.rotation).1.append 0 ((lineOf e).take a.written)
      if a.raises then files.append 0 ((lineOf e).take a.fallback) else files
    else s.files.append 0 ((lineOf e).take a.fallback)
  { files, events := s.events ++ [e] }

def getRecentEvents (s : State) (limit : Nat) : List Json.Value :=
  match s.files.current with
  | none => []
  | some f => (StateIo.loadJsonlFile (some (asciiBytes (f.data.map Prod.fst))) limit).getD []

end State

def step (s : State) (a : Record × Append) : Option State := some (s.appendEvent a.1 a.2)

/-- The first attempt writes the whole line. -/
def Writes (_ : State) (a : Record × Append) : Prop :=
  a.2.locked = true ∧ a.2.raises = false ∧ (lineOf a.1).length ≤ a.2.written

instance (s : State) (a : Record × Append) : Decidable (Writes s a) := inferInstanceAs (Decidable (_ ∧ _ ∧ _))

/-- The files hold whole lines: those of the events `old`, and those of `new`. -/
structure Holds (s : State) (gone old new : List Record) : Prop where
  events : s.events = gone ++ old ++ new
  backup : s.files.backupData.map Prod.fst = jsonlText old
  current : s.files.currentData.map Prod.fst = jsonlText new
  nonempty : s.events ≠ [] → new ≠ []
  log : s.files.log.map Prod.fst = jsonlText s.events
  retains : s.files.Retains EVENTS_MAX_BYTES fun _ => False
  times : ∀ x ∈ s.files.log, x.2 ≤ 0

theorem jsonlText_append (records records' : List Record) :
    jsonlText (records ++ records') = jsonlText records ++ jsonlText records' := List.flatMap_append

theorem jsonlText_concat (records : List Record) (e : Record) :
    jsonlText (records ++ [e]) = jsonlText records ++ lineOf e := by
  rw [jsonlText_append]
  exact congrArg _ (List.append_nil _)

namespace Holds
variable {s : State} {gone old new : List Record}

theorem start : Holds {} [] [] [] where
  events := rfl
  backup := rfl
  current := rfl
  nonempty h := absurd rfl h
  log := rfl
  retains := .start
  times x hx := by cases hx

/-- After the rotation the file ends with the last event, or is gone. -/
theorem rotate (h : Holds s gone old new) (fault : RotateFault) :
    ∃ gone' old' new', s.events = gone' ++ old' ++ new' ∧
      (s.files.rotate EVENTS_MAX_BYTES fault).1.backupData.map Prod.fst = jsonlText old' ∧
      (s.files.rotate EVENTS_MAX_BYTES fault).1.currentData.map Prod.fst = jsonlText new' := by
  unfold RotatingLog.rotate
  split
  · exact ⟨gone, old, new, h.events, h.backup, h.current⟩
  next f hcurrent =>
    have hdata : f.data.map Prod.fst = jsonlText new := by
      simpa [RotatingLog.currentData, hcurrent] using h.current
    split
    · exact ⟨gone, old, new, h.events, h.backup, h.current⟩
    · split
      · refine ⟨gone ++ old, [], new, by simp [h.events], rfl, ?_⟩
        simpa [RotatingLog.currentData, hcurrent] using hdata
      · exact ⟨gone ++ old, new, [], by simp [h.events], by simpa [RotatingLog.backupData] using hdata, rfl⟩

theorem appendEvent (h : Holds s gone old new) {e : Record} {a : Append} (ha : Writes s (e, a)) :
    ∃ gone' old' new', Holds (s.appendEvent e a) gone' old' new' := by
  obtain ⟨hlocked, hraises, hwhole⟩ : a.locked = true ∧ a.raises = false ∧ (lineOf e).length ≤ a.written := ha
  obtain ⟨gone', old', new', hevents, hbackup, hcurrent⟩ := h.rotate a.rotation
  have hfiles : (s.appendEvent e a).files =
      (s.files.rotate EVENTS_MAX_BYTES a.rotation).1.append 0 (lineOf e) := by
    simp only [State.appendEvent, hlocked, hraises, if_true, Bool.false_eq_true, if_false]
    rw [List.take_of_length_le hwhole]
  have htimes : ∀ x ∈ (s.files.rotate EVENTS_MAX_BYTES a.rotation).1.log, x.2 ≤ 0 := by
    rw [RotatingLog.log_rotate]
    exact h.times
  refine ⟨gone', old', new' ++ [e], ?_, ?_, ?_, by simp, ?_, ?_, ?_⟩
  · rw [State.appendEvent, hevents]
    simp
  · rw [hfiles]
    exact hbackup
  · rw [hfiles, RotatingLog.currentData_append, List.map_append, hcurrent, jsonlText_concat]
    simp [Function.comp_def]
  · have hlog := h.log
    rw [hfiles, RotatingLog.log_append, RotatingLog.log_rotate, List.map_append, hlog]
    rw [show (s.appendEvent e a).events = s.events ++ [e] from rfl, jsonlText_concat]
    simp [Function.comp_def]
  · rw [hfiles]
    exact (h.retains.rotate a.rotation).append 0 htimes (lineOf e)
  · rw [hfiles, RotatingLog.log_append]
    intro x hx
    rcases List.mem_append.1 hx with hx | hx
    · exact htimes x hx
    · obtain ⟨c, -, rfl⟩ := List.mem_map.1 hx
      exact le_rfl

/-- What is in neither file has ten megabytes after it. -/
theorem far (h : Holds s gone old new) (hgone : gone ≠ []) :
    EVENTS_MAX_BYTES ≤ (jsonlText old).length + (jsonlText new).length := by
  have htext : s.files.text.length = (jsonlText old).length + (jsonlText new).length := by
    rw [RotatingLog.text, List.length_append, ← h.backup, ← h.current, List.length_map, List.length_map]
  obtain ⟨lost, hlost⟩ := h.retains.suffix
  have hne : lost ≠ [] := by
    rintro rfl
    have hlength := congrArg List.length hlost
    have hlog := congrArg List.length h.log
    obtain ⟨e, gone, rfl⟩ := List.exists_cons_of_ne_nil hgone
    rw [h.events, jsonlText_append, jsonlText_append] at hlog
    simp [jsonlText] at hlength hlog htext
    omega
  obtain ⟨pre, x, rfl⟩ := List.eq_nil_or_concat lost |>.resolve_left hne
  rcases h.retains.gone pre x s.files.text (by rw [← hlost]; simp) le_rfl with hfar | hold
  · exact htext ▸ hfar
  · exact hold.elim

theorem getRecentEvents (h : Holds s gone old new) {limit : Nat} (hlimit : 1 ≤ limit) :
    s.getRecentEvents limit = (lastN limit new).map Record.value := by
  unfold State.getRecentEvents
  split
  next hcurrent =>
    have hnew : jsonlText new = [] := by simpa [RotatingLog.currentData, hcurrent] using h.current.symm
    cases new with
    | nil => rw [lastN_nil]; rfl
    | cons e new => simp [jsonlText] at hnew
  next f hcurrent =>
    have hdata : f.data.map Prod.fst = jsonlText new := by simpa [RotatingLog.currentData, hcurrent] using h.current
    rw [hdata, ← text_jsonlFile]
    change (StateIo.loadJsonlFile (some (jsonlFile new).data) limit).getD [] = _
    rw [loadJsonlFile_jsonlFile new hlimit]
    rfl

end Holds

/-- Over any run of `append_event` in which the first attempt writes the whole line, wherever the rotations stop: the two
files hold the last events, one a line and in order, and ten megabytes of them at least if any is missing;
`get_recent_events` returns the last ones of the file, and the latest event in any case. -/
theorem recent_events {s : State} (h : Lts.Reach step Writes {} s) :
    ∃ gone old new, s.events = gone ++ old ++ new ∧ (s.events ≠ [] → new ≠ []) ∧
      s.files.text.map Prod.fst = jsonlText (old ++ new) ∧
      (gone ≠ [] → EVENTS_MAX_BYTES ≤ (jsonlText (old ++ new)).length) ∧
      ∀ limit, 1 ≤ limit → s.getRecentEvents limit = (lastN limit new).map Record.value := by
  obtain ⟨gone, old, new, hinv⟩ := h.invariant (I := fun s => ∃ gone old new, Holds s gone old new) ⟨[], [], [], .start⟩
    fun s a s' hinv ha hs => by
      obtain ⟨gone, old, new, hinv⟩ := hinv
      cases hs
      exact hinv.appendEvent ha
  refine ⟨gone, old, new, hinv.events, hinv.nonempty, ?_, fun hgone => ?_, fun limit => hinv.getRecentEvents⟩
  · rw [RotatingLog.text, List.map_append, hinv.backup, hinv.current, jsonlText_append]
  · rw [jsonlText_append, List.length_append]
    exact hinv.far hgone

def sampleEvents : List (Record × Append) :=
  [(⟨sampleMembers, sampleMembers_dumpable⟩, { written := 100 }), (⟨[], trivial⟩, { written := 3, rotation := .stat })]

theorem recent_events_sampleEvents : ∃ s, Lts.Reach step Writes {} s ∧ s.events.length = 2 ∧
    ∃ old new, s.events = [] ++ old ++ new ∧ new ≠ [] ∧ s.files.text.map Prod.fst = jsonlText (old ++ new) := by
  obtain ⟨s, hreach, hp⟩ := Lts.exists_reach step Writes {} sampleEvents
    (fun s => decide (s.events.length = 2 ∧ s.files.text.length < EVENTS_MAX_BYTES)) (by decide +kernel)
  obtain ⟨hlen, hsmall⟩ := of_decide_eq_true hp
  obtain ⟨gone, old, new, hevents, hnew, htext, hfar, -⟩ := recent_events hreach
  have hgone : gone = [] := by
    by_contra hne
    have hlong := hfar hne
    rw [← htext, List.length_map] at hlong
    omega
  subst hgone
  refine ⟨s, hreach, hlen, old, new, hevents, hnew ?_, htext⟩
  intro hnil
  simp [hnil] at hlen

end PearlAlgo.EventLog
