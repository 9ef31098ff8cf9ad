import PearlAlgo.Tradovate.FillsToTrades

/-!
# The fills file (`adapter.py`, `state_builder.py`, `tradovate_helpers.py`, `performance_tracker.py`)

`tradovate_fills.json` has two writers. `StateBuilder.build_state` merges the fills of a REST poll into the one
JSON list that the file holds; `_handle_ws_event` appends the record of a fill as a line of its own. The readers
parse the file as one list. `fills_read_back` says when they find what was written. The writers run on the event
loop without an `await`, so each is one step; failing file operations are left out.
-/

namespace PearlAlgo
open Py

inductive FillDoc
  | list (fills : List Fill)
  | record (fill : Fill)

/-- `json.loads` of the text of the file, which has to be one value. -/
def loads : List FillDoc → Except Err FillDoc
  | [doc] => .ok doc
  | _ => .error .value

/-- The fills file, and `tradovate_fills` in `state.json`. -/
structure FillStore where
  file : Option (List FillDoc) := none
  stateFills : Option (List Fill) := none

/-- The body of the merge loop; the ids of the list are the set `existing_ids`. -/
def mergeFill (existing : List Fill) (nf : Fill) : List Fill :=
  if nf.id.getD 0 ≠ 0 ∧ nf.id ∉ existing.map Fill.id then existing ++ [nf] else existing

/-- `fill_record` of a `fill` entity. -/
def fillRecord (entity : Fill) : Except Err Fill := do
  let fillQty ← (entity.qty.getD (.ofInt 0)).float
  return { id := entity.id, timestamp := entity.timestamp, action := entity.action, qty := some (.ofFloat fillQty),
           price := some (entity.price.getD (.ofFloat 0)) }

def normalizeFill (f : Fill) : Fill :=
  { id := f.id, timestamp := f.timestamp, action := f.action, qty := some (f.qty.getD (.ofInt 0)),
    price := some (f.price.getD (.ofFloat 0)) }

namespace FillStore

/-- `existing_fills`. A record is a dictionary, and going through its keys for their ids raises. -/
def existingFills (s : FillStore) : Except Err (List Fill) :=
  match s.file with
  | none => .ok []
  | some docs =>
    match loads docs with
    | .ok (.list fills) => .ok fills
    | .ok (.record _) => .error .attribute
    | .error e => .error e

/-- The fills in `build_state`, and `save_state`. -/
def buildState (newFills : List Fill) (s : FillStore) : FillStore :=
  match s.existingFills with
  | .ok existing =>
    let merged := newFills.foldl mergeFill existing
    { file := some [.list merged], stateFills := some merged }
  | .error _ => { s with stateFills := some newFills }

/-- `build_state` before the account was polled, and `save_state`. -/
def buildStateWithoutAccount (s : FillStore) : FillStore := { s with stateFills := none }

/-- The fill branch of `_handle_ws_event`; `target` says that there is a file to write to. -/
def handleWsFill (target : Bool) (entity : Fill) (s : FillStore) : FillStore :=
  match fillRecord entity with
  | .ok record => if target then { s with file := some (s.file.getD [] ++ [.record record]) } else s
  | .error _ => s

/-- The fills of `get_tradovate_state`. Its last line, which normalizes what was read, is not in a `try`. -/
def getTradovateState (s : FillStore) : Except Err (List Fill) :=
  match s.stateFills.getD [], s.file.map loads with
  | f :: fills, _ => .ok ((f :: fills).map normalizeFill)
  | [], some (.ok (.list fills)) => .ok (fills.map normalizeFill)
  | [], some (.ok (.record _)) => .error .attribute
  | [], some (.error _) | [], none => .ok []

/-- The fills that `_match_fill_to_signal` goes through; `none` when it gives up with an exception. -/
def scannedFills (s : FillStore) : Option (List Fill) :=
  match s.file.map loads with
  | none => some []
  | some (.ok (.list fills)) => some fills
  | some _ => none

/-- `_match_fill_to_signal`, where `isCandidate` compares a fill with the signal. -/
def matchFillToSignal (isCandidate : Fill → Bool) (s : FillStore) : Option Fill :=
  match s.scannedFills with
  | some fills => (fills.filter isCandidate).head?
  | none => none

end FillStore

/-! ### Runs -/

inductive FillAct
  | wsFill (target : Bool) (entity : Fill)
  | build (newFills : List Fill)
  | buildWithoutAccount

def FillAct.apply (s : FillStore) : FillAct → FillStore
  | .wsFill target entity => s.handleWsFill target entity
  | .build newFills => s.buildState newFills
  | .buildWithoutAccount => s.buildStateWithoutAccount

def runFills (acts : List FillAct) : FillStore := acts.foldl FillAct.apply {}

def FillAct.appends : FillAct → Bool
  | .wsFill target entity => target && (fillRecord entity).isOk
  | _ => false

def FillAct.ids : FillAct → List Ident
  | .wsFill target entity => if target && (fillRecord entity).isOk then [entity.id] else []
  | .build newFills => newFills.map Fill.id
  | .buildWithoutAccount => []

/-- Every one of the ids stands in the fills once, and no other does; zero is no id. -/
def EachOnce (ids : List Ident) (fills : List Fill) : Prop :=
  ∀ n : Int, n ≠ 0 → (fills.map Fill.id).count (some n) = if some n ∈ ids then 1 else 0

/-- Both readers find the fills, and so does the next merge. -/
structure ReadBack (ids : List Ident) (s : FillStore) : Prop where
  state : ∃ fills, s.getTradovateState = .ok fills ∧ EachOnce ids fills
  scanned : ∃ fills, s.scannedFills = some fills ∧ EachOnce ids fills
  merge : ∃ fills, s.existingFills = .ok fills

/-! ### A file that is one list -/

/-- The file is the list `l`, or there is none yet, and `state.json` has the same fills or none. -/
structure IsList (s : FillStore) (l : List Fill) : Prop where
  file : s.file = some [.list l] ∨ s.file = none ∧ l = []
  stateFills : s.stateFills = some l ∨ s.stateFills = none

variable {s : FillStore} {l : List Fill} {ids : List Ident}

theorem IsList.existingFills (h : IsList s l) : s.existingFills = .ok l := by
  unfold FillStore.existingFills
  rcases h.file with hfile | ⟨hfile, rfl⟩
  · rw [hfile]
    rfl
  · rw [hfile]

theorem IsList.scannedFills (h : IsList s l) : s.scannedFills = some l := by
  unfold FillStore.scannedFills
  rcases h.file with hfile | ⟨hfile, rfl⟩
  · rw [hfile]
    rfl
  · rw [hfile]
    rfl

theorem IsList.getTradovateState (h : IsList s l) : s.getTradovateState = .ok (l.map normalizeFill) := by
  unfold FillStore.getTradovateState
  rcases h.file with hfile | ⟨hfile, rfl⟩ <;> rcases h.stateFills with hstate | hstate
  all_goals rw [hfile, hstate]
  · cases l with
    | nil => rfl
    | cons f l => rfl
  all_goals rfl

theorem eachOnce_normalize : EachOnce ids (l.map normalizeFill) ↔ EachOnce ids l := by
  unfold EachOnce
  rw [List.map_map]
  rfl

theorem IsList.readBack (h : IsList s l) (hl : EachOnce ids l) : ReadBack ids s :=
  ⟨⟨_, h.getTradovateState, eachOnce_normalize.2 hl⟩, ⟨_, h.scannedFills, hl⟩, ⟨_, h.existingFills⟩⟩

theorem EachOnce.mergeOne (h : EachOnce ids l) (nf : Fill) : EachOnce (ids ++ [nf.id]) (mergeFill l nf) := by
  intro n hn
  have hold := h n hn
  have hmem : some n ∈ l.map Fill.id ↔ some n ∈ ids := by
    rw [← List.count_pos_iff, hold]
    split <;> simp [*]
  unfold mergeFill
  split
  next hnew =>
    rw [List.map_append, List.count_append, hold]
    by_cases hid : nf.id = some n
    · have hids : some n ∉ ids := by
        rw [← hmem, ← hid]
        exact hnew.2
      simp [hid, hids]
    · have hne : some n ≠ nf.id := fun he => hid he.symm
      simp [hid, hne]
  next hold' =>
    rw [hold]
    by_cases hid : nf.id = some n
    · have hids : some n ∈ ids := by
        by_contra hids
        refine hold' ⟨by simp [hid, hn], ?_⟩
        rw [hid, hmem]
        exact hids
      simp [hids]
    · have hne : some n ≠ nf.id := fun he => hid he.symm
      simp [hne]

theorem EachOnce.merge (h : EachOnce ids l) (newFills : List Fill) :
    EachOnce (ids ++ newFills.map Fill.id) (newFills.foldl mergeFill l) := by
  induction newFills generalizing ids l with
  | nil => simpa using h
  | cons nf newFills ih => simpa using ih (h.mergeOne nf)

theorem IsList.apply (h : IsList s l) (hl : EachOnce ids l) {a : FillAct} (ha : a.appends = false) :
    ∃ l', IsList (a.apply s) l' ∧ EachOnce (ids ++ a.ids) l' := by
  cases a with
  | wsFill target entity =>
    have hsame : FillAct.apply s (.wsFill target entity) = s := by
      simp only [FillAct.apply, FillStore.handleWsFill]
      simp only [FillAct.appends] at ha
      cases hr : fillRecord entity with
      | error e => rfl
      | ok record =>
        have htarget : target = false := by simpa [hr, Except.isOk, Except.toBool] using ha
        simp [htarget]
    have hids : (FillAct.wsFill target entity).ids = [] := by
      simp only [FillAct.ids]
      exact if_neg (by simpa [FillAct.appends] using ha)
    rw [hsame, hids, List.append_nil]
    exact ⟨l, h, hl⟩
  | build newFills =>
    refine ⟨newFills.foldl mergeFill l, ?_, hl.merge newFills⟩
    simp only [FillAct.apply, FillStore.buildState, h.existingFills]
    exact ⟨.inl rfl, .inl rfl⟩
  | buildWithoutAccount => exact ⟨l, ⟨h.file, .inr rfl⟩, by simpa [FillAct.ids] using hl⟩

/-! ### A file with a record of its own -/

/-- A record stands in the file beside the list. -/
def Mixed (s : FillStore) : Prop := ∃ docs, s.file = some docs ∧ ∃ record, FillDoc.record record ∈ docs

theorem loads_ne_list {docs : List FillDoc} (h : ∃ record, FillDoc.record record ∈ docs) (fills : List Fill) :
    loads docs ≠ .ok (.list fills) := by
  intro hloads
  obtain ⟨record, hrecord⟩ := h
  cases docs with
  | nil => simp at hrecord
  | cons doc rest =>
    cases rest with
    | nil =>
      have hdoc : doc = .list fills := Except.ok.inj hloads
      simp [hdoc] at hrecord
    | cons doc' rest =>
      have herror : loads (doc :: doc' :: rest) = .error .value := rfl
      rw [herror] at hloads
      cases hloads

theorem Mixed.existingFills (h : Mixed s) (fills : List Fill) : s.existingFills ≠ .ok fills := by
  obtain ⟨docs, hfile, hdocs⟩ := h
  have hloads := loads_ne_list hdocs
  unfold FillStore.existingFills
  rw [hfile]
  dsimp only
  intro heq
  split at heq
  next hl => exact hloads _ hl
  all_goals cases heq

theorem Mixed.apply (h : Mixed s) (a : FillAct) : Mixed (a.apply s) := by
  have hfails := h.existingFills
  obtain ⟨docs, hfile, record, hrecord⟩ := h
  cases a with
  | wsFill target entity =>
    simp only [FillAct.apply, FillStore.handleWsFill]
    split
    · split
      · exact ⟨_, rfl, record, by simp [hfile, hrecord]⟩
      · exact ⟨docs, hfile, record, hrecord⟩
    · exact ⟨docs, hfile, record, hrecord⟩
  | build newFills =>
    simp only [FillAct.apply, FillStore.buildState]
    split
    next existing hok => exact absurd hok (hfails existing)
    · exact ⟨docs, hfile, record, hrecord⟩
  | buildWithoutAccount => exact ⟨docs, hfile, record, hrecord⟩

theorem Mixed.of_appends (s : FillStore) {a : FillAct} (ha : a.appends = true) : Mixed (a.apply s) := by
  cases a with
  | wsFill target entity =>
    simp only [FillAct.appends, Bool.and_eq_true] at ha
    obtain ⟨htarget, hok⟩ := ha
    simp only [FillAct.apply, FillStore.handleWsFill]
    cases hr : fillRecord entity with
    | error e =>
      rw [hr] at hok
      cases hok
    | ok record =>
      dsimp only
      rw [if_pos htarget]
      exact ⟨_, rfl, record, by simp⟩
  | build newFills => cases ha
  | buildWithoutAccount => cases ha

theorem Mixed.foldl (h : Mixed s) (acts : List FillAct) : Mixed (acts.foldl FillAct.apply s) := by
  induction acts generalizing s with
  | nil => exact h
  | cons a acts ih => exact ih (h.apply a)

theorem foldl_readBack (acts : List FillAct) (h : IsList s l) (hl : EachOnce ids l) :
    ReadBack (ids ++ acts.flatMap FillAct.ids) (acts.foldl FillAct.apply s) ↔ ∀ a ∈ acts, a.appends = false := by
  induction acts generalizing s l ids with
  | nil => simpa using h.readBack hl
  | cons a acts ih =>
    cases ha : a.appends with
    | true =>
      have hmixed : Mixed ((a :: acts).foldl FillAct.apply s) := (Mixed.of_appends s ha).foldl acts
      constructor
      · intro hread
        obtain ⟨fills, hfills⟩ := hread.merge
        exact absurd hfills (hmixed.existingFills fills)
      · intro hall
        exact absurd (ha.symm.trans (hall a List.mem_cons_self)) Bool.noConfusion
    | false =>
      obtain ⟨l', h', hl'⟩ := h.apply hl ha
      have ih := ih h' hl'
      rw [List.append_assoc] at ih
      simpa [ha] using ih

/-- The readers and the next merge find every fill of the run once, if and only if no fill of the WebSocket was
written. -/
theorem fills_read_back (acts : List FillAct) :
    ReadBack (acts.flatMap FillAct.ids) (runFills acts) ↔ ∀ a ∈ acts, a.appends = false := by
  have hempty : EachOnce [] [] := fun n hn => by simp
  have h := foldl_readBack acts (s := {}) ⟨.inr ⟨rfl, rfl⟩, .inr rfl⟩ hempty
  rwa [List.nil_append] at h

/-- A poll, a fill of the WebSocket, and the next poll. -/
def mixedRun : List FillAct :=
  [.build [{ id := some 1 }], .wsFill true { id := some 2 }, .build [{ id := some 1 }, { id := some 2 }]]

theorem fills_not_read_back : ¬ ∀ acts, ReadBack (acts.flatMap FillAct.ids) (runFills acts) := by
  intro h
  obtain ⟨fills, hfills⟩ := (h mixedRun).merge
  have hfails : (runFills mixedRun).existingFills = .error .value := by rfl
  rw [hfails] at hfills
  cases hfills

end PearlAlgo
