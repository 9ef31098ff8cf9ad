import Mathlib.Data.List.Infix
import Mathlib.Logic.Function.Basic
import PearlAlgo.Fs.Disk
import PearlAlgo.Lts.Reach

/-!
# A file that processes change under a lock

Each change takes the lock, reads the file, writes what it is to hold to a new file in pieces, syncs that, and gives it the
file's name. Readers take no lock. Any operation can fail, a process can be killed at any point, which frees its lock, and
the power can fail.

The file is then an atomic register: it always holds the changes whose renames happened, one after the other, a reader gets
what the file held when it opened it, and a change that returned is lost to a power failure only.
-/

namespace Fs

/-- How the values of a file are written and what a change makes of them; `default` is what a file that does not exist, or
cannot be read, counts as. -/
structure Register (α β U : Type) where
  encode : β → List α
  decode : List α → Option β
  default : β
  apply : β → U → β
  Valid : β → Prop
  decode_encode (b : β) : Valid b → decode (encode b) = some b
  valid_default : Valid default
  valid_apply (b : β) (u : U) : Valid b → Valid (apply b u)

namespace Register

variable {α β U : Type} (reg : Register α β U)

/-- What a read of the inode gives. -/
def readInode (d : Disk α) (ino : Nat) : β := ((d.inodes[ino]?).bind fun i => reg.decode i.data).getD reg.default

def readFile (d : Disk α) : β := (d.entry.map (reg.readInode d)).getD reg.default

/-- The value after these changes. -/
def value (b₀ : β) (us : List U) : β := us.foldl reg.apply b₀

/-- What the name leads to has this value. -/
def FileHolds (d : Disk α) (entry : Option Nat) (b : β) : Prop :=
  match entry with
  | none => b = reg.default
  | some ino => d.Holds ino (reg.encode b)

variable {reg} {d d' : Disk α} {b : β}

theorem valid_value {b₀ : β} (h : reg.Valid b₀) (us : List U) : reg.Valid (reg.value b₀ us) := by
  induction us generalizing b₀ with
  | nil => exact h
  | cons u us ih => exact ih (reg.valid_apply _ u h)

theorem value_concat (b₀ : β) (us : List U) (u : U) : reg.value b₀ (us ++ [u]) = reg.apply (reg.value b₀ us) u :=
  List.foldl_concat ..

theorem readInode_of_holds {ino : Nat} (hb : reg.Valid b) (h : d.Holds ino (reg.encode b)) : reg.readInode d ino = b := by
  rw [readInode, h, Option.bind_some, reg.decode_encode b hb, Option.getD_some]

theorem readFile_of_fileHolds (hb : reg.Valid b) (h : reg.FileHolds d d.entry b) : reg.readFile d = b := by
  unfold readFile
  rcases hentry : d.entry with _ | ino
  · rw [hentry] at h
    exact h.symm
  · rw [hentry] at h
    exact readInode_of_holds hb h

theorem FileHolds.keeps {entry : Option Nat} (h : reg.FileHolds d entry b) (hk : d.Keeps d') :
    reg.FileHolds d' entry b := by
  rcases entry with _ | ino
  · exact h
  · exact hk ino _ h

end Register

namespace LockedUpdate

variable {α β U : Type}

/-- Where a process stands; a reader has opened the inode, when the file held the value. -/
inductive Stage (α β U : Type)
  | idle
  | waiting (u : U)
  | locked (u : U)
  | loaded (u : U) (b : β)
  | writing (u : U) (b : β) (ino : Nat) (rest : List α)
  | flushed (u : U) (b : β) (ino : Nat)
  | replaced (u : U)
  | failed
  | opened (ino : Nat) (held : β)

/-- No process reads what stands below `lock`. -/
structure State (α β U : Type) where
  disk : Disk α
  stages : Nat → Stage α β U := fun _ => .idle
  lock : Option Nat := none
  commits : List U := []  -- the changes whose renames happened
  storedCommits : List U := []  -- those of the name on the disk
  returned : List U := []  -- the changes that returned since the last power failure
  observed : List (β × β) := []  -- what each reader got, and what the file held when it was opened

inductive Act (α U : Type)
  | call (p : Nat) (u : U)
  | acquire (p : Nat)
  | load (p : Nat)
  | create (p : Nat)
  | write (p : Nat) (n : Nat)
  | fsync (p : Nat)
  | replace (p : Nat)
  | release (p : Nat)
  | fail (p : Nat)
  | kill (p : Nat)
  | openFile (p : Nat)
  | read (p : Nat)
  | writeBack
  | powerFailure (garbage : Nat → List α)

/-- The process is between taking the lock and giving it back. -/
def Stage.InSection : Stage α β U → Prop
  | .locked _ | .loaded _ _ | .writing _ _ _ _ | .flushed _ _ _ | .replaced _ | .failed => True
  | .idle | .waiting _ | .opened _ _ => False

def State.enter (s : State α β U) (p : Nat) (x : Stage α β U) : State α β U :=
  { s with stages := Function.update s.stages p x }

variable (reg : Register α β U) (b₀ : β)

/-- One step; `b₀` is what the file holds at the start. -/
def step (s : State α β U) : Act α U → Option (State α β U)
  | .call p u =>
    match s.stages p with
    | .idle => some (s.enter p (.waiting u))
    | _ => none
  | .acquire p =>
    match s.stages p, s.lock with
    | .waiting u, none => some { s.enter p (.locked u) with lock := some p }
    | _, _ => none
  | .load p =>
    match s.stages p with
    | .locked u => some (s.enter p (.loaded u (reg.readFile s.disk)))
    | _ => none
  | .create p =>
    match s.stages p with
    | .loaded u b =>
      some { s.enter p (.writing u b s.disk.create.1 (reg.encode (reg.apply b u))) with disk := s.disk.create.2 }
    | _ => none
  | .write p n =>
    match s.stages p with
    | .writing u b ino rest =>
      some { s.enter p (.writing u b ino (rest.drop n)) with disk := s.disk.write ino (rest.take n) }
    | _ => none
  | .fsync p =>
    match s.stages p with
    | .writing u b ino [] => some { s.enter p (.flushed u b ino) with disk := s.disk.fsync ino }
    | _ => none
  | .replace p =>
    match s.stages p with
    | .flushed u _ ino => some { s.enter p (.replaced u) with disk := s.disk.replace ino, commits := s.commits ++ [u] }
    | _ => none
  | .release p =>
    match s.stages p with
    | .replaced u => some { s.enter p .idle with lock := none, returned := s.returned ++ [u] }
    | .failed => some { s.enter p .idle with lock := none }
    | _ => none
  | .fail p =>
    match s.stages p with
    | .locked _ | .loaded _ _ | .writing _ _ _ _ | .flushed _ _ _ => some (s.enter p .failed)
    | .waiting _ | .opened _ _ => some (s.enter p .idle)
    | _ => none
  | .kill p => some { s.enter p .idle with lock := if s.lock = some p then none else s.lock }
  | .openFile p =>
    match s.stages p, s.disk.entry with
    | .idle, some ino => some (s.enter p (.opened ino (reg.value b₀ s.commits)))
    | .idle, none => some { s with observed := s.observed ++ [(reg.default, reg.value b₀ s.commits)] }
    | _, _ => none
  | .read p =>
    match s.stages p with
    | .opened ino held => some { s.enter p .idle with observed := s.observed ++ [(reg.readInode s.disk ino, held)] }
    | _ => none
  | .writeBack => some { s with disk := s.disk.writeBack, storedCommits := s.commits }
  | .powerFailure garbage =>
    some { s with
      disk := s.disk.powerFailure garbage
      stages := fun _ => .idle
      lock := none
      commits := s.storedCommits
      returned := [] }

/-! ### The invariant -/

/-- What holds of a process that stands there. -/
def StageOk (s : State α β U) : Stage α β U → Prop
  | .loaded _ b => b = reg.value b₀ s.commits
  | .writing u b ino rest =>
    b = reg.value b₀ s.commits ∧
      ∃ data, s.disk.inodes[ino]? = some { data, synced := false } ∧ data ++ rest = reg.encode (reg.apply b u)
  | .flushed u b ino => b = reg.value b₀ s.commits ∧ s.disk.Holds ino (reg.encode (reg.apply b u))
  | .replaced u => (s.returned ++ [u]).Sublist s.commits
  | .opened ino held => reg.Valid held ∧ s.disk.Holds ino (reg.encode held)
  | .idle | .waiting _ | .locked _ | .failed => True

structure Inv (s : State α β U) : Prop where
  file : reg.FileHolds s.disk s.disk.entry (reg.value b₀ s.commits)
  stored : reg.FileHolds s.disk s.disk.stored (reg.value b₀ s.storedCommits)
  storedCommits_first : s.storedCommits <+: s.commits
  returned : s.returned.Sublist s.commits
  observed : ∀ r ∈ s.observed, r.1 = r.2
  section_lock : ∀ p, (s.stages p).InSection ↔ s.lock = some p
  stages : ∀ p, StageOk reg b₀ s (s.stages p)

section
variable {reg b₀} {s s' : State α β U} {p : Nat} {x : Stage α β U}

theorem inv_start {d : Disk α} (hfile : reg.FileHolds d d.entry b₀) (hstored : d.stored = d.entry) :
    Inv reg b₀ { disk := d } where
  file := hfile
  stored := by
    change reg.FileHolds d d.stored b₀
    rw [hstored]
    exact hfile
  storedCommits_first := List.prefix_refl _
  returned := List.Sublist.refl _
  observed := by simp
  section_lock p := by simp [Stage.InSection]
  stages p := trivial

/-- Who is not in the section depends on nothing that a change does. -/
theorem StageOk.outside (h : StageOk reg b₀ s x) (hx : ¬ x.InSection) (hk : s.disk.Keeps s'.disk) :
    StageOk reg b₀ s' x := by
  cases x with
  | opened ino held => exact ⟨h.1, hk ino _ h.2⟩
  | idle | waiting => trivial
  | locked | loaded | writing | flushed | replaced | failed => exact absurd trivial hx

theorem StageOk.congr (h : StageOk reg b₀ s x) (hdisk : s'.disk = s.disk) (hcommits : s'.commits = s.commits)
    (hreturned : s'.returned = s.returned) : StageOk reg b₀ s' x := by
  cases x <;> simp only [StageOk, hdisk, hcommits, hreturned] at h ⊢ <;> exact h

theorem Inv.outside_of_ne (h : Inv reg b₀ s) (hp : (s.stages p).InSection) {q : Nat} (hne : q ≠ p) :
    ¬ (s.stages q).InSection := by
  rw [h.section_lock q, (h.section_lock p).1 hp]
  simp [Ne.symm hne]

/-- A process goes on, on the side of the lock on which it is. -/
theorem Inv.enter (h : Inv reg b₀ s) (hside : x.InSection ↔ (s.stages p).InSection) (hx : StageOk reg b₀ s x) :
    Inv reg b₀ (s.enter p x) where
  file := h.file
  stored := h.stored
  storedCommits_first := h.storedCommits_first
  returned := h.returned
  observed := h.observed
  section_lock q := by
    change (Function.update s.stages p x q).InSection ↔ s.lock = some q
    rw [Function.update_apply]
    split
    next hq => rw [hside, hq, h.section_lock p]
    next => exact h.section_lock q
  stages q := by
    change StageOk reg b₀ (s.enter p x) (Function.update s.stages p x q)
    rw [Function.update_apply]
    split
    · exact hx.congr rfl rfl rfl
    · exact (h.stages q).congr rfl rfl rfl

/-- The process in the section works on its own file. -/
theorem Inv.enter_disk {d : Disk α} (h : Inv reg b₀ s) (hp : (s.stages p).InSection) (hsection : x.InSection)
    (hentry : d.entry = s.disk.entry) (hstored : d.stored = s.disk.stored) (hk : s.disk.Keeps d)
    (hx : StageOk reg b₀ { s with disk := d } x) : Inv reg b₀ { s.enter p x with disk := d } where
  file := by
    change reg.FileHolds d d.entry _
    rw [hentry]
    exact h.file.keeps hk
  stored := by
    change reg.FileHolds d d.stored _
    rw [hstored]
    exact h.stored.keeps hk
  storedCommits_first := h.storedCommits_first
  returned := h.returned
  observed := h.observed
  section_lock q := by
    change (Function.update s.stages p x q).InSection ↔ s.lock = some q
    rw [Function.update_apply]
    split
    next hq => simp [hsection, hq, (h.section_lock p).1 hp]
    next => exact h.section_lock q
  stages q := by
    change StageOk reg b₀ _ (Function.update s.stages p x q)
    rw [Function.update_apply]
    split
    · exact hx.congr rfl rfl rfl
    next hq => exact (h.stages q).outside (h.outside_of_ne hp hq) hk

theorem Inv.acquire (h : Inv reg b₀ s) {u : U} (hlock : s.lock = none) :
    Inv reg b₀ { s.enter p (.locked u) with lock := some p } where
  file := h.file
  stored := h.stored
  storedCommits_first := h.storedCommits_first
  returned := h.returned
  observed := h.observed
  section_lock q := by
    change (Function.update s.stages p (.locked u) q).InSection ↔ some p = some q
    rw [Function.update_apply]
    split
    next hq => simp [hq, Stage.InSection]
    next hq => simp [h.section_lock q, hlock, Ne.symm hq]
  stages q := by
    change StageOk reg b₀ _ (Function.update s.stages p (.locked u) q)
    rw [Function.update_apply]
    split
    · trivial
    · exact (h.stages q).congr rfl rfl rfl

theorem Inv.replace (h : Inv reg b₀ s) {u : U} {b : β} {ino : Nat} (hp : s.stages p = .flushed u b ino) :
    Inv reg b₀ { s.enter p (.replaced u) with disk := s.disk.replace ino, commits := s.commits ++ [u] } := by
  have hsection : (s.stages p).InSection := by
    rw [hp]
    trivial
  have hok := h.stages p
  rw [hp] at hok
  refine ⟨?_, h.stored, h.storedCommits_first.trans (List.prefix_append _ _),
    h.returned.trans (List.sublist_append_left _ _), h.observed, fun q => ?_, fun q => ?_⟩
  · change s.disk.Holds ino (reg.encode (reg.value b₀ (s.commits ++ [u])))
    rw [Register.value_concat, ← hok.1]
    exact hok.2
  · change (Function.update s.stages p (.replaced u) q).InSection ↔ s.lock = some q
    rw [Function.update_apply]
    split
    next hq => simp [Stage.InSection, hq, (h.section_lock p).1 hsection]
    next => exact h.section_lock q
  · change StageOk reg b₀ _ (Function.update s.stages p (.replaced u) q)
    rw [Function.update_apply]
    split
    · exact h.returned.append (List.Sublist.refl [u])
    next hq => exact (h.stages q).outside (h.outside_of_ne hsection hq) fun _ _ hh => hh

/-- The process leaves the section, or was not in it; what it did may return. -/
theorem Inv.leave (h : Inv reg b₀ s) {lock : Option Nat} {returned : List U}
    (hlock : ∀ q, q ≠ p → (lock = some q ↔ s.lock = some q)) (hfree : lock ≠ some p) (hreturned : returned.Sublist s.commits)
    (hsame : returned = s.returned ∨ (s.stages p).InSection) :
    Inv reg b₀ { s.enter p .idle with lock, returned } where
  file := h.file
  stored := h.stored
  storedCommits_first := h.storedCommits_first
  returned := hreturned
  observed := h.observed
  section_lock q := by
    change (Function.update s.stages p .idle q).InSection ↔ lock = some q
    rw [Function.update_apply]
    split
    next hq => simp [Stage.InSection, hq, hfree]
    next hq => rw [h.section_lock q, hlock q hq]
  stages q := by
    change StageOk reg b₀ _ (Function.update s.stages p .idle q)
    rw [Function.update_apply]
    split
    · trivial
    next hq =>
      rcases hsame with hsame | hsection
      · exact (h.stages q).congr rfl rfl hsame
      · exact (h.stages q).outside (h.outside_of_ne hsection hq) fun _ _ hh => hh

theorem Inv.observe (h : Inv reg b₀ s) {r : β × β} (hr : r.1 = r.2) :
    Inv reg b₀ { s with observed := s.observed ++ [r] } where
  file := h.file
  stored := h.stored
  storedCommits_first := h.storedCommits_first
  returned := h.returned
  observed r' hr' := by
    rcases List.mem_append.1 hr' with hr' | hr'
    · exact h.observed r' hr'
    · rw [List.mem_singleton.1 hr']
      exact hr
  section_lock := h.section_lock
  stages q := (h.stages q).congr rfl rfl rfl

theorem Inv.writeBack (h : Inv reg b₀ s) : Inv reg b₀ { s with disk := s.disk.writeBack, storedCommits := s.commits } where
  file := h.file
  stored := h.file
  storedCommits_first := List.prefix_refl _
  returned := h.returned
  observed := h.observed
  section_lock := h.section_lock
  stages q := by
    have hok := h.stages q
    revert hok
    cases s.stages q <;> exact fun hok => hok

/-- What the name on the disk leads to was synced before it got the name. -/
theorem Inv.powerFailure (h : Inv reg b₀ s) (garbage : Nat → List α) :
    Inv reg b₀ { s with
      disk := s.disk.powerFailure garbage
      stages := fun _ => .idle
      lock := none
      commits := s.storedCommits
      returned := [] } where
  file := h.stored.keeps (Disk.keeps_powerFailure _ _)
  stored := h.stored.keeps (Disk.keeps_powerFailure _ _)
  storedCommits_first := List.prefix_refl _
  returned := List.nil_sublist _
  observed := h.observed
  section_lock q := by simp [Stage.InSection]
  stages q := trivial

theorem Inv.write (h : Inv reg b₀ s) {u : U} {b : β} {ino : Nat} {rest : List α} (hp : s.stages p = .writing u b ino rest)
    (n : Nat) : Inv reg b₀ { s.enter p (.writing u b ino (rest.drop n)) with disk := s.disk.write ino (rest.take n) } := by
  have hok := h.stages p
  rw [hp] at hok
  obtain ⟨hb, data, hino, hdata⟩ := hok
  refine h.enter_disk ?_ trivial rfl rfl (Disk.keeps_modify hino _)
    ⟨hb, data ++ rest.take n, Disk.getElem?_modify_self hino _, ?_⟩
  · rw [hp]
    trivial
  · rw [List.append_assoc, List.take_append_drop, hdata]

theorem Inv.fsync (h : Inv reg b₀ s) {u : U} {b : β} {ino : Nat} (hp : s.stages p = .writing u b ino []) :
    Inv reg b₀ { s.enter p (.flushed u b ino) with disk := s.disk.fsync ino } := by
  have hok := h.stages p
  rw [hp] at hok
  obtain ⟨hb, data, hino, hdata⟩ := hok
  rw [List.append_nil] at hdata
  refine h.enter_disk ?_ trivial rfl rfl (Disk.keeps_modify hino _) ⟨hb, ?_⟩
  · rw [hp]
    trivial
  · rw [← hdata]
    exact Disk.holds_fsync hino

theorem Inv.readFile_eq (hb₀ : reg.Valid b₀) (h : Inv reg b₀ s) : reg.readFile s.disk = reg.value b₀ s.commits :=
  Register.readFile_of_fileHolds (Register.valid_value hb₀ _) h.file

theorem Inv.kill (h : Inv reg b₀ s) (p : Nat) :
    Inv reg b₀ { s.enter p .idle with lock := if s.lock = some p then none else s.lock } := by
  refine h.leave (fun q hq => ?_) ?_ h.returned (.inl rfl)
  · split
    next hlock => simp [hlock, Ne.symm hq]
    next => rfl
  · split
    · simp
    next hlock => exact hlock

end

/-- Every step keeps the invariant. -/
theorem step_inv {reg : Register α β U} {b₀ : β} {s s' : State α β U} {a : Act α U} (hb₀ : reg.Valid b₀) (h : Inv reg b₀ s)
    (hs : step reg b₀ s a = some s') : Inv reg b₀ s' := by
  cases a with
  | call p u =>
    simp only [step] at hs
    split at hs
    next hp =>
      cases hs
      exact h.enter (by rw [hp]; rfl) trivial
    · cases hs
  | acquire p =>
    simp only [step] at hs
    split at hs
    next hlock =>
      cases hs
      exact h.acquire hlock
    · cases hs
  | load p =>
    simp only [step] at hs
    split at hs
    next hp =>
      cases hs
      exact h.enter (by rw [hp]; rfl) (h.readFile_eq hb₀)
    · cases hs
  | create p =>
    simp only [step] at hs
    split at hs
    next u b hp =>
      cases hs
      have hok := h.stages p
      rw [hp] at hok
      exact h.enter_disk (by rw [hp]; trivial) trivial rfl rfl (Disk.keeps_create _)
        ⟨hok, [], Disk.create_new _, List.nil_append _⟩
    · cases hs
  | write p n =>
    simp only [step] at hs
    split at hs
    next hp =>
      cases hs
      exact h.write hp n
    · cases hs
  | fsync p =>
    simp only [step] at hs
    split at hs
    next hp =>
      cases hs
      exact h.fsync hp
    · cases hs
  | replace p =>
    simp only [step] at hs
    split at hs
    next hp =>
      cases hs
      exact h.replace hp
    · cases hs
  | release p =>
    simp only [step] at hs
    split at hs
    next u hp =>
      cases hs
      have hsection : (s.stages p).InSection := by
        rw [hp]
        trivial
      have hok := h.stages p
      rw [hp] at hok
      refine h.leave (fun q hq => ?_) (by simp) hok (.inr hsection)
      simp [(h.section_lock p).1 hsection, Ne.symm hq]
    next hp =>
      cases hs
      have hsection : (s.stages p).InSection := by
        rw [hp]
        trivial
      refine h.leave (fun q hq => ?_) (by simp) h.returned (.inl rfl)
      simp [(h.section_lock p).1 hsection, Ne.symm hq]
    · cases hs
  | fail p =>
    simp only [step] at hs
    split at hs
    all_goals
      first
      | cases hs
        rename_i hp
        exact h.enter (by rw [hp]; rfl) trivial
      | cases hs
  | kill p =>
    cases hs
    exact h.kill p
  | openFile p =>
    simp only [step] at hs
    split at hs
    next ino hp hentry =>
      cases hs
      refine h.enter (by rw [hp]; rfl) ⟨Register.valid_value hb₀ _, ?_⟩
      have hfile := h.file
      rw [hentry] at hfile
      exact hfile
    next hp hentry =>
      cases hs
      refine h.observe ?_
      have hfile := h.file
      rw [hentry] at hfile
      exact hfile.symm
    · cases hs
  | read p =>
    simp only [step] at hs
    split at hs
    next ino held hp =>
      cases hs
      have hok := h.stages p
      rw [hp] at hok
      exact (h.enter (x := .idle) (by rw [hp]; rfl) trivial).observe (Register.readInode_of_holds hok.1 hok.2)
    · cases hs
  | writeBack =>
    cases hs
    exact h.writeBack
  | powerFailure garbage =>
    cases hs
    exact h.powerFailure garbage

/-- Every run keeps the invariant. -/
theorem reach_inv {reg : Register α β U} {b₀ : β} {d : Disk α} {s : State α β U} (hb₀ : reg.Valid b₀)
    (hfile : reg.FileHolds d d.entry b₀) (hstored : d.stored = d.entry)
    (h : Lts.Reach (step reg b₀) Lts.AnyStep { disk := d } s) : Inv reg b₀ s :=
  h.invariant (inv_start hfile hstored) fun _ _ _ hinv _ hs => step_inv hb₀ hinv hs

end LockedUpdate

end Fs
