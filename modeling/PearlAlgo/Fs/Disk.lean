import Mathlib.Data.List.Basic

/-!
# One directory entry, and what a power failure does to it

A file is an inode, and a name leads to it. What is written to an inode is safe only after `fsync`; the name is safe once
the kernel has written the directory back, which it does when it likes. A power failure leaves of an inode that was not
synced anything, and takes the name back to where it was written back last.
-/

namespace Fs

structure Inode (α : Type) where
  data : List α := []
  synced : Bool := false

/-- `entry` is the inode that the name leads to, and `stored` the one that the directory on the disk has for it. -/
structure Disk (α : Type) where
  inodes : List (Inode α) := []
  entry : Option Nat := none
  stored : Option Nat := none

namespace Disk

variable {α : Type}

/-- A new file, which no name leads to. -/
def create (d : Disk α) : Nat × Disk α := (d.inodes.length, { d with inodes := d.inodes ++ [({} : Inode α)] })

def modify (d : Disk α) (ino : Nat) (f : Inode α → Inode α) : Disk α := { d with inodes := d.inodes.modify ino f }

def write (d : Disk α) (ino : Nat) (piece : List α) : Disk α :=
  d.modify ino fun i => { data := i.data ++ piece, synced := false }

def fsync (d : Disk α) (ino : Nat) : Disk α := d.modify ino fun i => { i with synced := true }

def replace (d : Disk α) (ino : Nat) : Disk α := { d with entry := some ino }

/-- The kernel writes the directory. -/
def writeBack (d : Disk α) : Disk α := { d with stored := d.entry }

/-- A power failure, which leaves `garbage` of the inodes that were not synced. -/
def powerFailure (d : Disk α) (garbage : Nat → List α) : Disk α where
  inodes := d.inodes.mapIdx fun ino i => if i.synced then i else { data := garbage ino, synced := true }
  entry := d.stored
  stored := d.stored

/-- The inode is on the disk with this content. -/
def Holds (d : Disk α) (ino : Nat) (data : List α) : Prop := d.inodes[ino]? = some { data, synced := true }

section
variable {d : Disk α} {ino ino' : Nat} {data piece : List α} {i : Inode α}

theorem Holds.lt (h : d.Holds ino data) : ino < d.inodes.length := (List.getElem?_eq_some_iff.1 h).1

theorem Holds.create (h : d.Holds ino data) : d.create.2.Holds ino data := by
  change (d.inodes ++ [({} : Inode α)])[ino]? = _
  rw [List.getElem?_append_left h.lt]
  exact h

theorem create_new (d : Disk α) : d.create.2.inodes[d.create.1]? = some {} := List.getElem?_concat_length

theorem getElem?_modify_self (h : d.inodes[ino]? = some i) (f : Inode α → Inode α) :
    (d.modify ino f).inodes[ino]? = some (f i) := by
  change (d.inodes.modify ino f)[ino]? = _
  rw [List.getElem?_modify_eq, h]
  rfl

theorem Holds.modify_of_ne (h : d.Holds ino data) (hne : ino' ≠ ino) (f : Inode α → Inode α) :
    (d.modify ino' f).Holds ino data := by
  change (d.inodes.modify ino' f)[ino]? = _
  rw [List.getElem?_modify_ne f d.inodes hne]
  exact h

theorem Holds.powerFailure (h : d.Holds ino data) (garbage : Nat → List α) : (d.powerFailure garbage).Holds ino data := by
  change (d.inodes.mapIdx fun ino i => if i.synced then i else { data := garbage ino, synced := true })[ino]? = _
  rw [List.getElem?_mapIdx, h]
  rfl

theorem holds_fsync (h : d.inodes[ino]? = some i) : (d.fsync ino).Holds ino i.data := getElem?_modify_self h _

end

/-! ### What an operation leaves alone -/

/-- What is on the disk stays there. -/
def Keeps (d d' : Disk α) : Prop := ∀ ino data, d.Holds ino data → d'.Holds ino data

section
variable {d : Disk α} {ino : Nat} {data : List α}

theorem keeps_create (d : Disk α) : Keeps d d.create.2 := fun _ _ h => h.create

/-- An inode that was not synced is none of those that the disk holds. -/
theorem keeps_modify (h : d.inodes[ino]? = some { data, synced := false }) (f : Inode α → Inode α) :
    Keeps d (d.modify ino f) := by
  intro ino' data' h'
  refine h'.modify_of_ne (fun heq => ?_) f
  rw [heq] at h
  have hboth := h.symm.trans h'
  simp at hboth

theorem keeps_powerFailure (d : Disk α) (garbage : Nat → List α) : Keeps d (d.powerFailure garbage) :=
  fun _ _ h => h.powerFailure garbage

end

end Disk

end Fs
