import Mathlib.Data.List.Basic

/-!
# A text file behind a path

A path names an inode. `open(path, "a")` keeps the inode that it finds, and a write goes there; `os.replace` puts a
new one behind the path, and writes to the old one are not seen there any more.
-/

namespace Py

/-- The inodes that the path has named, and the one that it names. -/
structure File (α : Type) where
  inodes : List (List α) := []
  current : Option Nat := none
  valid : ∀ i ∈ current, i < inodes.length := by intro i hi; cases hi

namespace File

variable {α : Type} {f : File α} {ino : Nat}

def lines (f : File α) : List α := ((f.current.bind fun i => f.inodes[i]?).getD [])

/-- `path.exists()` -/
def exists? (f : File α) : Bool := f.current.isSome

/-- `os.replace(tmp, path)` -/
def replace (f : File α) (lines : List α) : File α where
  inodes := f.inodes ++ [lines]
  current := some f.inodes.length
  valid := by
    rintro i ⟨⟩
    rw [List.length_append]
    exact Nat.lt_succ_self _

/-- `open(path, "a")`, which creates the file where there is none. -/
def openAppend (f : File α) : Nat × File α :=
  match f.current with
  | some ino => (ino, f)
  | none => (f.inodes.length, f.replace [])

/-- A write to an inode that was opened. -/
def append (f : File α) (ino : Nat) (a : α) : File α where
  inodes := f.inodes.modify ino (· ++ [a])
  current := f.current
  valid := fun i hi => by rw [List.length_modify]; exact f.valid i hi

@[simp] theorem lines_replace (lines : List α) : (f.replace lines).lines = lines := by
  simp [File.lines, replace]

theorem lines_append (h : f.current = some ino) (a : α) : (f.append ino a).lines = f.lines ++ [a] := by
  have hlt := f.valid ino h
  simp [File.lines, append, h, hlt]

theorem current_openAppend : f.openAppend.2.current = some f.openAppend.1 := by
  unfold openAppend
  split
  next h => exact h
  · rfl

@[simp] theorem lines_openAppend : f.openAppend.2.lines = f.lines := by
  unfold openAppend
  split
  · rfl
  next h => simp [File.lines, replace, h]

theorem current_openAppend_of_some (h : f.current = some ino) : f.openAppend.2.current = some ino := by
  unfold openAppend
  rw [h]
  exact h

end File

end Py
