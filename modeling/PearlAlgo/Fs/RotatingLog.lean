import Mathlib.Data.List.Infix
import Mathlib.Data.Rat.Defs
import Mathlib.Algebra.Order.Ring.Rat

/-!
# A log file with one backup

`rotate` makes a full file the backup and removes the backup before it, and stops at the first call of the file system that
fails. `expire` removes a backup that was last written before some time. `log` is everything that was ever written, with
the times.

`Retains` says what the two files still hold: the end of `log`, from which nothing is missing but what `limit` younger
elements follow and what is old.
-/

namespace Fs

structure LogFile (α : Type) where
  data : List (α × ℚ) := []
  mtime : ℚ

structure RotatingLog (α : Type) where
  current : Option (LogFile α) := none
  backup : Option (LogFile α) := none
  log : List (α × ℚ) := []

/-- The call at which a rotation stops; looking for the backup and removing it are one. -/
inductive RotateFault
  | none
  | stat
  | unlink
  | rename
deriving DecidableEq

namespace RotatingLog

variable {α : Type}

/-- The second value tells whether the file became the backup. -/
def rotate (s : RotatingLog α) (limit : Nat) (fault : RotateFault) : RotatingLog α × Bool :=
  match s.current with
  | none => (s, false)
  | some f =>
    if fault = .stat || f.data.length < limit || fault = .unlink then (s, false)
    else if fault = .rename then ({ s with backup := none }, false)
    else ({ s with current := none, backup := some f }, true)

def expire (s : RotatingLog α) (cutoff : ℚ) : RotatingLog α :=
  match s.backup with
  | none => s
  | some f => if f.mtime < cutoff then { s with backup := none } else s

/-- Open the file to append, and write. -/
def append (s : RotatingLog α) (now : ℚ) (chunk : List α) : RotatingLog α :=
  let f : LogFile α := s.current.getD { mtime := now }
  let piece := chunk.map fun a => (a, now)
  { s with
    current := some { data := f.data ++ piece, mtime := if chunk = [] then f.mtime else now }
    log := s.log ++ piece }

def backupData (s : RotatingLog α) : List (α × ℚ) := (s.backup.map LogFile.data).getD []

def currentData (s : RotatingLog α) : List (α × ℚ) := (s.current.map LogFile.data).getD []

/-- The backup and the file. -/
def text (s : RotatingLog α) : List (α × ℚ) := s.backupData ++ s.currentData

theorem currentData_append (s : RotatingLog α) (now : ℚ) (chunk : List α) :
    (s.append now chunk).currentData = s.currentData ++ chunk.map fun a => (a, now) := by
  rcases s with ⟨_ | f, b, l⟩ <;> simp [append, currentData]

@[simp] theorem text_append (s : RotatingLog α) (now : ℚ) (chunk : List α) :
    (s.append now chunk).text = s.text ++ chunk.map fun a => (a, now) := by
  rw [text, currentData_append, ← List.append_assoc]
  rfl

@[simp] theorem log_append (s : RotatingLog α) (now : ℚ) (chunk : List α) :
    (s.append now chunk).log = s.log ++ chunk.map fun a => (a, now) := rfl

@[simp] theorem log_rotate (s : RotatingLog α) (limit : Nat) (fault : RotateFault) :
    (s.rotate limit fault).1.log = s.log := by
  unfold rotate
  split
  · rfl
  · split
    · rfl
    · split <;> rfl

@[simp] theorem log_expire (s : RotatingLog α) (cutoff : ℚ) : (s.expire cutoff).log = s.log := by
  unfold expire
  split
  · rfl
  · split <;> rfl

/-- The element may be gone: `limit` elements follow it, or it is old. -/
def MayBeGone (limit : Nat) (Old : ℚ → Prop) (x : α × ℚ) (later : List (α × ℚ)) : Prop := limit ≤ later.length ∨ Old x.2

theorem MayBeGone.mono {limit : Nat} {Old Old' : ℚ → Prop} {x : α × ℚ} {later later' : List (α × ℚ)}
    (h : MayBeGone limit Old x later) (hle : later.length ≤ later'.length) (hold : ∀ t, Old t → Old' t) :
    MayBeGone limit Old' x later' := h.imp hle.trans' (hold _)

structure Retains (limit : Nat) (Old : ℚ → Prop) (s : RotatingLog α) : Prop where
  suffix : s.text <:+ s.log
  gone : ∀ before x later, s.log = before ++ x :: later → s.text.length ≤ later.length → MayBeGone limit Old x later
  backupTimes : ∀ f, s.backup = some f → ∀ x ∈ f.data, x.2 ≤ f.mtime
  currentTimes : ∀ f, s.current = some f → ∀ x ∈ f.data, x.2 ≤ f.mtime

namespace Retains
variable {limit : Nat} {Old Old' : ℚ → Prop} {s : RotatingLog α}

theorem start : Retains limit Old ({} : RotatingLog α) where
  suffix := List.nil_suffix
  gone before x later hlog := by cases before <;> cases hlog
  backupTimes f hf := by cases hf
  currentTimes f hf := by cases hf

theorem mono (h : Retains limit Old s) (hold : ∀ t, Old t → Old' t) : Retains limit Old' s where
  suffix := h.suffix
  gone before x later hlog hlen := (h.gone before x later hlog hlen).mono le_rfl hold
  backupTimes := h.backupTimes
  currentTimes := h.currentTimes

/-- The oldest part of the files may go where each of its elements may. -/
theorem gone_of_drop (h : Retains limit Old s) {lost rest : List (α × ℚ)} (htext : s.text = lost ++ rest)
    (hlost : ∀ before x later, lost = before ++ x :: later → MayBeGone limit Old x (later ++ rest)) :
    rest <:+ s.log ∧
      ∀ before x later, s.log = before ++ x :: later → rest.length ≤ later.length → MayBeGone limit Old x later := by
  obtain ⟨old, hold⟩ := h.suffix
  refine ⟨(List.suffix_append lost rest).trans (htext ▸ h.suffix), fun before x later hlog hlen => ?_⟩
  by_cases hall : s.text.length ≤ later.length
  · exact h.gone before x later hlog hall
  · -- the element is in the part that went
    obtain ⟨cut, rfl⟩ : ∃ cut, later = cut ++ rest := by
      have hsuffix : rest <:+ before ++ x :: later := hlog ▸ (List.suffix_append lost rest).trans (htext ▸ h.suffix)
      exact (List.suffix_of_suffix_length_le hsuffix
        ((List.suffix_cons x later).trans (List.suffix_append _ _)) hlen).imp fun cut hcut => hcut.symm
    obtain ⟨pre, hpre⟩ : ∃ pre, lost = pre ++ x :: cut := by
      have hlater : x :: (cut ++ rest) <:+ lost ++ rest := by
        have hend : x :: (cut ++ rest) <:+ s.log := hlog ▸ List.suffix_append _ _
        refine List.suffix_of_suffix_length_le hend (htext ▸ h.suffix) ?_
        rw [htext] at hall
        simp at hall ⊢
        omega
      obtain ⟨pre, hpre⟩ := hlater
      rw [← List.cons_append, ← List.append_assoc] at hpre
      exact ⟨pre, (List.append_cancel_right hpre).symm⟩
    exact hlost pre x cut hpre

theorem append (h : Retains limit Old s) (now : ℚ) (hnow : ∀ x ∈ s.log, x.2 ≤ now) (chunk : List α) :
    Retains limit Old (s.append now chunk) where
  suffix := by
    obtain ⟨old, hold⟩ := h.suffix
    exact ⟨old, by rw [text_append, log_append, ← hold, List.append_assoc]⟩
  gone before x later hlog hlen := by
    rw [text_append, List.length_append] at hlen
    rw [log_append] at hlog
    obtain ⟨cut, rfl⟩ : ∃ cut, later = cut ++ chunk.map fun a => (a, now) := by
      have hle : (chunk.map fun a => (a, now)).length ≤ later.length := by omega
      exact (List.suffix_of_suffix_length_le ⟨s.log, hlog⟩
        ((List.suffix_cons x later).trans (List.suffix_append _ _)) hle).imp fun cut hcut => hcut.symm
    rw [← List.cons_append, ← List.append_assoc] at hlog
    have hcut := h.gone before x cut (List.append_cancel_right hlog) (by simp at hlen ⊢; omega)
    exact hcut.mono (by simp) fun _ => id
  backupTimes := h.backupTimes
  currentTimes f hf x hx := by
    cases hf
    rcases List.mem_append.1 hx with hx | hx
    · cases hcurrent : s.current with
      | none => simp [hcurrent] at hx
      | some g =>
        simp only [hcurrent, Option.getD_some] at hx ⊢
        split
        · exact h.currentTimes g hcurrent x hx
        · refine hnow x (h.suffix.subset ?_)
          simp [text, currentData, hcurrent, hx]
    · obtain ⟨a, ha, rfl⟩ := List.mem_map.1 hx
      have hne : chunk ≠ [] := List.ne_nil_of_mem ha
      simp [hne]

theorem rotate (h : Retains limit Old s) (fault : RotateFault) : Retains limit Old (s.rotate limit fault).1 := by
  unfold RotatingLog.rotate
  split
  · exact h
  next f hcurrent =>
    have htext : s.text = s.backupData ++ f.data := by simp [text, currentData, hcurrent]
    split
    · exact h
    next hgo =>
      -- the file is full, so that the backup before it may go
      have hfull : limit ≤ f.data.length := by
        simp at hgo
        exact hgo.1.2
      obtain ⟨hsuffix, hgone⟩ := h.gone_of_drop htext fun before x later _ => .inl (by
        rw [List.length_append]
        omega)
      split
      · refine ⟨?_, fun before x later hlog hlen => ?_, by simp, h.currentTimes⟩
        · simpa [text, backupData, currentData, hcurrent] using hsuffix
        · exact hgone before x later hlog (by simpa [text, backupData, currentData, hcurrent] using hlen)
      · refine ⟨?_, fun before x later hlog hlen => ?_, fun g hg => ?_, by simp⟩
        · simpa [text, backupData, currentData] using hsuffix
        · exact hgone before x later hlog (by simpa [text, backupData, currentData] using hlen)
        · cases hg
          exact h.currentTimes f hcurrent

theorem expire (h : Retains limit Old s) {cutoff : ℚ} (hold : ∀ t < cutoff, Old t) :
    Retains limit Old (s.expire cutoff) := by
  unfold RotatingLog.expire
  split
  · exact h
  next f hbackup =>
    have htext : s.text = f.data ++ s.currentData := by simp [text, backupData, hbackup]
    split
    next hlt =>
      obtain ⟨hsuffix, hgone⟩ := h.gone_of_drop htext fun before x later hdata => .inr (by
        refine hold _ ((h.backupTimes f hbackup x ?_).trans_lt hlt)
        simp [hdata])
      refine ⟨?_, fun before x later hlog hlen => ?_, by simp, h.currentTimes⟩
      · simpa [text, backupData, currentData] using hsuffix
      · exact hgone before x later hlog (by simpa [text, backupData, currentData] using hlen)
    · exact h

/-- What is young and has fewer than `limit` elements after it is in the files, with all that follows. -/
theorem recent (h : Retains limit Old s) {before later : List (α × ℚ)} {x : α × ℚ} (hlog : s.log = before ++ x :: later)
    (hlen : later.length < limit) (hyoung : ¬ Old x.2) : x :: later <:+ s.text := by
  have hin : (x :: later).length ≤ s.text.length := by
    by_contra hout
    rw [List.length_cons] at hout
    rcases h.gone before x later hlog (by omega) with hfar | hold
    · omega
    · exact hyoung hold
  exact List.suffix_of_suffix_length_le (hlog ▸ List.suffix_append _ _) h.suffix hin

end Retains

/-- Neither file is longer than that. -/
def Small (bound : Nat) (s : RotatingLog α) : Prop := s.backupData.length ≤ bound ∧ s.currentData.length ≤ bound

namespace Small
variable {bound limit : Nat} {s : RotatingLog α}

theorem rotate (h : Small bound s) (fault : RotateFault) : Small bound (s.rotate limit fault).1 := by
  unfold RotatingLog.rotate
  split
  · exact h
  next f hcurrent =>
    split
    · exact h
    · split
      · exact ⟨Nat.zero_le _, h.2⟩
      · exact ⟨by simpa [currentData, backupData, hcurrent] using h.2, Nat.zero_le _⟩

theorem expire (h : Small bound s) (cutoff : ℚ) : Small bound (s.expire cutoff) := by
  unfold RotatingLog.expire
  split
  · exact h
  · split
    · exact ⟨Nat.zero_le _, h.2⟩
    · exact h

theorem append (h : Small bound s) {chunk : List α} (hroom : s.currentData.length + chunk.length ≤ bound) (now : ℚ) :
    Small bound (s.append now chunk) := by
  refine ⟨h.1, ?_⟩
  rw [currentData_append, List.length_append, List.length_map]
  exact hroom

end Small

/-- A rotation at which nothing fails leaves a file that is not full. -/
theorem currentData_rotate (s : RotatingLog α) (limit : Nat) :
    (s.rotate limit .none).1.currentData.length ≤ limit := by
  unfold rotate
  split
  next hcurrent => simp [currentData, hcurrent]
  next f hcurrent =>
    split
    next hstop =>
      have hlt : f.data.length < limit := by simpa using hstop
      simpa [currentData, hcurrent] using hlt.le
    · simp [currentData]

@[simp] theorem currentData_expire (s : RotatingLog α) (cutoff : ℚ) : (s.expire cutoff).currentData = s.currentData := by
  unfold expire
  split
  · rfl
  · split <;> rfl

end RotatingLog

end Fs
