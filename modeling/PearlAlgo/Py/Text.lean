import PearlAlgo.Py.Lines

/-!
# The text of a file

UTF-8 with what is not valid replaced, one mark for each longest part that could begin a character, and the lines of a
text. On ASCII text whose only line breaks are line feeds both are simple.
-/

namespace Py

/-- A character of which some bytes are still to come, the next of them between `low` and `high`. -/
structure Pending where
  code : Nat
  owed : Nat
  low : Nat := 0x80
  high : Nat := 0xBF

def replacement : Char := Char.ofNat 0xFFFD

def beginChar (b : Nat) : List Char × Option Pending :=
  if b < 0x80 then ([Char.ofNat b], none)
  else if 0xC2 ≤ b ∧ b ≤ 0xDF then ([], some { code := b - 0xC0, owed := 1 })
  else if b = 0xE0 then ([], some { code := 0, owed := 2, low := 0xA0 })
  else if b = 0xED then ([], some { code := 0xD, owed := 2, high := 0x9F })
  else if 0xE1 ≤ b ∧ b ≤ 0xEF then ([], some { code := b - 0xE0, owed := 2 })
  else if b = 0xF0 then ([], some { code := 0, owed := 3, low := 0x90 })
  else if b = 0xF4 then ([], some { code := 4, owed := 3, high := 0x8F })
  else if 0xF1 ≤ b ∧ b ≤ 0xF3 then ([], some { code := b - 0xF0, owed := 3 })
  else ([replacement], none)

/-- One byte. A byte that does not go on with the character begins the next one. -/
def decodeByte (pending : Option Pending) (b : Nat) : List Char × Option Pending :=
  match pending with
  | none => beginChar b
  | some p =>
    if p.low ≤ b ∧ b ≤ p.high then
      let code := p.code * 64 + (b - 0x80)
      if p.owed = 1 then ([Char.ofNat code], none) else ([], some { code, owed := p.owed - 1 })
    else
      (replacement :: (beginChar b).1, (beginChar b).2)

def decodeFrom : Option Pending → List UInt8 → List Char
  | none, [] => []
  | some _, [] => [replacement]
  | pending, b :: bs => (decodeByte pending b.toNat).1 ++ decodeFrom (decodeByte pending b.toNat).2 bs

/-- `data.decode("utf-8", errors="replace")` -/
def decodeUtf8 (data : List UInt8) : List Char := decodeFrom none data

def isLineBreak (c : Char) : Bool :=
  [0x0A, 0x0B, 0x0C, 0x0D, 0x1C, 0x1D, 0x1E, 0x85, 0x2028, 0x2029].contains c.toNat

/-- `text.splitlines()`; a carriage return before a line feed is part of the one break. -/
def strSplitlines : List Char → List (List Char)
  | [] => []
  | c :: cs =>
    if c = '\r' ∧ cs.head? = some '\n' then strSplitlines cs
    else if isLineBreak c then [] :: strSplitlines cs
    else consFirst c (strSplitlines cs)

/-! ### ASCII text -/

/-- A character of a line of ASCII text. -/
def IsPrintable (c : Char) : Prop := 0x20 ≤ c.toNat ∧ c.toNat < 0x80

instance (c : Char) : Decidable (IsPrintable c) := inferInstanceAs (Decidable (_ ∧ _))

/-- ASCII text with no other break than the line feed. -/
def IsPlain (t : List Char) : Prop := ∀ c ∈ t, c = '\n' ∨ IsPrintable c

/-- `text.encode("ascii")` -/
def asciiBytes (t : List Char) : List UInt8 := t.map fun c => UInt8.ofNat c.toNat

theorem IsPlain.append {t u : List Char} (ht : IsPlain t) (hu : IsPlain u) : IsPlain (t ++ u) := by
  intro c hc
  rcases List.mem_append.1 hc with hc | hc
  · exact ht c hc
  · exact hu c hc

theorem IsPlain.drop {t : List Char} (ht : IsPlain t) (n : Nat) : IsPlain (t.drop n) :=
  fun c hc => ht c (List.mem_of_mem_drop hc)

theorem IsPlain.toNat_lt {t : List Char} (ht : IsPlain t) {c : Char} (hc : c ∈ t) : c.toNat < 0x80 := by
  rcases ht c hc with rfl | h
  · decide
  · exact h.2

theorem decodeFrom_ascii {t : List Char} (ht : IsPlain t) : decodeFrom none (asciiBytes t) = t := by
  induction t with
  | nil => rfl
  | cons c t ih =>
    have hc : c.toNat < 0x80 := ht.toNat_lt List.mem_cons_self
    have hbyte : (UInt8.ofNat c.toNat).toNat = c.toNat := by
      rw [UInt8.toNat_ofNat']
      omega
    have hdecode : decodeByte none (UInt8.ofNat c.toNat).toNat = ([c], none) := by
      rw [hbyte]
      simp [decodeByte, beginChar, hc, Char.ofNat_toNat]
    have hrest : decodeFrom none (asciiBytes t) = t := ih fun d hd => ht d (List.mem_cons_of_mem _ hd)
    show decodeFrom none (UInt8.ofNat c.toNat :: asciiBytes t) = _
    rw [decodeFrom, hdecode, hrest]
    rfl

theorem decodeUtf8_ascii {t : List Char} (ht : IsPlain t) : decodeUtf8 (asciiBytes t) = t := decodeFrom_ascii ht

theorem isLineBreak_of_printable {c : Char} (h : IsPrintable c) : isLineBreak c = false := by
  obtain ⟨hlow, hhigh⟩ := h
  simp only [isLineBreak, List.contains_cons, List.contains_nil, Bool.or_false, Bool.or_eq_false_iff, beq_eq_false_iff_ne]
  omega

theorem strSplitlines_plain {t : List Char} (ht : IsPlain t) : strSplitlines t = splitlines t := by
  induction t with
  | nil => rfl
  | cons c t ih =>
    have hrest := ih fun d hd => ht d (List.mem_cons_of_mem _ hd)
    rcases ht c List.mem_cons_self with rfl | hc
    · simp [strSplitlines, splitlines, isLineBreak, hrest]
    · have hr : c ≠ '\r' := by
        rintro rfl
        exact absurd hc (by decide)
      have hn : c ≠ '\n' := by
        rintro rfl
        exact absurd hc (by decide)
      rw [strSplitlines, splitlines, if_neg fun h => hr h.1, isLineBreak_of_printable hc, if_neg Bool.false_ne_true, if_neg hn,
        hrest]

theorem count_asciiBytes {t : List Char} (ht : IsPlain t) : (asciiBytes t).count 10 = t.count '\n' := by
  induction t with
  | nil => rfl
  | cons c t ih =>
    have hrest : (asciiBytes t).count 10 = t.count '\n' := ih fun d hd => ht d (List.mem_cons_of_mem _ hd)
    have hc : c.toNat < 0x80 := ht.toNat_lt List.mem_cons_self
    have hiff : UInt8.ofNat c.toNat = 10 ↔ c = '\n' := by
      rw [← UInt8.toNat_inj, UInt8.toNat_ofNat', ← Char.toNat_inj]
      simp
      omega
    show (UInt8.ofNat c.toNat :: asciiBytes t).count 10 = _
    rw [List.count_cons, List.count_cons, hrest]
    simp only [beq_iff_eq, hiff]

end Py
