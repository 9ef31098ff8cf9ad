import Mathlib.Data.List.Induction
import PearlAlgo.Py.Seq

/-!
# The lines of a text

A text is cut after each line feed. Two parts of a text are cut apart where the first ends with one (`EndsLine`). White
space around a text is not seen by a reader that strips the lines and skips the empty ones.
-/

namespace Py

def stripText (l : List Char) : List Char := ((l.dropWhile isSpace).reverse.dropWhile isSpace).reverse

/-- The first line begins with `c`. -/
def consFirst (c : Char) : List (List Char) → List (List Char)
  | [] => [[c]]
  | l :: ls => (c :: l) :: ls

/-- `for line in f`: the lines with their ends. -/
def fileLines : List Char → List (List Char)
  | [] => []
  | c :: cs => if c = '\n' then [c] :: fileLines cs else consFirst c (fileLines cs)

/-- `text.splitlines()` of a text without other line breaks. -/
def splitlines : List Char → List (List Char)
  | [] => []
  | c :: cs => if c = '\n' then [] :: splitlines cs else consFirst c (splitlines cs)

/-- The text ends where a line ends. -/
def EndsLine (t : List Char) : Prop := ∀ c ∈ t.getLast?, c = '\n'

instance (t : List Char) : Decidable (EndsLine t) := Option.decidableForallMem _

theorem EndsLine.append {t u : List Char} (ht : EndsLine t) (hu : EndsLine u) : EndsLine (t ++ u) := by
  rcases List.eq_nil_or_concat u with rfl | ⟨u, c, rfl⟩
  · rw [List.append_nil]
    exact ht
  · intro d hd
    rw [List.concat_eq_append, ← List.append_assoc, List.getLast?_concat] at hd
    exact hu d (by rw [List.concat_eq_append, List.getLast?_concat]; exact hd)

theorem EndsLine.of_append {t u : List Char} (h : EndsLine (t ++ u)) : EndsLine u := by
  rcases List.eq_nil_or_concat u with rfl | ⟨u, c, rfl⟩
  · intro d hd
    cases hd
  · intro d hd
    rw [List.concat_eq_append, ← List.append_assoc] at h
    refine h d ?_
    rw [List.getLast?_concat]
    rw [List.concat_eq_append, List.getLast?_concat] at hd
    exact hd

theorem flatten_consFirst (c : Char) (ls : List (List Char)) : (consFirst c ls).flatten = c :: ls.flatten := by
  rcases ls with _ | ⟨l, ls⟩
  · rfl
  · rfl

theorem flatten_fileLines (t : List Char) : (fileLines t).flatten = t := by
  induction t with
  | nil => rfl
  | cons c cs ih =>
    unfold fileLines
    split
    · rw [List.flatten_cons, ih, List.singleton_append]
    · rw [flatten_consFirst, ih]

theorem length_flatten_mono {ls ls' : List (List Char)} (h : ls.Sublist ls') : ls.flatten.length ≤ ls'.flatten.length := by
  induction h with
  | slnil => exact Nat.le_refl _
  | cons l _ ih => rw [List.flatten_cons, List.length_append]; omega
  | cons_cons l _ ih => rw [List.flatten_cons, List.flatten_cons, List.length_append, List.length_append]; omega

theorem length_flatten_le {t : List Char} {ls : List (List Char)} (h : ls.Sublist (fileLines t)) :
    ls.flatten.length ≤ t.length := by
  have hle := length_flatten_mono h
  rwa [flatten_fileLines] at hle

theorem splitlines_ne_nil {t : List Char} (h : t ≠ []) : splitlines t ≠ [] := by
  rcases t with _ | ⟨c, cs⟩
  · exact absurd rfl h
  · unfold splitlines
    split
    · exact List.cons_ne_nil _ _
    · rcases splitlines cs with _ | ⟨l, ls⟩
      · exact List.cons_ne_nil _ _
      · exact List.cons_ne_nil _ _

theorem consFirst_append (c : Char) {ls : List (List Char)} (h : ls ≠ []) (ls' : List (List Char)) :
    consFirst c (ls ++ ls') = consFirst c ls ++ ls' := by
  rcases ls with _ | ⟨l, ls⟩
  · exact absurd rfl h
  · rfl

theorem splitlines_append {t : List Char} (h : EndsLine t) (u : List Char) :
    splitlines (t ++ u) = splitlines t ++ splitlines u := by
  induction t with
  | nil => rfl
  | cons c cs ih =>
    have hcs : EndsLine cs := EndsLine.of_append (t := [c]) h
    rw [List.cons_append, splitlines, splitlines, ih hcs]
    split
    · rfl
    next hc =>
      refine consFirst_append c (splitlines_ne_nil ?_) _
      rintro rfl
      exact hc (h c rfl)

theorem splitlines_unfinished {t : List Char} (h : '\n' ∉ t) (hne : t ≠ []) : splitlines t = [t] := by
  induction t with
  | nil => exact absurd rfl hne
  | cons c cs ih =>
    obtain ⟨hc, hcs⟩ := not_or.1 (List.mem_cons.not.1 h)
    rw [splitlines, if_neg (Ne.symm hc)]
    rcases eq_or_ne cs [] with rfl | hne'
    · rfl
    · rw [ih hcs hne']
      rfl

/-- A text is the lines that have ended and the beginning of one that has not. -/
theorem exists_unfinished (t : List Char) : ∃ a b, t = a ++ b ∧ EndsLine a ∧ '\n' ∉ b := by
  induction t using List.reverseRecOn with
  | nil => exact ⟨[], [], rfl, (by rintro c ⟨⟩), List.not_mem_nil⟩
  | append_singleton t c ih =>
    obtain ⟨a, b, rfl, ha, hb⟩ := ih
    by_cases hc : c = '\n'
    · refine ⟨a ++ b ++ [c], [], (List.append_nil _).symm, ?_, List.not_mem_nil⟩
      intro d hd
      rw [List.getLast?_concat] at hd
      cases hd
      exact hc
    · refine ⟨a, b ++ [c], List.append_assoc _ _ _, ha, ?_⟩
      intro hmem
      rcases List.mem_append.1 hmem with hmem | hmem
      · exact hb hmem
      · exact hc (List.mem_singleton.1 hmem).symm

/-! ### Readers that strip the lines -/

section reader
variable {α : Type} {parse : List Char → Option α}

/-- What a reader finds on the lines of a text: it strips them, and skips those that are empty or do not parse. -/
def readLines (parse : List Char → Option α) (ls : List (List Char)) : List α :=
  ((ls.map stripText).filter (· ≠ [])).filterMap parse

theorem readLines_append (ls ls' : List (List Char)) :
    readLines parse (ls ++ ls') = readLines parse ls ++ readLines parse ls' := by
  unfold readLines
  rw [List.map_append, List.filter_append, List.filterMap_append]

theorem readLines_cons (l : List Char) (ls : List (List Char)) :
    readLines parse (l :: ls) = readLines parse [l] ++ readLines parse ls := readLines_append [l] ls

theorem readLines_congr {l l' : List Char} (h : stripText l = stripText l') : readLines parse [l] = readLines parse [l'] := by
  unfold readLines
  rw [List.map_singleton, List.map_singleton, h]

theorem readLines_blank {l : List Char} (h : stripText l = []) : readLines parse [l] = [] := by
  unfold readLines
  rw [List.map_singleton, h]
  rfl

theorem stripText_cons {c : Char} (hc : isSpace c = true) (l : List Char) : stripText (c :: l) = stripText l := by
  unfold stripText
  rw [List.dropWhile_cons_of_pos hc]

theorem dropWhile_concat {p : Char → Bool} {c : Char} (hc : p c = true) (l : List Char) :
    (l ++ [c]).dropWhile p = if (l.dropWhile p) = [] then [] else l.dropWhile p ++ [c] := by
  induction l with
  | nil => simp [hc]
  | cons d l ih =>
    rw [List.cons_append, List.dropWhile_cons, List.dropWhile_cons]
    split
    · exact ih
    · rw [if_neg (List.cons_ne_nil _ _), List.cons_append]

theorem stripText_concat {c : Char} (hc : isSpace c = true) (l : List Char) : stripText (l ++ [c]) = stripText l := by
  unfold stripText
  rw [dropWhile_concat hc]
  split
  next h => rw [h]
  next => rw [List.reverse_concat, List.dropWhile_cons_of_pos hc]

theorem readLines_cons_space {c : Char} (hc : isSpace c = true) (t : List Char) :
    readLines parse (splitlines (c :: t)) = readLines parse (splitlines t) := by
  rw [splitlines]
  split
  · rw [readLines_cons, readLines_blank rfl, List.nil_append]
  · rcases splitlines t with _ | ⟨l, ls⟩
    · exact readLines_blank (stripText_cons hc [])
    · rw [consFirst, readLines_cons, readLines_cons l, readLines_congr (stripText_cons hc l)]

theorem readLines_concat_space {c : Char} (hc : isSpace c = true) (t : List Char) :
    readLines parse (splitlines (t ++ [c])) = readLines parse (splitlines t) := by
  obtain ⟨a, b, rfl, ha, hb⟩ := exists_unfinished t
  rw [List.append_assoc, splitlines_append ha, splitlines_append ha, readLines_append, readLines_append]
  congr 1
  rcases eq_or_ne b [] with rfl | hne
  · exact readLines_cons_space hc []
  · by_cases hn : c = '\n'
    · have hline : splitlines (b ++ [c]) = splitlines b := by
        clear ha hc
        subst hn
        induction b with
        | nil => exact absurd rfl hne
        | cons d b ih =>
          obtain ⟨hd, hb⟩ := not_or.1 (List.mem_cons.not.1 hb)
          rw [List.cons_append, splitlines, splitlines, if_neg (Ne.symm hd), if_neg (Ne.symm hd)]
          rcases eq_or_ne b [] with rfl | hne'
          · rfl
          · rw [ih hb hne']
      rw [hline]
    · have hmem : '\n' ∉ b ++ [c] := by
        intro hmem
        rcases List.mem_append.1 hmem with hmem | hmem
        · exact hb hmem
        · exact hn (List.mem_singleton.1 hmem).symm
      rw [splitlines_unfinished hmem (by simp), splitlines_unfinished hb hne]
      exact readLines_congr (stripText_concat hc b)

/-- Stripping the text first changes nothing. -/
theorem readLines_stripText (t : List Char) :
    readLines parse (splitlines (stripText t)) = readLines parse (splitlines t) := by
  have hleft : ∀ t : List Char, readLines parse (splitlines (t.dropWhile isSpace)) = readLines parse (splitlines t) := by
    intro t
    induction t with
    | nil => rfl
    | cons c t ih =>
      rw [List.dropWhile_cons]
      split
      next hc => rw [ih, readLines_cons_space hc]
      next => rfl
  have hright : ∀ t : List Char,
      readLines parse (splitlines ((t.reverse.dropWhile isSpace).reverse)) = readLines parse (splitlines t) := by
    intro t
    induction t using List.reverseRecOn with
    | nil => rfl
    | append_singleton t c ih =>
      rw [List.reverse_concat, List.dropWhile_cons]
      split
      next hc => rw [ih, readLines_concat_space hc]
      next => rw [← List.reverse_concat, List.reverse_reverse]
  exact (hright _).trans (hleft t)

end reader

end Py
