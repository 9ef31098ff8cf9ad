import Mathlib.Data.List.DropRight
import PearlAlgo.Py.Json
import PearlAlgo.Py.Text
import PearlAlgo.Py.While

/-!
# The tail of a file of JSON lines

`load_jsonl_file` reads chunks from the end of the file until it has more line feeds than it wants lines. What it then
keeps of the lines it would also keep of the whole file, and of an object that is cut short it returns nothing.
-/

namespace PearlAlgo.StateIo

open Py

def CHUNK_SIZE : Nat := 8192

/-- The variables of the loop of `load_jsonl_file`. -/
structure TailRead where
  remaining : Nat
  tailBytes : List UInt8 := []
  linesFound : Nat := 0

def needsMore (maxLines : Nat) (s : TailRead) : Bool := decide (0 < s.remaining) && decide (s.linesFound ≤ maxLines)

def readChunk (data : List UInt8) (s : TailRead) : TailRead :=
  let readSize := min CHUNK_SIZE s.remaining
  let remaining := s.remaining - readSize
  let tailBytes := (data.drop remaining).take readSize ++ s.tailBytes
  { remaining, tailBytes, linesFound := tailBytes.count 10 }

/-- What the last lines of a text parse to. -/
def parseTail (maxLines : Nat) (text : List Char) : List Json.Value :=
  readLines Json.loads (trimTo maxLines (strSplitlines text))

/-- `none` is a file that does not exist. The loop has one round for each byte of the file at most. -/
def loadJsonlFile (file : Option (List UInt8)) (maxLines : Nat) : Option (List Json.Value) :=
  match file with
  | none => some []
  | some data =>
    if data.length = 0 then some []
    else
      (whileLoop (needsMore maxLines) (readChunk data) (data.length + 1) { remaining := data.length }).map fun s =>
        parseTail maxLines (decodeUtf8 s.tailBytes)

/-- The last lines of a file that is read as a whole. -/
def loadWhole (data : List UInt8) (maxLines : Nat) : List Json.Value := parseTail maxLines (decodeUtf8 data)

/-! ### The loop -/

/-- The bytes that were read are the end of the file, and there are enough of them. -/
theorem readChunk_loop (data : List UInt8) (maxLines : Nat) :
    ∃ s, whileLoop (needsMore maxLines) (readChunk data) (data.length + 1) { remaining := data.length } = some s ∧
      s.tailBytes = data.drop s.remaining ∧ (s.remaining = 0 ∨ maxLines < s.tailBytes.count 10) := by
  obtain ⟨s, hs⟩ : ∃ s, whileLoop (needsMore maxLines) (readChunk data) (data.length + 1) { remaining := data.length } =
      some s := by
    refine whileLoop_ends (m := TailRead.remaining) (fun s hs => ?_) (Nat.lt_succ_self _)
    have hpos : 0 < s.remaining := of_decide_eq_true (Bool.and_eq_true _ _ ▸ hs).1
    simp only [readChunk, CHUNK_SIZE]
    omega
  have hround : ∀ s : TailRead, s.tailBytes = data.drop s.remaining ∧ s.linesFound = s.tailBytes.count 10 →
      needsMore maxLines s = true → (readChunk data s).tailBytes = data.drop (readChunk data s).remaining ∧
        (readChunk data s).linesFound = (readChunk data s).tailBytes.count 10 := by
    intro s hs _
    refine ⟨?_, rfl⟩
    simp only [readChunk]
    -- What was read before follows the chunk.
    have hrest : s.tailBytes = (data.drop (s.remaining - min CHUNK_SIZE s.remaining)).drop (min CHUNK_SIZE s.remaining) := by
      rw [List.drop_drop, hs.1, Nat.sub_add_cancel (Nat.min_le_right _ _)]
    rw [hrest, List.take_append_drop]
  obtain ⟨⟨htail, hfound⟩, htest⟩ := whileLoop_invariant hround hs ⟨by simp, rfl⟩
  refine ⟨s, hs, htail, ?_⟩
  simp only [needsMore, Bool.and_eq_false_iff, decide_eq_false_iff_not] at htest
  omega

theorem count_le_length_splitlines (t : List Char) : t.count '\n' ≤ (splitlines t).length := by
  induction t with
  | nil => simp
  | cons c t ih =>
    unfold splitlines
    split
    next hc =>
      rw [hc, List.count_cons_self, List.length_cons]
      omega
    next hc =>
      rw [List.count_cons_of_ne hc]
      rcases hlines : splitlines t with _ | ⟨l, ls⟩
      · rw [hlines] at ih
        exact ih.trans (Nat.zero_le _)
      · rw [hlines] at ih
        exact ih

theorem trimTo_append_of_le {α : Type} {n : Nat} (hn : 0 < n) (xs : List α) {ys : List α} (h : n ≤ ys.length) :
    trimTo n (xs ++ ys) = trimTo n ys := by
  rw [trimTo_eq_drop (by omega), trimTo_eq_drop (by omega), List.length_append, List.drop_append,
    List.drop_eq_nil_of_le (by omega), List.nil_append]
  congr 1
  omega

/-- After a line feed the lines of the end of a text are those of the text. -/
theorem trimTo_splitlines_drop {n r : Nat} (hn : 0 < n) (t : List Char) (h : r = 0 ∨ n < (t.drop r).count '\n') :
    trimTo n (splitlines (t.drop r)) = trimTo n (splitlines t) := by
  rcases h with rfl | h
  · rfl
  obtain ⟨b, c, hsplit, hb⟩ := List.eq_append_cons_of_mem (List.count_pos_iff.1 (Nat.zero_lt_of_lt h))
  have hends : EndsLine (b ++ ['\n']) := by
    intro d hd
    rw [List.getLast?_concat] at hd
    cases hd
    rfl
  have htail : t.drop r = b ++ ['\n'] ++ c := by
    rw [hsplit, List.append_assoc, List.singleton_append]
  have hall : t = t.take r ++ (b ++ ['\n']) ++ c := by
    rw [List.append_assoc, ← htail, List.take_append_drop]
  have hends' : EndsLine (t.take r ++ (b ++ ['\n'])) := by
    intro d hd
    rw [← List.append_assoc, List.getLast?_concat] at hd
    cases hd
    rfl
  have hcount : n ≤ (splitlines c).length := by
    rw [htail, List.count_append, List.count_append, List.count_eq_zero.2 hb, List.count_singleton_self] at h
    have hle := count_le_length_splitlines c
    omega
  conv_rhs => rw [hall]
  rw [htail, splitlines_append hends, splitlines_append hends', trimTo_append_of_le hn _ hcount,
    trimTo_append_of_le hn _ hcount]

/-! ### Files of JSON lines -/

/-- An object on a line, with ASCII escapes. -/
def ObjectLine (l : List Char) : Prop :=
  l.head? = some '{' ∧ l.getLast? = some '}' ∧ (∀ c ∈ l, IsPrintable c) ∧ (Json.loads l).isSome

instance (l : List Char) : Decidable (ObjectLine l) :=
  decidable_of_iff (l.head? = some '{' ∧ l.getLast? = some '}' ∧ l.all (fun c => decide (IsPrintable c)) ∧
    (Json.loads l).isSome) (by simp [ObjectLine])

/-- Objects one per line, and a part of one more. -/
structure JsonlFile where
  lines : List (List Char)
  torn : List Char
  lines_object : ∀ l ∈ lines, ObjectLine l
  torn_prefix : ∃ l, ObjectLine l ∧ torn <+: l

namespace JsonlFile

def text (f : JsonlFile) : List Char := (f.lines.map (· ++ ['\n'])).flatten ++ f.torn

def data (f : JsonlFile) : List UInt8 := asciiBytes f.text

def allLines (f : JsonlFile) : List (List Char) := f.lines ++ if f.torn = [] then [] else [f.torn]

end JsonlFile

section
variable {l t : List Char} {n : Nat}

theorem ObjectLine.not_mem (h : ObjectLine l) : '\n' ∉ l := by
  intro hmem
  exact absurd (h.2.2.1 _ hmem) (by decide)

theorem ObjectLine.ne_nil (h : ObjectLine l) : l ≠ [] := by
  rintro rfl
  cases h.1

theorem ObjectLine.isPlain (h : ObjectLine l) : IsPlain l := fun c hc => .inr (h.2.2.1 c hc)

theorem stripText_of_head (h : t.head? = some '{') : stripText t = t.rdropWhile isSpace := by
  obtain ⟨t, rfl⟩ := List.head?_eq_some_iff.1 h
  rfl

theorem ObjectLine.stripText_eq (h : ObjectLine l) : stripText l = l := by
  obtain ⟨l, rfl⟩ := List.getLast?_eq_some_iff.1 h.2.1
  rw [stripText_of_head h.1, List.rdropWhile_concat_neg]
  decide

theorem ObjectLine.readLines_eq (h : ObjectLine l) : readLines Json.loads [l] = [l].filterMap Json.loads := by
  simp [readLines, h.stripText_eq, h.ne_nil]

/-- An object that is cut short is not one, also without the white space at its end. -/
theorem readLines_torn (h : ObjectLine l) (ht : t <+: l) (hobject : ¬ ObjectLine t) : readLines Json.loads [t] = [] := by
  rcases t with _ | ⟨c, t⟩
  · exact readLines_blank rfl
  obtain ⟨u, rfl⟩ := ht
  have hhead : (c :: t).head? = some '{' := h.1
  have hstrip := stripText_of_head hhead
  obtain ⟨space, hspace⟩ := List.rdropWhile_prefix isSpace (c :: t)
  rw [← hstrip] at hspace
  rcases hloads : Json.loads (stripText (c :: t)) with _ | v
  · simp [readLines, hloads]
  exfalso
  obtain ⟨w, hall⟩ := Option.isSome_iff_exists.1 h.2.2.2
  have hne : space ++ u ≠ [] := by
    intro hnil
    obtain ⟨rfl, rfl⟩ := List.append_eq_nil_iff.1 hnil
    rw [List.append_nil] at h
    exact hobject h
  have hlast : (space ++ u).getLast? = some '}' := by
    have hend := h.2.1
    rw [← hspace, List.append_assoc, List.getLast?_append_of_ne_nil _ hne] at hend
    exact hend
  rw [← hspace, List.append_assoc] at hall
  refine Json.loads_proper_prefix ?_ hloads hlast hall
  rcases hstripped : stripText (c :: t) with _ | ⟨d, rest⟩
  · rw [hstripped] at hloads
    cases hloads
  · rw [hstripped] at hspace
    obtain ⟨rfl, -⟩ := List.cons.inj hspace
    exact hhead

theorem splitlines_line (h : '\n' ∉ l) (t : List Char) : splitlines (l ++ '\n' :: t) = l :: splitlines t := by
  induction l with
  | nil => simp [splitlines]
  | cons c l ih =>
    obtain ⟨hc, hl⟩ := not_or.1 (List.mem_cons.not.1 h)
    rw [List.cons_append, splitlines, if_neg (Ne.symm hc), ih hl]
    rfl

end

namespace JsonlFile
variable {f : JsonlFile} {l : List Char} {ls : List (List Char)} {n : Nat}

theorem splitlines_text (f : JsonlFile) : splitlines f.text = f.allLines := by
  obtain ⟨l, hl, htorn⟩ := f.torn_prefix
  have hlast : splitlines f.torn = if f.torn = [] then [] else [f.torn] := by
    split
    next hnil => rw [hnil]; rfl
    next hne => exact splitlines_unfinished (fun hmem => hl.not_mem (htorn.subset hmem)) hne
  have hlines : ∀ ls : List (List Char), (∀ l ∈ ls, ObjectLine l) →
      splitlines ((ls.map (· ++ ['\n'])).flatten ++ f.torn) = ls ++ splitlines f.torn := by
    intro ls hls
    induction ls with
    | nil => rfl
    | cons l ls ih =>
      have hrest := ih fun l' hl' => hls l' (List.mem_cons_of_mem _ hl')
      have hl := (hls l List.mem_cons_self).not_mem
      rw [List.map_cons, List.flatten_cons, List.append_assoc, List.append_assoc, List.singleton_append,
        splitlines_line hl, hrest]
      rfl
  unfold text allLines
  rw [hlines _ f.lines_object, hlast]

theorem isPlain_text (f : JsonlFile) : IsPlain f.text := by
  obtain ⟨l, hl, htorn⟩ := f.torn_prefix
  refine IsPlain.append ?_ fun c hc => hl.isPlain c (htorn.subset hc)
  intro c hc
  obtain ⟨line, hline, hc⟩ := List.mem_flatten.1 hc
  obtain ⟨l', hl', rfl⟩ := List.mem_map.1 hline
  rcases List.mem_append.1 hc with hc | hc
  · exact (f.lines_object l' hl').isPlain c hc
  · exact .inl (List.mem_singleton.1 hc)

/-- A line of the file is an object, or it is what there is of the last one. -/
theorem readLines_of_mem (h : l ∈ f.allLines) :
    readLines Json.loads [l] = ([l].filter fun l => decide (ObjectLine l)).filterMap Json.loads := by
  by_cases hobject : ObjectLine l
  · rw [hobject.readLines_eq, List.filter_singleton, decide_eq_true hobject]
    rfl
  · have htorn : l = f.torn := by
      unfold allLines at h
      rcases List.mem_append.1 h with h | h
      · exact absurd (f.lines_object l h) hobject
      · split at h
        · cases h
        · exact List.mem_singleton.1 h
    obtain ⟨l', hl', hprefix⟩ := f.torn_prefix
    rw [← htorn] at hprefix
    rw [readLines_torn hl' hprefix hobject, List.filter_singleton, decide_eq_false hobject]
    rfl

theorem readLines_of_subset (h : ∀ l ∈ ls, l ∈ f.allLines) :
    readLines Json.loads ls = (ls.filter fun l => decide (ObjectLine l)).filterMap Json.loads := by
  induction ls with
  | nil => rfl
  | cons l ls ih =>
    have hrest := ih fun l' hl' => h l' (List.mem_cons_of_mem _ hl')
    rw [readLines_cons, readLines_of_mem (h l List.mem_cons_self), hrest, ← List.filterMap_append, ← List.filter_append,
      List.singleton_append]

theorem loadWhole_data (hn : 0 < n) : loadWhole f.data n =
    ((lastN n f.allLines).filter fun l => decide (ObjectLine l)).filterMap Json.loads := by
  have hlast : trimTo n f.allLines = lastN n f.allLines := by
    rw [trimTo_eq_drop (by omega), lastN, if_neg (by omega)]
  unfold loadWhole parseTail data
  rw [decodeUtf8_ascii f.isPlain_text, strSplitlines_plain f.isPlain_text, splitlines_text, hlast]
  exact readLines_of_subset fun l hl => mem_of_mem_lastN hl

theorem loadJsonlFile_eq_loadWhole (hn : 0 < n) : loadJsonlFile (some f.data) n = some (loadWhole f.data n) := by
  unfold loadJsonlFile
  dsimp only
  split
  next hempty =>
    have hnil : f.data = [] := List.length_eq_zero_iff.1 hempty
    rw [hnil]
    simp [loadWhole, parseTail, decodeUtf8, decodeFrom, strSplitlines, trimTo, readLines]
  next =>
    obtain ⟨s, hs, htail, henough⟩ := readChunk_loop f.data n
    have hplain := f.isPlain_text
    have hbytes : s.tailBytes = asciiBytes (f.text.drop s.remaining) := by
      rw [htail, data, asciiBytes, ← List.map_drop]
      rfl
    rw [hbytes, count_asciiBytes (hplain.drop _)] at henough
    rw [hs, Option.map_some, hbytes]
    unfold loadWhole parseTail data
    rw [decodeUtf8_ascii hplain, decodeUtf8_ascii (hplain.drop _), strSplitlines_plain hplain,
      strSplitlines_plain (hplain.drop _), trimTo_splitlines_drop hn f.text henough]

end JsonlFile

/-- Wherever the chunks begin, the end of a file of JSON lines is read as the whole file would be: what is returned are the
objects among its last lines. -/
theorem loadJsonlFile_tail (f : JsonlFile) (maxLines : Nat) (h : 1 ≤ maxLines) :
    loadJsonlFile (some f.data) maxLines = some (loadWhole f.data maxLines) ∧
      loadWhole f.data maxLines =
        ((lastN maxLines f.allLines).filter fun l => decide (ObjectLine l)).filterMap Json.loads :=
  ⟨JsonlFile.loadJsonlFile_eq_loadWhole h, JsonlFile.loadWhole_data h⟩

theorem sampleLine_object : ObjectLine "\x7b\"a\": 1\x7d".toList := by
  have hprintable : "\x7b\"a\": 1\x7d".toList.all (fun c => decide (IsPrintable c)) = true := by decide
  refine ⟨rfl, rfl, fun c hc => ?_, by decide +kernel⟩
  exact of_decide_eq_true (List.all_eq_true.1 hprintable c hc)

/-- Two objects, and the beginning of a third. -/
def sampleFile : JsonlFile where
  lines := ["\x7b\"a\": 1\x7d".toList, "\x7b\"a\": 1\x7d".toList]
  torn := "\x7b\"a\"".toList
  lines_object := by simpa using sampleLine_object
  torn_prefix := ⟨_, sampleLine_object, by decide +kernel⟩

theorem loadJsonlFile_tail_sample : loadJsonlFile (some sampleFile.data) 2 = some (loadWhole sampleFile.data 2) :=
  (loadJsonlFile_tail sampleFile 2 (by decide)).1

end PearlAlgo.StateIo
