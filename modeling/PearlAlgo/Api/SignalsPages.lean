import PearlAlgo.Lts.Reach
import PearlAlgo.Py.Lines
import PearlAlgo.Py.TtlCache

/-!
# Paging through `signals.jsonl` (`api/data_layer.py`)

A chain of `get_signals_paginated` calls, each with the cursor of the one before it. A call takes the size of the file
and then reads it. In between and between the calls text becomes visible at the end of the file, also a part of a line,
and a rotation or a pruning puts a shorter file in its place. Characters are bytes: the writers dump ASCII. `loads` is
`json.loads`, `none` where it raises. `exactlyOnce_of_safe` says when the later pages bring every new line once. Failing
file operations are left out.
-/

namespace PearlAlgo
open Py Lts

/-- What `get_signals_paginated` returns; the cursor is the number in the text. -/
structure SignalsPage (α : Type) where
  signals : List α
  cursor : Nat
  hasMore : Bool
deriving DecidableEq

/-- A call that has taken the size. `new` is what was appended since the call before it took the size; no code reads
it. -/
structure PageRequest where
  limit : Nat
  startOffset : Nat
  fileSize : Nat
  new : List Char
deriving DecidableEq

/-- The file, the cache of `get_signals` and the chain. No code reads `seen` and `unseen`, what was appended since the
first page before and after the size that the last call took. -/
structure SignalsPages (α : Type) where
  file : Option (List Char) := none
  cache : TtlCache Nat (List α) := {}
  now : ℚ := 0
  cursor : Option Nat := none
  request : Option PageRequest := none
  later : List (SignalsPage α) := []
  seen : List Char := []
  unseen : List Char := []

inductive PageAct
  | tick (d : ℚ)
  /-- A piece of what is being appended becomes visible. -/
  | append (piece : List Char)
  /-- `_rotate_signals_file` -/
  | rotate (skipCount : Nat)
  /-- `_prune_signals_file`, where `isOld` are the lines before the cutoff. -/
  | prune (isOld : List Char → Bool)
  /-- Another endpoint reads the signals. -/
  | getSignals (maxLines : Nat)
  /-- The next call of the chain takes the size; it returns where there is nothing to read. -/
  | size (limit : Nat)
  /-- The call reads and returns. -/
  | read

def ENTRIES_TTL : ℚ := 2

def TTL_CLEANUP_INTERVAL : ℚ := 60

/-- The file after `_rotate_signals_file`. -/
def rotateText (skipCount : Nat) (text : List Char) : List Char := ((fileLines text).drop skipCount).flatten

/-- The file after `_prune_signals_file`. -/
def pruneText (isOld : List Char → Bool) (text : List Char) : List Char :=
  let lines := (fileLines text).filter fun l => stripText l ≠ []
  if lines.any isOld then (lines.filter fun l => !isOld l).flatten else text

namespace SignalsPages
variable {α : Type} (loads : List Char → Option α)

def text (s : SignalsPages α) : List Char := s.file.getD []

/-- What the lines of a text parse to. -/
def entries (t : List Char) : List α := readLines loads (splitlines t)

/-- `load_jsonl_file` -/
def loadJsonlFile (maxLines : Nat) (t : List Char) : List α := readLines loads (trimTo maxLines (splitlines t))

/-- `get_signals` -/
def getSignals (maxLines : Nat) (s : SignalsPages α) : List α × SignalsPages α :=
  match s.cache.cached TTL_CLEANUP_INTERVAL maxLines ENTRIES_TTL s.now
      (.ok (loadJsonlFile loads maxLines s.text) : Except Unit (List α)) with
  | (.ok signals, cache) => (signals, { s with cache })
  | (.error _, cache) => ([], { s with cache })

/-- The page is the next one of the chain; what is in it was appended before `new` ended. -/
def returns (page : SignalsPage α) (new : List Char) (s : SignalsPages α) : SignalsPages α :=
  { s with
    cursor := some page.cursor
    request := none
    later := if s.cursor.isSome then s.later ++ [page] else s.later
    seen := s.seen ++ new }

/-- A call up to the size of the file. -/
def takeSize (limit : Nat) (s : SignalsPages α) : SignalsPages α :=
  let fileSize := s.text.length
  let startOffset := s.cursor.getD 0
  if fileSize = 0 then { s with unseen := [] }.returns ⟨[], 0, false⟩ s.unseen
  else if 0 < startOffset ∧ fileSize ≤ startOffset then { s with unseen := [] }.returns ⟨[], fileSize, false⟩ s.unseen
  else { s with request := some ⟨limit, startOffset, fileSize, s.unseen⟩, unseen := [] }

/-- The rest of the call. -/
def readPage (r : PageRequest) (s : SignalsPages α) : SignalsPages α :=
  if r.startOffset = 0 then
    let (signals, s) := s.getSignals loads r.limit
    s.returns ⟨signals, r.fileSize, 0 < r.fileSize ∧ r.limit ≤ signals.length⟩ r.new
  else
    let found := readLines loads (splitlines (stripText (s.text.drop r.startOffset)))
    let signals := trimTo r.limit found
    s.returns ⟨signals, r.fileSize, r.limit ≤ signals.length⟩ r.new

def started (s : SignalsPages α) : Bool := s.cursor.isSome || s.request.isSome

def rewrite (f : List Char → List Char) (s : SignalsPages α) : SignalsPages α := { s with file := s.file.map f }

def step (s : SignalsPages α) : PageAct → Option (SignalsPages α)
  | .tick d => if 0 ≤ d then some { s with now := s.now + d } else none
  | .append piece =>
    some { s with file := some (s.text ++ piece), unseen := if s.started then s.unseen ++ piece else [] }
  | .rotate skipCount => some (s.rewrite (rotateText skipCount))
  | .prune isOld => some (s.rewrite (pruneText isOld))
  | .getSignals maxLines => some (s.getSignals loads maxLines).2
  | .size limit => if s.request = none then some (s.takeSize limit) else none
  | .read => s.request.map fun r => s.readPage loads r

/-! ### What the pages should bring -/

/-- What was appended since the first page. -/
def since (s : SignalsPages α) : List Char := s.seen ++ ((s.request.map PageRequest.new).getD [] ++ s.unseen)

def delivered (s : SignalsPages α) : List α := s.later.flatMap SignalsPage.signals

/-- The text up to its last line end. -/
def ended (t : List Char) : List Char := (t.reverse.dropWhile (· ≠ '\n')).reverse

/-- The later pages bring every line that had ended when the last one took the size, and nothing more often than it was
appended. -/
def ExactlyOnce [DecidableEq α] (s : SignalsPages α) : Prop :=
  ∀ e, (entries loads (ended s.seen)).count e ≤ s.delivered.count e ∧
    s.delivered.count e ≤ (entries loads s.since).count e

/-- At most `limit` lines are new to a call. -/
def AtMostLimit (s : SignalsPages α) : PageAct → Prop
  | .size limit => (splitlines s.unseen).length ≤ limit
  | _ => True

/-- The text that a rewrite leaves is the same, or no call has anything left to read. -/
def Harmless (s : SignalsPages α) (t : List Char) : Prop := t = s.text ∨ s.request = none ∧ s.unseen = []

/-- A call finds the end of a line, nothing is written before it has read, and the cache does not answer a later call
with anything older. Between two calls the file does not both become shorter and grow. -/
def Safe (s : SignalsPages α) : PageAct → Prop
  | .append _ => s.request = none ∧ ∀ c ∈ s.cursor, c ≤ s.text.length
  | .rotate skipCount => s.Harmless (rotateText skipCount s.text)
  | .prune isOld => s.Harmless (pruneText isOld s.text)
  | .size _ => EndsLine s.text
  | .read => s.cursor = some 0 → ∀ r ∈ s.request, ∀ signals ∈ s.cache.fresh? r.limit s.now,
      signals = loadJsonlFile loads r.limit s.text
  | .tick _ | .getSignals _ => True

instance (s : SignalsPages α) : (a : PageAct) → Decidable (s.AtMostLimit a)
  | .size limit => inferInstanceAs (Decidable (_ ≤ limit))
  | .tick _ | .append _ | .rotate _ | .prune _ | .getSignals _ | .read => .isTrue trivial

instance (s : SignalsPages α) (t : List Char) : Decidable (s.Harmless t) := inferInstanceAs (Decidable (_ ∨ _))

instance [DecidableEq α] (s : SignalsPages α) : (a : PageAct) → Decidable (s.Safe loads a)
  | .append _ => inferInstanceAs (Decidable (_ ∧ ∀ c ∈ s.cursor, c ≤ s.text.length))
  | .rotate _ | .prune _ => inferInstanceAs (Decidable (s.Harmless _))
  | .size _ => inferInstanceAs (Decidable (EndsLine _))
  | .read => inferInstanceAs (Decidable (_ → ∀ r ∈ s.request, ∀ signals ∈ s.cache.fresh? r.limit s.now, _ = _))
  | .tick _ | .getSignals _ => .isTrue trivial

variable {loads} {s s' : SignalsPages α} {a : PageAct} {t u : List Char}

/-! ### Lines of texts -/

theorem entries_append (h : EndsLine t) (u : List Char) : entries loads (t ++ u) = entries loads t ++ entries loads u := by
  unfold entries
  rw [splitlines_append h, readLines_append]

theorem ended_eq (h : EndsLine t) : ended t = t := by
  unfold ended
  rcases List.eq_nil_or_concat t with rfl | ⟨t, c, rfl⟩
  · rfl
  · have hc : c = '\n' := h c (by rw [List.concat_eq_append, List.getLast?_concat]; rfl)
    subst hc
    simp

theorem loadJsonlFile_eq {maxLines : Nat} (h : (splitlines t).length ≤ maxLines) :
    loadJsonlFile loads maxLines t = entries loads t := by
  unfold loadJsonlFile trimTo entries
  rw [if_neg (Nat.not_lt.2 h)]

theorem length_readLines_le (ls : List (List Char)) : (readLines loads ls).length ≤ ls.length := by
  unfold readLines
  calc _ ≤ ((ls.map stripText).filter (· ≠ [])).length := List.length_filterMap_le _ _
    _ ≤ (ls.map stripText).length := List.length_filter_le _ _
    _ = ls.length := List.length_map _

/-! ### One step -/

/-- The later pages are the entries of what was appended before the last size. While no call is in flight the file ends
in what is new, which begins at the cursor; a call in flight will find what is new to it. -/
structure Sound (loads : List Char → Option α) (s : SignalsPages α) : Prop where
  delivered : s.delivered = entries loads s.seen
  seenEnds : EndsLine s.seen
  first : s.cursor = none → s.later = [] ∧ s.seen = [] ∧ s.unseen = [] ∧ ∀ r ∈ s.request, r.new = []
  idle : s.request = none → ∀ c ∈ s.cursor,
    ∃ old, s.text = old ++ s.unseen ∧ old.length ≤ c ∧ (s.unseen ≠ [] → old.length = c)
  busy : ∀ r ∈ s.request, s.unseen = [] ∧ EndsLine r.new ∧ r.fileSize = s.text.length ∧
    ∀ c ∈ s.cursor, r.startOffset = c ∧ s.text.drop c = r.new ∧ (splitlines r.new).length ≤ r.limit

/-- A call returns what is new, and the file was as long as the cursor says. -/
theorem Sound.returns (hs : Sound loads s) {page : SignalsPage α} {new : List Char} (hends : EndsLine new)
    (hunseen : s.unseen = []) (hcursor : s.text.length ≤ page.cursor) (hfirst : s.cursor = none → new = [])
    (hpage : s.cursor.isSome → page.signals = entries loads new) : Sound loads (s.returns page new) where
  delivered := by
    unfold SignalsPages.returns SignalsPages.delivered
    dsimp only
    rw [entries_append hs.seenEnds, ← hs.delivered]
    rcases hc : s.cursor with _ | c
    · rw [hfirst hc, (hs.first hc).1]
      unfold SignalsPages.delivered
      rw [(hs.first hc).1]
      rfl
    · rw [Option.isSome_some, if_pos rfl, List.flatMap_append, List.flatMap_singleton, hpage (by rw [hc]; rfl)]
      rfl
  seenEnds := hs.seenEnds.append hends
  first := by
    intro h
    cases h
  idle := by
    rintro - c ⟨⟩
    refine ⟨s.text, ?_, hcursor, fun h => absurd hunseen h⟩
    show s.text = s.text ++ s.unseen
    rw [hunseen, List.append_nil]
  busy := by
    rintro r ⟨⟩

theorem Sound.takeSize (hs : Sound loads s) (hrequest : s.request = none) {limit : Nat} (hends : EndsLine s.text)
    (hlimit : (splitlines s.unseen).length ≤ limit) : Sound loads (s.takeSize limit) := by
  -- a call that returns at once has nothing new before it
  have hnothing : ∀ cursor, s.unseen = [] → s.text.length ≤ cursor →
      Sound loads ({ s with unseen := [] }.returns ⟨[], cursor, false⟩ s.unseen) := by
    intro cursor hunseen hcursor
    have hsame : { s with unseen := [] } = s := by rw [← hunseen]
    rw [hsame, hunseen]
    refine hs.returns (by rintro c ⟨⟩) hunseen hcursor (fun _ => rfl) fun _ => rfl
  have hold : ∀ c ∈ s.cursor, ∃ old, s.text = old ++ s.unseen ∧ old.length ≤ c ∧ (s.unseen ≠ [] → old.length = c) :=
    hs.idle hrequest
  unfold SignalsPages.takeSize
  dsimp only
  split
  next hzero =>
    have hempty : s.text = [] := List.length_eq_zero_iff.1 hzero
    refine hnothing 0 ?_ hzero.le
    rcases hc : s.cursor with _ | c
    · exact (hs.first hc).2.2.1
    · obtain ⟨old, htext, -, -⟩ := hold c hc
      rw [hempty] at htext
      exact (List.append_eq_nil_iff.1 htext.symm).2
  · split
    next hsize =>
      refine hnothing _ ?_ le_rfl
      rcases hc : s.cursor with _ | c
      · exact (hs.first hc).2.2.1
      · obtain ⟨old, htext, -, hat⟩ := hold c hc
        by_contra hne
        have hlen := congrArg List.length htext
        have hpos := List.length_pos_iff.2 hne
        have hsize' : s.text.length ≤ c := by simpa [hc] using hsize.2
        rw [List.length_append, hat hne] at hlen
        omega
    next hnonempty hsize =>
      refine ⟨hs.delivered, hs.seenEnds, ?_, ?_, ?_⟩
      · intro hc
        obtain ⟨hlater, hseen, hunseen, -⟩ := hs.first hc
        refine ⟨hlater, hseen, rfl, ?_⟩
        rintro r ⟨⟩
        exact hunseen
      · rintro ⟨⟩
      · rintro r ⟨⟩
        refine ⟨rfl, ?_, rfl, ?_⟩
        · show EndsLine s.unseen
          rcases hc : s.cursor with _ | c
          · rw [(hs.first hc).2.2.1]
            rintro d ⟨⟩
          · obtain ⟨old, htext, -, -⟩ := hold c hc
            rw [htext] at hends
            exact hends.of_append
        · intro c hc
          have hc : s.cursor = some c := hc
          have hstart : s.cursor.getD 0 = c := by rw [hc]; rfl
          refine ⟨hstart, ?_, hlimit⟩
          obtain ⟨old, htext, hle, hat⟩ := hold c hc
          show s.text.drop c = s.unseen
          rw [hstart] at hsize
          -- the file is longer than the cursor says, or the cursor is 0
          have hlen : old.length = c := by
            by_cases hne : s.unseen = []
            · have hold : s.text.length = old.length := by rw [htext, hne, List.append_nil]
              omega
            · exact hat hne
          rw [htext, ← hlen, List.drop_left]

theorem getSignals_fst {maxLines : Nat} (h : ∀ signals ∈ s.cache.fresh? maxLines s.now,
    signals = loadJsonlFile loads maxLines s.text) :
    (s.getSignals loads maxLines).1 = loadJsonlFile loads maxLines s.text := by
  unfold SignalsPages.getSignals
  rcases hfresh : s.cache.fresh? maxLines s.now with _ | signals
  · have hcomputed : (s.cache.cached TTL_CLEANUP_INTERVAL maxLines ENTRIES_TTL s.now
        (.ok (loadJsonlFile loads maxLines s.text) : Except Unit (List α))).1 = _ := TtlCache.cached_of_stale hfresh
    split
    next heq =>
      rw [heq] at hcomputed
      exact Except.ok.inj hcomputed
    next heq =>
      rw [heq] at hcomputed
      cases hcomputed
  · rw [TtlCache.cached_of_fresh hfresh]
    exact h signals hfresh

/-- Reading the signals touches the cache only. -/
theorem getSignals_snd (loads : List Char → Option α) (s : SignalsPages α) (maxLines : Nat) :
    ∃ cache, (s.getSignals loads maxLines).2 = { s with cache } := by
  unfold SignalsPages.getSignals
  split
  · exact ⟨_, rfl⟩
  · exact ⟨_, rfl⟩

theorem Sound.withCache (hs : Sound loads s) (cache : TtlCache Nat (List α)) : Sound loads { s with cache } :=
  ⟨hs.delivered, hs.seenEnds, hs.first, hs.idle, hs.busy⟩

theorem Sound.readPage (hs : Sound loads s) {r : PageRequest} (hr : s.request = some r)
    (hcache : s.cursor = some 0 → ∀ signals ∈ s.cache.fresh? r.limit s.now, signals = loadJsonlFile loads r.limit s.text) :
    Sound loads (s.readPage loads r) := by
  obtain ⟨hunseen, hends, hsize, hnew⟩ := hs.busy r hr
  have hfirst : s.cursor = none → r.new = [] := fun hc => (hs.first hc).2.2.2 r hr
  unfold SignalsPages.readPage
  split
  next hstart =>
    obtain ⟨cache, hsnd⟩ := getSignals_snd loads s r.limit
    rcases hget : s.getSignals loads r.limit with ⟨signals, s₁⟩
    rw [hget] at hsnd
    obtain rfl : s₁ = { s with cache } := hsnd
    refine (hs.withCache cache).returns hends hunseen hsize.ge hfirst fun hc => ?_
    obtain ⟨c, hc⟩ := Option.isSome_iff_exists.1 hc
    obtain ⟨hat, hdrop, hle⟩ := hnew c hc
    obtain rfl : c = 0 := hat.symm.trans hstart
    have htext : s.text = r.new := hdrop
    have hsignals := getSignals_fst (hcache hc)
    rw [hget, htext, loadJsonlFile_eq hle] at hsignals
    exact hsignals
  next hstart =>
    refine hs.returns hends hunseen hsize.ge hfirst fun hc => ?_
    obtain ⟨c, hc⟩ := Option.isSome_iff_exists.1 hc
    obtain ⟨hat, hdrop, hle⟩ := hnew c hc
    have hfound : readLines loads (splitlines (stripText (s.text.drop r.startOffset))) = entries loads r.new := by
      rw [hat, hdrop, readLines_stripText]
      rfl
    have hlen : (entries loads r.new).length ≤ r.limit := (length_readLines_le _).trans hle
    show trimTo r.limit _ = _
    rw [hfound, trimTo, if_neg (Nat.not_lt.2 hlen)]

theorem Sound.append (hs : Sound loads s) (hrequest : s.request = none) (hlong : ∀ c ∈ s.cursor, c ≤ s.text.length)
    (piece : List Char) : Sound loads
      { s with file := some (s.text ++ piece), unseen := if s.started then s.unseen ++ piece else [] } := by
  refine ⟨hs.delivered, hs.seenEnds, ?_, ?_, ?_⟩
  · intro hc
    have hc : s.cursor = none := hc
    obtain ⟨hlater, hseen, -, hr⟩ := hs.first hc
    have hstarted : s.started = false := by rw [started, hc, hrequest]; rfl
    refine ⟨hlater, hseen, ?_, hr⟩
    show (if s.started then _ else _) = _
    rw [hstarted]
    rfl
  · intro _ c hc
    have hc : s.cursor = some c := hc
    have hstarted : s.started = true := by rw [started, hc]; rfl
    obtain ⟨old, htext, hle, hat⟩ := hs.idle hrequest c hc
    have hlen : old.length = c := by
      by_cases hne : s.unseen = []
      · have hlong := hlong c hc
        rw [htext, hne, List.append_nil] at hlong
        omega
      · exact hat hne
    refine ⟨old, ?_, hle, fun _ => hlen⟩
    show s.text ++ piece = old ++ if s.started then _ else _
    rw [hstarted, htext, List.append_assoc]
    rfl
  · intro r hr
    rw [show s.request = some r from hr] at hrequest
    cases hrequest

theorem Sound.rewrite (hs : Sound loads s) {f : List Char → List Char} (hshort : (f s.text).length ≤ s.text.length)
    (hnil : f [] = []) (hharmless : s.Harmless (f s.text)) : Sound loads (s.rewrite f) := by
  have htext : (s.rewrite f).text = f s.text := by
    unfold SignalsPages.rewrite text
    rcases s.file with _ | t
    · exact hnil.symm
    · rfl
  rcases hharmless with hsame | ⟨hrequest, hunseen⟩
  · rw [hsame] at htext
    refine ⟨hs.delivered, hs.seenEnds, hs.first, ?_, ?_⟩
    · rw [htext]
      exact hs.idle
    · rw [htext]
      exact hs.busy
  · refine ⟨hs.delivered, hs.seenEnds, hs.first, ?_, ?_⟩
    · intro _ c hc
      obtain ⟨old, hold, hle, -⟩ := hs.idle hrequest c hc
      refine ⟨f s.text, ?_, ?_, fun hne => absurd hunseen hne⟩
      · show (s.rewrite f).text = f s.text ++ s.unseen
        rw [htext, hunseen, List.append_nil]
      · rw [hunseen, List.append_nil] at hold
        rw [hold] at hshort ⊢
        exact hshort.trans hle
    · intro r hr
      rw [show s.request = some r from hr] at hrequest
      cases hrequest

theorem length_rotateText_le (skipCount : Nat) (t : List Char) : (rotateText skipCount t).length ≤ t.length :=
  length_flatten_le (List.drop_sublist skipCount (fileLines t))

theorem length_pruneText_le (isOld : List Char → Bool) (t : List Char) : (pruneText isOld t).length ≤ t.length := by
  unfold pruneText
  dsimp only
  split
  · exact length_flatten_le (List.filter_sublist.trans List.filter_sublist)
  · exact le_rfl

theorem step_sound [DecidableEq α] (hs : Sound loads s) (hlimit : s.AtMostLimit a) (hsafe : s.Safe loads a)
    (h : s.step loads a = some s') : Sound loads s' := by
  cases a with
  | tick d =>
    obtain ⟨_, ⟨⟩⟩ := Option.ite_none_right_eq_some.1 h
    exact ⟨hs.delivered, hs.seenEnds, hs.first, hs.idle, hs.busy⟩
  | append piece =>
    cases h
    exact hs.append hsafe.1 hsafe.2 piece
  | rotate skipCount =>
    cases h
    refine hs.rewrite (length_rotateText_le skipCount _) ?_ hsafe
    simp [rotateText, fileLines]
  | prune isOld =>
    cases h
    refine hs.rewrite (length_pruneText_le isOld _) ?_ hsafe
    simp [pruneText, fileLines]
  | getSignals maxLines =>
    cases h
    obtain ⟨cache, hsnd⟩ := getSignals_snd loads s maxLines
    rw [hsnd]
    exact hs.withCache cache
  | size limit =>
    obtain ⟨hrequest, ⟨⟩⟩ := Option.ite_none_right_eq_some.1 h
    exact hs.takeSize hrequest hsafe hlimit
  | read =>
    obtain ⟨r, hr, rfl⟩ := Option.map_eq_some_iff.1 h
    exact hs.readPage hr fun hc => hsafe hc r hr

/-! ### Whole chains -/

/-- Before the first page. -/
def start (file : Option (List Char)) (cache : TtlCache Nat (List α)) (now : ℚ) : SignalsPages α := { file, cache, now }

theorem sound_start (file : Option (List Char)) (cache : TtlCache Nat (List α)) (now : ℚ) :
    Sound loads (start file cache now) where
  delivered := rfl
  seenEnds := by rintro c ⟨⟩
  first := fun _ => ⟨rfl, rfl, rfl, by rintro r ⟨⟩⟩
  idle := by rintro _ c ⟨⟩
  busy := by rintro r ⟨⟩

theorem Sound.exactlyOnce [DecidableEq α] (hs : Sound loads s) : s.ExactlyOnce loads := by
  intro e
  rw [ended_eq hs.seenEnds, hs.delivered, since, entries_append hs.seenEnds, List.count_append]
  exact ⟨le_rfl, Nat.le_add_right _ _⟩

theorem exactlyOnce_of_safe [DecidableEq α] {file : Option (List Char)} {cache : TtlCache Nat (List α)} {now : ℚ}
    (h : Reach (step loads) (fun s a => s.AtMostLimit a ∧ s.Safe loads a) (start file cache now) s) :
    s.ExactlyOnce loads :=
  (h.invariant (I := Sound loads) (sound_start file cache now)
    fun _ _ _ hs ha hstep => step_sound hs ha.1 ha.2 hstep).exactlyOnce

/-! ### Runs on a file of dictionaries -/

/-- The line of a dictionary with the key `c`. -/
def dictLine (c : Char) : List Char := ['{', '"', c, '"', ':', '1', '}', '\n']

/-- `json.loads` on such lines and parts of them. -/
def loadsDict (t : List Char) : Option (List Char) :=
  if t.head? = some '{' ∧ t.getLast? = some '}' then some t else none

/-- A line is appended and comes back with the cursor of the page before it. -/
theorem exactlyOnce_of_safe_append : ∃ s,
    Reach (step loadsDict) (fun s a => s.AtMostLimit a ∧ s.Safe loadsDict a) (start (some (dictLine 'a')) {} 0) s ∧
      s.delivered = [(dictLine 'b').dropLast] ∧ s.ExactlyOnce loadsDict := by
  obtain ⟨s, hreach, hs⟩ := exists_reach (step loadsDict) (fun s a => s.AtMostLimit a ∧ s.Safe loadsDict a)
    (start (some (dictLine 'a')) {} 0) [.size 10, .read, .append ((dictLine 'b').take 3), .append ((dictLine 'b').drop 3),
      .size 10, .read] (fun s => s.delivered = [(dictLine 'b').dropLast]) (by decide +kernel)
  exact ⟨s, hreach, of_decide_eq_true hs, exactlyOnce_of_safe hreach⟩

/-- A rotation between two calls takes the line that was appended from the second. -/
theorem not_exactlyOnce : ¬ ∀ (file : Option (List Char)) (cache : TtlCache Nat (List (List Char))) (now : ℚ) s,
    Reach (step loadsDict) AtMostLimit (start file cache now) s → s.ExactlyOnce loadsDict := by
  intro hall
  obtain ⟨s, hreach, hs⟩ := exists_reach (step loadsDict) AtMostLimit (start (some (dictLine 'a' ++ dictLine 'b')) {} 0)
    [.size 10, .read, .append (dictLine 'c'), .rotate 1, .size 10]
    (fun s => s.delivered = [] ∧ s.seen = dictLine 'c') (by decide +kernel)
  obtain ⟨hdelivered, hseen⟩ := of_decide_eq_true hs
  have honce := (hall _ _ _ s hreach (dictLine 'c').dropLast).1
  rw [hdelivered, hseen] at honce
  exact absurd honce (by decide +kernel)

end SignalsPages

end PearlAlgo
