import Mathlib.Data.List.TakeWhile
import PearlAlgo.Py.Lines

/-!
# `json.loads`

A scanner reads a value from the start of a text and leaves the rest. What closes with a bracket or a quote is read the
same where the text goes on, so that no part of an object is an object.
-/

namespace Py.Json

/-- A string is its code points, of which some may be surrogates; a number that is not an integer is its text. -/
inductive Value
  | null
  | bool (b : Bool)
  | int (n : Int)
  | float (text : List Char)
  | str (s : List Nat)
  | list (items : List Value)
  | dict (items : List (List Nat × Value))

abbrev Scan (α : Type) := List Char → Option (α × List Char)

def isWhitespace (c : Char) : Bool := [' ', '\t', '\n', '\r'].contains c

def skipWhitespace (t : List Char) : List Char := t.dropWhile isWhitespace

/-! ### Strings -/

def hexDigit? (c : Char) : Option Nat :=
  if '0' ≤ c ∧ c ≤ '9' then some (c.toNat - '0'.toNat)
  else if 'a' ≤ c ∧ c ≤ 'f' then some (c.toNat - 'a'.toNat + 10)
  else if 'A' ≤ c ∧ c ≤ 'F' then some (c.toNat - 'A'.toNat + 10)
  else none

/-- Four hexadecimal digits. -/
def scanHex : Scan Nat
  | a :: b :: c :: d :: rest => do
    let a ← hexDigit? a
    let b ← hexDigit? b
    let c ← hexDigit? c
    let d ← hexDigit? d
    some (((a * 16 + b) * 16 + c) * 16 + d, rest)
  | _ => none

/-- What an escape of one character stands for. -/
def escaped? (c : Char) : Option Nat :=
  [('"', 0x22), ('\\', 0x5C), ('/', 0x2F), ('b', 0x08), ('f', 0x0C), ('n', 0x0A), ('r', 0x0D), ('t', 0x09)].lookup c

/-- The escape after a backslash. -/
def scanEscape : Scan Nat
  | [] => none
  | c :: rest => if c = 'u' then scanHex rest else (escaped? c).map fun u => (u, rest)

/-- A high and a low surrogate that follow each other are one code point. -/
def joinSurrogates (u : Nat) : List Nat → List Nat
  | [] => [u]
  | v :: s =>
    if (0xD800 ≤ u ∧ u ≤ 0xDBFF) ∧ (0xDC00 ≤ v ∧ v ≤ 0xDFFF) then
      (0x10000 + (u - 0xD800) * 0x400 + (v - 0xDC00)) :: s
    else u :: v :: s

/-- A string after its opening quote. Control characters must be escaped. -/
def scanString : Nat → Scan (List Nat)
  | 0, _ => none
  | _ + 1, [] => none
  | fuel + 1, c :: rest =>
    if c = '"' then some ([], rest)
    else if c = '\\' then do
      let (u, rest) ← scanEscape rest
      let (s, rest) ← scanString fuel rest
      some (joinSurrogates u s, rest)
    else if c.toNat < 0x20 then none
    else do
      let (s, rest) ← scanString fuel rest
      some (c.toNat :: s, rest)

/-! ### Numbers and constants -/

def isNumberChar (c : Char) : Bool := c.isDigit || ['-', '+', '.', 'e', 'E'].contains c

def natOf (digits : List Char) : Nat := digits.foldl (fun n c => n * 10 + (c.toNat - '0'.toNat)) 0

/-- One digit or more. -/
def scanDigits (t : List Char) : Option (List Char × List Char) :=
  if t.takeWhile Char.isDigit = [] then none else some (t.takeWhile Char.isDigit, t.dropWhile Char.isDigit)

/-- The exponent of a number, if it has one, up to the end. -/
def exponentOk : List Char → Bool
  | [] => true
  | c :: t =>
    (c = 'e' || c = 'E') &&
      (scanDigits (if t.head? = some '-' ∨ t.head? = some '+' then t.tail else t)).any fun d => d.2.isEmpty

/-- The number that the text is. -/
def numberOf? (token : List Char) : Option Value := do
  let negative := token.head? = some '-'
  let (digits, rest) ← scanDigits (if negative then token.tail else token)
  if digits.head? = some '0' ∧ digits ≠ ['0'] then none
  else if rest = [] then some (.int (if negative then -(natOf digits) else natOf digits))
  else if rest.head? = some '.' then
    let (_, rest) ← scanDigits rest.tail
    if exponentOk rest then some (.float token) else none
  else if exponentOk rest then some (.float token)
  else none

/-- The longest run of characters of numbers is to be a number: what is read of a part of it is refused by what follows. -/
def scanNumber (t : List Char) : Option (Value × List Char) :=
  (numberOf? (t.takeWhile isNumberChar)).map fun v => (v, t.dropWhile isNumberChar)

def scanWord (word : List Char) (v : Value) (t : List Char) : Option (Value × List Char) :=
  if word.isPrefixOf t then some (v, t.drop word.length) else none

/-- The constant that begins with these characters. -/
def constant? (c : Char) (next : Option Char) : Option (List Char × Value) :=
  if c = 'n' then some ("null".toList, .null)
  else if c = 't' then some ("true".toList, .bool true)
  else if c = 'f' then some ("false".toList, .bool false)
  else if c = 'N' then some ("NaN".toList, .float "NaN".toList)
  else if c = 'I' then some ("Infinity".toList, .float "Infinity".toList)
  else if c = '-' ∧ next = some 'I' then some ("-Infinity".toList, .float "-Infinity".toList)
  else none

/-- What is neither a string nor a container. -/
def scanAtom (t : List Char) : Option (Value × List Char) :=
  match t.head?.bind fun c => constant? c t.tail.head? with
  | some (word, v) => scanWord word v t
  | none => scanNumber t

/-! ### Values -/

/-- The text after a character that must come next. -/
def expect (c : Char) : List Char → Option (List Char)
  | [] => none
  | d :: rest => if d = c then some rest else none

mutual

/-- Each unit of fuel takes a character of the text. -/
def scanValue : Nat → Scan Value
  | 0, _ => none
  | _ + 1, [] => none
  | fuel + 1, c :: rest =>
    if c = '"' then (scanString (rest.length + 1) rest).map fun (s, rest) => (.str s, rest)
    else if c = '{' then
      match expect '}' (skipWhitespace rest) with
      | some rest => some (.dict [], rest)
      | none => (scanMembers fuel (skipWhitespace rest)).map fun (items, rest) => (.dict items, rest)
    else if c = '[' then
      match expect ']' (skipWhitespace rest) with
      | some rest => some (.list [], rest)
      | none => (scanItems fuel (skipWhitespace rest)).map fun (items, rest) => (.list items, rest)
    else scanAtom (c :: rest)

/-- The items of a list and its closing bracket. -/
def scanItems : Nat → Scan (List Value)
  | 0, _ => none
  | fuel + 1, t => do
    let (v, rest) ← scanValue fuel t
    match expect ',' (skipWhitespace rest) with
    | some rest => do
      let (items, rest) ← scanItems fuel (skipWhitespace rest)
      some (v :: items, rest)
    | none => do
      let rest ← expect ']' (skipWhitespace rest)
      some ([v], rest)

/-- The items of an object and its closing bracket. -/
def scanMembers : Nat → Scan (List (List Nat × Value))
  | 0, _ => none
  | fuel + 1, t => do
    let rest ← expect '"' t
    let (key, rest) ← scanString (rest.length + 1) rest
    let rest ← expect ':' (skipWhitespace rest)
    let (v, rest) ← scanValue fuel (skipWhitespace rest)
    match expect ',' (skipWhitespace rest) with
    | some rest => do
      let (items, rest) ← scanMembers fuel (skipWhitespace rest)
      some ((key, v) :: items, rest)
    | none => do
      let rest ← expect '}' (skipWhitespace rest)
      some ([(key, v)], rest)

end

/-- `json.loads(text)`, where it does not raise. -/
def loads (t : List Char) : Option Value :=
  if t.head? = some (Char.ofNat 0xFEFF) then none
  else do
    let (v, rest) ← scanValue (t.length + 1) (skipWhitespace t)
    if skipWhitespace rest = [] then some v else none

/-! ### A text that goes on -/

section
variable {t u r rest : List Char} {c : Char} {n m : Nat} {v : Value} {p : Char → Bool}

theorem dropWhile_append_of_ne (h : t.dropWhile p ≠ []) (u : List Char) : (t ++ u).dropWhile p = t.dropWhile p ++ u := by
  rw [List.dropWhile_append, if_neg]
  simpa using h

theorem takeWhile_append_of_ne (h : t.dropWhile p ≠ []) (u : List Char) : (t ++ u).takeWhile p = t.takeWhile p := by
  induction t with
  | nil => exact absurd rfl h
  | cons d t ih =>
    by_cases hd : p d
    · rw [List.dropWhile_cons_of_pos hd] at h
      rw [List.cons_append, List.takeWhile_cons_of_pos hd, List.takeWhile_cons_of_pos hd, ih h]
    · rw [List.cons_append, List.takeWhile_cons_of_neg hd, List.takeWhile_cons_of_neg hd]

theorem expect_append (h : expect c t = some r) (u : List Char) : expect c (t ++ u) = some (r ++ u) := by
  rcases t with _ | ⟨d, t⟩
  · cases h
  · rw [expect] at h
    split at h
    next hd =>
      cases h
      exact if_pos hd
    · cases h

theorem expect_append_none (h : expect c t = none) (hne : t ≠ []) (u : List Char) : expect c (t ++ u) = none := by
  rcases t with _ | ⟨d, t⟩
  · exact absurd rfl hne
  · rw [expect] at h
    split at h
    · cases h
    next hd => exact if_neg hd

theorem ne_nil_of_expect (h : expect c t = some r) : t ≠ [] := by
  rintro rfl
  cases h

theorem head?_of_expect (h : expect c t = some r) : t.head? = some c := by
  rcases t with _ | ⟨d, t⟩
  · cases h
  · rw [expect] at h
    split at h
    next hd => rw [hd, List.head?_cons]
    · cases h

theorem scanHex_append {x : Nat} (h : scanHex t = some (x, r)) (u : List Char) : scanHex (t ++ u) = some (x, r ++ u) := by
  unfold scanHex at h
  split at h
  · simp only [Option.bind_eq_bind, Option.bind_eq_some_iff, Option.some.injEq, Prod.mk.injEq] at h
    obtain ⟨a', ha, b', hb, c', hc, d', hd, hx, rfl⟩ := h
    simp [scanHex, ha, hb, hc, hd, hx]
  · cases h

theorem scanEscape_append {x : Nat} (h : scanEscape t = some (x, r)) (u : List Char) :
    scanEscape (t ++ u) = some (x, r ++ u) := by
  rcases t with _ | ⟨d, t⟩
  · cases h
  · rw [List.cons_append]
    rw [scanEscape] at h ⊢
    split at h
    next hd => rw [if_pos hd, scanHex_append h]
    next hd =>
      obtain ⟨y, hy, hxr⟩ := Option.map_eq_some_iff.1 h
      cases hxr
      rw [if_neg hd, hy, Option.map_some]

theorem scanString_append {s : List Nat} (h : scanString n t = some (s, r)) (hle : n ≤ m) (u : List Char) :
    scanString m (t ++ u) = some (s, r ++ u) := by
  induction n generalizing t s m with
  | zero => cases h
  | succ n ih =>
    obtain ⟨m, rfl⟩ := Nat.exists_eq_succ_of_ne_zero (Nat.ne_zero_of_lt hle)
    have hle' : n ≤ m := by omega
    rcases t with _ | ⟨d, t⟩
    · cases h
    rw [List.cons_append]
    rw [scanString] at h ⊢
    split at h
    next hd =>
      cases h
      exact if_pos hd
    next hd =>
      rw [if_neg hd]
      split at h
      next hback =>
        simp only [Option.bind_eq_bind, Option.bind_eq_some_iff, Prod.exists, Option.some.injEq, Prod.mk.injEq] at h
        obtain ⟨x, rest, hescape, s', rest', hstring, rfl, rfl⟩ := h
        rw [if_pos hback, scanEscape_append hescape]
        simp [ih hstring hle']
      next hback =>
        rw [if_neg hback]
        split at h
        · cases h
        next hcontrol =>
          simp only [Option.bind_eq_bind, Option.bind_eq_some_iff, Prod.exists, Option.some.injEq, Prod.mk.injEq] at h
          obtain ⟨s', rest, hstring, rfl, rfl⟩ := h
          rw [if_neg hcontrol]
          simp [ih hstring hle']

/-- What comes after a value inside a container is not a part of a number. -/
def EndsValue (r : List Char) : Prop := ∃ c rest, r = c :: rest ∧ isNumberChar c = false

theorem endsValue_of_skip (h : (skipWhitespace r).head? = some c) (hc : isNumberChar c = false) : EndsValue r := by
  rcases r with _ | ⟨d, r⟩
  · cases h
  · refine ⟨d, r, rfl, ?_⟩
    by_cases hd : isWhitespace d
    · have hcases : d = ' ' ∨ d = '\t' ∨ d = '\n' ∨ d = '\r' := by simpa [isWhitespace] using hd
      rcases hcases with rfl | rfl | rfl | rfl <;> rfl
    · unfold skipWhitespace at h
      rw [List.dropWhile_cons_of_neg hd] at h
      cases h
      exact hc

theorem scanWord_append {word : List Char} {w : Value} (h : scanWord word w t = some (v, r)) (u : List Char) :
    scanWord word w (t ++ u) = some (v, r ++ u) := by
  unfold scanWord at h
  split at h
  next hword =>
    cases h
    obtain ⟨rest, rfl⟩ := List.isPrefixOf_iff_prefix.1 hword
    have hword' : word.isPrefixOf (word ++ rest ++ u) := List.isPrefixOf_iff_prefix.2 ⟨rest ++ u, by simp⟩
    rw [scanWord, if_pos hword']
    simp [List.append_assoc]
  · cases h

theorem scanNumber_append (h : scanNumber t = some (v, r)) (hr : EndsValue r) (u : List Char) :
    scanNumber (t ++ u) = some (v, r ++ u) := by
  obtain ⟨w, hw, hvr⟩ := Option.map_eq_some_iff.1 h
  cases hvr
  obtain ⟨d, rest, hdrop, -⟩ := hr
  have hne : t.dropWhile isNumberChar ≠ [] := by
    rw [hdrop]
    exact List.cons_ne_nil _ _
  rw [scanNumber, takeWhile_append_of_ne hne, dropWhile_append_of_ne hne, hw, Option.map_some]

theorem constant?_append (h : scanAtom (c :: t) = some (v, r)) (u : List Char) :
    constant? c (t ++ u).head? = constant? c t.head? := by
  by_cases hc : c = '-'
  · rcases t with _ | ⟨d, t⟩
    · have hnone : scanAtom ['-'] = none := rfl
      rw [hc, hnone] at h
      cases h
    · rfl
  · simp only [constant?, hc, false_and]

theorem scanAtom_append (h : scanAtom (c :: t) = some (v, r)) (hr : EndsValue r) (u : List Char) :
    scanAtom (c :: t ++ u) = some (v, r ++ u) := by
  have hconstant := constant?_append h u
  unfold scanAtom at h
  simp only [List.head?_cons, Option.bind_some, List.tail_cons] at h
  rw [List.cons_append]
  unfold scanAtom
  simp only [List.head?_cons, Option.bind_some, List.tail_cons, hconstant]
  split at h
  · exact scanWord_append h u
  · exact scanNumber_append h hr u

theorem skipWhitespace_append (h : skipWhitespace t ≠ []) (u : List Char) :
    skipWhitespace (t ++ u) = skipWhitespace t ++ u := dropWhile_append_of_ne h u

theorem expect_skip_append (h : expect c (skipWhitespace t) = some r) (u : List Char) :
    expect c (skipWhitespace (t ++ u)) = some (r ++ u) := by
  rw [skipWhitespace_append (ne_nil_of_expect h)]
  exact expect_append h u

theorem expect_skip_append_none (h : expect c (skipWhitespace t) = none) (hne : skipWhitespace t ≠ []) (u : List Char) :
    expect c (skipWhitespace (t ++ u)) = none := by
  rw [skipWhitespace_append hne]
  exact expect_append_none h hne u

theorem ne_nil_of_scanValue (h : scanValue n t = some (v, r)) : t ≠ [] := by
  rintro rfl
  rcases n with _ | n
  · cases h
  · cases h

theorem ne_nil_of_scanItems {items : List Value} (h : scanItems n t = some (items, r)) : t ≠ [] := by
  rintro rfl
  rcases n with _ | _ | n
  · cases h
  · cases h
  · cases h

theorem ne_nil_of_scanMembers {items : List (List Nat × Value)} (h : scanMembers n t = some (items, r)) : t ≠ [] := by
  rintro rfl
  rcases n with _ | n
  · cases h
  · cases h

/-- What each scanner reads with `n` units of fuel it also reads where the text goes on, with `m`. -/
structure Extends (n m : Nat) : Prop where
  value : ∀ t v r u, scanValue n t = some (v, r) → EndsValue r → scanValue m (t ++ u) = some (v, r ++ u)
  items : ∀ t l r u, scanItems n t = some (l, r) → scanItems m (t ++ u) = some (l, r ++ u)
  members : ∀ t l r u, scanMembers n t = some (l, r) → scanMembers m (t ++ u) = some (l, r ++ u)

theorem Extends.object (hext : Extends n m) (h : scanValue (n + 1) ('{' :: t) = some (v, r)) (u : List Char) :
    scanValue (m + 1) ('{' :: t ++ u) = some (v, r ++ u) := by
  rw [List.cons_append]
  rw [scanValue, if_neg (by decide), if_pos rfl] at h ⊢
  split at h
  next rest hclose =>
    cases h
    rw [expect_skip_append hclose]
  next hopen =>
    obtain ⟨⟨l, rest⟩, hmembers, hvr⟩ := Option.map_eq_some_iff.1 h
    cases hvr
    have hne := ne_nil_of_scanMembers hmembers
    rw [expect_skip_append_none hopen hne, skipWhitespace_append hne]
    dsimp only
    rw [hext.members _ _ _ u hmembers, Option.map_some]

theorem Extends.list (hext : Extends n m) (h : scanValue (n + 1) ('[' :: t) = some (v, r)) (u : List Char) :
    scanValue (m + 1) ('[' :: t ++ u) = some (v, r ++ u) := by
  rw [List.cons_append]
  rw [scanValue, if_neg (by decide), if_neg (by decide), if_pos rfl] at h ⊢
  split at h
  next rest hclose =>
    cases h
    rw [expect_skip_append hclose]
  next hopen =>
    obtain ⟨⟨l, rest⟩, hitems, hvr⟩ := Option.map_eq_some_iff.1 h
    cases hvr
    have hne := ne_nil_of_scanItems hitems
    rw [expect_skip_append_none hopen hne, skipWhitespace_append hne]
    dsimp only
    rw [hext.items _ _ _ u hitems, Option.map_some]

theorem Extends.value_succ (hext : Extends n m) (h : scanValue (n + 1) t = some (v, r)) (hr : EndsValue r) (u : List Char) :
    scanValue (m + 1) (t ++ u) = some (v, r ++ u) := by
  rcases t with _ | ⟨c, t⟩
  · cases h
  by_cases hobject : c = '{'
  · subst hobject
    exact hext.object h u
  by_cases hlist : c = '['
  · subst hlist
    exact hext.list h u
  rw [List.cons_append]
  rw [scanValue, if_neg hobject, if_neg hlist] at h ⊢
  split at h
  next hquote =>
    obtain ⟨⟨s, rest⟩, hstring, hvr⟩ := Option.map_eq_some_iff.1 h
    cases hvr
    rw [if_pos hquote, scanString_append hstring (by rw [List.length_append]; omega) u, Option.map_some]
  next hquote =>
    rw [if_neg hquote]
    exact scanAtom_append h hr u

/-- After a value in a container comes a comma or its closing bracket, neither of which is a part of a number. -/
theorem Extends.after_value (hext : Extends n m) (h : scanValue n t = some (v, r))
    (hnext : (skipWhitespace r).head? = some c) (hc : isNumberChar c = false) (u : List Char) :
    scanValue m (t ++ u) = some (v, r ++ u) := hext.value _ _ _ u h (endsValue_of_skip hnext hc)

theorem Extends.items_succ {l : List Value} (hext : Extends n m) (h : scanItems (n + 1) t = some (l, r)) (u : List Char) :
    scanItems (m + 1) (t ++ u) = some (l, r ++ u) := by
  rw [scanItems] at h ⊢
  obtain ⟨⟨w, r₁⟩, hvalue, h⟩ := Option.bind_eq_some_iff.1 h
  dsimp only at h
  split at h
  next r₂ hcomma =>
    obtain ⟨⟨l', r₃⟩, hitems, h⟩ := Option.bind_eq_some_iff.1 h
    cases h
    rw [hext.after_value hvalue (head?_of_expect hcomma) rfl u]
    simp only [Option.bind_eq_bind, Option.bind_some]
    rw [expect_skip_append hcomma]
    simp only [skipWhitespace_append (ne_nil_of_scanItems hitems), hext.items _ _ _ u hitems, Option.bind_some]
  next hcomma =>
    obtain ⟨r₂, hclose, h⟩ := Option.bind_eq_some_iff.1 h
    cases h
    rw [hext.after_value hvalue (head?_of_expect hclose) rfl u]
    simp only [Option.bind_eq_bind, Option.bind_some]
    rw [expect_skip_append_none hcomma (ne_nil_of_expect hclose)]
    simp only [expect_skip_append hclose, Option.bind_some]

theorem Extends.members_succ {l : List (List Nat × Value)} (hext : Extends n m)
    (h : scanMembers (n + 1) t = some (l, r)) (u : List Char) : scanMembers (m + 1) (t ++ u) = some (l, r ++ u) := by
  rw [scanMembers] at h ⊢
  obtain ⟨r₁, hquote, h⟩ := Option.bind_eq_some_iff.1 h
  obtain ⟨⟨key, r₂⟩, hkey, h⟩ := Option.bind_eq_some_iff.1 h
  obtain ⟨r₃, hcolon, h⟩ := Option.bind_eq_some_iff.1 h
  obtain ⟨⟨w, r₄⟩, hvalue, h⟩ := Option.bind_eq_some_iff.1 h
  have hkey' := scanString_append hkey (m := (r₁ ++ u).length + 1) (by rw [List.length_append]; omega) u
  simp only [expect_append hquote, hkey', expect_skip_append hcolon, skipWhitespace_append (ne_nil_of_scanValue hvalue),
    Option.bind_eq_bind, Option.bind_some]
  dsimp only at h
  split at h
  next r₅ hcomma =>
    obtain ⟨⟨l', r₆⟩, hmembers, h⟩ := Option.bind_eq_some_iff.1 h
    cases h
    rw [hext.after_value hvalue (head?_of_expect hcomma) rfl u]
    simp only [Option.bind_some]
    rw [expect_skip_append hcomma]
    simp only [skipWhitespace_append (ne_nil_of_scanMembers hmembers), hext.members _ _ _ u hmembers, Option.bind_some]
  next hcomma =>
    obtain ⟨r₅, hclose, h⟩ := Option.bind_eq_some_iff.1 h
    cases h
    rw [hext.after_value hvalue (head?_of_expect hclose) rfl u]
    simp only [Option.bind_some]
    rw [expect_skip_append_none hcomma (ne_nil_of_expect hclose)]
    simp only [expect_skip_append hclose, Option.bind_some]

theorem extends_of_le (h : n ≤ m) : Extends n m := by
  induction n generalizing m with
  | zero =>
    constructor
    case value =>
      intro t v r u h
      cases h
    case items =>
      intro t l r u h
      cases h
    case members =>
      intro t l r u h
      cases h
  | succ n ih =>
    obtain ⟨m, rfl⟩ := Nat.exists_eq_succ_of_ne_zero (Nat.ne_zero_of_lt h)
    have hext : Extends n m := ih (by omega)
    constructor
    case value => exact fun t v r u h hr => hext.value_succ h hr u
    case items => exact fun t l r u h => hext.items_succ h u
    case members => exact fun t l r u h => hext.members_succ h u

/-- No text with an object that is complete goes on to one that ends with a closing bracket. -/
theorem loads_proper_prefix {w : Value} (hopen : t.head? = some '{') (h : loads t = some v) (hu : u.getLast? = some '}') :
    loads (t ++ u) ≠ some w := by
  intro hall
  obtain ⟨t, rfl⟩ : ∃ t', t = '{' :: t' := List.head?_eq_some_iff.1 hopen
  obtain ⟨u', rfl⟩ := List.getLast?_eq_some_iff.1 hu
  have hskip : ∀ t', skipWhitespace ('{' :: t') = '{' :: t' := fun t' => rfl
  unfold loads at h hall
  rw [if_neg (by simp [Char.ext_iff]), hskip] at h
  obtain ⟨⟨v', rest⟩, hscan, h⟩ := Option.bind_eq_some_iff.1 h
  split at h
  next hblank =>
    rw [List.cons_append, if_neg (by simp [Char.ext_iff]), hskip] at hall
    have hlen : ('{' :: t).length ≤ ('{' :: (t ++ (u' ++ ['}']))).length := by
      simp
    have hgoes := (extends_of_le hlen).object hscan (u' ++ ['}'])
    rw [List.cons_append] at hgoes
    rw [hgoes] at hall
    simp only [Option.bind_eq_bind, Option.bind_some] at hall
    split at hall
    next hblank' =>
      have hlast : isWhitespace '}' = true := by
        refine List.dropWhile_eq_nil_iff.1 hblank' _ ?_
        simp
      exact absurd hlast (by decide)
    · cases hall

end

end Py.Json
