import PearlAlgo.Py.Json
import PearlAlgo.Py.Text

/-!
# `json.dumps`

The text of a value, on one line or indented, in ASCII with escapes. `json.loads` reads the value back, provided that no
string has two lone surrogates that would be one code point together, and that the text of a float is one that
`float.__repr__` gives.
-/

namespace Py.Json

/-! ### Texts -/

/-- Four hexadecimal digits, in lower case. -/
def hexText (n : Nat) : List Char :=
  [Nat.digitChar (n / 4096 % 16), Nat.digitChar (n / 256 % 16), Nat.digitChar (n / 16 % 16), Nat.digitChar (n % 16)]

def unicodeEscape (n : Nat) : List Char := '\\' :: 'u' :: hexText n

/-- A code point in a string. What is no printable ASCII character is escaped, above the first plane as two surrogates. -/
def charText (u : Nat) : List Char :=
  if u = 0x22 then ['\\', '"']
  else if u = 0x5C then ['\\', '\\']
  else if u = 0x0A then ['\\', 'n']
  else if u = 0x0D then ['\\', 'r']
  else if u = 0x09 then ['\\', 't']
  else if u = 0x0C then ['\\', 'f']
  else if u = 0x08 then ['\\', 'b']
  else if 0x20 ≤ u ∧ u ≤ 0x7E then [Char.ofNat u]
  else if u < 0x10000 then unicodeEscape u
  else unicodeEscape (0xD800 + (u - 0x10000) / 0x400) ++ unicodeEscape (0xDC00 + (u - 0x10000) % 0x400)

def stringText (s : List Nat) : List Char := '"' :: (s.flatMap charText ++ ['"'])

def intText (n : Int) : List Char :=
  if n < 0 then '-' :: Nat.toDigits 10 n.natAbs else Nat.toDigits 10 n.natAbs

/-- `indent`; `none` puts all on one line. -/
abbrev Layout : Type := Option Nat

def Layout.newline (layout : Layout) (level : Nat) : List Char :=
  match layout with
  | none => []
  | some n => '\n' :: List.replicate (n * level) ' '

/-- The separator of items. -/
def Layout.comma (layout : Layout) (level : Nat) : List Char :=
  match layout with
  | none => [',', ' ']
  | some _ => ',' :: layout.newline level

mutual

def valueText (layout : Layout) (level : Nat) : Value → List Char
  | .null => "null".toList
  | .bool true => "true".toList
  | .bool false => "false".toList
  | .int n => intText n
  | .float text => text
  | .str s => stringText s
  | .list [] => ['[', ']']
  | .list (v :: items) =>
    '[' :: (layout.newline (level + 1) ++ (valueText layout (level + 1) v ++ itemsText layout (level + 1) items ++
      (layout.newline level ++ [']'])))
  | .dict [] => ['{', '}']
  | .dict ((key, v) :: items) =>
    '{' :: (layout.newline (level + 1) ++ (stringText key ++ (':' :: ' ' :: valueText layout (level + 1) v) ++
      membersText layout (level + 1) items ++ (layout.newline level ++ ['}'])))

/-- The items after the first, each with the separator before it. -/
def itemsText (layout : Layout) (level : Nat) : List Value → List Char
  | [] => []
  | v :: items => layout.comma level ++ (valueText layout level v ++ itemsText layout level items)

def membersText (layout : Layout) (level : Nat) : List (List Nat × Value) → List Char
  | [] => []
  | (key, v) :: items =>
    layout.comma level ++ (stringText key ++ (':' :: ' ' :: valueText layout level v) ++ membersText layout level items)

end

def dumps (layout : Layout) (v : Value) : List Char := valueText layout 0 v

/-! ### What is read back -/

/-- A high surrogate, which together with a low one after it is a code point. -/
def IsHigh (u : Nat) : Prop := 0xD800 ≤ u ∧ u ≤ 0xDBFF

def IsLow (u : Nat) : Prop := 0xDC00 ≤ u ∧ u ≤ 0xDFFF

/-- Code points, no two of which are the halves of another. -/
def IsString : List Nat → Prop
  | [] => True
  | u :: s => u < 0x110000 ∧ (IsHigh u → ∀ v ∈ s.head?, ¬ IsLow v) ∧ IsString s

/-- What `float.__repr__` gives: a number that is not an integer, or one of the constants. -/
def IsFloatText (text : List Char) : Prop :=
  text = "NaN".toList ∨ text = "Infinity".toList ∨ text = "-Infinity".toList ∨
    (∀ c ∈ text, isNumberChar c = true) ∧ numberOf? text = some (.float text)

mutual

def Dumpable : Value → Prop
  | .null | .bool _ | .int _ => True
  | .float text => IsFloatText text
  | .str s => IsString s
  | .list items => DumpableItems items
  | .dict items => DumpableMembers items

def DumpableItems : List Value → Prop
  | [] => True
  | v :: items => Dumpable v ∧ DumpableItems items

def DumpableMembers : List (List Nat × Value) → Prop
  | [] => True
  | (key, v) :: items => IsString key ∧ Dumpable v ∧ DumpableMembers items

end

/-! ### Strings -/

theorem hexDigit?_digitChar {n : Nat} (h : n < 16) : hexDigit? (Nat.digitChar n) = some n := by
  have hall : ∀ n : Fin 16, hexDigit? (Nat.digitChar n) = some n.1 := by decide
  exact hall ⟨n, h⟩

theorem scanHex_hexText {n : Nat} (h : n < 0x10000) (t : List Char) : scanHex (hexText n ++ t) = some (n, t) := by
  have hdigit (k : Nat) : hexDigit? (Nat.digitChar (k % 16)) = some (k % 16) :=
    hexDigit?_digitChar (Nat.mod_lt k (by decide))
  simp only [hexText, List.cons_append, List.nil_append, scanHex, hdigit, Option.bind_eq_bind, Option.bind_some,
    Option.some.injEq, Prod.mk.injEq, and_true]
  omega

theorem toNat_charOfNat {n : Nat} (h : n < 0xD800) : (Char.ofNat n).toNat = n := by
  rw [Char.ofNat, dif_pos (.inl h)]
  rfl

theorem joinSurrogates_of_not_pair {u : Nat} {s : List Nat} (h : IsHigh u → ∀ v ∈ s.head?, ¬ IsLow v) :
    joinSurrogates u s = u :: s := by
  rcases s with _ | ⟨v, s⟩
  · rfl
  · rw [joinSurrogates, if_neg]
    rintro ⟨hhigh, hlow⟩
    exact h hhigh v rfl hlow

section
variable {t rest : List Char} {s : List Nat} {u fuel : Nat} {c : Char}

theorem scanString_escape (hc : escaped? c = some u) (hu : c ≠ 'u') (h : scanString fuel t = some (s, rest)) :
    scanString (fuel + 1) ('\\' :: c :: t) = some (joinSurrogates u s, rest) := by
  rw [scanString, if_neg (by decide), if_pos rfl, scanEscape, if_neg hu, hc]
  simp [h]

theorem scanString_unicodeEscape (hu : u < 0x10000) (h : scanString fuel t = some (s, rest)) :
    scanString (fuel + 1) (unicodeEscape u ++ t) = some (joinSurrogates u s, rest) := by
  rw [unicodeEscape, List.cons_append, List.cons_append, scanString, if_neg (by decide), if_pos rfl, scanEscape,
    if_pos rfl, scanHex_hexText hu]
  simp [h]

theorem scanString_plain (hquote : c ≠ '"') (hslash : c ≠ '\\') (hc : 0x20 ≤ c.toNat)
    (h : scanString fuel t = some (s, rest)) : scanString (fuel + 1) (c :: t) = some (c.toNat :: s, rest) := by
  rw [scanString, if_neg hquote, if_neg hslash, if_neg (by omega)]
  simp [h]

theorem scanString_mono {n m : Nat} (h : scanString n t = some (s, rest)) (hle : n ≤ m) :
    scanString m t = some (s, rest) := by
  simpa using scanString_append h hle []

theorem scanString_charText (hu : u < 0x110000) (hpair : IsHigh u → ∀ v ∈ s.head?, ¬ IsLow v)
    (h : scanString fuel t = some (s, rest)) :
    scanString (fuel + (charText u).length) (charText u ++ t) = some (u :: s, rest) := by
  have hjoin := joinSurrogates_of_not_pair hpair
  have hescape (c : Char) (hc : escaped? c = some u) (hne : c ≠ 'u') :
      scanString (fuel + 2) ('\\' :: c :: t) = some (u :: s, rest) := by
    rw [← hjoin]
    exact scanString_mono (scanString_escape hc hne h) (Nat.le_succ _)
  unfold charText
  split
  next heq => exact hescape '"' (by rw [heq]; rfl) (by decide)
  split
  next heq => exact hescape '\\' (by rw [heq]; rfl) (by decide)
  split
  next heq => exact hescape 'n' (by rw [heq]; rfl) (by decide)
  split
  next heq => exact hescape 'r' (by rw [heq]; rfl) (by decide)
  split
  next heq => exact hescape 't' (by rw [heq]; rfl) (by decide)
  split
  next heq => exact hescape 'f' (by rw [heq]; rfl) (by decide)
  split
  next heq => exact hescape 'b' (by rw [heq]; rfl) (by decide)
  split
  next hplain =>
    have htoNat : (Char.ofNat u).toNat = u := toNat_charOfNat (by omega)
    have hne (k : Nat) (hk : k < 0xD800) (huk : u ≠ k) : Char.ofNat u ≠ Char.ofNat k := by
      intro heq
      exact huk (by rw [← htoNat, heq, toNat_charOfNat hk])
    have hstep := scanString_plain (c := Char.ofNat u) (hne 0x22 (by decide) (by omega)) (hne 0x5C (by decide) (by omega))
      (by omega) h
    rw [htoNat] at hstep
    exact hstep
  split
  next hlow =>
    rw [← hjoin]
    exact scanString_mono (scanString_unicodeEscape hlow h) (by simp [unicodeEscape])
  next hlow =>
    have hsecond := scanString_unicodeEscape (u := 0xDC00 + (u - 0x10000) % 0x400) (by omega) h
    rw [joinSurrogates_of_not_pair (by unfold IsHigh; omega)] at hsecond
    have hfirst := scanString_unicodeEscape (u := 0xD800 + (u - 0x10000) / 0x400) (by omega) hsecond
    rw [joinSurrogates, if_pos (by omega)] at hfirst
    rw [List.append_assoc]
    have hcode : 0x10000 + (0xD800 + (u - 0x10000) / 0x400 - 0xD800) * 0x400 +
        (0xDC00 + (u - 0x10000) % 0x400 - 0xDC00) = u := by
      omega
    rw [hcode] at hfirst
    refine scanString_mono hfirst ?_
    rw [List.length_append, unicodeEscape, unicodeEscape, List.length_cons, List.length_cons]
    omega

/-- A string is read back, quotes and escapes included. -/
theorem scanString_stringText (hs : IsString s) (rest : List Char) :
    ∀ fuel, (s.flatMap charText).length < fuel → scanString fuel (s.flatMap charText ++ '"' :: rest) = some (s, rest) := by
  induction s with
  | nil =>
    intro fuel hfuel
    obtain ⟨fuel, rfl⟩ := Nat.exists_eq_succ_of_ne_zero (Nat.ne_zero_of_lt hfuel)
    rfl
  | cons u s ih =>
    obtain ⟨hu, hpair, hrest⟩ := hs
    intro fuel hfuel
    rw [List.flatMap_cons, List.length_append] at hfuel
    rw [List.flatMap_cons, List.append_assoc]
    have hstep := scanString_charText hu hpair (ih hrest (fuel - (charText u).length) (by omega))
    rwa [Nat.sub_add_cancel (by omega)] at hstep

end

/-! ### Numbers and constants -/

/-- What follows is no part of a number. -/
def EndsNumber (r : List Char) : Prop := ∀ c ∈ r.head?, isNumberChar c = false

section
variable {r token : List Char} {v : Value} {fuel level : Nat} {layout : Layout}

theorem EndsNumber.of_cons {c : Char} (h : isNumberChar c = false) : EndsNumber (c :: r) := by
  rintro _ ⟨⟩
  exact h

theorem takeWhile_of_endsNumber (h : EndsNumber r) : r.takeWhile isNumberChar = [] ∧ r.dropWhile isNumberChar = r := by
  rcases r with _ | ⟨c, r⟩
  · exact ⟨rfl, rfl⟩
  · have hc := h c rfl
    rw [List.takeWhile_cons, List.dropWhile_cons, hc]
    exact ⟨rfl, rfl⟩

theorem scanNumber_token (htoken : ∀ c ∈ token, isNumberChar c = true) (hv : numberOf? token = some v) (hr : EndsNumber r) :
    scanNumber (token ++ r) = some (v, r) := by
  obtain ⟨htake, hdrop⟩ := takeWhile_of_endsNumber hr
  rw [scanNumber, List.takeWhile_append_of_pos htoken, List.dropWhile_append_of_pos htoken, htake, hdrop, List.append_nil,
    hv]
  rfl

/-- A number begins with a digit, possibly after a minus. -/
theorem head_of_numberOf? (h : numberOf? token = some v) :
    ∃ c rest, c.isDigit = true ∧ (token = c :: rest ∨ token = '-' :: c :: rest) := by
  have hdigit {t digits rest : List Char} (h : scanDigits t = some (digits, rest)) :
      ∃ c t', c.isDigit = true ∧ t = c :: t' := by
    rw [scanDigits] at h
    split at h
    · cases h
    next hne =>
      rcases t with _ | ⟨c, t⟩
      · exact absurd rfl hne
      · refine ⟨c, t, ?_, rfl⟩
        by_contra hc
        rw [List.takeWhile_cons_of_neg hc] at hne
        exact hne rfl
  obtain ⟨⟨digits, rest⟩, hdigits, -⟩ := Option.bind_eq_some_iff.1 h
  obtain ⟨c, t, hc, heq⟩ := hdigit hdigits
  split at heq
  next hminus =>
    obtain ⟨token', rfl⟩ := List.head?_eq_some_iff.1 hminus
    exact ⟨c, t, hc, .inr (by rw [← heq]; rfl)⟩
  · exact ⟨c, t, hc, .inl heq⟩

theorem constant?_digit {c : Char} (hc : c.isDigit = true) (next : Option Char) : constant? c next = none := by
  have hne (d : Char) (hd : d.isDigit = false) : c ≠ d := by
    rintro rfl
    rw [hd] at hc
    cases hc
  rw [constant?, if_neg (hne 'n' rfl), if_neg (hne 't' rfl), if_neg (hne 'f' rfl), if_neg (hne 'N' rfl),
    if_neg (hne 'I' rfl), if_neg fun h => hne '-' rfl h.1]

theorem scanAtom_number (htoken : ∀ c ∈ token, isNumberChar c = true) (hv : numberOf? token = some v)
    (hr : EndsNumber r) : scanAtom (token ++ r) = some (v, r) := by
  have hnone : (token ++ r).head?.bind (fun c => constant? c (token ++ r).tail.head?) = none := by
    obtain ⟨c, rest, hc, rfl | rfl⟩ := head_of_numberOf? hv
    · exact constant?_digit hc _
    · rw [List.cons_append, List.cons_append, List.head?_cons, Option.bind_some, List.tail_cons, List.head?_cons]
      have hI : c ≠ 'I' := by
        rintro rfl
        cases hc
      simp [constant?, hI]
  rw [scanAtom, hnone]
  exact scanNumber_token htoken hv hr

theorem scanWord_word (word : List Char) (v : Value) (r : List Char) : scanWord word v (word ++ r) = some (v, r) := by
  rw [scanWord, if_pos (List.isPrefixOf_iff_prefix.2 (List.prefix_append word r)), List.drop_left]

theorem isNumberChar_digit {c : Char} (hc : c.isDigit = true) : isNumberChar c = true := by
  rw [isNumberChar, hc]
  rfl

theorem natOf_toDigits (n : Nat) : natOf (Nat.toDigits 10 n) = n := by
  have h := Nat.ofDigitChars_ten_toDigits (n := n)
  simpa only [Nat.ofDigitChars, natOf, Nat.mul_comm] using h

/-- There are no leading zeros. -/
theorem toDigits_head_zero {n : Nat} (h : (Nat.toDigits 10 n).head? = some '0') : n = 0 := by
  induction n using Nat.strongRecOn with
  | ind n ih =>
    rcases Nat.lt_or_ge n 10 with hlt | hge
    · rw [Nat.toDigits_of_lt_base hlt, List.head?_cons] at h
      have hall : ∀ k : Fin 10, some (Nat.digitChar k) = some '0' → k.1 = 0 := by decide
      exact hall ⟨n, hlt⟩ h
    · rw [Nat.toDigits_of_base_le (by decide) hge, List.head?_append_of_ne_nil _ Nat.toDigits_ne_nil] at h
      have hzero := ih (n / 10) (by omega) h
      omega

theorem scanDigits_toDigits (n : Nat) : scanDigits (Nat.toDigits 10 n) = some (Nat.toDigits 10 n, []) := by
  have hdigits : ∀ c ∈ Nat.toDigits 10 n, c.isDigit = true := fun c hc =>
    Nat.isDigit_of_mem_toDigits (by decide) (by decide) hc
  rw [scanDigits, List.takeWhile_eq_self_iff.2 hdigits, List.dropWhile_eq_nil_iff.2 hdigits, if_neg Nat.toDigits_ne_nil]

theorem head_toDigits_ne (n : Nat) : (Nat.toDigits 10 n).head? ≠ some '-' := by
  intro h
  obtain ⟨rest, heq⟩ := List.head?_eq_some_iff.1 h
  have hdigit := Nat.isDigit_of_mem_toDigits (b := 10) (n := n) (by decide) (by decide) (heq ▸ List.mem_cons_self)
  cases hdigit

theorem numberOf?_intText (n : Int) : numberOf? (intText n) = some (.int n) := by
  have hzeros (k : Nat) : ¬ ((Nat.toDigits 10 k).head? = some '0' ∧ Nat.toDigits 10 k ≠ ['0']) := by
    rintro ⟨hhead, hne⟩
    exact hne (by rw [toDigits_head_zero hhead]; exact Nat.toDigits_zero 10)
  by_cases hn : n < 0
  · rw [intText, if_pos hn, numberOf?]
    simp only [List.head?_cons, List.tail_cons, if_true, scanDigits_toDigits, Option.bind_eq_bind, Option.bind_some,
      if_neg (hzeros _), natOf_toDigits]
    congr 2
    omega
  · rw [intText, if_neg hn, numberOf?]
    simp only [head_toDigits_ne, if_false, scanDigits_toDigits, Option.bind_eq_bind, Option.bind_some,
      if_neg (hzeros _), natOf_toDigits, if_true]
    congr 2
    omega

theorem isNumberChar_intText (n : Int) : ∀ c ∈ intText n, isNumberChar c = true := by
  have hdigits (k : Nat) : ∀ c ∈ Nat.toDigits 10 k, isNumberChar c = true := fun c hc =>
    isNumberChar_digit (Nat.isDigit_of_mem_toDigits (by decide) (by decide) hc)
  unfold intText
  split
  · intro c hc
    rcases List.mem_cons.1 hc with rfl | hc
    · rfl
    · exact hdigits _ c hc
  · exact hdigits _

end

/-! ### Values -/

/-- The text of a value begins with no white space and closes no container. -/
def Opens (t : List Char) : Prop := ∃ c rest, t = c :: rest ∧ isWhitespace c = false ∧ c ≠ ']' ∧ c ≠ '}'

section
variable {r t text ws : List Char} {v : Value} {fuel level : Nat} {layout : Layout}

theorem Opens.append (h : Opens t) (r : List Char) : Opens (t ++ r) := by
  obtain ⟨c, rest, rfl, hc⟩ := h
  exact ⟨c, rest ++ r, rfl, hc⟩

theorem Opens.skip (h : Opens t) : skipWhitespace t = t := by
  obtain ⟨c, rest, rfl, hc, -⟩ := h
  rw [skipWhitespace, List.dropWhile_cons_of_neg (by rw [hc]; decide)]

theorem Opens.expect_none (h : Opens t) : expect ']' t = none ∧ expect '}' t = none := by
  obtain ⟨c, rest, rfl, -, hlist, hdict⟩ := h
  exact ⟨if_neg hlist, if_neg hdict⟩

theorem opens_of_numberChar {c : Char} (hc : isNumberChar c = true) (rest : List Char) :
    Opens (c :: rest) ∧ c ≠ '"' ∧ c ≠ '{' ∧ c ≠ '[' := by
  have hne (d : Char) (hd : isNumberChar d = false) : c ≠ d := by
    rintro rfl
    rw [hd] at hc
    cases hc
  refine ⟨⟨c, rest, rfl, ?_, hne ']' rfl, hne '}' rfl⟩, hne '"' rfl, hne '{' rfl, hne '[' rfl⟩
  have hall : c ∉ [' ', '\t', '\n', '\r'] := by
    simp [hne ' ' rfl, hne '\t' rfl, hne '\n' rfl, hne '\r' rfl]
  simpa [isWhitespace] using hall

/-- A value that is neither a string nor a container. -/
structure IsAtom (text : List Char) (v : Value) : Prop where
  opens : Opens text
  first : ∃ c rest, text = c :: rest ∧ c ≠ '"' ∧ c ≠ '{' ∧ c ≠ '['
  scan : ∀ r, EndsNumber r → scanAtom (text ++ r) = some (v, r)

theorem isAtom_number (htext : ∀ c ∈ text, isNumberChar c = true) (hv : numberOf? text = some v) : IsAtom text v := by
  obtain ⟨c, rest, hfirst⟩ : ∃ c rest, text = c :: rest := by
    obtain ⟨c, rest, -, rfl | rfl⟩ := head_of_numberOf? hv
    · exact ⟨_, _, rfl⟩
    · exact ⟨_, _, rfl⟩
  have hc := opens_of_numberChar (htext c (hfirst ▸ List.mem_cons_self)) rest
  exact ⟨hfirst ▸ hc.1, ⟨c, rest, hfirst, hc.2⟩, fun r hr => scanAtom_number htext hv hr⟩

theorem isAtom_intText (n : Int) : IsAtom (intText n) (.int n) :=
  isAtom_number (isNumberChar_intText n) (numberOf?_intText n)

theorem isAtom_word {c : Char} {word : List Char} (hopens : Opens (c :: word)) (hfirst : c ≠ '"' ∧ c ≠ '{' ∧ c ≠ '[')
    (hword : ∀ r, ((c :: word) ++ r).head?.bind (fun d => constant? d ((c :: word) ++ r).tail.head?) =
      some (c :: word, v)) :
    IsAtom (c :: word) v := by
  refine ⟨hopens, ⟨c, word, rfl, hfirst⟩, fun r _ => ?_⟩
  rw [scanAtom, hword r]
  exact scanWord_word (c :: word) v r

theorem isAtom_null : IsAtom "null".toList .null :=
  isAtom_word ⟨'n', _, rfl, by decide⟩ (by decide) fun _ => rfl

theorem isAtom_bool (b : Bool) : IsAtom (valueText layout level (.bool b)) (.bool b) := by
  cases b with
  | true => exact isAtom_word ⟨'t', _, rfl, by decide⟩ (by decide) fun _ => rfl
  | false => exact isAtom_word ⟨'f', _, rfl, by decide⟩ (by decide) fun _ => rfl

theorem isAtom_float (h : IsFloatText text) : IsAtom text (.float text) := by
  rcases h with rfl | rfl | rfl | ⟨htext, hv⟩
  · exact isAtom_word ⟨'N', _, rfl, by decide⟩ (by decide) fun _ => rfl
  · exact isAtom_word ⟨'I', _, rfl, by decide⟩ (by decide) fun _ => rfl
  · exact isAtom_word ⟨'-', _, rfl, by decide⟩ (by decide) fun _ => rfl
  · exact isAtom_number htext hv

theorem IsAtom.scanValue (h : IsAtom text v) (hr : EndsNumber r) (hfuel : text.length < fuel) :
    scanValue fuel (text ++ r) = some (v, r) := by
  obtain ⟨fuel, rfl⟩ := Nat.exists_eq_succ_of_ne_zero (Nat.ne_zero_of_lt hfuel)
  obtain ⟨c, rest, rfl, hquote, hdict, hlist⟩ := h.first
  rw [← h.scan r hr, List.cons_append, Json.scanValue, if_neg hquote, if_neg hdict, if_neg hlist]

theorem opens_stringText (s : List Nat) : Opens (stringText s) := ⟨'"', _, rfl, by decide⟩

theorem opens_valueText (h : Dumpable v) : Opens (valueText layout level v) := by
  cases v with
  | null => exact isAtom_null.opens
  | bool b => exact (isAtom_bool b).opens
  | int n => exact (isAtom_intText n).opens
  | float text => exact (isAtom_float h).opens
  | str s => exact opens_stringText s
  | list items => cases items <;> exact ⟨'[', _, rfl, by decide⟩
  | dict items =>
    rcases items with _ | ⟨⟨key, v⟩, items⟩
    · exact ⟨'{', _, rfl, by decide⟩
    · exact ⟨'{', _, rfl, by decide⟩

/-! ### Separators -/

theorem skipWhitespace_newline (layout : Layout) (level : Nat) (t : List Char) :
    skipWhitespace (layout.newline level ++ t) = skipWhitespace t := by
  cases layout with
  | none => rfl
  | some n =>
    rw [skipWhitespace, Layout.newline, List.dropWhile_append_of_pos]
    · rfl
    · intro c hc
      rcases List.mem_cons.1 hc with rfl | hc
      · rfl
      · rw [List.eq_of_mem_replicate hc]
        rfl

theorem comma_eq (layout : Layout) (level : Nat) :
    ∃ ws, layout.comma level = ',' :: ws ∧ ∀ t, skipWhitespace (ws ++ t) = skipWhitespace t := by
  cases layout with
  | none => exact ⟨[' '], rfl, fun t => rfl⟩
  | some n => exact ⟨Layout.newline (some n) level, rfl, skipWhitespace_newline (some n) level⟩

theorem endsNumber_newline (layout : Layout) (level : Nat) {c : Char} (hc : isNumberChar c = false) (r : List Char) :
    EndsNumber (layout.newline level ++ c :: r) := by
  cases layout with
  | none => exact .of_cons hc
  | some n => exact .of_cons rfl

theorem endsNumber_comma (layout : Layout) (level : Nat) (r : List Char) : EndsNumber (layout.comma level ++ r) := by
  obtain ⟨ws, heq, -⟩ := comma_eq layout level
  rw [heq]
  exact .of_cons rfl

end

/-! ### Round trip -/

theorem expect_cons_self (c : Char) (t : List Char) : expect c (c :: t) = some t := if_pos rfl

theorem expect_cons_ne {c d : Char} (h : d ≠ c) (t : List Char) : expect c (d :: t) = none := if_neg h

mutual

theorem scanValue_valueText (layout : Layout) : ∀ (v : Value) (level : Nat), Dumpable v → ∀ (r : List Char), EndsNumber r →
    ∀ fuel, (valueText layout level v).length < fuel → scanValue fuel (valueText layout level v ++ r) = some (v, r)
  | .null, _, _, _, hr, _, hfuel => isAtom_null.scanValue hr hfuel
  | .bool b, _, _, _, hr, _, hfuel => (isAtom_bool b).scanValue hr hfuel
  | .int n, _, _, _, hr, _, hfuel => (isAtom_intText n).scanValue hr hfuel
  | .float _, _, h, _, hr, _, hfuel => (isAtom_float h).scanValue hr hfuel
  | .str s, _, h, r, _, fuel, hfuel => by
    obtain ⟨fuel, rfl⟩ := Nat.exists_eq_succ_of_ne_zero (Nat.ne_zero_of_lt hfuel)
    have htext : stringText s ++ r = '"' :: (s.flatMap charText ++ '"' :: r) := by simp [stringText]
    rw [valueText, htext, scanValue, if_pos rfl, scanString_stringText h]
    · rfl
    · rw [List.length_append]
      omega
  | .list [], _, _, r, _, fuel, hfuel => by
    obtain ⟨fuel, rfl⟩ := Nat.exists_eq_succ_of_ne_zero (Nat.ne_zero_of_lt hfuel)
    rfl
  | .list (v :: items), level, h, r, _, fuel, hfuel => by
    obtain ⟨fuel, rfl⟩ := Nat.exists_eq_succ_of_ne_zero (Nat.ne_zero_of_lt hfuel)
    have hopens : Opens (valueText layout (level + 1) v ++ itemsText layout (level + 1) items ++
        (layout.newline level ++ ']' :: r)) := ((opens_valueText h.1).append _).append _
    have htext : valueText layout level (.list (v :: items)) ++ r = '[' :: (layout.newline (level + 1) ++
        (valueText layout (level + 1) v ++ itemsText layout (level + 1) items ++ (layout.newline level ++ ']' :: r))) := by
      simp [valueText]
    have hitems := scanItems_itemsText layout (v :: items) (level + 1) h _ rfl (layout.newline level ++ ']' :: r) r
      (skipWhitespace_newline layout level _) (endsNumber_newline layout level rfl r) fuel (by
        simp only [valueText, List.length_cons, List.length_append] at hfuel ⊢
        omega)
    rw [htext, scanValue, if_neg (by decide), if_neg (by decide), if_pos rfl, skipWhitespace_newline, hopens.skip,
      hopens.expect_none.1]
    dsimp only
    rw [hitems]
    rfl
  | .dict [], _, _, r, _, fuel, hfuel => by
    obtain ⟨fuel, rfl⟩ := Nat.exists_eq_succ_of_ne_zero (Nat.ne_zero_of_lt hfuel)
    rfl
  | .dict ((key, v) :: items), level, h, r, _, fuel, hfuel => by
    obtain ⟨fuel, rfl⟩ := Nat.exists_eq_succ_of_ne_zero (Nat.ne_zero_of_lt hfuel)
    have hopens : Opens (stringText key ++ (':' :: ' ' :: valueText layout (level + 1) v) ++
        membersText layout (level + 1) items ++ (layout.newline level ++ '}' :: r)) :=
      (((opens_stringText key).append _).append _).append _
    have htext : valueText layout level (.dict ((key, v) :: items)) ++ r = '{' :: (layout.newline (level + 1) ++
        (stringText key ++ (':' :: ' ' :: valueText layout (level + 1) v) ++ membersText layout (level + 1) items ++
          (layout.newline level ++ '}' :: r))) := by
      simp [valueText]
    have hmembers := scanMembers_membersText layout ((key, v) :: items) (level + 1) h _ rfl
      (layout.newline level ++ '}' :: r) r (skipWhitespace_newline layout level _) (endsNumber_newline layout level rfl r)
      fuel (by
        simp only [valueText, List.length_cons, List.length_append] at hfuel ⊢
        omega)
    rw [htext, scanValue, if_neg (by decide), if_pos rfl, skipWhitespace_newline, hopens.skip, hopens.expect_none.2]
    dsimp only
    rw [hmembers]
    rfl

/-- `t` is the text of the items without the separator before the first; `w` closes the list. -/
theorem scanItems_itemsText (layout : Layout) : ∀ (items : List Value) (level : Nat), DumpableItems items →
    ∀ t, itemsText layout level items = layout.comma level ++ t → ∀ w r, skipWhitespace w = ']' :: r → EndsNumber w →
      ∀ fuel, t.length + 1 < fuel → scanItems fuel (t ++ w) = some (items, r)
  | [], level, _, t, ht, _, _, _, _, _, _ => by
    obtain ⟨ws, hcomma, -⟩ := comma_eq layout level
    rw [hcomma] at ht
    cases ht
  | v :: items, level, h, t, ht, w, r, hw, hends, fuel, hfuel => by
    obtain ⟨fuel, rfl⟩ := Nat.exists_eq_succ_of_ne_zero (Nat.ne_zero_of_lt hfuel)
    obtain rfl := List.append_cancel_left ht
    rw [List.length_append] at hfuel
    rw [List.append_assoc, scanItems]
    rcases items with _ | ⟨v', items⟩
    · have hvalue := scanValue_valueText layout v level h.1 w hends fuel (by omega)
      rw [itemsText, List.nil_append, hvalue]
      simp only [Option.bind_eq_bind, Option.bind_some, hw, expect_cons_ne (show (']' : Char) ≠ ',' by decide),
        expect_cons_self]
    · obtain ⟨ws, hcomma, hws⟩ := comma_eq layout level
      have hvalue := scanValue_valueText layout v level h.1 (itemsText layout level (v' :: items) ++ w)
        (by rw [itemsText, List.append_assoc]; exact endsNumber_comma layout level _) fuel (by omega)
      have hitems := scanItems_itemsText layout (v' :: items) level h.2 _ rfl w r hw hends fuel (by
        rw [itemsText, hcomma, List.length_append, List.length_cons] at hfuel
        omega)
      have hopens : Opens (valueText layout level v' ++ itemsText layout level items ++ w) :=
        ((opens_valueText h.2.1).append _).append _
      have hskip : skipWhitespace (itemsText layout level (v' :: items) ++ w) = ',' :: (ws ++
          (valueText layout level v' ++ itemsText layout level items ++ w)) := by
        rw [itemsText, hcomma, List.cons_append, List.cons_append, List.append_assoc]
        rfl
      rw [hvalue]
      simp only [Option.bind_eq_bind, Option.bind_some, hskip, expect_cons_self, hws, hopens.skip, hitems]

theorem scanMembers_membersText (layout : Layout) : ∀ (items : List (List Nat × Value)) (level : Nat),
    DumpableMembers items → ∀ t, membersText layout level items = layout.comma level ++ t →
      ∀ w r, skipWhitespace w = '}' :: r → EndsNumber w →
        ∀ fuel, t.length + 1 < fuel → scanMembers fuel (t ++ w) = some (items, r)
  | [], level, _, t, ht, _, _, _, _, _, _ => by
    obtain ⟨ws, hcomma, -⟩ := comma_eq layout level
    rw [hcomma] at ht
    cases ht
  | (key, v) :: items, level, h, t, ht, w, r, hw, hends, fuel, hfuel => by
    obtain ⟨fuel, rfl⟩ := Nat.exists_eq_succ_of_ne_zero (Nat.ne_zero_of_lt hfuel)
    obtain rfl := List.append_cancel_left ht
    rw [List.length_append, List.length_append, List.length_cons, List.length_cons] at hfuel
    have htext : stringText key ++ (':' :: ' ' :: valueText layout level v) ++ membersText layout level items ++ w =
        '"' :: (key.flatMap charText ++ '"' :: (':' :: ' ' :: (valueText layout level v ++
          (membersText layout level items ++ w)))) := by
      simp [stringText]
    have hkey (rest : List Char) : scanString ((key.flatMap charText ++ '"' :: rest).length + 1)
        (key.flatMap charText ++ '"' :: rest) = some (key, rest) := by
      refine scanString_stringText h.1 rest _ ?_
      rw [List.length_append]
      omega
    have hcolon (t : List Char) : skipWhitespace (':' :: t) = ':' :: t := rfl
    have hspace : skipWhitespace (' ' :: (valueText layout level v ++ (membersText layout level items ++ w))) =
        valueText layout level v ++ (membersText layout level items ++ w) := ((opens_valueText h.2.1).append _).skip
    rw [htext, scanMembers, expect_cons_self]
    simp only [Option.bind_eq_bind, Option.bind_some, hkey, hcolon, expect_cons_self, hspace]
    rcases items with _ | ⟨⟨key', v'⟩, items⟩
    · have hvalue := scanValue_valueText layout v level h.2.1 w hends fuel (by omega)
      rw [membersText, List.nil_append, hvalue]
      simp only [Option.bind_some, hw, expect_cons_ne (show ('}' : Char) ≠ ',' by decide), expect_cons_self]
    · obtain ⟨ws, hcomma, hws⟩ := comma_eq layout level
      have hvalue := scanValue_valueText layout v level h.2.1 (membersText layout level ((key', v') :: items) ++ w)
        (by rw [membersText, List.append_assoc]; exact endsNumber_comma layout level _) fuel (by omega)
      have hmembers := scanMembers_membersText layout ((key', v') :: items) level h.2.2 _ rfl w r hw hends fuel (by
        rw [membersText, hcomma, List.length_append, List.length_cons] at hfuel
        omega)
      have hopens : Opens (stringText key' ++ (':' :: ' ' :: valueText layout level v') ++
          membersText layout level items ++ w) := (((opens_stringText key').append _).append _).append _
      have hskip : skipWhitespace (membersText layout level ((key', v') :: items) ++ w) = ',' :: (ws ++
          (stringText key' ++ (':' :: ' ' :: valueText layout level v') ++ membersText layout level items ++ w)) := by
        rw [membersText, hcomma, List.cons_append, List.cons_append, List.append_assoc]
        rfl
      rw [hvalue]
      simp only [Option.bind_some, hskip, expect_cons_self, hws, hopens.skip, hmembers]

end

/-! ### The characters of a text -/

theorem isPrintable_of_all {t : List Char} (h : t.all (fun c => decide (IsPrintable c)) = true) :
    ∀ c ∈ t, IsPrintable c := fun c hc => of_decide_eq_true (List.all_eq_true.1 h c hc)

theorem isPrintable_digitChar {n : Nat} (h : n < 16) : IsPrintable (Nat.digitChar n) := by
  have hall : ∀ n : Fin 16, IsPrintable (Nat.digitChar n) := by decide
  exact hall ⟨n, h⟩

theorem isPrintable_charText (u : Nat) : ∀ c ∈ charText u, IsPrintable c := by
  have hescape (n : Nat) : ∀ c ∈ unicodeEscape n, IsPrintable c := by
    have hdigit (k : Nat) : IsPrintable (Nat.digitChar (k % 16)) := isPrintable_digitChar (Nat.mod_lt k (by decide))
    simp only [unicodeEscape, hexText, List.mem_cons, List.not_mem_nil, or_false, forall_eq_or_imp, forall_eq, hdigit,
      and_true]
    decide
  unfold charText
  iterate 7
    split
    · exact isPrintable_of_all (by decide)
  split
  next hplain =>
    intro c hc
    rw [List.mem_singleton.1 hc, IsPrintable, toNat_charOfNat (by omega)]
    omega
  split
  · exact hescape u
  · intro c hc
    rcases List.mem_append.1 hc with hc | hc
    · exact hescape _ c hc
    · exact hescape _ c hc

theorem isPrintable_stringText (s : List Nat) : ∀ c ∈ stringText s, IsPrintable c := by
  intro c hc
  rcases List.mem_cons.1 hc with rfl | hc
  · decide
  rcases List.mem_append.1 hc with hc | hc
  · obtain ⟨u, -, hc⟩ := List.mem_flatMap.1 hc
    exact isPrintable_charText u c hc
  · rw [List.mem_singleton.1 hc]
    decide

theorem isPrintable_numberChar {c : Char} (h : isNumberChar c = true) : IsPrintable c := by
  rw [isNumberChar, Bool.or_eq_true] at h
  rcases h with h | h
  · have hdigit : 48 ≤ c.toNat ∧ c.toNat ≤ 57 := by simpa [Char.isDigit, UInt32.le_iff_toNat_le] using h
    exact ⟨by omega, by omega⟩
  · simp only [List.contains_eq_mem, decide_eq_true_eq, List.mem_cons, List.not_mem_nil, or_false] at h
    rcases h with rfl | rfl | rfl | rfl | rfl <;> decide

theorem isPrintable_floatText {text : List Char} (h : IsFloatText text) : ∀ c ∈ text, IsPrintable c := by
  rcases h with rfl | rfl | rfl | ⟨h, -⟩
  · exact isPrintable_of_all (by decide)
  · exact isPrintable_of_all (by decide)
  · exact isPrintable_of_all (by decide)
  · exact fun c hc => isPrintable_numberChar (h c hc)

section
variable {P : Char → Prop} {layout : Layout}

theorem all_comma (hP : ∀ c, IsPrintable c → P c) (hnewline : ∀ level, ∀ c ∈ layout.newline level, P c) (level : Nat) :
    ∀ c ∈ layout.comma level, P c := by
  cases layout with
  | none =>
    intro c hc
    refine hP c ?_
    simp only [Layout.comma, List.mem_cons, List.not_mem_nil, or_false] at hc
    rcases hc with rfl | rfl <;> decide
  | some n =>
    intro c hc
    rcases List.mem_cons.1 hc with rfl | hc
    · exact hP _ (by decide)
    · exact hnewline level c hc

mutual

/-- The text of a value consists of printable ASCII characters and line breaks of the layout. -/
theorem all_valueText (hP : ∀ c, IsPrintable c → P c) (hnewline : ∀ level, ∀ c ∈ layout.newline level, P c) :
    ∀ (v : Value) (level : Nat), Dumpable v → ∀ c ∈ valueText layout level v, P c
  | .null, _, _, c, hc => hP c (isPrintable_of_all (t := "null".toList) (by decide) c hc)
  | .bool true, _, _, c, hc => hP c (isPrintable_of_all (t := "true".toList) (by decide) c hc)
  | .bool false, _, _, c, hc => hP c (isPrintable_of_all (t := "false".toList) (by decide) c hc)
  | .int n, _, _, c, hc => hP c (isPrintable_numberChar (isNumberChar_intText n c hc))
  | .float _, _, h, c, hc => hP c (isPrintable_floatText h c hc)
  | .str s, _, _, c, hc => hP c (isPrintable_stringText s c hc)
  | .list [], _, _, c, hc => hP c (isPrintable_of_all (t := ['[', ']']) (by decide) c hc)
  | .list (v :: items), level, h, c, hc => by
    have hvalue := all_valueText hP hnewline v (level + 1) h.1
    have hitems := all_itemsText hP hnewline items (level + 1) h.2
    simp only [valueText, List.mem_cons, List.mem_append, List.not_mem_nil, or_false] at hc
    rcases hc with rfl | hc | (hc | hc) | hc | rfl
    · exact hP _ (by decide)
    · exact hnewline _ c hc
    · exact hvalue c hc
    · exact hitems c hc
    · exact hnewline _ c hc
    · exact hP _ (by decide)
  | .dict [], _, _, c, hc => hP c (isPrintable_of_all (t := ['{', '}']) (by decide) c hc)
  | .dict ((key, v) :: items), level, h, c, hc => by
    have hvalue := all_valueText hP hnewline v (level + 1) h.2.1
    have hmembers := all_membersText hP hnewline items (level + 1) h.2.2
    simp only [valueText, List.mem_cons, List.mem_append, List.not_mem_nil, or_false] at hc
    rcases hc with rfl | hc | ((hc | rfl | rfl | hc) | hc) | hc | rfl
    · exact hP _ (by decide)
    · exact hnewline _ c hc
    · exact hP c (isPrintable_stringText key c hc)
    · exact hP _ (by decide)
    · exact hP _ (by decide)
    · exact hvalue c hc
    · exact hmembers c hc
    · exact hnewline _ c hc
    · exact hP _ (by decide)

theorem all_itemsText (hP : ∀ c, IsPrintable c → P c) (hnewline : ∀ level, ∀ c ∈ layout.newline level, P c) :
    ∀ (items : List Value) (level : Nat), DumpableItems items → ∀ c ∈ itemsText layout level items, P c
  | [], _, _, c, hc => absurd hc (List.not_mem_nil)
  | v :: items, level, h, c, hc => by
    have hvalue := all_valueText hP hnewline v level h.1
    have hitems := all_itemsText hP hnewline items level h.2
    rw [itemsText, List.mem_append, List.mem_append] at hc
    rcases hc with hc | hc | hc
    · exact all_comma hP hnewline level c hc
    · exact hvalue c hc
    · exact hitems c hc

theorem all_membersText (hP : ∀ c, IsPrintable c → P c) (hnewline : ∀ level, ∀ c ∈ layout.newline level, P c) :
    ∀ (items : List (List Nat × Value)) (level : Nat), DumpableMembers items → ∀ c ∈ membersText layout level items, P c
  | [], _, _, c, hc => absurd hc (List.not_mem_nil)
  | (key, v) :: items, level, h, c, hc => by
    have hvalue := all_valueText hP hnewline v level h.2.1
    have hmembers := all_membersText hP hnewline items level h.2.2
    simp only [membersText, List.mem_append, List.mem_cons] at hc
    rcases hc with hc | (hc | rfl | rfl | hc) | hc
    · exact all_comma hP hnewline level c hc
    · exact hP c (isPrintable_stringText key c hc)
    · exact hP _ (by decide)
    · exact hP _ (by decide)
    · exact hvalue c hc
    · exact hmembers c hc

end

end

/-- On one line there is no line break. -/
theorem isPrintable_dumps {v : Value} (h : Dumpable v) : ∀ c ∈ dumps none v, IsPrintable c :=
  all_valueText (fun _ hc => hc) (fun _ _ hc => absurd hc (List.not_mem_nil)) v 0 h

theorem isPlain_dumps (layout : Layout) {v : Value} (h : Dumpable v) : IsPlain (dumps layout v) := by
  refine all_valueText (fun _ hc => .inr hc) (fun level c hc => ?_) v 0 h
  cases layout with
  | none => exact absurd hc (List.not_mem_nil)
  | some n =>
    rcases List.mem_cons.1 hc with rfl | hc
    · exact .inl rfl
    · rw [List.eq_of_mem_replicate hc]
      exact .inr (by decide)

/-- `json.loads(json.dumps(v))`, whatever the indentation. -/
theorem loads_dumps (layout : Layout) {v : Value} (h : Dumpable v) : loads (dumps layout v) = some v := by
  have hopens : Opens (dumps layout v) := opens_valueText h
  have hscan : scanValue ((dumps layout v).length + 1) (dumps layout v ++ []) = some (v, []) :=
    scanValue_valueText layout v 0 h [] (by simp [EndsNumber]) ((dumps layout v).length + 1) (Nat.lt_succ_self _)
  have hmark : (dumps layout v).head? ≠ some (Char.ofNat 0xFEFF) := by
    intro hhead
    rcases isPlain_dumps layout h _ (List.mem_of_head? hhead) with heq | heq
    · exact absurd heq (by decide)
    · exact absurd heq (by decide)
  rw [List.append_nil] at hscan
  rw [loads, if_neg hmark, hopens.skip, hscan]
  rfl

end Py.Json
