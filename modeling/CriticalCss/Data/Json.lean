import CriticalCss.Data.Value

/-!
# JSON

`read?` reads a JSON document and `write` writes one without white space.  Reading goes in two
steps: the text becomes a list of marks and scalars, and those become a value, with a stack of the
lists and records that are still open.  A number with a fraction or an exponent, and the number
minus zero, are not whole.
-/

namespace CriticalCss.Data.Json

/-- A mark or a scalar of a JSON text. -/
inductive Mark where
  | openList
  | closeList
  | openRecord
  | closeRecord
  | comma
  | colon
  | scalar (v : Value)

/-- White space between marks. -/
def isSpace (c : Char) : Bool :=
  c == ' ' || c == '\n' || c == '\t' || c == '\r'

/-- Four hexadecimal digits. -/
def hex4? : List Char → Option (Nat × List Char)
  | a :: b :: c :: d :: rest => do
    let ds ← [a, b, c, d].mapM Text.hexDigit?
    some (Text.ofDigits 16 ds, rest)
  | _ => none

/-- The character that an escape with one letter stands for. -/
def escapedChar? : Char → Option Char
  | '"' => some '"'
  | '\\' => some '\\'
  | '/' => some '/'
  | 'b' => some '\x08'
  | 'f' => some '\x0c'
  | 'n' => some '\n'
  | 'r' => some '\r'
  | 't' => some '\t'
  | _ => none

/-- The second of two surrogates, with an escape of its own. -/
def readLowSurrogate? : List Char → Option (Nat × List Char)
  | '\\' :: 'u' :: cs => (hex4? cs).filter fun p => 0xdc00 ≤ p.1 && p.1 < 0xe000
  | _ => none

/-- The number of a character after the `u` of its escape; two surrogates make one character, and one
alone is an error. -/
def readCodeUnit? (cs : List Char) : Option (Char × List Char) := do
  let (n, rest) ← hex4? cs
  if 0xd800 ≤ n ∧ n < 0xdc00 then
    let (low, rest) ← readLowSurrogate? rest
    some (Char.ofNat (0x10000 + (n - 0xd800) * 0x400 + (low - 0xdc00)), rest)
  else if 0xdc00 ≤ n ∧ n < 0xe000 then none
  else some (Char.ofNat n, rest)

/-- An escape after its backslash. -/
def readEscape? : List Char → Option (Char × List Char)
  | [] => none
  | c :: cs => if c = 'u' then readCodeUnit? cs else (escapedChar? c).map (·, cs)

theorem hex4?_length_lt {cs rest : List Char} {n : Nat} (h : hex4? cs = some (n, rest)) :
    rest.length < cs.length := by
  unfold hex4? at h
  split at h
  · simp only [bind, Option.bind_eq_some_iff] at h
    obtain ⟨_, -, h⟩ := h
    simp at h
    obtain ⟨-, rfl⟩ := h
    simp; omega
  · simp at h

theorem readLowSurrogate?_length_lt {cs rest : List Char} {n : Nat}
    (h : readLowSurrogate? cs = some (n, rest)) : rest.length < cs.length := by
  unfold readLowSurrogate? at h
  split at h
  · have := hex4?_length_lt (Option.filter_eq_some_iff.1 h).1
    simp only [List.length_cons]
    omega
  · cases h

theorem readCodeUnit?_length_lt {cs rest : List Char} {c : Char}
    (h : readCodeUnit? cs = some (c, rest)) : rest.length < cs.length := by
  rw [readCodeUnit?] at h
  obtain ⟨⟨n, after⟩, hnumber, h⟩ := Option.bind_eq_some_iff.1 h
  have hafter := hex4?_length_lt hnumber
  dsimp only at h
  by_cases hhigh : 0xd800 ≤ n ∧ n < 0xdc00
  · rw [if_pos hhigh] at h
    obtain ⟨⟨low, last⟩, hlow, h⟩ := Option.bind_eq_some_iff.1 h
    obtain rfl : last = rest := congrArg Prod.snd (Option.some.inj h)
    exact Nat.lt_trans (readLowSurrogate?_length_lt hlow) hafter
  · rw [if_neg hhigh] at h
    by_cases hlow : 0xdc00 ≤ n ∧ n < 0xe000
    · rw [if_pos hlow] at h
      cases h
    · rw [if_neg hlow] at h
      cases h
      exact hafter

theorem readEscape?_length_lt {cs rest : List Char} {c : Char}
    (h : readEscape? cs = some (c, rest)) : rest.length < cs.length := by
  cases cs with
  | nil => cases h
  | cons d cs =>
    rw [readEscape?] at h
    by_cases hd : d = 'u'
    · rw [if_pos hd] at h
      exact Nat.lt_succ_of_lt (readCodeUnit?_length_lt h)
    · rw [if_neg hd] at h
      obtain ⟨e, -, h⟩ := Option.map_eq_some_iff.1 h
      cases h
      exact Nat.lt_succ_self _

/-- A string after its opening quote. -/
def readString? (cs : List Char) : Option (List Char × List Char) :=
  match cs with
  | [] => none
  | c :: rest =>
    if c = '"' then some ([], rest)
    else if c.toNat < 0x20 then none
    else if c = '\\' then
      match _h : readEscape? rest with
      | none => none
      | some (e, after) =>
        match readString? after with
        | none => none
        | some (s, after') => some (e :: s, after')
    else
      match readString? rest with
      | none => none
      | some (s, after') => some (c :: s, after')
termination_by cs.length
decreasing_by
  · have := readEscape?_length_lt _h; simp; omega
  · simp

theorem readString?_quote (cs : List Char) : readString? ('"' :: cs) = some ([], cs) := by
  rw [readString?, if_pos rfl]

theorem readString?_control {c : Char} (hquote : c ≠ '"') (hcontrol : c.toNat < 0x20)
    (cs : List Char) : readString? (c :: cs) = none := by
  rw [readString?, if_neg hquote, if_pos hcontrol]

/-- A character that needs no escape is read as it stands. -/
theorem readString?_plain {c : Char} (hquote : c ≠ '"') (hcontrol : ¬c.toNat < 0x20)
    (hescape : c ≠ '\\') (cs : List Char) :
    readString? (c :: cs) = (readString? cs).map fun p => (c :: p.1, p.2) := by
  rw [readString?, if_neg hquote, if_neg hcontrol, if_neg hescape]
  cases readString? cs <;> rfl

/-- An escape stands for one character. -/
theorem readString?_backslash (cs : List Char) :
    readString? ('\\' :: cs) =
      (readEscape? cs).bind fun e => (readString? e.2).map fun p => (e.1 :: p.1, p.2) := by
  rw [readString?, if_neg (by decide), if_neg (by decide), if_pos rfl]
  split
  · next hnone => rw [hnone, Option.bind_none]
  · next e after hsome =>
    rw [hsome, Option.bind_some]
    cases readString? after <;> rfl

theorem readString?_length_lt {cs s rest : List Char} (h : readString? cs = some (s, rest)) :
    rest.length < cs.length := by
  induction hlength : cs.length using Nat.strongRecOn generalizing cs s with
  | ind length ih =>
    subst hlength
    cases cs with
    | nil =>
      rw [readString?] at h
      cases h
    | cons c tail =>
      by_cases hquote : c = '"'
      · rw [hquote, readString?_quote] at h
        cases h
        exact Nat.lt_succ_self _
      by_cases hcontrol : c.toNat < 0x20
      · rw [readString?_control hquote hcontrol] at h
        cases h
      by_cases hescape : c = '\\'
      · rw [hescape, readString?_backslash] at h
        obtain ⟨⟨e, after⟩, he, h⟩ := Option.bind_eq_some_iff.1 h
        obtain ⟨⟨more, last⟩, hmore, h⟩ := Option.map_eq_some_iff.1 h
        cases h
        have hafter := readEscape?_length_lt he
        have hlast := ih after.length (Nat.lt_succ_of_lt hafter) hmore rfl
        exact Nat.lt_succ_of_lt (Nat.lt_trans hlast hafter)
      · rw [readString?_plain hquote hcontrol hescape] at h
        obtain ⟨⟨more, last⟩, hmore, h⟩ := Option.map_eq_some_iff.1 h
        cases h
        exact Nat.lt_succ_of_lt (ih tail.length (Nat.lt_succ_self _) hmore rfl)

/-- The digits at the start of a text. -/
def digits (cs : List Char) : List Nat × List Char :=
  ((cs.takeWhile Char.isDigit).filterMap Text.digit?, cs.dropWhile Char.isDigit)

/-- A fraction, if a point stands here; a point without digits is an error. -/
def readFraction? : List Char → Option (Option (List Nat) × List Char)
  | '.' :: cs =>
    match digits cs with
    | ([], _) => none
    | (ds, rest) => some (some ds, rest)
  | cs => some (none, cs)

/-- A sign and digits. -/
def readSigned? : List Char → Option (Int × List Char)
  | '-' :: cs =>
    match digits cs with
    | ([], _) => none
    | (ds, rest) => some (-(Text.ofDigits 10 ds : Int), rest)
  | cs =>
    match digits (if cs.head? = some '+' then cs.tail else cs) with
    | ([], _) => none
    | (ds, rest) => some (Text.ofDigits 10 ds, rest)

/-- An exponent, if its mark stands here. -/
def readExponent? : List Char → Option (Option Int × List Char)
  | 'e' :: cs => (readSigned? cs).map fun (n, rest) => (some n, rest)
  | 'E' :: cs => (readSigned? cs).map fun (n, rest) => (some n, rest)
  | cs => some (none, cs)

/-- A number after its sign. -/
def readNumber? (negative : Bool) (cs : List Char) : Option (Number × List Char) := do
  let (whole, rest) := digits cs
  let (fraction, rest) ← readFraction? rest
  let (exponent, rest) ← readExponent? rest
  match whole with
  | [] => none
  | 0 :: _ :: _ => none
  | _ =>
    let n := Text.ofDigits 10 whole
    match fraction, exponent with
    | none, none =>
      some (if negative && n == 0 then .decimal true 0 0
        else .whole (if negative then -(n : Int) else n), rest)
    | _, _ =>
      let places := fraction.getD []
      some (.decimal negative (Text.ofDigits 10 (whole ++ places))
        (exponent.getD 0 - places.length), rest)

/-- The mark that is a character of its own. -/
def markOf? : Char → Option Mark
  | '[' => some .openList
  | ']' => some .closeList
  | '{' => some .openRecord
  | '}' => some .closeRecord
  | ',' => some .comma
  | ':' => some .colon
  | _ => none

/-- A value that is a word. -/
def readWord? : List Char → Option (Value × List Char)
  | 'n' :: 'u' :: 'l' :: 'l' :: cs => some (.null, cs)
  | 't' :: 'r' :: 'u' :: 'e' :: cs => some (.bool true, cs)
  | 'f' :: 'a' :: 'l' :: 's' :: 'e' :: cs => some (.bool false, cs)
  | _ => none

/-- A scalar. -/
def readScalar? : List Char → Option (Value × List Char)
  | [] => none
  | c :: cs =>
    if c = '"' then (readString? cs).map fun p => (.text (String.ofList p.1), p.2)
    else if c = '-' then (readNumber? true cs).map fun p => (.number p.1, p.2)
    else if c.isDigit then (readNumber? false (c :: cs)).map fun p => (.number p.1, p.2)
    else readWord? (c :: cs)

/-- One mark or scalar. -/
def readMark? : List Char → Option (Mark × List Char)
  | [] => none
  | c :: cs =>
    match markOf? c with
    | some m => some (m, cs)
    | none => (readScalar? (c :: cs)).map fun p => (.scalar p.1, p.2)

theorem digits_length_le (cs : List Char) : (digits cs).2.length ≤ cs.length :=
  (List.dropWhile_sublist Char.isDigit).length_le

theorem digits_length_lt {cs : List Char} (h : (digits cs).1 ≠ []) :
    (digits cs).2.length < cs.length := by
  cases cs with
  | nil => simp [digits] at h
  | cons c cs =>
    have hc : c.isDigit = true := by
      cases hd : c.isDigit with
      | true => rfl
      | false => simp [digits, hd] at h
    have := digits_length_le cs
    simp [digits, hc] at this ⊢; omega

/-- A text is no longer where its digits have been taken away. -/
theorem length_le_of_digits {cs rest : List Char} {ds : List Nat} (h : digits cs = (ds, rest)) :
    rest.length ≤ cs.length := by
  have := digits_length_le cs
  rwa [h] at this

theorem readFraction?_length_le {cs rest : List Char} {ds : Option (List Nat)}
    (h : readFraction? cs = some (ds, rest)) : rest.length ≤ cs.length := by
  unfold readFraction? at h
  split at h
  · split at h
    · cases h
    · next hdigits =>
      cases h
      exact Nat.le_succ_of_le (length_le_of_digits hdigits)
  · cases h
    exact Nat.le_refl _

theorem readSigned?_length_le {cs rest : List Char} {n : Int}
    (h : readSigned? cs = some (n, rest)) : rest.length ≤ cs.length := by
  unfold readSigned? at h
  split at h
  · split at h
    · cases h
    · next hdigits =>
      cases h
      exact Nat.le_succ_of_le (length_le_of_digits hdigits)
  · split at h
    · cases h
    · next hdigits =>
      cases h
      refine Nat.le_trans (length_le_of_digits hdigits) ?_
      split
      · exact List.length_tail ▸ Nat.sub_le _ _
      · exact Nat.le_refl _

theorem readExponent?_length_le {cs rest : List Char} {n : Option Int}
    (h : readExponent? cs = some (n, rest)) : rest.length ≤ cs.length := by
  have hmark : ∀ {tail : List Char} {p : Int × List Char}, readSigned? tail = some p →
      ∀ c : Char, p.2.length ≤ (c :: tail).length :=
    fun hsigned _ => Nat.le_succ_of_le (readSigned?_length_le hsigned)
  unfold readExponent? at h
  split at h
  · obtain ⟨p, hsigned, h⟩ := Option.map_eq_some_iff.1 h
    cases h
    exact hmark hsigned _
  · obtain ⟨p, hsigned, h⟩ := Option.map_eq_some_iff.1 h
    cases h
    exact hmark hsigned _
  · cases h
    exact Nat.le_refl _

/-- A number consists of digits, a fraction and an exponent. -/
theorem readNumber?_cases {negative : Bool} {cs rest : List Char} {n : Number}
    (h : readNumber? negative cs = some (n, rest)) :
    (digits cs).1 ≠ [] ∧ ∃ fraction after exponent,
      readFraction? (digits cs).2 = some (fraction, after) ∧
        readExponent? after = some (exponent, rest) := by
  rw [readNumber?] at h
  generalize digits cs = found at h ⊢
  obtain ⟨whole, tail⟩ := found
  obtain ⟨⟨fraction, after⟩, hfraction, h⟩ := Option.bind_eq_some_iff.1 h
  obtain ⟨⟨exponent, last⟩, hexponent, h⟩ := Option.bind_eq_some_iff.1 h
  dsimp only at h
  split at h
  · cases h
  · cases h
  · next hsome _ =>
    refine ⟨hsome, fraction, after, exponent, hfraction, ?_⟩
    split at h <;> cases h <;> exact hexponent

theorem readNumber?_length_lt {negative : Bool} {cs rest : List Char} {n : Number}
    (h : readNumber? negative cs = some (n, rest)) : rest.length < cs.length := by
  obtain ⟨hdigits, fraction, after, exponent, hfraction, hexponent⟩ := readNumber?_cases h
  exact Nat.lt_of_le_of_lt
    (Nat.le_trans (readExponent?_length_le hexponent) (readFraction?_length_le hfraction))
    (digits_length_lt hdigits)

theorem readWord?_length_lt {cs rest : List Char} {v : Value}
    (h : readWord? cs = some (v, rest)) : rest.length < cs.length := by
  unfold readWord? at h
  split at h <;> cases h <;> simp only [List.length_cons] <;> omega

theorem readScalar?_length_lt {cs rest : List Char} {v : Value}
    (h : readScalar? cs = some (v, rest)) : rest.length < cs.length := by
  cases cs with
  | nil => cases h
  | cons c cs =>
    rw [readScalar?] at h
    by_cases hquote : c = '"'
    · rw [if_pos hquote] at h
      obtain ⟨p, hstring, h⟩ := Option.map_eq_some_iff.1 h
      cases h
      exact Nat.lt_succ_of_lt (readString?_length_lt hstring)
    rw [if_neg hquote] at h
    by_cases hminus : c = '-'
    · rw [if_pos hminus] at h
      obtain ⟨p, hnumber, h⟩ := Option.map_eq_some_iff.1 h
      cases h
      exact Nat.lt_succ_of_lt (readNumber?_length_lt hnumber)
    rw [if_neg hminus] at h
    by_cases hdigit : c.isDigit = true
    · rw [if_pos hdigit] at h
      obtain ⟨p, hnumber, h⟩ := Option.map_eq_some_iff.1 h
      cases h
      exact readNumber?_length_lt hnumber
    · rw [if_neg hdigit] at h
      exact readWord?_length_lt h

theorem readMark?_length_lt {cs rest : List Char} {m : Mark}
    (h : readMark? cs = some (m, rest)) : rest.length < cs.length := by
  cases cs with
  | nil => cases h
  | cons c cs =>
    rw [readMark?] at h
    cases hmark : markOf? c with
    | some mark =>
      rw [hmark] at h
      cases h
      exact Nat.lt_succ_self _
    | none =>
      rw [hmark] at h
      obtain ⟨p, hscalar, h⟩ := Option.map_eq_some_iff.1 h
      cases h
      exact readScalar?_length_lt hscalar

/-- The marks and scalars of a text. -/
def marks? (cs : List Char) : Option (List Mark) :=
  match cs with
  | [] => some []
  | c :: rest =>
    if isSpace c then marks? rest
    else
      match _h : readMark? (c :: rest) with
      | none => none
      | some (m, after) => (marks? after).map (m :: ·)
termination_by cs.length
decreasing_by
  · simp
  · exact readMark?_length_lt _h

/-- A list or record that is still open, with its items in reverse. -/
inductive Frame where
  | list (items : List Value)
  /-- The member with the key is being read. -/
  | record (members : List (String × Value)) (key : String)

mutual

/-- Reads a value; at most `limit` lists and records may be open. -/
def readValue? (limit : Nat) (stack : List Frame) : List Mark → Option Value
  | .scalar v :: rest => deliver? limit v stack rest
  | .openList :: .closeList :: rest =>
    if stack.length < limit then deliver? limit (.list []) stack rest else none
  | .openList :: rest =>
    if stack.length < limit then readValue? limit (.list [] :: stack) rest else none
  | .openRecord :: .closeRecord :: rest =>
    if stack.length < limit then deliver? limit (.record []) stack rest else none
  | .openRecord :: .scalar (.text key) :: .colon :: rest =>
    if stack.length < limit then readValue? limit (.record [] key :: stack) rest else none
  | _ => none

/-- Puts a value into the innermost open list or record. -/
def deliver? (limit : Nat) (v : Value) : List Frame → List Mark → Option Value
  | [], [] => some v
  | .list items :: stack, .comma :: rest => readValue? limit (.list (v :: items) :: stack) rest
  | .list items :: stack, .closeList :: rest =>
    deliver? limit (.list (v :: items).reverse) stack rest
  | .record members key :: stack, .comma :: .scalar (.text next) :: .colon :: rest =>
    readValue? limit (.record ((key, v) :: members) next :: stack) rest
  | .record members key :: stack, .closeRecord :: rest =>
    deliver? limit (.record ((key, v) :: members).reverse) stack rest
  | _, _ => none

end

/-- How many lists and records may be open in a document. -/
def nestingLimit : Nat := 127

/-- Reads a document with at most `limit` open lists and records. -/
def readWithin? (limit : Nat) (s : String) : Option Value :=
  (marks? s.toList).bind (readValue? limit [])

/-- Reads a document. -/
def read? (s : String) : Option Value :=
  readWithin? nestingLimit s

/-! ## Writing -/

/-- A character of a string. -/
def writeChar (c : Char) : List Char :=
  if c = '"' then ['\\', '"']
  else if c = '\\' then ['\\', '\\']
  else if c = '\x08' then ['\\', 'b']
  else if c = '\x0c' then ['\\', 'f']
  else if c = '\n' then ['\\', 'n']
  else if c = '\r' then ['\\', 'r']
  else if c = '\t' then ['\\', 't']
  else if c.toNat < 0x20 then
    ['\\', 'u', '0', '0', Nat.digitChar (c.toNat / 16), Nat.digitChar (c.toNat % 16)]
  else [c]

/-- A string. -/
def writeString (s : String) : List Char :=
  '"' :: s.toList.flatMap writeChar ++ ['"']

/-- A decimal number: with a point and a digit behind it from `10 ^ -6` up to `10 ^ 13`, and with an
exponent otherwise. -/
def writeDecimal (digits : Nat) (exponent : Int) : List Char :=
  let before : Int := exponent + ((Nat.toDigits 10 digits).length : Int)
  if -6 < before ∧ before ≤ 13 then
    (Decimal.positionalDigits digits exponent).toList ++
      if 0 ≤ exponent then ['.', '0'] else []
  else (Decimal.scientificDigits digits exponent).toList

/-- A number; what is not finite is null. -/
def writeNumber : Number → List Char
  | .whole n => (if n < 0 then ['-'] else []) ++ Nat.toDigits 10 n.natAbs
  | .decimal negative digits exponent =>
    (if negative then ['-'] else []) ++ writeDecimal digits exponent
  | .infinite _ => "null".toList
  | .notANumber => "null".toList

mutual

/-- A value. -/
def writeValue : Value → List Char
  | .null => "null".toList
  | .bool b => if b then "true".toList else "false".toList
  | .number n => writeNumber n
  | .text s => writeString s
  | .list items => '[' :: writeItems items
  | .record members => '{' :: writeMembers members

/-- The items of a list with its closing bracket. -/
def writeItems : List Value → List Char
  | [] => [']']
  | [v] => writeValue v ++ [']']
  | v :: w :: vs => writeValue v ++ ',' :: writeItems (w :: vs)

/-- The members of a record with its closing bracket. -/
def writeMembers : List (String × Value) → List Char
  | [] => ['}']
  | [(k, v)] => writeString k ++ ':' :: writeValue v ++ ['}']
  | (k, v) :: m :: ms => writeString k ++ ':' :: writeValue v ++ ',' :: writeMembers (m :: ms)

end

/-- A document. -/
def write (v : Value) : String :=
  String.ofList (writeValue v)

end CriticalCss.Data.Json
