import CriticalCss.Data.Toml.Text
import CriticalCss.Data.Value
import CriticalCss.Token.Number

/-!
# Numbers, dates and truth values of TOML

These values are written without blanks inside, apart from the one that may stand between a date and a
time.  Digits may be parted by single underscores.
-/

namespace CriticalCss.Data.Toml

/-- Characters of the values that are not strings. -/
def isWordChar (c : Char) : Bool :=
  c.isAlphanum || c == '_' || c == '+' || c == '-' || c == '.' || c == ':'

/-- Removes the underscores between digits; none may stand anywhere else. -/
def joinDigits? (isDigit : Char → Bool) : List Char → Option (List Char)
  | [] => none
  | [c] => if isDigit c then some [c] else none
  | c :: '_' :: rest => if isDigit c then (joinDigits? isDigit rest).map (c :: ·) else none
  | c :: rest => if isDigit c then (joinDigits? isDigit rest).map (c :: ·) else none

/-- The value of digits, which underscores may part. -/
def digits? (base : Nat) (cs : List Char) : Option Nat := do
  let digit? (c : Char) : Option Nat := (Text.hexDigit? c).filter (· < base)
  let ds ← joinDigits? (fun c => (digit? c).isSome) cs
  return Text.ofDigits base (ds.filterMap digit?)

/-- Digits that do not begin with a superfluous zero. -/
def plainDigits? (cs : List Char) : Option (List Char) := do
  let ds ← joinDigits? Char.isDigit cs
  if ds.head? = some '0' ∧ cs ≠ ['0'] then none else some ds

/-- A whole number that fits in 64 bits. -/
def fitting? (n : Int) : Option Value :=
  if -9223372036854775808 ≤ n ∧ n ≤ 9223372036854775807 then some (.number (.whole n)) else none

/-- Reads a whole number. -/
def whole? (cs : List Char) : Option Value :=
  match cs with
  | '0' :: 'x' :: ds => (digits? 16 ds).bind fun n => fitting? n
  | '0' :: 'o' :: ds => (digits? 8 ds).bind fun n => fitting? n
  | '0' :: 'b' :: ds => (digits? 2 ds).bind fun n => fitting? n
  | _ => do
    let (_, negative, ds) := Token.takeSign cs
    let size : Int := Text.ofDigits 10 ((← plainDigits? ds).filterMap Text.digit?)
    fitting? (if negative then -size else size)

/-- Reads an exponent after its mark. -/
def exponent? (cs : List Char) : Option Int := do
  let (_, negative, ds) := Token.takeSign cs
  let size : Int := (← digits? 10 ds)
  return if negative then -size else size

/-- A number with a fraction or an exponent; it has to be in the range of double precision, unless it
is negative. -/
def finite? (negative : Bool) (digits : Nat) (exponent : Int) : Option Value :=
  let n : Number := .decimal negative digits exponent
  if n.toFloat32?.isSome then some (.number n)
  else if negative then some (.number (.infinite true)) else none

/-- Reads a number with a fraction or an exponent. -/
def decimal? (cs : List Char) : Option Value := do
  let (_, negative, body) := Token.takeSign cs
  if body = "inf".toList then return .number (.infinite negative)
  if body = "nan".toList then return .number .notANumber
  let mantissa := body.takeWhile fun c => c ≠ 'e' ∧ c ≠ 'E'
  let before := mantissa.takeWhile (· ≠ '.')
  let whole ← plainDigits? before
  let fraction ← match mantissa.drop before.length with
    | [] => some []
    | _ :: ds => joinDigits? Char.isDigit ds
  let exponent ← match body.drop mantissa.length with
    | [] => if fraction = [] then none else some 0
    | _ :: ds => exponent? ds
  finite? negative (Text.ofDigits 10 ((whole ++ fraction).filterMap Text.digit?))
    (exponent - (fraction.length : Int))

/-! ## Dates and times -/

/-- Reads two digits with a value of at most a bound. -/
def twoDigits? (bound : Nat) : List Char → Option (Nat × List Char)
  | a :: b :: cs => do
    let n := 10 * (← Text.digit? a) + (← Text.digit? b)
    if n ≤ bound then some (n, cs) else none
  | _ => none

/-- How many days a month has. -/
def daysInMonth (year month : Nat) : Nat :=
  if month = 2 then
    if year % 4 = 0 ∧ (year % 100 ≠ 0 ∨ year % 400 = 0) then 29 else 28
  else if [4, 6, 9, 11].contains month then 30
  else 31

/-- Drops a date. -/
def dropDate? (cs : List Char) : Option (List Char) := do
  let (century, cs) ← twoDigits? 99 cs
  let (year, cs) ← twoDigits? 99 cs
  let '-' :: cs := cs | none
  let (month, cs) ← twoDigits? 12 cs
  let '-' :: cs := cs | none
  let (day, cs) ← twoDigits? 31 cs
  if month = 0 ∨ day = 0 ∨ daysInMonth (100 * century + year) month < day then none else some cs

/-- Drops a time. -/
def dropTime? (cs : List Char) : Option (List Char) := do
  let (_, cs) ← twoDigits? 23 cs
  let ':' :: cs := cs | none
  let (_, cs) ← twoDigits? 59 cs
  let ':' :: cs := cs | none
  let (_, cs) ← twoDigits? 60 cs
  match cs with
  | '.' :: ds => if ds.head?.any Char.isDigit then some (ds.dropWhile Char.isDigit) else none
  | _ => some cs

/-- Whether the text is a time, with or without an offset. -/
def isTime (cs : List Char) (offset : Bool) : Bool :=
  match dropTime? cs with
  | none => false
  | some [] => true
  | some ['Z'] => offset
  | some ['z'] => offset
  | some (c :: rest) =>
    offset && (c == '+' || c == '-') &&
      match twoDigits? 23 rest with
      | some (_, ':' :: minutes) => (twoDigits? 59 minutes).any (·.2.isEmpty)
      | _ => false

/-- Whether the text is a date, a time, or both. -/
def isMoment (cs : List Char) : Bool :=
  isTime cs false ||
    match dropDate? cs with
    | none => false
    | some [] => true
    | some (c :: rest) => (c == 'T' || c == 't' || c == ' ') && isTime rest true

/-- A date or a time; it is a record that has none of the fields anybody asks for. -/
def moment (cs : List Char) : Value :=
  .record [("moment", .text (String.ofList cs))]

/-- The value of a word. -/
def word? (cs : List Char) : Option Value :=
  if cs = "true".toList then some (.bool true)
  else if cs = "false".toList then some (.bool false)
  else if isMoment cs then some (moment cs)
  else whole? cs <|> decimal? cs

/-- Reads a value that is neither a string nor has other values inside. -/
def scalar (cs : List Char) : Option (Value × List Char) :=
  let first := cs.takeWhile isWordChar
  let rest := cs.drop first.length
  match dropDate? first, rest with
  | some [], ' ' :: c :: after =>
    if c.isDigit then
      let second := (c :: after).takeWhile isWordChar
      (word? (first ++ ' ' :: second)).map fun v => (v, (c :: after).drop second.length)
    else (word? first).map fun v => (v, rest)
  | _, _ => (word? first).map fun v => (v, rest)

end CriticalCss.Data.Toml
