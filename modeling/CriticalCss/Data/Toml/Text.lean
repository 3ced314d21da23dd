import CriticalCss.Text.Letter

/-!
# Strings, comments and line ends of TOML

A basic string has escapes, a literal string has none, and both may span lines between three quotes.
What is read here never leaves out a character silently: a character that may not stand where it does
is a fault.
-/

namespace CriticalCss.Data.Toml

/-- A space or a tab. -/
def isBlank (c : Char) : Bool :=
  c == ' ' || c == '\t'

/-- Drops spaces and tabs. -/
def skipBlanks (cs : List Char) : List Char :=
  cs.dropWhile isBlank

/-- Characters that may stand in a comment or a string; only the tab is a control. -/
def isPlain (c : Char) : Bool :=
  c == '\t' || (0x20 ≤ c.toNat && c.toNat ≠ 0x7f)

/-- Drops a comment, if there is one. -/
def skipComment : List Char → List Char
  | '#' :: cs => cs.dropWhile isPlain
  | cs => cs

/-- Drops a line end. -/
def newline? : List Char → Option (List Char)
  | '\n' :: cs => some cs
  | '\r' :: '\n' :: cs => some cs
  | _ => none

/-- Drops what may stand at the end of a line, and the line end unless the text ends here. -/
def endLine? (cs : List Char) : Option (List Char) :=
  match skipComment (skipBlanks cs) with
  | [] => some []
  | rest => newline? rest

/-- Drops blanks, comments and line ends, at most as many as the first argument allows. -/
def skipLinesWithin : Nat → List Char → List Char
  | 0, cs => cs
  | n + 1, cs =>
    let rest := skipComment (skipBlanks cs)
    match newline? rest with
    | some after => skipLinesWithin n after
    | none => rest

/-- Drops blanks, comments and line ends. -/
def skipLines (cs : List Char) : List Char :=
  skipLinesWithin cs.length cs

/-- The character with a code point written in hexadecimal digits. -/
def scalar? (digits : List Char) : Option Char := do
  let n := Text.ofDigits 16 (← digits.mapM Text.hexDigit?)
  if n.isValidChar then some (Char.ofNat n) else none

/-- Reads what follows the backslash of an escape. -/
def escape? : List Char → Option (Char × List Char)
  | 'b' :: cs => some ('\x08', cs)
  | 't' :: cs => some ('\t', cs)
  | 'n' :: cs => some ('\n', cs)
  | 'f' :: cs => some ('\x0c', cs)
  | 'r' :: cs => some ('\r', cs)
  | '"' :: cs => some ('"', cs)
  | '\\' :: cs => some ('\\', cs)
  | 'u' :: a :: b :: c :: d :: cs => (scalar? [a, b, c, d]).map fun x => (x, cs)
  | 'U' :: a :: b :: c :: d :: e :: f :: g :: h :: cs =>
    (scalar? [a, b, c, d, e, f, g, h]).map fun x => (x, cs)
  | _ => none

/-- Whether only blanks stand before the end of this line. -/
def endsLine (cs : List Char) : Bool :=
  (newline? (skipBlanks cs)).isSome

/-- Where a string stands: on one line, or on several lines.  In the latter case blanks and line ends
may have to be dropped after a backslash at the end of a line. -/
inductive Span where
  | line
  | lines (dropping : Bool)

/-- Reads a basic string after its opening quotes. -/
def basic? (span : Span) (limit : Nat) (cs : List Char) : Option (List Char × List Char) :=
  match limit, span, cs with
  | 0, _, _ => none
  | _, _, [] => none
  | n + 1, .lines true, c :: rest =>
    if isBlank c then basic? span n rest
    else
      match newline? (c :: rest) with
      | some after => basic? span n after
      | none => basic? (.lines false) n (c :: rest)
  | _, .line, '"' :: rest => some ([], rest)
  | _, .lines false, '"' :: '"' :: '"' :: '"' :: '"' :: rest => some (['"', '"'], rest)
  | _, .lines false, '"' :: '"' :: '"' :: '"' :: rest => some (['"'], rest)
  | _, .lines false, '"' :: '"' :: '"' :: rest => some ([], rest)
  | n + 1, .lines false, '\\' :: rest =>
    if endsLine rest then basic? (.lines true) n rest
    else do
      let (c, after) ← escape? rest
      let (s, after) ← basic? span n after
      return (c :: s, after)
  | n + 1, .line, '\\' :: rest => do
    let (c, after) ← escape? rest
    let (s, after) ← basic? span n after
    return (c :: s, after)
  | n + 1, _, c :: rest =>
    if isPlain c then do
      let (s, after) ← basic? span n rest
      return (c :: s, after)
    else
      match span, newline? (c :: rest) with
      | .lines _, some after => do
        let (s, after) ← basic? span n after
        return ('\n' :: s, after)
      | _, _ => none

/-- Reads a literal string on several lines after its opening quotes. -/
def literalLines? : List Char → Option (List Char × List Char)
  | '\'' :: '\'' :: '\'' :: '\'' :: '\'' :: rest => some (['\'', '\''], rest)
  | '\'' :: '\'' :: '\'' :: '\'' :: rest => some (['\''], rest)
  | '\'' :: '\'' :: '\'' :: rest => some ([], rest)
  | '\r' :: '\n' :: rest => (literalLines? rest).map fun p => ('\n' :: p.1, p.2)
  | c :: rest =>
    if isPlain c || c == '\n' then (literalLines? rest).map fun p => (c :: p.1, p.2) else none
  | [] => none

/-- Reads a literal string on one line after its opening quote. -/
def literal? : List Char → Option (List Char × List Char)
  | '\'' :: rest => some ([], rest)
  | c :: rest => if isPlain c then (literal? rest).map fun p => (c :: p.1, p.2) else none
  | [] => none

/-- Drops a line end, if there is one. -/
def dropNewline (cs : List Char) : List Char :=
  (newline? cs).getD cs

/-- Reads a string on one line. -/
def lineString? : List Char → Option (String × List Char)
  | '"' :: rest =>
    (basic? .line (rest.length + 1) rest).map fun p => (String.ofList p.1, p.2)
  | '\'' :: rest => (literal? rest).map fun p => (String.ofList p.1, p.2)
  | _ => none

/-- Reads a string. -/
def string? : List Char → Option (String × List Char)
  | '"' :: '"' :: '"' :: rest =>
    let cs := dropNewline rest
    (basic? (.lines false) (2 * cs.length + 1) cs).map fun p => (String.ofList p.1, p.2)
  | '\'' :: '\'' :: '\'' :: rest =>
    (literalLines? (dropNewline rest)).map fun p => (String.ofList p.1, p.2)
  | cs => lineString? cs

end CriticalCss.Data.Toml
