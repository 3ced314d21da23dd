import CriticalCss.Text.Letter
import CriticalCss.Url.Domain
import CriticalCss.Url.Percent

/-!
# Hosts

The host of an address is a name, four bytes or eight pieces of 16 bits.  `Host.read?` reads the
host of an address with a special scheme, `Host.readPlain?` that of any other.  A name whose last
part is a number is read as four bytes or not at all.
-/

namespace CriticalCss

/-- What an address names between its slashes. -/
inductive Host where
  | name (text : String)
  | bytes (number : Nat)
  | pieces (numbers : List Nat)
deriving DecidableEq

namespace Host

/-- Reads a number in decimal, octal after `0` or hexadecimal after `0x`. -/
def number? (cs : List Char) : Option Nat :=
  let digits? (base : Nat) (cs : List Char) : Option Nat := do
    let digits ← cs.mapM Text.hexDigit?
    if digits.all (· < base) then some (Text.ofDigits base digits) else none
  match cs with
  | [] => none
  | '0' :: 'x' :: cs => digits? 16 cs
  | '0' :: 'X' :: cs => digits? 16 cs
  | '0' :: c :: cs => digits? 8 (c :: cs)
  | cs => digits? 10 cs

/-- The parts of a name between its points, without the empty part after a last point. -/
def parts (name : List Char) : List (List Char) :=
  let all := Domain.labels name
  if 1 < all.length ∧ all.getLast? = some [] then all.dropLast else all

/-- Whether the last part of a name is a number. -/
def endsInNumber (name : List Char) : Bool :=
  match (parts name).getLast? with
  | none => false
  | some part => (part ≠ [] ∧ part.all Char.isDigit) || (number? part).isSome

/-- The four bytes that up to four numbers stand for, the last of them for all that are left. -/
def ofNumbers? (numbers : List Nat) : Option Nat :=
  match numbers.getLast? with
  | none => none
  | some last =>
    let front := numbers.dropLast
    if 3 < front.length ∨ front.any (255 < ·) ∨ Nat.pow 256 (4 - front.length) ≤ last then none
    else some (Text.ofDigits 256 front * Nat.pow 256 (4 - front.length) + last)

/-- Reads four bytes. -/
def bytes? (name : List Char) : Option Host := do
  let numbers ← (parts name).mapM number?
  let number ← ofNumbers? numbers
  return .bytes number

/-- The parts of a text between colons. -/
def pieceTexts : List Char → List (List Char)
  | [] => [[]]
  | c :: cs =>
    match pieceTexts cs with
    | [] => [[c]]
    | part :: more => if c = ':' then [] :: part :: more else (c :: part) :: more

/-- A decimal byte without leading zeros. -/
def byte? (cs : List Char) : Option Nat := do
  let digits ← cs.mapM Text.digit?
  let n := Text.ofDigits 10 digits
  if cs = [] ∨ (cs.head? = some '0' ∧ cs ≠ ['0']) ∨ 255 < n then none else some n

/-- One piece: up to four hexadecimal digits. -/
def piece? (cs : List Char) : Option Nat := do
  let digits ← cs.mapM Text.hexDigit?
  if cs = [] ∨ 4 < cs.length then none else some (Text.ofDigits 16 digits)

/-- The last part between colons: one piece, or four bytes that make two. -/
def lastPieces? (cs : List Char) : Option (List Nat) :=
  if cs.contains '.' then
    match (Domain.labels cs).mapM byte? with
    | some [a, b, c, d] => some [a * 256 + b, c * 256 + d]
    | _ => none
  else (piece? cs).map ([·])

/-- The pieces between colons, where the last part may be four bytes if `bytes` says so. -/
def someUnlessEmpty? (bytes : Bool) (cs : List Char) : Option (List Nat) :=
  if cs = [] then some []
  else
    let texts := pieceTexts cs
    do
      let front ← texts.dropLast.mapM piece?
      let last ← match texts.getLast? with
        | none => none
        | some last => if bytes then lastPieces? last else (piece? last).map ([·])
      return front ++ last

/-- A text up to the first `::`, and the text after it if there is one. -/
def splitPair : List Char → List Char × Option (List Char)
  | [] => ([], none)
  | ':' :: ':' :: cs => ([], some cs)
  | c :: cs => let (left, right) := splitPair cs; (c :: left, right)

/-- Reads eight pieces; `::` stands for one or more that are zero. -/
def pieces? (cs : List Char) : Option Host := do
  match splitPair cs with
  | (_, none) =>
    let all ← someUnlessEmpty? true cs
    if all.length = 8 then some (.pieces all) else none
  | (left, some right) =>
    let front ← someUnlessEmpty? false left
    let back ← someUnlessEmpty? true right
    let count := front.length + back.length
    if 7 < count then none else some (.pieces (front ++ List.replicate (8 - count) 0 ++ back))

/-- The text between brackets, if a text begins with one. -/
def bracketed? : List Char → Option (Option (List Char))
  | '[' :: cs => some (if cs.getLast? = some ']' then some cs.dropLast else none)
  | _ => none

/-- Reads the host of an address with a special scheme. -/
def read? (cs : List Char) : Option Host :=
  match bracketed? cs with
  | some inside => inside.bind pieces?
  | none => do
    let name ← Domain.toAscii? (← Text.fromBytes? (Percent.bytes cs))
    if name = [] then none
    else if endsInNumber name then bytes? name
    else some (.name (String.ofList name))

/-- Characters that no host has. -/
def isForbidden (c : Char) : Bool :=
  c ∈ ['\x00', '\t', '\n', '\r', ' ', '#', '/', ':', '<', '>', '?', '@', '[', '\\', ']', '^', '|']

/-- Reads the host of an address with any other scheme; it may be empty. -/
def readPlain? (cs : List Char) : Option Host :=
  match bracketed? cs with
  | some inside => inside.bind pieces?
  | none =>
    if cs.any isForbidden then none
    else some (.name (String.ofList (Percent.encode Percent.isControl cs)))

/-- How many zeros a list begins with. -/
def zeros (numbers : List Nat) : Nat :=
  (numbers.takeWhile (· = 0)).length

/-- Where the first of the longest runs of zeros begins, and its length. -/
def longestZeros (numbers : List Nat) : Nat × Nat :=
  (List.range numbers.length).foldl
    (fun best i =>
      let n := zeros (numbers.drop i)
      if best.2 < n then (i, n) else best)
    (0, 0)

/-- The text of eight pieces; the longest run of two or more zeros is written as `::`. -/
def piecesText (numbers : List Nat) : String :=
  let join (numbers : List Nat) := ":".intercalate (numbers.map Text.hex)
  let (start, length) := longestZeros numbers
  if length < 2 then join numbers
  else join (numbers.take start) ++ "::" ++ join (numbers.drop (start + length))

/-- The text of a host. -/
def text : Host → String
  | .name text => text
  | .bytes n =>
    ".".intercalate ([n / 16777216, n / 65536 % 256, n / 256 % 256, n % 256].map Text.ofNat)
  | .pieces numbers => "[" ++ piecesText numbers ++ "]"

end Host

end CriticalCss
