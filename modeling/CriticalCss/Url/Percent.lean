import CriticalCss.Text.Letter
import CriticalCss.Text.Utf8

/-!
# Percent-encoding

`Percent.encode` writes the bytes of a character as `%` and two upper-case hexadecimal digits where
the character is in a given set.  The sets are those of the parts of an address.  `Percent.bytes`
reads text back into bytes; a `%` that no two digits follow stands for itself.
-/

namespace CriticalCss.Percent

/-- Control characters and everything outside the ASCII range. -/
def isControl (c : Char) : Bool :=
  c.toNat < 0x20 || 0x7F ≤ c.toNat

/-- What is encoded in the part after `#`. -/
def inFragment (c : Char) : Bool :=
  isControl c || c ∈ [' ', '"', '<', '>', (Char.ofNat 0x60)]

/-- What is encoded in a path. -/
def inPath (c : Char) : Bool :=
  inFragment c || c ∈ ['#', '?', '{', '}']

/-- What is encoded in the name and password of a user. -/
def inUser (c : Char) : Bool :=
  inPath c || c ∈ ['/', ':', ';', '=', '@', '[', '\\', ']', '^', '|']

/-- What is encoded in a query. -/
def inQuery (c : Char) : Bool :=
  isControl c || c ∈ [' ', '"', '#', '<', '>']

/-- What is encoded in the query of an address with a special scheme. -/
def inSpecialQuery (c : Char) : Bool :=
  inQuery c || c = '\''

/-- The text with the characters of a set encoded. -/
def encode (set : Char → Bool) (cs : List Char) : List Char :=
  cs.flatMap fun c =>
    if set c then (Text.bytes c).flatMap fun b => '%' :: Text.hexByte b else [c]

/-- The bytes that a text with encoded characters stands for. -/
def bytes : List Char → List Nat
  | [] => []
  | '%' :: a :: b :: cs =>
    match Text.hexDigit? a, Text.hexDigit? b with
    | some m, some n => (16 * m + n) :: bytes cs
    | _, _ => 0x25 :: bytes (a :: b :: cs)
  | c :: cs => Text.bytes c ++ bytes cs

end CriticalCss.Percent
