import CriticalCss.Text.Letter

/-!
# Tokens of style sheet text

The token kinds of the CSS syntax.  Names and strings stand with their escapes resolved; white
space, comments and malformed tokens keep their text.  A number keeps its digits, so that no
precision is lost before somebody asks for its value.
-/

namespace CriticalCss

/-- The three kinds of brackets. -/
inductive Bracket where
  | round
  | square
  | curly
deriving DecidableEq

/-- A number as it is written. -/
structure Numeral where
  /-- A sign is written. -/
  signed : Bool
  /-- The sign is a minus. -/
  negative : Bool
  /-- Digits before the point. -/
  whole : List Nat
  /-- Digits after the point; none when there is no point. -/
  fraction : List Nat
  /-- Sign and digits of the exponent. -/
  exponent : Option (Bool × List Nat)
deriving DecidableEq

namespace Numeral

/-- The least number of 32 bits. -/
def least : Int := -2147483648

/-- The greatest number of 32 bits. -/
def greatest : Int := 2147483647

/-- The integer a numeral without point and exponent writes, held within 32 bits. -/
def int? (n : Numeral) : Option Int :=
  if n.fraction.isEmpty && n.exponent.isNone then
    let size : Int := Text.ofDigits 10 n.whole
    some (max least (min greatest (if n.negative then -size else size)))
  else none

end Numeral

/-- A token. -/
inductive Token where
  | ident (name : String)
  | function (name : String)
  | atKeyword (name : String)
  /-- A hash whose name is no identifier. -/
  | hash (name : String)
  /-- A hash whose name is an identifier. -/
  | idHash (name : String)
  | string (value : String)
  | badString (value : String)
  | url (value : String)
  | badUrl (text : String)
  | delim (c : Char)
  | number (n : Numeral)
  | percentage (n : Numeral)
  | dimension (n : Numeral) (unit : String)
  | space (text : String)
  | comment (text : String)
  | colon
  | semicolon
  | comma
  | includeMatch
  | dashMatch
  | startMatch
  | endMatch
  | substringMatch
  /-- The opening `<!--`. -/
  | cdo
  /-- The closing `-->`. -/
  | cdc
  | opening (b : Bracket)
  | closing (b : Bracket)
deriving DecidableEq

namespace Token

/-- The bracket a token opens; a function name opens a round one. -/
def opens? : Token → Option Bracket
  | .opening b => some b
  | .function _ => some .round
  | _ => none

/-- The bracket a token closes. -/
def closes? : Token → Option Bracket
  | .closing b => some b
  | _ => none

end Token

end CriticalCss
