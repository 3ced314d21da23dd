import CriticalCss.Text.Blank

/-!
# Splitting a list at its commas

The text before a block lists selectors or keyframe values.  A comma separates two of them unless
it stands in brackets or in a string.  Each piece loses the white space at its ends, runs of white
space inside it become one space, and empty pieces are dropped.
-/

namespace CriticalCss.SelectorText

/-- Where in a list a character stands. -/
inductive Mode where
  | plain
  | quoted (quote : Char)
  /-- After a backslash in a string. -/
  | escaped (quote : Char)
deriving DecidableEq

/-- Puts a character before the first piece. -/
def consHead (c : Char) : List (List Char) → List (List Char)
  | [] => [[c]]
  | p :: ps => (c :: p) :: ps

/-- The mode after a character of a string. -/
def afterQuoted (quote c : Char) : Mode :=
  if c = '\\' then .escaped quote else if c = quote then .plain else .quoted quote

/-- The mode after a character outside strings. -/
def afterPlain (c : Char) : Mode :=
  if c = '"' ∨ c = '\'' then .quoted c else .plain

/-- The depth of brackets after a character outside strings; a closing bracket without an opening
one changes nothing. -/
def depthAfter (depth : Nat) (c : Char) : Nat :=
  if c = '(' ∨ c = '[' then depth + 1
  else if c = ')' ∨ c = ']' then depth - 1
  else depth

/-- The pieces between the commas outside brackets and strings. -/
def pieces (mode : Mode) (depth : Nat) : List Char → List (List Char)
  | [] => [[]]
  | c :: cs =>
    match mode with
    | .quoted q => consHead c (pieces (afterQuoted q c) depth cs)
    | .escaped q => consHead c (pieces (.quoted q) depth cs)
    | .plain =>
      if c = ',' ∧ depth = 0 then [] :: pieces .plain 0 cs
      else consHead c (pieces (afterPlain c) (depthAfter depth c) cs)

/-- The entries of a list of selectors or values. -/
def split (text : List Char) : List String :=
  ((pieces .plain 0 text).map Text.collapse |>.filter (· ≠ [])).map String.ofList

end CriticalCss.SelectorText
