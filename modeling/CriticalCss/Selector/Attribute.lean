import CriticalCss.Text.Letter
import CriticalCss.Token.Escape

/-!
# Attribute tests

A test asks for the presence of an attribute, or compares its value with an operator.  The operators
that look for a part of the value never hold for the empty part.
-/

namespace CriticalCss

/-- How the value of an attribute is compared. -/
inductive AttributeOperator where
  | equals
  /-- One of the words of the value. -/
  | includes
  /-- The value up to its end or up to a dash. -/
  | dashed
  | startsWith
  | endsWith
  | substring
deriving DecidableEq

namespace AttributeOperator

/-- The operators with their text. -/
def texts : List (AttributeOperator × String) :=
  [(.equals, "="), (.includes, "~="), (.dashed, "|="), (.startsWith, "^="), (.endsWith, "$="),
    (.substring, "*=")]

/-- The text of an operator. -/
def text (o : AttributeOperator) : String :=
  (texts.lookup o).getD ""

/-- The operator with a text. -/
def ofText? (s : String) : Option AttributeOperator :=
  (texts.find? (·.2 = s)).map (·.1)

end AttributeOperator

/-- A test of one attribute. -/
structure AttributeTest where
  /-- The name of the attribute in lower case. -/
  name : String
  /-- What the value is compared with; a test without it asks for presence. -/
  comparison : Option (AttributeOperator × String)
  /-- The case of ASCII letters does not matter. -/
  ignoresCase : Bool
deriving DecidableEq

namespace AttributeTest

/-- A test for presence. -/
def presence (name : String) : AttributeTest := ⟨name, none, false⟩

/-- A test for a value. -/
def compare (name : String) (operator : AttributeOperator) (value : String) : AttributeTest :=
  ⟨name, some (operator, value), false⟩

/-- The words of a text, between white space of the syntax. -/
def words : List Char → List (List Char)
  | [] => []
  | c :: cs =>
    if Token.isSpace c then words cs
    else
      match cs, words cs with
      | d :: _, w :: ws => if Token.isSpace d then [c] :: w :: ws else (c :: w) :: ws
      | _, ws => [c] :: ws

/-- Whether an operator holds between the value of an attribute and the expected one. -/
def holds (operator : AttributeOperator) (actual expected : List Char) : Bool :=
  match operator with
  | .equals => actual = expected
  | .includes => expected ≠ [] ∧ (words actual).contains expected
  | .dashed => actual = expected ∨ (expected ++ ['-']).isPrefixOf actual
  | .startsWith => expected ≠ [] ∧ expected.isPrefixOf actual
  | .endsWith => expected ≠ [] ∧ expected.isSuffixOf actual
  | .substring => expected ≠ [] ∧ Text.contains actual expected

/-- Whether the value of an attribute passes the test. -/
def accepts (t : AttributeTest) (actual : String) : Bool :=
  match t.comparison with
  | none => true
  | some (operator, expected) =>
    if t.ignoresCase then holds operator (Text.lower actual).toList (Text.lower expected).toList
    else holds operator actual.toList expected.toList

/-- The text of a test. -/
def text (t : AttributeTest) : String :=
  match t.comparison with
  | none => "[" ++ t.name ++ "]"
  | some (operator, value) =>
    "[" ++ t.name ++ operator.text ++ "\"" ++ value ++ "\"" ++
      (if t.ignoresCase then " i" else "") ++ "]"

end AttributeTest

end CriticalCss
