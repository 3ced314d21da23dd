import CriticalCss.Stylesheet.Basic
import CriticalCss.Text.Letter

/-!
# Why a style sheet cannot be read

A fault names what is wrong with one rule; an error puts it at the place where the rule begins.
-/

namespace CriticalCss

/-- What is wrong with a rule. -/
inductive RuleFault where
  /-- No block follows the selectors. -/
  | noBlock (selectors : String)
  /-- A block stands without selectors. -/
  | noSelector
  /-- No block follows an at-rule that needs one. -/
  | noBlockAfter (keyword : String) (prelude : String)
deriving DecidableEq

/-- A fault and the place of its rule. -/
structure ParseError where
  fault : RuleFault
  position : Position
deriving DecidableEq

/-- The wording of a fault. -/
def RuleFault.message : RuleFault → String
  | .noBlock selectors => "Expected '\x7b' after selector '" ++ selectors ++ "'"
  | .noSelector => "Missing selector"
  | .noBlockAfter keyword prelude => "Expected '\x7b' after @" ++ keyword ++ " " ++ prelude

/-- The wording of an error. -/
def ParseError.message (e : ParseError) : String :=
  "CSS parse error at line " ++ Text.ofNat e.position.line ++ ", column " ++
    Text.ofNat e.position.column ++ ": " ++ e.fault.message

end CriticalCss
