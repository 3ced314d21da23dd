import CriticalCss.Selector.Nth
import CriticalCss.Token.Diagnostic

/-!
# Faults of selector text
-/

namespace CriticalCss

/-- Why a selector cannot be read. -/
inductive SelectorFault where
  | unexpectedCombinator (t : Token)
  | pseudoElementNotLast
  | empty
  | endsWithCombinator
  | lateName (name : String)
  | lateUniversal
  | classNameExpected
  | unexpectedToken (t : Token)
  | invalidPseudoElement (t : Token)
  | unknownPseudoClass (name : String)
  | unknownPseudoFunction (name : String)
  | invalidPseudoClass (t : Token)
  | invalidOperator (t : Token)
  | invalidFlag (name : String)
  /-- A token of another kind is needed here. -/
  | unsuitable (t : Token)
  | endOfInput
deriving DecidableEq

namespace SelectorFault

/-- The fault of a position expression, as one of the selector it stands in. -/
def ofNth : NthFault → SelectorFault
  | .unsuitable t => .unsuitable t
  | .endOfInput => .endOfInput

/-- The wording of a fault. -/
def message : SelectorFault → String
  | .unexpectedCombinator t => "Unexpected combinator " ++ t.diagnostic
  | .pseudoElementNotLast => "Pseudo-element must end the selector"
  | .empty => "Empty selector"
  | .endsWithCombinator => "Selector ends with a combinator"
  | .lateName name => "Type selector '" ++ name ++ "' must come first"
  | .lateUniversal => "Universal selector must come first"
  | .classNameExpected => "Expected class name after '.'"
  | .unexpectedToken t => "Unexpected token " ++ t.diagnostic
  | .invalidPseudoElement t => "Invalid pseudo-element " ++ t.diagnostic
  | .unknownPseudoClass name => "Unknown pseudo-class ':" ++ name ++ "'"
  | .unknownPseudoFunction name => "Unknown pseudo-class ':" ++ name ++ "()'"
  | .invalidPseudoClass t => "Invalid pseudo-class " ++ t.diagnostic
  | .invalidOperator t => "Invalid attribute operator " ++ t.diagnostic
  | .invalidFlag name => "Invalid attribute flag '" ++ name ++ "'"
  | .unsuitable t => "UnexpectedToken(" ++ t.diagnostic ++ ")"
  | .endOfInput => "EndOfInput"

end SelectorFault

/-- A text that is no selector list. -/
structure InvalidSelector where
  text : String
  fault : SelectorFault

/-- The wording of the error. -/
def InvalidSelector.message (e : InvalidSelector) : String :=
  "Invalid selector '" ++ e.text ++ "': " ++ e.fault.message

end CriticalCss
