import CriticalCss.Decimal.Shortest
import CriticalCss.Text.Quoted
import CriticalCss.Token.Number

/-!
# Tokens in diagnostics

How a message shows a token: the name of its kind, and its content between quotes.  Numbers show
whether they carry a sign, their value in single precision, and their integer if they write one.
-/

namespace CriticalCss

namespace Bracket

/-- The name of an opening bracket. -/
def openingName : Bracket → String
  | .round => "ParenthesisBlock"
  | .square => "SquareBracketBlock"
  | .curly => "CurlyBracketBlock"

/-- The name of a closing bracket. -/
def closingName : Bracket → String
  | .round => "CloseParenthesis"
  | .square => "CloseSquareBracket"
  | .curly => "CloseCurlyBracket"

end Bracket

namespace Numeral

/-- The integer of a numeral, or that there is none. -/
def integerText (n : Numeral) : String :=
  match n.int? with
  | none => "None"
  | some i => "Some(" ++ toString i ++ ")"

/-- The fields of a numeral, its value given under a name. -/
def fieldsText (n : Numeral) (valueName : String) (value : Float) : String :=
  "has_sign: " ++ (if n.signed then "true" else "false") ++ ", " ++ valueName ++ ": " ++
    Decimal.diagnostic value.toFloat32 ++ ", int_value: " ++ n.integerText

end Numeral

namespace Token

/-- A kind of token with its text. -/
def withText (kind text : String) : String :=
  kind ++ "(" ++ Text.quoted text ++ ")"

/-- A kind of token with its fields. -/
def withFields (kind fields : String) : String :=
  kind ++ " \x7b " ++ fields ++ " \x7d"

/-- How a message shows a token. -/
def diagnostic : Token → String
  | .ident name => withText "Ident" name
  | .function name => withText "Function" name
  | .atKeyword name => withText "AtKeyword" name
  | .hash name => withText "Hash" name
  | .idHash name => withText "IDHash" name
  | .string value => withText "QuotedString" value
  | .badString value => withText "BadString" value
  | .url value => withText "UnquotedUrl" value
  | .badUrl text => withText "BadUrl" text
  | .delim c => "Delim(" ++ Text.quotedChar c ++ ")"
  | .number n => withFields "Number" (n.fieldsText "value" n.toFloat)
  | .percentage n => withFields "Percentage" (n.fieldsText "unit_value" (n.toFloat / 100))
  | .dimension n unit =>
    withFields "Dimension" (n.fieldsText "value" n.toFloat ++ ", unit: " ++ Text.quoted unit)
  | .space text => withText "WhiteSpace" text
  | .comment text => withText "Comment" text
  | .colon => "Colon"
  | .semicolon => "Semicolon"
  | .comma => "Comma"
  | .includeMatch => "IncludeMatch"
  | .dashMatch => "DashMatch"
  | .startMatch => "PrefixMatch"
  | .endMatch => "SuffixMatch"
  | .substringMatch => "SubstringMatch"
  | .cdo => "CDO"
  | .cdc => "CDC"
  | .opening b => b.openingName
  | .closing b => b.closingName

end Token

end CriticalCss
