import CriticalCss.Stylesheet.Basic

/-!
# Printing style sheets

Pretty output puts every declaration and selector on a line of its own, indents by level and
separates rules by an empty line.  Compressed output has no white space between tokens of its own,
except that a charset or another statement still begins with the indentation of its level.
Comments are never printed.
-/

namespace CriticalCss

/-- How to print. -/
structure PrintOptions where
  /-- The text one level of nesting is indented by. -/
  indent : String
  compress : Bool
deriving DecidableEq

namespace PrintOptions

/-- Two spaces a level. -/
def pretty : PrintOptions := ⟨"  ", false⟩

/-- No white space that is not needed. -/
def compressed : PrintOptions := ⟨"", true⟩

/-- The same with another indentation. -/
def withIndent (o : PrintOptions) (indent : String) : PrintOptions :=
  { o with indent := indent }

/-- The indentation of a level. -/
def pad (o : PrintOptions) (level : Nat) : String :=
  String.join (List.replicate level o.indent)

end PrintOptions

namespace Stylesheet

/-- The text before the block of an at-rule. -/
def keywordText (name prelude : String) : String :=
  if prelude = "" then "@" ++ name else "@" ++ name ++ " " ++ prelude

/-- The text before a block of rules. -/
def headingText : Heading → String
  | .media condition => "@media " ++ condition
  | .supports condition => "@supports " ++ condition
  | .keyframes vendor name => "@" ++ vendor.getD "" ++ "keyframes " ++ name
  | .other name prelude => keywordText name prelude

/-- A block of declarations. -/
def printDeclarations (o : PrintOptions) (level : Nat) (header : String)
    (declarations : List Declaration) : String :=
  if o.compress then
    header ++ "\x7b" ++ ";".intercalate (declarations.map fun d => d.property ++ ":" ++ d.value) ++
      "\x7d"
  else
    o.pad level ++ header ++ " \x7b\n" ++
      String.join (declarations.map fun d =>
        o.pad (level + 1) ++ d.property ++ ": " ++ d.value ++ ";\n") ++
      o.pad level ++ "\x7d"

/-- An item; a comment has no text. -/
def printItem (o : PrintOptions) (level : Nat) : Item → Option String
  | .style selectors declarations =>
    let joint := if o.compress then "," else ",\n" ++ o.pad level
    some (printDeclarations o level (joint.intercalate selectors) declarations)
  | .keyframe values declarations =>
    let joint := if o.compress then "," else ", "
    some (printDeclarations o level (joint.intercalate values) declarations)
  | .fontFace declarations => some (printDeclarations o level "@font-face" declarations)
  | .charset charset => some (o.pad level ++ "@charset " ++ charset ++ ";")
  | .comment _ => none
  | .statement name prelude => some (o.pad level ++ keywordText name prelude ++ ";")
  | .descriptors name prelude declarations =>
    some (printDeclarations o level (keywordText name prelude) declarations)

/-- A block whose printed rules are given. -/
def printBlock (o : PrintOptions) (level : Nat) (header body : String) : String :=
  if o.compress then header ++ "\x7b" ++ body ++ "\x7d"
  else if body = "" then o.pad level ++ header ++ " \x7b\x7d"
  else o.pad level ++ header ++ " \x7b\n" ++ body ++ "\n" ++ o.pad level ++ "\x7d"

/-- What stands between two rules. -/
def separator (o : PrintOptions) : String :=
  if o.compress then "" else "\n\n"

mutual

/-- A node; a comment has no text. -/
def printNode (o : PrintOptions) (level : Nat) : Node → Option String
  | .item i _ => printItem o level i
  | .block heading rules _ =>
    some (printBlock o level (headingText heading)
      ((separator o).intercalate (printNodes o (level + 1) rules)))

/-- The texts of the nodes that have one. -/
def printNodes (o : PrintOptions) (level : Nat) : List Node → List String
  | [] => []
  | n :: ns =>
    match printNode o level n with
    | some text => text :: printNodes o level ns
    | none => printNodes o level ns

end

/-- The style sheet as text. -/
def print (o : PrintOptions) (sheet : Stylesheet) : String :=
  (separator o).intercalate (printNodes o 0 sheet)

end Stylesheet

end CriticalCss
