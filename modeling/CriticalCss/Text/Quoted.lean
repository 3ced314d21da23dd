import CriticalCss.Text.Letter
import CriticalCss.Text.Printable

/-!
# Quoted text in diagnostics

A diagnostic that shows a piece of input writes it between quotes.  The quote in use, the
backslash and the common controls are written as two characters, and any other character without
a visible form as `\u` with its code point in braces.
-/

namespace CriticalCss.Text

/-- How one character stands between quotes of the given kind. -/
def escape (quote c : Char) : List Char :=
  if c = quote ∨ c = '\\' then ['\\', c]
  else if c = '\t' then ['\\', 't']
  else if c = '\n' then ['\\', 'n']
  else if c = '\r' then ['\\', 'r']
  else if c.toNat = 0 then ['\\', '0']
  else if isPlain c then [c]
  else ['\\', 'u', '{'] ++ (hex c.toNat).toList ++ ['}']

/-- A text between double quotes. -/
def quoted (s : String) : String :=
  String.ofList (['"'] ++ s.toList.flatMap (escape '"') ++ ['"'])

/-- A character between single quotes. -/
def quotedChar (c : Char) : String :=
  String.ofList (['\''] ++ escape '\'' c ++ ['\''])

end CriticalCss.Text
