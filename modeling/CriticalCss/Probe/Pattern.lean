/-!
# Selector patterns

In a pattern the percent sign stands for any text on one line; every other character stands for
itself.  A pattern matches the whole of a selector.
-/

namespace CriticalCss

/-- A pattern for selectors. -/
structure SelectorPattern where
  source : String
deriving DecidableEq

namespace SelectorPattern

/-- Whether a text is one that the characters of a pattern stand for. -/
def glob : List Char → List Char → Bool
  | [], cs => cs.isEmpty
  | '%' :: '%' :: ps, cs => glob ('%' :: ps) cs
  | '%' :: ps, [] => glob ps []
  | '%' :: ps, c :: cs => glob ps (c :: cs) || (c ≠ '\n' && glob ('%' :: ps) cs)
  | _ :: _, [] => false
  | p :: ps, c :: cs => p = c && glob ps cs
termination_by ps cs => ps.length + cs.length

/-- Whether a selector is the pattern itself or matches it. -/
def accepts (p : SelectorPattern) (selector : String) : Bool :=
  p.source = selector || glob p.source.toList selector.toList

end SelectorPattern

end CriticalCss
