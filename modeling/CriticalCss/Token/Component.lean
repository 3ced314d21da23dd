import CriticalCss.Token.Scan

/-!
# Component trees

A component is a token, or a block: an opening bracket or a function name with the components up to
the matching closing bracket.  Comments are left out.  A closing bracket that matches no open block
is a token like any other, and the end of the text closes every block.  The tree is built token by
token, so that the components of a text that continues another one are those of a continued
`Nesting`.
-/

namespace CriticalCss

namespace Token

/-- All tokens of a text. -/
def scanAll (cs : List Char) : List Token :=
  match _h : scan cs with
  | none => []
  | some (t, rest) => t :: scanAll rest
termination_by cs.length
decreasing_by exact scan_length_lt _h

theorem scanAll_nil : scanAll [] = [] := by
  rw [scanAll]
  rfl

theorem scanAll_of_scan {cs rest : List Char} {t : Token} (h : scan cs = some (t, rest)) :
    scanAll cs = t :: scanAll rest := by
  rw [scanAll]
  split
  · next hscan =>
    rw [h] at hscan
    cases hscan
  · next hscan =>
    rw [h] at hscan
    cases hscan
    rfl

end Token

/-- A token, or a block with its opening token. -/
inductive Component where
  | token (t : Token)
  | block (opening : Token) (content : List Component)

namespace Component

/-- The token a component begins with. -/
def head : Component → Token
  | .token t => t
  | .block opening _ => opening

/-- White space. -/
def isSpace : Component → Bool
  | .token (.space _) => true
  | _ => false

/-- Drops white space at the start. -/
def dropSpaces (cs : List Component) : List Component :=
  cs.dropWhile isSpace

end Component

/-- A component tree under construction.  The lists are kept last component first. -/
structure Nesting where
  /-- The components of the innermost open block. -/
  inner : List Component
  /-- The open blocks, innermost first: the opening token and the components before it. -/
  outer : List (Token × List Component)

namespace Nesting

/-- Nothing read, no block open. -/
def start : Nesting := ⟨[], []⟩

/-- Adds a token that neither opens nor closes a block. -/
def push (n : Nesting) (t : Token) : Nesting :=
  { n with inner := .token t :: n.inner }

/-- Adds the next token. -/
def add (n : Nesting) (t : Token) : Nesting :=
  match t with
  | .comment _ => n
  | _ =>
    if t.opens?.isSome then ⟨[], (t, n.inner) :: n.outer⟩
    else
      match n.outer with
      | (opening, before) :: outer =>
        if t.closes?.isSome ∧ t.closes? = opening.opens? then
          ⟨.block opening n.inner.reverse :: before, outer⟩
        else n.push t
      | [] => n.push t

/-- Closes the blocks that are open; the components come in order. -/
def closeAll (inner : List Component) : List (Token × List Component) → List Component
  | [] => inner.reverse
  | (opening, before) :: outer => closeAll (.block opening inner.reverse :: before) outer

/-- The finished tree. -/
def finish (n : Nesting) : List Component :=
  closeAll n.inner n.outer

end Nesting

/-- The components of a list of tokens. -/
def Component.ofTokens (ts : List Token) : List Component :=
  (ts.foldl Nesting.add .start).finish

/-- The components of a text. -/
def Component.ofText (s : String) : List Component :=
  Component.ofTokens (Token.scanAll s.toList)

end CriticalCss
