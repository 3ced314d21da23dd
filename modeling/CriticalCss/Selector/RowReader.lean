import CriticalCss.Selector.Reader
import CriticalCss.Selector.Row

/-!
# Reading selectors into rows

A row is filled from left to right.  While a compound is being read, the rows hold what stands before
it: as many compounds as combinators.  A pending combinator moves to its row together with the
compound at hand when a part of the next compound follows, and the end of the selector moves the last
compound alone.
-/

namespace CriticalCss

/-- How far a row has been read. -/
structure RowProgress where
  /-- The compounds to the left of the one at hand. -/
  parts : List RowCompound
  /-- The combinators after these compounds. -/
  combinators : List Combinator
  /-- The compound at hand. -/
  part : RowCompound
  /-- The combinator after the compound at hand. -/
  pending : Option Combinator

namespace RowProgress

/-- Nothing read. -/
def start : RowProgress := ⟨[], [], .empty, none⟩

/-- White space is read. -/
def space (s : RowProgress) : RowProgress :=
  if !s.part.isEmpty && s.pending.isNone then { s with pending := some .descendant } else s

/-- Whether a combinator other than white space is pending. -/
def awaitsPart (s : RowProgress) : Bool :=
  s.pending.any (· ≠ .descendant)

/-- A combinator is read; `t` is its token. -/
def combine (s : RowProgress) (c : Combinator) (t : Token) : Except SelectorFault RowProgress :=
  if s.part.isEmpty || s.awaitsPart then .error (.unexpectedCombinator t)
  else .ok { s with pending := some c }

/-- A part of a compound follows: a pending combinator begins a new compound. -/
def beginPart (s : RowProgress) : Except SelectorFault RowProgress :=
  let next : RowProgress := match s.pending with
    | none => s
    | some c => ⟨s.parts ++ [s.part], s.combinators ++ [c], .empty, none⟩
  if next.part.pseudoElement.isSome then .error .pseudoElementNotLast else .ok next

/-- The row ends here. -/
def finish (s : RowProgress) : Except SelectorFault Row :=
  if s.part.isEmpty then .error .empty
  else if s.awaitsPart then .error .endsWithCombinator
  else .ok ⟨s.parts ++ [s.part], s.combinators⟩

/-- The compound at hand is changed. -/
def onPart (s : RowProgress) (f : RowCompound → RowCompound) : RowProgress :=
  { s with part := f s.part }

/-- The name of an element is read. -/
def name (s : RowProgress) (n : String) : Except SelectorFault RowProgress :=
  if s.part.isEmpty then .ok (s.onPart ({ · with type := some (.name (Text.lower n)) }))
  else .error (.lateName n)

/-- The universal selector is read. -/
def universal (s : RowProgress) : Except SelectorFault RowProgress :=
  if s.part.isEmpty then .ok (s.onPart ({ · with type := some .universal }))
  else .error .lateUniversal

/-- The name of a pseudo-element is read. -/
def pseudoElement (s : RowProgress) (n : String) : RowProgress :=
  s.onPart ({ · with pseudoElement := some (Text.lower n) })

/-- A name after one colon is read. -/
def named (s : RowProgress) (n : String) : Except SelectorFault RowProgress :=
  if shortPseudoElements.contains (Text.lower n) then .ok (s.pseudoElement n)
  else
    match Condition.ofName? n with
    | some c => .ok (s.onPart (·.withPseudoClass (.condition c)))
    | none => .error (.unknownPseudoClass n)

end RowProgress

mutual

/-- Reads the rows of a list, given how far the first of them has been read. -/
def readRows (s : RowProgress) : List Component → Except SelectorFault (List Row)
  | [] => do return [← s.finish]
  | .token .comma :: rest => do
    let first ← s.finish
    return first :: (← readRows .start rest)
  | .token (.space _) :: rest => readRows s.space rest
  | .token (.ident n) :: rest => do readRows (← (← s.beginPart).name n) rest
  | .token (.idHash n) :: rest => do readRows ((← s.beginPart).onPart (·.withId n)) rest
  | .token (.delim '.') :: rest => do
    let s ← s.beginPart
    match rest with
    | .token (.ident n) :: rest => readRows (s.onPart (·.withClass n)) rest
    | _ => .error .classNameExpected
  | .token (.delim '*') :: rest => do readRows (← (← s.beginPart).universal) rest
  | .token (.delim c) :: rest =>
    match Combinator.ofMark? c with
    | some k => do readRows (← s.combine k (.delim c)) rest
    | none => do let _ ← s.beginPart; .error (.unexpectedToken (.delim c))
  | .block (.opening .square) content :: rest => do
    let s ← s.beginPart
    readRows (s.onPart (·.withAttribute (← AttributeTest.read content))) rest
  | .token .colon :: rest => do
    let s ← s.beginPart
    match rest with
    | [] => .error .endOfInput
    | .token .comma :: _ => .error .endOfInput
    | .token .colon :: [] => .error .endOfInput
    | .token .colon :: .token .comma :: _ => .error .endOfInput
    | .token .colon :: .token (.ident n) :: rest => readRows (s.pseudoElement n) rest
    | .token .colon :: .block (.function n) _ :: rest => readRows (s.pseudoElement n) rest
    | .token .colon :: other :: _ => .error (.invalidPseudoElement other.head)
    | .token (.ident n) :: rest => do readRows (← s.named n) rest
    | .block (.function n) content :: rest =>
      match Counting.ofName? (Text.lower n) with
      | some counting => do
        let positions ← (Nth.read content).mapError SelectorFault.ofNth
        readRows (s.onPart (·.withPseudoClass (.nth counting positions))) rest
      | none =>
        if Text.sameLetters n "not" then do
          let inner ← readRowArgument (.block (.function n) content)
          readRows (s.onPart (·.withPseudoClass (.not inner))) rest
        else if Text.sameLetters n "is" ∨ Text.sameLetters n "where" then do
          let inner ← readRowArgument (.block (.function n) content)
          readRows (s.onPart (·.withPseudoClass (.is inner))) rest
        else .error (.unknownPseudoFunction n)
    | other :: _ => .error (.invalidPseudoClass other.head)
  | other :: _ => do let _ ← s.beginPart; .error (.unexpectedToken other.head)
termination_by structural cs => cs

/-- Reads the rows between the brackets of a block. -/
def readRowArgument : Component → Except SelectorFault (List Row)
  | .token t => .error (.unsuitable t)
  | .block _ content => readRows .start content
termination_by structural c => c

end

/-- Reads a comma separated list of selectors into rows. -/
def Row.readList (text : String) : Except InvalidSelector (List Row) :=
  (readRows .start (Component.ofText text)).mapError (⟨text, ·⟩)

end CriticalCss
