import CriticalCss.Selector.Basic
import CriticalCss.Selector.Error

/-!
# Reading selectors

A selector list is read from components, from left to right, with the compound at hand and the
combinator that may have to be put after it.  A comma ends a selector.  White space is the descendant
combinator where nothing else stands between two compounds.  The arguments of `:not`, `:is` and
`:where` are selector lists again.
-/

namespace CriticalCss

/-- The pseudo-elements that may be written with one colon. -/
def shortPseudoElements : List String :=
  ["before", "after", "first-line", "first-letter"]

namespace AttributeTest

/-- The operator that a component stands for. -/
def operator? : Component → Option AttributeOperator
  | .token (.delim '=') => some .equals
  | .token .includeMatch => some .includes
  | .token .dashMatch => some .dashed
  | .token .startMatch => some .startsWith
  | .token .endMatch => some .endsWith
  | .token .substringMatch => some .substring
  | _ => none

/-- Reads the flag at the end of an attribute test: whether case is ignored. -/
def readFlag (cs : List Component) : Except SelectorFault Bool :=
  match Component.dropSpaces cs with
  | [] => .ok false
  | .token (.ident flag) :: rest =>
    if Text.sameLetters flag "i" ∨ Text.sameLetters flag "s" then
      match Component.dropSpaces rest with
      | [] => .ok (Text.sameLetters flag "i")
      | c :: _ => .error (.unsuitable c.head)
    else .error (.invalidFlag flag)
  | c :: _ => .error (.unsuitable c.head)

/-- Reads the value of an attribute test and what follows it. -/
def readValue (name : String) (operator : AttributeOperator) (cs : List Component) :
    Except SelectorFault AttributeTest :=
  match Component.dropSpaces cs with
  | [] => .error .endOfInput
  | .token (.ident value) :: rest => do
    return ⟨name, some (operator, value), ← readFlag rest⟩
  | .token (.string value) :: rest => do
    return ⟨name, some (operator, value), ← readFlag rest⟩
  | c :: _ => .error (.unsuitable c.head)

/-- Reads the inside of the square brackets of an attribute test. -/
def read (cs : List Component) : Except SelectorFault AttributeTest :=
  match Component.dropSpaces cs with
  | [] => .error .endOfInput
  | .token (.ident name) :: rest =>
    match Component.dropSpaces rest with
    | [] => .ok (.presence (Text.lower name))
    | c :: after =>
      match operator? c with
      | none => .error (.invalidOperator c.head)
      | some operator => readValue (Text.lower name) operator after
  | c :: _ => .error (.unsuitable c.head)

end AttributeTest

/-- How far a selector has been read. -/
structure SelectorProgress where
  /-- The selector to the left, and how it is combined with the compound at hand. -/
  left : Option (Selector × Combinator)
  /-- The compound at hand. -/
  part : Compound
  /-- The combinator after the compound at hand. -/
  pending : Option Combinator

namespace SelectorProgress

/-- Nothing read. -/
def start : SelectorProgress := ⟨none, .empty, none⟩

/-- The selector that has been read. -/
def selector (s : SelectorProgress) : Selector :=
  match s.left with
  | none => .compound s.part
  | some (left, c) => .combined left c s.part

/-- White space is read. -/
def space (s : SelectorProgress) : SelectorProgress :=
  if !s.part.isEmpty && s.pending.isNone then { s with pending := some .descendant } else s

/-- Whether a combinator other than white space is pending. -/
def awaitsPart (s : SelectorProgress) : Bool :=
  s.pending.any (· ≠ .descendant)

/-- A combinator is read; `t` is its token. -/
def combine (s : SelectorProgress) (c : Combinator) (t : Token) : Except SelectorFault SelectorProgress :=
  if s.part.isEmpty || s.awaitsPart then .error (.unexpectedCombinator t)
  else .ok { s with pending := some c }

/-- A part of a compound follows: a pending combinator begins a new compound. -/
def beginPart (s : SelectorProgress) : Except SelectorFault SelectorProgress :=
  let next : SelectorProgress := match s.pending with
    | none => s
    | some c => ⟨some (s.selector, c), .empty, none⟩
  if next.part.pseudoElement.isSome then .error .pseudoElementNotLast else .ok next

/-- The selector ends here. -/
def finish (s : SelectorProgress) : Except SelectorFault Selector :=
  if s.part.isEmpty then .error .empty
  else if s.awaitsPart then .error .endsWithCombinator
  else .ok s.selector

/-- The compound at hand is changed. -/
def onPart (s : SelectorProgress) (f : Compound → Compound) : SelectorProgress :=
  { s with part := f s.part }

/-- The name of an element is read. -/
def name (s : SelectorProgress) (n : String) : Except SelectorFault SelectorProgress :=
  if s.part.isEmpty then .ok (s.onPart ({ · with type := some (.name (Text.lower n)) }))
  else .error (.lateName n)

/-- The universal selector is read. -/
def universal (s : SelectorProgress) : Except SelectorFault SelectorProgress :=
  if s.part.isEmpty then .ok (s.onPart ({ · with type := some .universal }))
  else .error .lateUniversal

/-- The name of a pseudo-element is read. -/
def pseudoElement (s : SelectorProgress) (n : String) : SelectorProgress :=
  s.onPart ({ · with pseudoElement := some (Text.lower n) })

/-- A name after one colon is read. -/
def named (s : SelectorProgress) (n : String) : Except SelectorFault SelectorProgress :=
  if shortPseudoElements.contains (Text.lower n) then .ok (s.pseudoElement n)
  else
    match Condition.ofName? n with
    | some c => .ok (s.onPart (·.withPseudoClass (.condition c)))
    | none => .error (.unknownPseudoClass n)

end SelectorProgress

/-- The combinator that a character stands for. -/
def Combinator.ofMark? (c : Char) : Option Combinator :=
  if c = '>' then some .child else if c = '+' then some .next
  else if c = '~' then some .later else none

mutual

/-- Reads the selectors of a list, given how far the first of them has been read. -/
def readSelectors (s : SelectorProgress) : List Component → Except SelectorFault (List Selector)
  | [] => do return [← s.finish]
  | .token .comma :: rest => do
    let first ← s.finish
    return first :: (← readSelectors .start rest)
  | .token (.space _) :: rest => readSelectors s.space rest
  | .token (.ident n) :: rest => do readSelectors (← (← s.beginPart).name n) rest
  | .token (.idHash n) :: rest => do readSelectors ((← s.beginPart).onPart (·.withId n)) rest
  | .token (.delim '.') :: rest => do
    let s ← s.beginPart
    match rest with
    | .token (.ident n) :: rest => readSelectors (s.onPart (·.withClass n)) rest
    | _ => .error .classNameExpected
  | .token (.delim '*') :: rest => do readSelectors (← (← s.beginPart).universal) rest
  | .token (.delim c) :: rest =>
    match Combinator.ofMark? c with
    | some k => do readSelectors (← s.combine k (.delim c)) rest
    | none => do let _ ← s.beginPart; .error (.unexpectedToken (.delim c))
  | .block (.opening .square) content :: rest => do
    let s ← s.beginPart
    readSelectors (s.onPart (·.withAttribute (← AttributeTest.read content))) rest
  | .token .colon :: rest => do
    let s ← s.beginPart
    match rest with
    | [] => .error .endOfInput
    | .token .comma :: _ => .error .endOfInput
    | .token .colon :: [] => .error .endOfInput
    | .token .colon :: .token .comma :: _ => .error .endOfInput
    | .token .colon :: .token (.ident n) :: rest => readSelectors (s.pseudoElement n) rest
    | .token .colon :: .block (.function n) _ :: rest => readSelectors (s.pseudoElement n) rest
    | .token .colon :: other :: _ => .error (.invalidPseudoElement other.head)
    | .token (.ident n) :: rest => do readSelectors (← s.named n) rest
    | .block (.function n) content :: rest =>
      match Counting.ofName? (Text.lower n) with
      | some counting => do
        let positions ← (Nth.read content).mapError SelectorFault.ofNth
        readSelectors (s.onPart (·.withPseudoClass (.nth counting positions))) rest
      | none =>
        if Text.sameLetters n "not" then do
          let inner ← readArgument (.block (.function n) content)
          readSelectors (s.onPart (·.withPseudoClass (.not inner))) rest
        else if Text.sameLetters n "is" ∨ Text.sameLetters n "where" then do
          let inner ← readArgument (.block (.function n) content)
          readSelectors (s.onPart (·.withPseudoClass (.is inner))) rest
        else .error (.unknownPseudoFunction n)
    | other :: _ => .error (.invalidPseudoClass other.head)
  | other :: _ => do let _ ← s.beginPart; .error (.unexpectedToken other.head)
termination_by structural cs => cs

/-- Reads the selectors between the brackets of a block. -/
def readArgument : Component → Except SelectorFault (List Selector)
  | .token t => .error (.unsuitable t)
  | .block _ content => readSelectors .start content
termination_by structural c => c

end

/-- Reads a comma separated list of selectors. -/
def Selector.readList (text : String) : Except InvalidSelector (List Selector) :=
  (readSelectors .start (Component.ofText text)).mapError (⟨text, ·⟩)

end CriticalCss
