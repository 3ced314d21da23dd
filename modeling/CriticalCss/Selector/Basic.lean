import CriticalCss.Selector.Attribute
import CriticalCss.Selector.Nth

/-!
# Selectors

A selector is a compound, or a shorter selector combined with a compound that stands to its right;
the rightmost compound is its subject.  A compound tests one element: its name, its id, its classes,
its attributes and its pseudo-classes.  Pseudo-classes may hold selectors again, so the types of
selectors and compounds have the type of pseudo-classes as a parameter.
-/

namespace CriticalCss

/-- How two neighbouring compounds are related. -/
inductive Combinator where
  | descendant
  | child
  /-- The sibling right before. -/
  | next
  /-- Any sibling before. -/
  | later
deriving DecidableEq

namespace Combinator

/-- The mark of a combinator. -/
def mark : Combinator → String
  | .descendant => " "
  | .child => ">"
  | .next => "+"
  | .later => "~"

/-- How a combinator stands between two compounds. -/
def text : Combinator → String
  | .descendant => " "
  | c => " " ++ c.mark ++ " "

end Combinator

/-- A test of the name of an element. -/
inductive TypeTest where
  | universal
  /-- The name in lower case. -/
  | name (name : String)
deriving DecidableEq

namespace TypeTest

/-- The text of a type test. -/
def text : TypeTest → String
  | .universal => "*"
  | .name n => n

end TypeTest

/-- The pseudo-classes without an argument. -/
inductive Condition where
  | root
  | firstChild
  | lastChild
  | onlyChild
  | firstOfType
  | lastOfType
  | onlyOfType
  | empty
  | link
  | checked
  | disabled
  | enabled
  | hover
  | active
  | focus
  | focusWithin
  | focusVisible
  | visited
  | target
  | placeholderShown
  | autofill
deriving DecidableEq

namespace Condition

/-- The conditions with their names. -/
def names : List (Condition × String) :=
  [(.root, "root"), (.firstChild, "first-child"), (.lastChild, "last-child"),
    (.onlyChild, "only-child"), (.firstOfType, "first-of-type"), (.lastOfType, "last-of-type"),
    (.onlyOfType, "only-of-type"), (.empty, "empty"), (.link, "link"), (.checked, "checked"),
    (.disabled, "disabled"), (.enabled, "enabled"), (.hover, "hover"), (.active, "active"),
    (.focus, "focus"), (.focusWithin, "focus-within"), (.focusVisible, "focus-visible"),
    (.visited, "visited"), (.target, "target"), (.placeholderShown, "placeholder-shown"),
    (.autofill, "autofill")]

/-- The name of a condition. -/
def name (c : Condition) : String :=
  (names.lookup c).getD ""

/-- The condition with a name in any case; `any-link` is another name of `link`. -/
def ofName? (s : String) : Option Condition :=
  let name := Text.lower s
  if name = "any-link" then some .link
  else (names.find? (·.2 = name)).map (·.1)

/-- Whether the condition depends on what somebody does with the page. -/
def isInteraction : Condition → Bool
  | .hover | .active | .focus | .focusWithin | .focusVisible | .visited | .target
  | .placeholderShown | .autofill => true
  | _ => false

end Condition

/-- Which siblings are counted to find the position of an element, and from which end. -/
inductive Counting where
  | child
  | lastChild
  | ofType
  | lastOfType
deriving DecidableEq

namespace Counting

/-- The ways of counting with the names of their pseudo-classes. -/
def names : List (Counting × String) :=
  [(.child, "nth-child"), (.lastChild, "nth-last-child"), (.ofType, "nth-of-type"),
    (.lastOfType, "nth-last-of-type")]

/-- The name of the pseudo-class that counts in this way. -/
def name (c : Counting) : String :=
  (names.lookup c).getD ""

/-- The way of counting of the pseudo-class with a name. -/
def ofName? (s : String) : Option Counting :=
  (names.find? (·.2 = s)).map (·.1)

end Counting

/-- The tests of one element, with pseudo-classes of type `P`. -/
structure CompoundOf (P : Type) where
  type : Option TypeTest
  id : Option String
  classes : List String
  attributes : List AttributeTest
  pseudoClasses : List P
  /-- A part of an element that is no element itself. -/
  pseudoElement : Option String
deriving DecidableEq

/-- A selector whose compounds have pseudo-classes of type `P`. -/
inductive SelectorOf (P : Type) where
  | compound (part : CompoundOf P)
  | combined (left : SelectorOf P) (combinator : Combinator) (part : CompoundOf P)
deriving DecidableEq

/-- A pseudo-class. -/
inductive PseudoClass where
  | condition (c : Condition)
  | nth (counting : Counting) (positions : Nth)
  /-- None of the selectors matches. -/
  | not (selectors : List (SelectorOf PseudoClass))
  /-- Some of the selectors matches. -/
  | is (selectors : List (SelectorOf PseudoClass))

/-- The tests of one element. -/
abbrev Compound := CompoundOf PseudoClass

/-- A selector. -/
abbrev Selector := SelectorOf PseudoClass

namespace CompoundOf

variable {P : Type}

/-- A compound without tests. -/
def empty : CompoundOf P := ⟨none, none, [], [], [], none⟩

/-- Whether the compound has no test. -/
def isEmpty (c : CompoundOf P) : Bool :=
  c.type.isNone && c.id.isNone && c.classes.isEmpty && c.attributes.isEmpty &&
    c.pseudoClasses.isEmpty && c.pseudoElement.isNone

/-- The compound with one more class. -/
def withClass (c : CompoundOf P) (name : String) : CompoundOf P :=
  { c with classes := c.classes ++ [name] }

/-- The compound with one more attribute test. -/
def withAttribute (c : CompoundOf P) (t : AttributeTest) : CompoundOf P :=
  { c with attributes := c.attributes ++ [t] }

/-- The compound with one more pseudo-class. -/
def withPseudoClass (c : CompoundOf P) (p : P) : CompoundOf P :=
  { c with pseudoClasses := c.pseudoClasses ++ [p] }

/-- The compound with an id; a second id is a test of the attribute. -/
def withId (c : CompoundOf P) (id : String) : CompoundOf P :=
  if c.id.isNone then { c with id := some id }
  else c.withAttribute (.compare "id" .equals id)

end CompoundOf

namespace SelectorOf

variable {P : Type}

/-- The compounds from left to right. -/
def parts : SelectorOf P → List (CompoundOf P)
  | .compound part => [part]
  | .combined left _ part => left.parts ++ [part]

/-- The combinators from left to right. -/
def combinators : SelectorOf P → List Combinator
  | .compound _ => []
  | .combined left c _ => left.combinators ++ [c]

/-- The rightmost compound. -/
def subject : SelectorOf P → CompoundOf P
  | .compound part => part
  | .combined _ _ part => part

/-- Whether some compound has a pseudo-element. -/
def hasPseudoElement (s : SelectorOf P) : Bool :=
  s.parts.any (·.pseudoElement.isSome)

/-- Adds a compound to the right of what is there. -/
def extend (before : Option (SelectorOf P)) (c : Combinator) (part : CompoundOf P) :
    SelectorOf P :=
  match before with
  | none => .compound part
  | some left => .combined left c part

theorem length_parts (s : SelectorOf P) : s.parts.length = s.combinators.length + 1 := by
  induction s with
  | compound => rfl
  | combined left c part ih => simp [parts, combinators, ih]

end SelectorOf

end CriticalCss
