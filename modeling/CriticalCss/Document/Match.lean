import CriticalCss.Document.Layout
import CriticalCss.Selector.Reader

/-!
# Matching selectors

A compound matches an element that passes all its tests.  A combined selector matches an element
whose compound matches it, when the selector to the left matches some element that stands in the
relation of the combinator to it.  Pseudo-elements are no elements, and nobody interacts with a
document, so neither they nor the interaction conditions ever match.
-/

namespace CriticalCss

namespace Box

/-- The value of an attribute. -/
def attribute? (b : Box) (name : String) : Option String :=
  if name = "id" then b.id
  else if name = "class" then if b.classes = [] then none else some (" ".intercalate b.classes)
  else b.attributes.lookup name

/-- Whether an attribute is present. -/
def has (b : Box) (name : String) : Bool :=
  (b.attribute? name).isSome

/-- The elements of forms. -/
def formTags : List String :=
  ["button", "input", "select", "textarea", "option", "optgroup", "fieldset"]

/-- Whether an element passes a test of its name. -/
def passesType (b : Box) : Option TypeTest → Bool
  | some (.name n) => Text.sameLetters b.tag n
  | _ => true

/-- Whether an element passes a test of its id. -/
def passesId (b : Box) : Option String → Bool
  | some id => b.id = some id
  | none => true

/-- Whether an element passes an attribute test. -/
def passes (b : Box) (t : AttributeTest) : Bool :=
  (b.attribute? t.name).any t.accepts

end Box

namespace Document

/-- The indices of the elements that stand in the relation of a combinator to an element. -/
def related (d : Document) (i : Nat) : Combinator → List Nat
  | .descendant => d.ancestors i
  | .child => (d.parent? i).toList
  | .next => (d.siblingsBefore i).take 1
  | .later => d.siblingsBefore i

/-- Whether two elements have the same name. -/
def sameTag (d : Document) (i j : Nat) : Bool :=
  (d.box? i).map (·.tag) = (d.box? j).map (·.tag)

/-- How many siblings stand between an element and the end from which siblings are counted. -/
def rank (d : Document) (i : Nat) : Counting → Nat
  | .child => (d.siblingsBefore i).length
  | .lastChild => (d.siblingsAfter i).length
  | .ofType => (d.siblingsBefore i).countP (d.sameTag i)
  | .lastOfType => (d.siblingsAfter i).countP (d.sameTag i)

/-- Whether an element is the first one when siblings are counted. -/
def isFirst (d : Document) (i : Nat) (counting : Counting) : Bool :=
  d.rank i counting = 0

/-- Whether a condition holds of an element. -/
def satisfies (d : Document) (i : Nat) (b : Box) : Condition → Bool
  | .root => b.parent.isNone
  | .firstChild => d.isFirst i .child
  | .lastChild => d.isFirst i .lastChild
  | .onlyChild => d.isFirst i .child && d.isFirst i .lastChild
  | .firstOfType => d.isFirst i .ofType
  | .lastOfType => d.isFirst i .lastOfType
  | .onlyOfType => d.isFirst i .ofType && d.isFirst i .lastOfType
  | .empty => !b.hasText && (d.children i).isEmpty
  | .link => (b.tag = "a" || b.tag = "area") && b.has "href"
  | .checked => b.has "checked" || b.has "selected"
  | .disabled => Box.formTags.contains b.tag && b.has "disabled"
  | .enabled => Box.formTags.contains b.tag && !b.has "disabled"
  | .hover | .active | .focus | .focusWithin | .focusVisible | .visited | .target
  | .placeholderShown | .autofill => false

mutual

/-- Whether a selector matches an element. -/
def selectorMatches (d : Document) : SelectorOf PseudoClass → Nat → Bool
  | .compound part, i => d.compoundMatches part i
  | .combined left c part, i =>
    d.compoundMatches part i && (d.related i c).any fun j => d.selectorMatches left j

/-- Whether a compound matches an element. -/
def compoundMatches (d : Document) : CompoundOf PseudoClass → Nat → Bool
  | ⟨type, id, classes, attributes, pseudoClasses, pseudoElement⟩, i =>
    match d.box? i with
    | none => false
    | some b =>
      pseudoElement.isNone && b.passesType type && b.passesId id &&
        classes.all b.classes.contains && attributes.all b.passes &&
        d.allPseudoMatch pseudoClasses i b

/-- Whether all of some pseudo-classes match an element. -/
def allPseudoMatch (d : Document) : List PseudoClass → Nat → Box → Bool
  | [], _, _ => true
  | p :: ps, i, b => d.pseudoMatches p i b && d.allPseudoMatch ps i b

/-- Whether a pseudo-class matches an element. -/
def pseudoMatches (d : Document) : PseudoClass → Nat → Box → Bool
  | .condition c, i, b => d.satisfies i b c
  | .nth counting positions, i, _ => positions.describes (d.rank i counting)
  | .not selectors, i, _ => !d.someMatch selectors i
  | .is selectors, i, _ => d.someMatch selectors i

/-- Whether one of some selectors matches an element. -/
def someMatch (d : Document) : List (SelectorOf PseudoClass) → Nat → Bool
  | [], _ => false
  | s :: ss, i => d.selectorMatches s i || d.someMatch ss i

end

/-- The indices of the elements that one of some selectors matches, in document order. -/
def select (d : Document) (selectors : List Selector) : List Nat :=
  (List.range d.boxes.length).filter (d.someMatch selectors)

/-- The indices of the elements that a selector list matches, in document order. -/
def query (d : Document) (selector : String) : Except InvalidSelector (List Nat) :=
  (Selector.readList selector).map d.select

end Document

end CriticalCss
