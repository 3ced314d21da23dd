import CriticalCss.Document.Match
import CriticalCss.Selector.Row

/-!
# Matching rows

A row is walked through from right to left by the places of its compounds.  The compound at a place
has to match the element, and the compound before it some element in the relation of the combinator
between the two.  Compounds and combinators are looked up where the walk gets to them, and there is no
answer where the place is outside of a row.
-/

namespace CriticalCss

namespace Document

/-- Whether the compounds up to a place match an element and the elements related to it.  The
compounds are given as tests of elements. -/
def walk? (d : Document) (tests : List (Nat → Option Bool)) (combinators : List Combinator) :
    Nat → Nat → Option Bool
  | 0, i => do (← tests[0]?) i
  | k + 1, i => do
    if ← (← tests[k + 1]?) i then
      let c ← combinators[k]?
      (d.related i c).anyM (walk? d tests combinators k)
    else return false

mutual

/-- Whether a row matches an element; one without compounds matches none. -/
def rowMatches? (d : Document) : RowOf RowPseudoClass → Nat → Option Bool
  | ⟨parts, combinators⟩, i =>
    if parts.isEmpty then some false
    else d.walk? (d.rowTests parts) combinators (parts.length - 1) i

/-- Compounds as tests of elements. -/
def rowTests (d : Document) : List (CompoundOf RowPseudoClass) → List (Nat → Option Bool)
  | [] => []
  | p :: ps => d.rowCompoundMatches? p :: d.rowTests ps

/-- Whether a compound matches an element. -/
def rowCompoundMatches? (d : Document) : CompoundOf RowPseudoClass → Nat → Option Bool
  | ⟨type, id, classes, attributes, pseudoClasses, pseudoElement⟩, i =>
    match d.box? i with
    | none => some false
    | some b =>
      if pseudoElement.isNone && b.passesType type && b.passesId id &&
        classes.all b.classes.contains && attributes.all b.passes then
        d.allRowPseudoMatch? pseudoClasses i b
      else some false

/-- Whether all of some pseudo-classes match an element. -/
def allRowPseudoMatch? (d : Document) : List RowPseudoClass → Nat → Box → Option Bool
  | [], _, _ => some true
  | q :: qs, i, b => do
    if ← d.rowPseudoMatches? q i b then d.allRowPseudoMatch? qs i b else return false

/-- Whether a pseudo-class matches an element. -/
def rowPseudoMatches? (d : Document) : RowPseudoClass → Nat → Box → Option Bool
  | .condition c, i, b => some (d.satisfies i b c)
  | .nth counting positions, i, _ => some (positions.describes (d.rank i counting))
  | .not rows, i, _ => (d.someRowMatches? rows i).map (!·)
  | .is rows, i, _ => d.someRowMatches? rows i

/-- Whether one of some rows matches an element. -/
def someRowMatches? (d : Document) : List (RowOf RowPseudoClass) → Nat → Option Bool
  | [], _ => some false
  | r :: rs, i => do
    if ← d.rowMatches? r i then return true else d.someRowMatches? rs i

end

end Document

end CriticalCss
