import CriticalCss.Selector.Basic

/-!
# Selectors as rows

A selector can also be kept as a row of compounds from left to right, with the combinators in a row of
their own: the combinator at a place stands after the compound at this place.  Nothing about the type
makes the two rows fit, so looking up a combinator fails where there is none.  `combine` adds to both
rows, and `text?` writes a row with its combinators looked up by their places.
-/

namespace CriticalCss

/-- A row of compounds, and the combinators between them. -/
structure RowOf (P : Type) where
  parts : List (CompoundOf P)
  combinators : List Combinator

/-- A pseudo-class whose selectors are rows. -/
inductive RowPseudoClass where
  | condition (c : Condition)
  | nth (counting : Counting) (positions : Nth)
  /-- None of the selectors matches. -/
  | not (rows : List (RowOf RowPseudoClass))
  /-- Some of the selectors matches. -/
  | is (rows : List (RowOf RowPseudoClass))

/-- The tests of one element, with rows in its pseudo-classes. -/
abbrev RowCompound := CompoundOf RowPseudoClass

/-- A selector as a row. -/
abbrev Row := RowOf RowPseudoClass

namespace RowOf

variable {P : Type}

/-- A row without compounds, and so without combinators. -/
def empty : RowOf P := ⟨[], []⟩

/-- Elements with a name. -/
def ofType (name : String) : RowOf P :=
  ⟨[{ CompoundOf.empty with type := some (.name name) }], []⟩

/-- Elements with a class. -/
def ofClass (name : String) : RowOf P :=
  ⟨[CompoundOf.empty.withClass name], []⟩

/-- Adds a compound to the right; the first one is combined with nothing. -/
def combine (r : RowOf P) (c : Combinator) (part : CompoundOf P) : RowOf P :=
  ⟨r.parts ++ [part], if r.parts.isEmpty then r.combinators else r.combinators ++ [c]⟩

/-- Adds a compound for elements inside of what is there. -/
def descendant (r : RowOf P) (part : CompoundOf P) : RowOf P :=
  r.combine .descendant part

/-- Adds a compound for elements right inside of what is there. -/
def child (r : RowOf P) (part : CompoundOf P) : RowOf P :=
  r.combine .child part

/-- The texts of compounds from a place on, each with the combinator before it. -/
def textFrom? (combinators : List Combinator) : Nat → List String → Option String
  | _, [] => some ""
  | 0, text :: texts => do return text ++ (← textFrom? combinators 1 texts)
  | i + 1, text :: texts => do
    let c ← combinators[i]?
    return c.text ++ text ++ (← textFrom? combinators (i + 2) texts)

end RowOf

mutual

/-- The text of a pseudo-class, without its colon. -/
def RowPseudoClass.text? : RowPseudoClass → Option String
  | .condition c => some c.name
  | .nth counting positions => some (counting.name ++ "(" ++ positions.text ++ ")")
  | .not rows => (rowTexts? rows).map fun texts => "not(" ++ ", ".intercalate texts ++ ")"
  | .is rows => (rowTexts? rows).map fun texts => "is(" ++ ", ".intercalate texts ++ ")"

/-- The texts of rows. -/
def rowTexts? : List (RowOf RowPseudoClass) → Option (List String)
  | [] => some []
  | r :: rs => do return (← rowText? r) :: (← rowTexts? rs)

/-- The text of a row. -/
def rowText? : RowOf RowPseudoClass → Option String
  | ⟨parts, combinators⟩ => (rowPartTexts? parts).bind (RowOf.textFrom? combinators 0)

/-- The texts of compounds. -/
def rowPartTexts? : List (CompoundOf RowPseudoClass) → Option (List String)
  | [] => some []
  | p :: ps => do return (← rowPartText? p) :: (← rowPartTexts? ps)

/-- The text of a compound. -/
def rowPartText? : CompoundOf RowPseudoClass → Option String
  | ⟨type, id, classes, attributes, pseudoClasses, pseudoElement⟩ =>
    (rowPseudoClassTexts? pseudoClasses).map fun texts =>
      (type.map TypeTest.text).getD "" ++ (id.map ("#" ++ ·)).getD "" ++
        String.join (classes.map ("." ++ ·)) ++ String.join (attributes.map (·.text)) ++
        texts ++ (pseudoElement.map ("::" ++ ·)).getD ""

/-- The text of pseudo-classes, each with its colon. -/
def rowPseudoClassTexts? : List RowPseudoClass → Option String
  | [] => some ""
  | q :: qs => do return ":" ++ (← q.text?) ++ (← rowPseudoClassTexts? qs)

end

/-- The text of a row; there is none where a combinator is missing. -/
def RowOf.text? (r : Row) : Option String := rowText? r

/-! ## Rows of selectors -/

mutual

/-- A pseudo-class with its selectors as rows. -/
def PseudoClass.toRows : PseudoClass → RowPseudoClass
  | .condition c => .condition c
  | .nth counting positions => .nth counting positions
  | .not selectors => .not (rowsOf selectors)
  | .is selectors => .is (rowsOf selectors)

/-- Selectors as rows. -/
def rowsOf : List (SelectorOf PseudoClass) → List (RowOf RowPseudoClass)
  | [] => []
  | s :: ss => rowOf s :: rowsOf ss

/-- A selector as a row. -/
def rowOf : SelectorOf PseudoClass → RowOf RowPseudoClass
  | .compound part => ⟨[rowPartOf part], []⟩
  | .combined left c part => (rowOf left).combine c (rowPartOf part)

/-- A compound with rows in its pseudo-classes. -/
def rowPartOf : CompoundOf PseudoClass → CompoundOf RowPseudoClass
  | ⟨type, id, classes, attributes, pseudoClasses, pseudoElement⟩ =>
    ⟨type, id, classes, attributes, rowPseudoClassesOf pseudoClasses, pseudoElement⟩

/-- Pseudo-classes with their selectors as rows. -/
def rowPseudoClassesOf : List PseudoClass → List RowPseudoClass
  | [] => []
  | q :: qs => q.toRows :: rowPseudoClassesOf qs

end

end CriticalCss
