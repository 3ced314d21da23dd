import CriticalCss.Selector.Basic

/-!
# The text of selectors

A compound is written as its name, its id, its classes, its attribute tests, its pseudo-classes and
its pseudo-element, in this order.  Names and values are written as they are, without escapes.
-/

namespace CriticalCss

mutual

/-- The text of a pseudo-class, without its colon. -/
def PseudoClass.text : PseudoClass → String
  | .condition c => c.name
  | .nth counting positions => counting.name ++ "(" ++ positions.text ++ ")"
  | .not selectors => "not(" ++ ", ".intercalate (selectorTexts selectors) ++ ")"
  | .is selectors => "is(" ++ ", ".intercalate (selectorTexts selectors) ++ ")"

/-- The texts of selectors. -/
def selectorTexts : List (SelectorOf PseudoClass) → List String
  | [] => []
  | s :: ss => selectorText s :: selectorTexts ss

/-- The text of a selector. -/
def selectorText : SelectorOf PseudoClass → String
  | .compound part => compoundText part
  | .combined left c part => selectorText left ++ c.text ++ compoundText part

/-- The text of a compound. -/
def compoundText : CompoundOf PseudoClass → String
  | ⟨type, id, classes, attributes, pseudoClasses, pseudoElement⟩ =>
    (type.map TypeTest.text).getD "" ++ (id.map ("#" ++ ·)).getD "" ++
      String.join (classes.map ("." ++ ·)) ++ String.join (attributes.map (·.text)) ++
      pseudoClassTexts pseudoClasses ++ (pseudoElement.map ("::" ++ ·)).getD ""

/-- The text of pseudo-classes, each with its colon. -/
def pseudoClassTexts : List PseudoClass → String
  | [] => ""
  | p :: ps => ":" ++ p.text ++ pseudoClassTexts ps

end

/-- The text of a selector. -/
def SelectorOf.text (s : Selector) : String := selectorText s

/-- The text of a compound. -/
def CompoundOf.text (c : Compound) : String := compoundText c

/-- The text of a list of selectors. -/
def selectorListText (ss : List Selector) : String :=
  ", ".intercalate (selectorTexts ss)

end CriticalCss
