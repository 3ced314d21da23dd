import CriticalCss.Document.Snapshot

/-!
# Laid-out documents

A document holds the boxes of a page in document order: every element stands before its children, and
these stand before its next sibling.  A box knows the index of its parent, which is smaller than its
own; children, siblings and ancestors follow from that.
-/

namespace CriticalCss

/-- An element of a document. -/
structure Box where
  /-- The name of the element in lower case. -/
  tag : String
  id : Option String
  classes : List String
  attributes : List (String × String)
  rect : Rect
  hasText : Bool
  /-- The index of the parent. -/
  parent : Option Nat

/-- The boxes of a page, and the part of the page that is visible. -/
structure Document where
  boxes : List Box
  viewport : Viewport

/-- The box of an element, without its children. -/
def Element.box (e : Element) (parent : Option Nat) : Box :=
  ⟨Text.lower e.tag, e.id, e.classes, e.attributes, e.rect, e.text.any (· ≠ ""), parent⟩

namespace Element

mutual

/-- The boxes of an element and of what is inside it, the first of which gets the index `start`.  Late
elements have boxes only if the page has loaded. -/
def boxes (loaded : Bool) (parent : Option Nat) (start : Nat) : Element → List Box
  | ⟨tag, id, classes, attributes, rect, late, text, children⟩ =>
    if late && !loaded then []
    else
      box ⟨tag, id, classes, attributes, rect, late, text, children⟩ parent ::
        boxesInside loaded start (start + 1) children

/-- The boxes of the children of an element, the first of which gets the index `start`. -/
def boxesInside (loaded : Bool) (parent start : Nat) : List Element → List Box
  | [] => []
  | e :: es =>
    let first := boxes loaded (some parent) start e
    first ++ boxesInside loaded parent (start + first.length) es

end

end Element

/-- The document that a page becomes in a viewport. -/
def Snapshot.layout (s : Snapshot) (viewport : Viewport) (loaded : Bool) : Document :=
  ⟨s.root.boxes loaded none 0, viewport⟩

namespace Document

/-- The box with an index. -/
def box? (d : Document) (i : Nat) : Option Box := d.boxes[i]?

/-- The rectangle of the box with an index. -/
def rect? (d : Document) (i : Nat) : Option Rect :=
  (d.box? i).map (·.rect)

/-- The index of the parent. -/
def parent? (d : Document) (i : Nat) : Option Nat :=
  (d.box? i).bind (·.parent)

/-- The indices of the children, in order. -/
def children (d : Document) (i : Nat) : List Nat :=
  (List.range d.boxes.length).filter fun j => d.parent? j == some i

/-- The indices of an element and its siblings, in order. -/
def siblings (d : Document) (i : Nat) : List Nat :=
  match d.parent? i with
  | none => [i]
  | some p => d.children p

/-- The indices of the siblings before an element, the nearest one first. -/
def siblingsBefore (d : Document) (i : Nat) : List Nat :=
  ((d.siblings i).filter (· < i)).reverse

/-- The indices of the siblings after an element, the nearest one first. -/
def siblingsAfter (d : Document) (i : Nat) : List Nat :=
  (d.siblings i).filter (i < ·)

/-- The sibling that stands some places after an element in the list of their parent, or before it if
the offset is negative. -/
def sibling? (d : Document) (i : Nat) (offset : Int) : Option Nat :=
  (d.parent? i).bind fun p =>
    ((d.children p).idxOf? i).bind fun k =>
      if k + offset < 0 then none else (d.children p)[(k + offset).toNat]?

/-- The sibling right before an element. -/
def previous? (d : Document) (i : Nat) : Option Nat := d.sibling? i (-1)

/-- The sibling right after an element. -/
def next? (d : Document) (i : Nat) : Option Nat := d.sibling? i 1

/-- The indices of the ancestors, the nearest one first. -/
def ancestors (d : Document) (i : Nat) : List Nat :=
  match d.parent? i with
  | none => []
  | some p => if _h : p < i then p :: d.ancestors p else []
termination_by i

end Document

end CriticalCss
