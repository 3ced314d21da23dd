import CriticalCss.Document.Layout

/-!
# Pictures of documents

A picture shows the visible part of a page, with the outline of every visible box in one colour on a
background of another.  It is kept as its size and its outlines; what a pixel or a row of pixels
shows follows from them.
-/

namespace CriticalCss

/-- The outline of a box in pixels, all of its edges included. -/
structure Outline where
  left : Nat
  top : Nat
  right : Nat
  bottom : Nat
deriving DecidableEq

namespace Outline

/-- Whether a pixel lies on the outline. -/
def covers (o : Outline) (x y : Nat) : Bool :=
  (o.left ≤ x ∧ x ≤ o.right ∧ (y = o.top ∨ y = o.bottom)) ∨
    (o.top ≤ y ∧ y ≤ o.bottom ∧ (x = o.left ∨ x = o.right))

/-- First and last pixel of the runs of the outline in a row. -/
def runs (o : Outline) (y : Nat) : List (Nat × Nat) :=
  if (y = o.top ∨ y = o.bottom) ∧ o.left ≤ o.right then [(o.left, o.right)]
  else if o.top ≤ y ∧ y ≤ o.bottom then [(o.left, o.left), (o.right, o.right)]
  else []

end Outline

/-- Joins a run with those of the runs after it that it touches or overlaps; they come ordered by
their first pixel. -/
def joinRun (run : Nat × Nat) : List (Nat × Nat) → List (Nat × Nat)
  | [] => [run]
  | next :: rest =>
    if next.1 ≤ run.2 + 1 then joinRun (run.1, max run.2 next.2) rest
    else run :: joinRun next rest

/-- Joins runs that touch or overlap; they come ordered by their first pixel. -/
def joinRuns : List (Nat × Nat) → List (Nat × Nat)
  | [] => []
  | run :: runs => joinRun run runs

/-- A picture with the outlines of boxes. -/
structure Picture where
  width : Nat
  height : Nat
  outlines : List Outline

namespace Picture

/-- Red, green, blue and opacity of the background. -/
def background : List Nat := [255, 255, 255, 255]

/-- Red, green, blue and opacity of the outlines. -/
def ink : List Nat := [66, 133, 244, 255]

/-- Whether a pixel lies on an outline. -/
def isInk (p : Picture) (x y : Nat) : Bool :=
  p.outlines.any (·.covers x y)

/-- First and last pixel of the runs of ink in a row, from left to right. -/
def runs (p : Picture) (y : Nat) : List (Nat × Nat) :=
  let all := p.outlines.flatMap (·.runs y)
  joinRuns (all.mergeSort fun a b => a.1 ≤ b.1)

/-- A number of pixels, not less than zero and without its fraction. -/
def pixels (x : Float32) : Nat :=
  x.toUInt32.toNat

/-- The outline of the visible part of a box in a picture of a given size. -/
def outline (width height : Nat) (scale : Float32) (visible : Rect) : Outline :=
  let lastPixel (edge : Float32) (size : Nat) := min (pixels (edge * scale).ceil - 1) (size - 1)
  { left := min (pixels (visible.left * scale)) (width - 1)
    top := min (pixels (visible.top * scale)) (height - 1)
    right := lastPixel visible.right width
    bottom := lastPixel visible.bottom height }

/-- The picture of a document, enlarged by a scale; a scale that is not positive counts as one. -/
def ofDocument (d : Document) (scale : Float32) : Picture :=
  let scale : Float32 := if scale > 0 then scale else 1
  let size (n : Nat) := max 1 (pixels (Decimal.wholeToFloat32 n * scale).round)
  let width := size d.viewport.width
  let height := size d.viewport.height
  let visible := d.boxes.filterMap fun b =>
    if b.rect.isEmpty then none else b.rect.intersect? d.viewport.rect
  ⟨width, height, visible.map (outline width height scale)⟩

end Picture

end CriticalCss
