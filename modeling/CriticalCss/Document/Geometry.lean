import CriticalCss.Data.Decode

/-!
# Rectangles and viewports

Positions and sizes are single precision numbers of CSS pixels.  The viewport is the visible part of
a page, at the origin; its height is the fold.
-/

namespace CriticalCss

/-- The box of an element, relative to the top left corner of the page. -/
structure Rect where
  x : Float32
  y : Float32
  width : Float32
  height : Float32
deriving BEq

/-- The greater of two numbers; the first one if they are equal, and the other one if one of them is
no number. -/
def greaterOf (a b : Float32) : Float32 :=
  if a.isNaN then b else if b > a then b else a

/-- The lesser of two numbers; the first one if they are equal, and the other one if one of them is
no number. -/
def lesserOf (a b : Float32) : Float32 :=
  if a.isNaN then b else if b < a then b else a

namespace Rect

/-- The empty rectangle at the origin. -/
def zero : Rect := ⟨0, 0, 0, 0⟩

def left (r : Rect) : Float32 := r.x

def top (r : Rect) : Float32 := r.y

def right (r : Rect) : Float32 := r.x + r.width

def bottom (r : Rect) : Float32 := r.y + r.height

/-- Whether the rectangle has no area. -/
def isEmpty (r : Rect) : Bool :=
  r.width ≤ 0 || r.height ≤ 0

/-- The common part of two rectangles, if it has an area. -/
def intersect? (a b : Rect) : Option Rect :=
  let left := greaterOf a.left b.left
  let top := greaterOf a.top b.top
  let right := lesserOf a.right b.right
  let bottom := lesserOf a.bottom b.bottom
  if left < right && top < bottom then some ⟨left, top, right - left, bottom - top⟩ else none

end Rect

/-- The size of the visible part of a page. -/
structure Viewport where
  width : Nat
  height : Nat
deriving DecidableEq

/-- The visible part of a page as a rectangle. -/
def Viewport.rect (v : Viewport) : Rect :=
  ⟨0, 0, Decimal.wholeToFloat32 v.width, Decimal.wholeToFloat32 v.height⟩

namespace Rect

open Data (Value Fields)

/-- A rectangle as a record. -/
def toValue (r : Rect) : Value :=
  .record [("x", .ofFloat32 r.x), ("y", .ofFloat32 r.y), ("width", .ofFloat32 r.width),
    ("height", .ofFloat32 r.height)]

/-- Reads a rectangle. -/
def ofValue? (v : Value) : Option Rect := do
  let f ← Fields.of? ["x", "y", "width", "height"] v
  let x ← f.required "x" Value.asFloat32?
  let y ← f.required "y" Value.asFloat32?
  let width ← f.required "width" Value.asFloat32?
  let height ← f.required "height" Value.asFloat32?
  some ⟨x, y, width, height⟩

end Rect

end CriticalCss
