import CriticalCss.Document.Geometry

/-!
# Snapshots of pages

A snapshot is a tree of elements with their boxes, the style sheets of the page, the addresses it
asks for while it loads, and how long it takes to load.  Late elements, with everything inside them,
appear only when the page has loaded.
-/

namespace CriticalCss

/-- An element with its box and its children. -/
structure Element where
  tag : String
  id : Option String
  classes : List String
  /-- Names and values; no name stands twice. -/
  attributes : List (String × String)
  rect : Rect
  /-- The element appears only when the page has loaded. -/
  late : Bool
  text : Option String
  children : List Element

/-- Sets the value of a name, at the place of the name if it is there. -/
def setAttribute (name value : String) : List (String × String) → List (String × String)
  | [] => [(name, value)]
  | (n, v) :: rest =>
    if n = name then (n, value) :: rest else (n, v) :: setAttribute name value rest

namespace Element

/-- An element of which nothing is known. -/
def unknown : Element := ⟨"", none, [], [], .zero, false, none, []⟩

instance : Inhabited Element := ⟨unknown⟩

/-- An element with a name. -/
def named (tag : String) : Element :=
  { unknown with tag := Text.lower tag }

/-- The element with an attribute whose name is put in lower case. -/
def withAttribute (e : Element) (name value : String) : Element :=
  { e with attributes := setAttribute (Text.lower name) value e.attributes }

/-- The element with more children. -/
def withChildren (e : Element) (children : List Element) : Element :=
  { e with children := e.children ++ children }

end Element

/-- A page before it is laid out. -/
structure Snapshot where
  root : Element
  /-- The texts of its style sheets, in order. -/
  stylesheets : List String
  /-- The addresses asked for while it loads. -/
  subresources : List String
  /-- How many milliseconds it takes to load. -/
  loadTime : Nat

namespace Snapshot

/-- A page that loads at once. -/
def ofRoot (root : Element) : Snapshot := ⟨root, [], [], 0⟩

/-- The page with a load time in microseconds, of which whole milliseconds count. -/
def withLoadTime (s : Snapshot) (microseconds : Nat) : Snapshot :=
  { s with loadTime := microseconds / 1000 }

/-- All style sheets, one after another. -/
def stylesheetText (s : Snapshot) : String :=
  "\n".intercalate s.stylesheets

end Snapshot

end CriticalCss
