import CriticalCss.Data.Json
import CriticalCss.Document.Snapshot

/-!
# Snapshots as data

An element is a record in which every field has a default; what is empty or absent is left out when
it is written.  A snapshot is a record too, and only its root is required.
-/

namespace CriticalCss

open Data (Value Fields)

/-- A field that is written if a condition holds. -/
def fieldIf (condition : Bool) (name : String) (v : Value) : List (String × Value) :=
  if condition then [(name, v)] else []

namespace Element

/-- Attributes as a record. -/
def attributesToValue (attributes : List (String × String)) : Value :=
  .record (attributes.map fun a => (a.1, .text a.2))

/-- Reads attributes; of values for one name the last one holds. -/
def attributesOfValue? : Value → Option (List (String × String))
  | .record members =>
    members.foldlM (fun known m => m.2.asText?.map fun v => setAttribute m.1 v known) []
  | _ => none

mutual

/-- An element as a record. -/
def toValue : Element → Value
  | ⟨tag, id, classes, attributes, rect, late, text, children⟩ =>
    .record ([("tag", .text tag)] ++
      fieldIf id.isSome "id" (.text (id.getD "")) ++
      fieldIf (!classes.isEmpty) "classes" (.ofTexts classes) ++
      fieldIf (!attributes.isEmpty) "attributes" (attributesToValue attributes) ++
      [("rect", rect.toValue)] ++
      fieldIf late "lazy" (.bool true) ++
      fieldIf text.isSome "text" (.text (text.getD "")) ++
      fieldIf (!children.isEmpty) "children" (.list (toValues children)))

/-- Elements as records. -/
def toValues : List Element → List Value
  | [] => []
  | e :: es => e.toValue :: toValues es

end

/-- The names of the fields of an element. -/
def fieldNames : List String :=
  ["tag", "id", "classes", "attributes", "rect", "lazy", "text", "children"]

/-- Reads an element, given how its children are read. -/
def ofFields? (readChild : Value → Option Element) (v : Value) : Option Element := do
  let f ← Fields.of? fieldNames v
  let tag ← f.withDefault "tag" "" Value.asText?
  let id ← f.withDefault "id" none (Value.asOption? Value.asText?)
  let classes ← f.withDefault "classes" [] Value.asTexts?
  let attributes ← f.withDefault "attributes" [] attributesOfValue?
  let rect ← f.withDefault "rect" Rect.zero Rect.ofValue?
  let late ← f.withDefault "lazy" false Value.asBool?
  let text ← f.withDefault "text" none (Value.asOption? Value.asText?)
  let children ← f.withDefault "children" [] (Value.asList? readChild)
  some ⟨tag, id, classes, attributes, rect, late, text, children⟩

/-- Reads an element from a value of limited depth. -/
def ofValueWithin? : Nat → Value → Option Element
  | 0, _ => none
  | depth + 1, v => ofFields? (ofValueWithin? depth) v

/-- Reads an element. -/
def ofValue? (v : Value) : Option Element :=
  ofValueWithin? v.depth v

end Element

namespace Snapshot

/-- A snapshot as a record. -/
def toValue (s : Snapshot) : Value :=
  .record ([("root", s.root.toValue)] ++
    fieldIf (!s.stylesheets.isEmpty) "stylesheets" (.ofTexts s.stylesheets) ++
    fieldIf (!s.subresources.isEmpty) "subresources" (.ofTexts s.subresources) ++
    [("loadTimeMs", .ofNat s.loadTime)])

/-- Reads a snapshot. -/
def ofValue? (v : Value) : Option Snapshot := do
  let f ← Fields.of? ["root", "stylesheets", "subresources", "loadTimeMs"] v
  let root ← f.required "root" Element.ofValue?
  let stylesheets ← f.withDefault "stylesheets" [] Value.asTexts?
  let subresources ← f.withDefault "subresources" [] Value.asTexts?
  let loadTime ← f.withDefault "loadTimeMs" 0 (Value.asNat? Data.max64)
  some ⟨root, stylesheets, subresources, loadTime⟩

/-- A snapshot as JSON text. -/
def toText (s : Snapshot) : String :=
  Data.Json.write s.toValue

/-- Reads a snapshot from JSON text. -/
def ofText? (text : String) : Option Snapshot :=
  (Data.Json.read? text).bind ofValue?

end Snapshot

end CriticalCss
