import CriticalCss.Data.Decode
import CriticalCss.Stylesheet.Basic

/-!
# Rule trees as values

The serialized form of a rule tree.  A node is a record whose member `type` names its kind; the
other members are the fields of that kind.  `Node.toValue` writes this form and `Node.ofValue?`
reads it.
-/

namespace CriticalCss

open Data (Value Fields)

namespace Position

/-- A place as a record of its two numbers. -/
def toValue (p : Position) : Value :=
  .record [("line", .ofNat p.line), ("column", .ofNat p.column)]

/-- Reads a place. -/
def ofValue? (v : Value) : Option Position := do
  let f ← Fields.of? ["line", "column"] v
  let line ← f.required "line" (Value.asNat? Data.max32)
  let column ← f.required "column" (Value.asNat? Data.max32)
  some ⟨line, column⟩

/-- A place that may be absent. -/
def optionToValue : Option Position → Value
  | none => .null
  | some p => p.toValue

end Position

namespace Declaration

/-- A declaration as a record. -/
def toValue (d : Declaration) : Value :=
  .record [("property", .text d.property), ("value", .text d.value)]

/-- Reads a declaration. -/
def ofValue? (v : Value) : Option Declaration := do
  let f ← Fields.of? ["property", "value"] v
  let property ← f.required "property" Value.asText?
  let value ← f.required "value" Value.asText?
  some ⟨property, value⟩

/-- Several declarations. -/
def listToValue (ds : List Declaration) : Value :=
  .list (ds.map toValue)

end Declaration

namespace Node

/-- The members of a serialized item, but for its place. -/
def itemMembers : Item → List (String × Value)
  | .style selectors declarations =>
    [("type", .text "rule"), ("selectors", .ofTexts selectors),
      ("declarations", Declaration.listToValue declarations)]
  | .keyframe values declarations =>
    [("type", .text "keyframe"), ("values", .ofTexts values),
      ("declarations", Declaration.listToValue declarations)]
  | .fontFace declarations =>
    [("type", .text "font-face"), ("declarations", Declaration.listToValue declarations)]
  | .charset charset => [("type", .text "charset"), ("charset", .text charset)]
  | .comment text => [("type", .text "comment"), ("text", .text text)]
  | .statement name prelude =>
    [("type", .text "at-rule"), ("name", .text name), ("prelude", .text prelude),
      ("body", .text "Statement")]
  | .descriptors name prelude declarations =>
    [("type", .text "at-rule"), ("name", .text name), ("prelude", .text prelude),
      ("body", .record [("Declarations", Declaration.listToValue declarations)])]

/-- The members of a serialized block, but for its place. -/
def blockMembers (rules : Value) : Heading → List (String × Value)
  | .media condition =>
    [("type", .text "media"), ("criterion", .text condition), ("rules", rules)]
  | .supports condition =>
    [("type", .text "supports"), ("criterion", .text condition), ("rules", rules)]
  | .keyframes vendor name =>
    [("type", .text "keyframes"), ("vendor", (vendor.map Value.text).getD .null),
      ("name", .text name), ("keyframes", rules)]
  | .other name prelude =>
    [("type", .text "at-rule"), ("name", .text name), ("prelude", .text prelude),
      ("body", .record [("Rules", rules)])]

mutual

/-- The serialized form of a node. -/
def toValue : Node → Value
  | .item i p => .record (itemMembers i ++ [("position", Position.optionToValue p)])
  | .block h rules p =>
    .record (blockMembers (.list (toValues rules)) h ++ [("position", Position.optionToValue p)])

/-- The serialized forms of nodes. -/
def toValues : List Node → List Value
  | [] => []
  | n :: ns => n.toValue :: toValues ns

end

/-- Separates the tag of a tagged value from its fields.  A list has the tag in front. -/
def untag? : Value → Option (String × Value)
  | .record members =>
    match members.filter (·.1 = "type") with
    | [(_, .text tag)] => some (tag, .record (members.filter (·.1 ≠ "type")))
    | _ => none
  | .list (.text tag :: items) => some (tag, .list items)
  | _ => none

/-- Reads the body of an at-rule without a kind of its own, given how its rules are read. -/
def readBody? (readNode : Value → Option Node) (name prelude : String)
    (position : Option Position) : Value → Option Node
  | .record [("Declarations", v)] => do
    let declarations ← v.asList? Declaration.ofValue?
    some (.item (.descriptors name prelude declarations) position)
  | .record [("Rules", v)] => do
    let rules ← v.asList? readNode
    some (.block (.other name prelude) rules position)
  | v => if v.asCase? = some "Statement" then some (.item (.statement name prelude) position) else none

/-- Reads the fields of a node with the given tag, given how the nodes inside it are read. -/
def readTagged? (readNode : Value → Option Node) (tag : String) (v : Value) : Option Node := do
  let position (f : Fields) := f.optional "position" Position.ofValue?
  let declarations (f : Fields) :=
    f.required "declarations" (Value.asList? Declaration.ofValue?)
  match tag with
  | "rule" =>
    let f ← Fields.of? ["selectors", "declarations", "position"] v
    let selectors ← f.required "selectors" Value.asTexts?
    some (.item (.style selectors (← declarations f)) (← position f))
  | "media" =>
    let f ← Fields.of? ["criterion", "rules", "position"] v
    let criterion ← f.required "criterion" Value.asText?
    let rules ← f.required "rules" (Value.asList? readNode)
    some (.block (.media criterion) rules (← position f))
  | "supports" =>
    let f ← Fields.of? ["criterion", "rules", "position"] v
    let criterion ← f.required "criterion" Value.asText?
    let rules ← f.required "rules" (Value.asList? readNode)
    some (.block (.supports criterion) rules (← position f))
  | "keyframes" =>
    let f ← Fields.of? ["vendor", "name", "keyframes", "position"] v
    let vendor ← f.optional "vendor" Value.asText?
    let name ← f.required "name" Value.asText?
    let rules ← f.required "keyframes" (Value.asList? readNode)
    some (.block (.keyframes vendor name) rules (← position f))
  | "keyframe" =>
    let f ← Fields.of? ["values", "declarations", "position"] v
    let values ← f.required "values" Value.asTexts?
    some (.item (.keyframe values (← declarations f)) (← position f))
  | "font-face" =>
    let f ← Fields.of? ["declarations", "position"] v
    some (.item (.fontFace (← declarations f)) (← position f))
  | "charset" =>
    let f ← Fields.of? ["charset", "position"] v
    some (.item (.charset (← f.required "charset" Value.asText?)) (← position f))
  | "comment" =>
    let f ← Fields.of? ["text", "position"] v
    some (.item (.comment (← f.required "text" Value.asText?)) (← position f))
  | "at-rule" =>
    let f ← Fields.of? ["name", "prelude", "body", "position"] v
    let name ← f.required "name" Value.asText?
    let prelude ← f.required "prelude" Value.asText?
    let body ← f.required "body" some
    readBody? readNode name prelude (← position f) body
  | _ => none

/-- Reads a node that is nested at most so deeply. -/
def ofValueWithin? : Nat → Value → Option Node
  | 0, _ => none
  | depth + 1, v => do
    let (tag, fields) ← untag? v
    readTagged? (ofValueWithin? depth) tag fields

/-- Reads a node. -/
def ofValue? (v : Value) : Option Node :=
  ofValueWithin? v.depth v

end Node

namespace Stylesheet

/-- The serialized form of a style sheet. -/
def toValue (sheet : Stylesheet) : Value :=
  .record [("rules", .list (Node.toValues sheet))]

/-- Reads a style sheet. -/
def ofValue? (v : Value) : Option Stylesheet := do
  let f ← Fields.of? ["rules"] v
  f.required "rules" (Value.asList? Node.ofValue?)

end Stylesheet

end CriticalCss
