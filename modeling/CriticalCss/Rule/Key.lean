import CriticalCss.Stylesheet.Basic

/-!
# Keys of rules

A rule is addressed by its key: the context it stands in, followed by a text of its own.  The
context is the chain of ids of the enclosing groups, so that equal selectors in different groups
have different keys.  Comments have no key, and at-rules without a kind of their own share one key
unless they hold rules.
-/

namespace CriticalCss

/-- The text between the context and the rule's own part, when it is asked for. -/
def ruleSeparator : String := "-#-"

/-- The text between the ids of nested groups. -/
def groupSeparator : String := "-##-"

/-- The key of rules that nothing identifies. -/
def defaultKey : String := "default"

/-- Kinds of top-level nodes the critical style sheet is made from. -/
def criticalKinds : List Kind := [.media, .rule, .charset, .fontFace, .supports]

/-- Kinds of nodes in which selectors are looked for. -/
def probedKinds : List Kind := [.supports, .media, .rule]

/-- A media condition without one `all and ` at its start. -/
def canonicalMedia (condition : String) : String :=
  let lead := "all and ".toList
  if lead.isPrefixOf condition.toList then String.ofList (condition.toList.drop lead.length)
  else condition

/-- Whether two media conditions differ in an `all and ` at their start at most. -/
def sameMedia (a b : String) : Bool :=
  canonicalMedia a = canonicalMedia b

namespace Node

/-- The part of a key that is the rule's own: nothing for a comment, and `none` inside for a rule
that nothing identifies. -/
def ownKey? : Node → Option (Option String)
  | .item (.style selectors _) _ => some (some (",".intercalate selectors))
  | .item (.keyframe values _) _ => some (some (",".intercalate values))
  | .item (.fontFace _) _ => some (some Kind.fontFace.label)
  | .item (.charset charset) _ => some (some charset)
  | .item (.comment _) _ => none
  | .item (.statement ..) _ => some none
  | .item (.descriptors ..) _ => some none
  | .block (.media condition) _ _ => some (some (Kind.media.label ++ " " ++ condition))
  | .block (.supports condition) _ _ => some (some (Kind.supports.label ++ " " ++ condition))
  | .block (.keyframes _ name) _ _ => some (some name)
  | .block (.other name prelude) _ _ => some (some (name ++ " " ++ prelude))

/-- The key of a node in a context, with or without the separator. -/
def keyWith? (separator context : String) (n : Node) : Option String :=
  n.ownKey?.map fun own =>
    match own with
    | some part => context ++ separator ++ part
    | none => defaultKey

/-- The key of a node in a context. -/
def key? (context : String) (n : Node) : Option String :=
  n.keyWith? "" context

/-- Every node but a comment has a key. -/
theorem isSome_key? (context : String) (n : Node) :
    (n.key? context).isSome = !n.isComment := by
  cases n with
  | item i p => cases i <;> rfl
  | block h rules p => cases h <;> rfl

/-- Places have no part in keys. -/
@[simp]
theorem key?_withoutPosition (context : String) (n : Node) :
    n.withoutPosition.key? context = n.key? context := by
  cases n with
  | item i p => cases i <;> rfl
  | block h rules p => cases h <;> rfl

/-- The id of a group: its type name and its criterion. -/
def groupId (n : Node) : String :=
  n.typeName ++ n.criterion?.getD ""

/-- The context of the nodes inside a node. -/
def innerContext (context : String) (n : Node) : String :=
  if context = "" then n.groupId else context ++ groupSeparator ++ n.groupId

end Node

end CriticalCss
