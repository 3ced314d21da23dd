/-!
# Rule trees

A style sheet is a list of nodes.  A node is an item without rules of its own (a style rule, a
keyframe, a font face, a statement, a comment) or a block of rules under a heading (`@media`,
`@supports`, `@keyframes` and the other at-rules that hold rules).  Selectors, conditions and values
are kept as text.  Every node may carry its place in the source text; `withoutPosition` removes the
places at every depth.
-/

namespace CriticalCss

/-- A place in a source text; both numbers start at one. -/
structure Position where
  line : Nat
  column : Nat
deriving DecidableEq

/-- A property and its value, with any `!important`. -/
structure Declaration where
  property : String
  value : String
deriving DecidableEq

/-- What stands before the rules of a block. -/
inductive Heading where
  | media (condition : String)
  | supports (condition : String)
  /-- An animation; `vendor` is the vendor mark with its dashes. -/
  | keyframes (vendor : Option String) (name : String)
  /-- Any other at-rule that holds rules. -/
  | other (name : String) (prelude : String)
deriving DecidableEq

/-- A node without rules of its own. -/
inductive Item where
  | style (selectors : List String) (declarations : List Declaration)
  /-- A step of an animation. -/
  | keyframe (values : List String) (declarations : List Declaration)
  | fontFace (declarations : List Declaration)
  | charset (charset : String)
  | comment (text : String)
  /-- Another at-rule that ends without a block. -/
  | statement (name : String) (prelude : String)
  /-- Another at-rule with a block of declarations. -/
  | descriptors (name : String) (prelude : String) (declarations : List Declaration)
deriving DecidableEq

/-- A node of the rule tree. -/
inductive Node where
  | item (item : Item) (position : Option Position)
  | block (heading : Heading) (rules : List Node) (position : Option Position)

/-- A style sheet: its top-level nodes in source order. -/
abbrev Stylesheet := List Node

/-- The kinds of nodes. -/
inductive Kind where
  | stylesheet
  | rule
  | media
  | supports
  | keyframes
  | keyframe
  | fontFace
  | charset
  | comment
  | other
deriving DecidableEq

namespace Kind

/-- The kinds with the names they have in serialized form. -/
def names : List (Kind × String) :=
  [(.stylesheet, "stylesheet"), (.rule, "rule"), (.media, "media"), (.supports, "supports"),
    (.keyframes, "keyframes"), (.keyframe, "keyframe"), (.fontFace, "font-face"),
    (.charset, "charset"), (.comment, "comment"), (.other, "other")]

/-- The name in serialized form. -/
def name (k : Kind) : String :=
  (names.lookup k).getD ""

/-- The name that keys and group ids use. -/
def label : Kind → String
  | .other => "at-rule"
  | k => k.name

/-- The kind with a serialized name. -/
def ofName? (s : String) : Option Kind :=
  (names.find? (·.2 = s)).map (·.1)

end Kind

namespace Heading

/-- The kind of a block with this heading. -/
def kind : Heading → Kind
  | .media _ => .media
  | .supports _ => .supports
  | .keyframes .. => .keyframes
  | .other .. => .other

/-- The condition, the animation name or the text after the keyword. -/
def criterion : Heading → String
  | .media c => c
  | .supports c => c
  | .keyframes _ name => name
  | .other _ prelude => prelude

/-- Whether the rules under this heading are style rules; an animation holds steps instead. -/
def groupsRules : Heading → Bool
  | .keyframes .. => false
  | _ => true

end Heading

namespace Item

/-- The kind of an item. -/
def kind : Item → Kind
  | .style .. => .rule
  | .keyframe .. => .keyframe
  | .fontFace _ => .fontFace
  | .charset _ => .charset
  | .comment _ => .comment
  | .statement .. => .other
  | .descriptors .. => .other

/-- The selectors of a style rule. -/
def selectors? : Item → Option (List String)
  | .style selectors _ => some selectors
  | _ => none

/-- The declarations of an item that has a block for them. -/
def declarations? : Item → Option (List Declaration)
  | .style _ ds => some ds
  | .keyframe _ ds => some ds
  | .fontFace ds => some ds
  | .descriptors _ _ ds => some ds
  | _ => none

end Item

namespace Node

mutual

/-- Equality of nodes is decidable. -/
def decEq : (a b : Node) → Decidable (a = b)
  | .item i p, .item j q =>
    if h : i = j ∧ p = q then isTrue (by rw [h.1, h.2])
    else isFalse (by intro e; cases e; exact h ⟨rfl, rfl⟩)
  | .block g rs p, .block k ss q =>
    match decEqList rs ss with
    | isFalse h => isFalse (by intro e; cases e; exact h rfl)
    | isTrue h =>
      if h' : g = k ∧ p = q then isTrue (by rw [h, h'.1, h'.2])
      else isFalse (by intro e; cases e; exact h' ⟨rfl, rfl⟩)
  | .item .., .block .. => isFalse (by intro e; cases e)
  | .block .., .item .. => isFalse (by intro e; cases e)

/-- Equality of lists of nodes is decidable. -/
def decEqList : (as bs : List Node) → Decidable (as = bs)
  | [], [] => isTrue rfl
  | [], _ :: _ => isFalse (by intro e; cases e)
  | _ :: _, [] => isFalse (by intro e; cases e)
  | a :: as, b :: bs =>
    match decEq a b, decEqList as bs with
    | isTrue h, isTrue h' => isTrue (by rw [h, h'])
    | isFalse h, _ => isFalse (by intro e; cases e; exact h rfl)
    | _, isFalse h => isFalse (by intro e; cases e; exact h rfl)

end

instance : DecidableEq Node := decEq

/-- The kind of a node. -/
def kind : Node → Kind
  | .item i _ => i.kind
  | .block h _ _ => h.kind

/-- The name of the kind, or the keyword of an at-rule without a kind of its own. -/
def typeName : Node → String
  | .item (.statement name _) _ => name
  | .item (.descriptors name _ _) _ => name
  | .block (.other name _) _ _ => name
  | n => n.kind.label

/-- The selectors of a style rule. -/
def selectors? : Node → Option (List String)
  | .item i _ => i.selectors?
  | .block .. => none

/-- The declarations of a node that has a block for them. -/
def declarations? : Node → Option (List Declaration)
  | .item i _ => i.declarations?
  | .block .. => none

/-- The nodes under a heading. -/
def children? : Node → Option (List Node)
  | .item .. => none
  | .block _ rules _ => some rules

/-- The condition, animation name or text after the keyword, where a node has one. -/
def criterion? : Node → Option String
  | .item (.statement _ prelude) _ => some prelude
  | .item (.descriptors _ prelude _) _ => some prelude
  | .item .. => none
  | .block h _ _ => some h.criterion

/-- Whether the node groups style rules. -/
def isGroup : Node → Bool
  | .item .. => false
  | .block h _ _ => h.groupsRules

/-- Whether the node is a comment. -/
def isComment : Node → Bool
  | .item (.comment _) _ => true
  | _ => false

/-- The place of the node in its source text. -/
def position : Node → Option Position
  | .item _ p => p
  | .block _ _ p => p

/-- The style rule with other selectors; any other node stays as it is. -/
def withSelectors (selectors : List String) : Node → Node
  | .item (.style _ declarations) p => .item (.style selectors declarations) p
  | n => n

/-- The block with other nodes; an item stays as it is. -/
def withChildren (rules : List Node) : Node → Node
  | .block h _ p => .block h rules p
  | n => n

mutual

/-- The node without places at any depth. -/
def withoutPosition : Node → Node
  | .item i _ => .item i none
  | .block h rules _ => .block h (withoutPositions rules) none

/-- The nodes without places at any depth. -/
def withoutPositions : List Node → List Node
  | [] => []
  | n :: ns => n.withoutPosition :: withoutPositions ns

end

theorem withoutPositions_eq_map (ns : List Node) :
    withoutPositions ns = ns.map withoutPosition := by
  induction ns with
  | nil => rfl
  | cons n ns ih => simp [withoutPositions, ih]

mutual

@[simp]
theorem withoutPosition_withoutPosition (n : Node) :
    n.withoutPosition.withoutPosition = n.withoutPosition := by
  match n with
  | .item .. => rfl
  | .block _ rules _ => simp [withoutPosition, withoutPositions_withoutPositions rules]

@[simp]
theorem withoutPositions_withoutPositions (ns : List Node) :
    withoutPositions (withoutPositions ns) = withoutPositions ns := by
  match ns with
  | [] => rfl
  | n :: ns =>
    simp [withoutPositions, withoutPosition_withoutPosition n,
      withoutPositions_withoutPositions ns]

end

@[simp]
theorem isComment_withoutPosition (n : Node) : n.withoutPosition.isComment = n.isComment := by
  cases n with
  | item i p => cases i <;> rfl
  | block h rules p => rfl

/-- Two nodes have the same content when they differ in places at most. -/
def sameContent (a b : Node) : Bool :=
  a.withoutPosition = b.withoutPosition

end Node

/-- A style rule without a place. -/
def Node.ofStyle (selectors : List String) (declarations : List Declaration) : Node :=
  .item (.style selectors declarations) none

end CriticalCss
