import CriticalCss.Proofs.Data.Fields
import CriticalCss.Proofs.Tree.Positions
import CriticalCss.Stylesheet.Record

/-!
# A rule tree is read back from its record

Every style sheet is read back from the value that it is written as, at whatever depth its nodes
stand, so that no two of them are written alike.

* `untag?_cons` takes the tag off the record of a node, and `ofValueWithin?_tagged` goes on with the
  fields of the kind that it names.
* `ofValueWithin?_item` reads each kind of item back, and `ofValueWithin?_block` each kind of block
  in which the nodes are read back.
* `depth_lt_depth_block` says that the nodes in a block need less depth than the block, and with it
  `ofValueWithin?_toValue` reads a node back by induction on the node.
* `reread_toValue` says that the text of a tree stands for the same value.
* `nesting_toValue` counts the lists and records that are open in the text of a tree.
* `record_roundTrip` puts them together for a style sheet, and `read?_write_toValue` says which texts
  the reader of documents takes.
-/

namespace CriticalCss

open Data

/-! ## Places and declarations -/

namespace Position

/-- The numbers of a place have 32 bits. -/
def Fits (p : Position) : Prop :=
  p.line ≤ max32 ∧ p.column ≤ max32

instance (p : Position) : Decidable p.Fits :=
  inferInstanceAs (Decidable (_ ∧ _))

theorem ofValue?_toValue {p : Position} (h : p.Fits) : ofValue? p.toValue = some p := by
  have hfields : Fields.of? ["line", "column"] p.toValue = some _ :=
    Fields.of?_record (List.Sublist.refl _) (by decide)
  simp only [ofValue?, hfields, Option.bind_eq_bind, Option.bind_some]
  simp [Fields.required, Value.asNat?_ofNat h.1, Value.asNat?_ofNat h.2]

theorem asOption?_optionToValue {p : Option Position} (h : ∀ q ∈ p, q.Fits) :
    (optionToValue p).asOption? ofValue? = some p := by
  cases p with
  | none => rfl
  | some p =>
    show (ofValue? p.toValue).map some = some (some p)
    rw [ofValue?_toValue (h p rfl), Option.map_some]

@[simp]
theorem reread_optionToValue (p : Option Position) :
    Json.reread (optionToValue p) = optionToValue p := by
  cases p <;> rfl

theorem nesting_optionToValue_le (p : Option Position) :
    Json.nesting (optionToValue p) ≤ 1 := by
  cases p <;> simp [optionToValue, toValue, Json.nesting, Json.nestingOfMembers, Value.ofNat]

end Position

namespace Declaration

theorem ofValue?_toValue (d : Declaration) : ofValue? d.toValue = some d := by
  have hfields : Fields.of? ["property", "value"] d.toValue = some _ :=
    Fields.of?_record (List.Sublist.refl _) (by decide)
  simp only [ofValue?, hfields, Option.bind_eq_bind, Option.bind_some]
  simp [Fields.required, Value.asText?]

@[simp]
theorem asList?_listToValue (ds : List Declaration) :
    (listToValue ds).asList? ofValue? = some ds :=
  Value.asList?_map fun d _ => d.ofValue?_toValue

@[simp]
theorem reread_listToValue (ds : List Declaration) :
    Json.reread (listToValue ds) = listToValue ds := by
  rw [listToValue, Json.reread, Json.rereadItems_map fun _ _ => rfl]

theorem nesting_listToValue_le (ds : List Declaration) :
    Json.nesting (listToValue ds) ≤ 2 := by
  rw [listToValue, Json.nesting, Nat.add_le_add_iff_right, Json.nestingOfItems_le_iff]
  exact List.forall_mem_map.2 fun _ _ => Nat.le_refl 1

end Declaration

namespace Node

/-! ## Tags -/

/-- The tag of a record that has it in front. -/
theorem untag?_cons (tag : String) {members : List (String × Value)}
    (h : ∀ m ∈ members, m.1 ≠ "type") :
    untag? (.record (("type", .text tag) :: members)) = some (tag, .record members) := by
  have htag : (members.filter fun m => m.1 = "type") = [] :=
    List.filter_eq_nil_iff.2 fun m hm => by simpa using h m hm
  have hfields : (members.filter fun m => m.1 ≠ "type") = members :=
    List.filter_eq_self.2 fun m hm => by simpa using h m hm
  rw [untag?, List.filter_cons_of_pos (by simp), List.filter_cons_of_neg (by simp), htag, hfields]

theorem ofValueWithin?_tagged (depth : Nat) (tag : String) {members : List (String × Value)}
    (h : ∀ m ∈ members, m.1 ≠ "type") :
    ofValueWithin? (depth + 1) (.record (("type", .text tag) :: members)) =
      readTagged? (ofValueWithin? depth) tag (.record members) := by
  rw [ofValueWithin?, untag?_cons tag h]
  rfl

/-! ## Nodes -/

theorem toValues_eq_map (ns : List Node) : toValues ns = ns.map toValue := by
  induction ns with
  | nil => rfl
  | cons n ns ih => rw [toValues, List.map_cons, ih]

theorem ofValueWithin?_item (depth : Nat) (i : Item) {p : Option Position}
    (hp : ∀ q ∈ p, q.Fits) :
    ofValueWithin? (depth + 1) (toValue (.item i p)) = some (.item i p) := by
  have hposition := Position.asOption?_optionToValue hp
  cases i with
  | statement name prelude | descriptors name prelude declarations =>
    simp [toValue, itemMembers, ofValueWithin?_tagged, readTagged?, readBody?, Fields.of?_record,
      Fields.required, Fields.optional, Value.asText?, Value.asCase?, hposition]
  | style | keyframe | fontFace | charset | comment =>
    simp [toValue, itemMembers, ofValueWithin?_tagged, readTagged?, Fields.of?_record,
      Fields.required, Fields.optional, Value.asText?, hposition]

/-- A block is read back if the nodes in it are, with a depth of one less. -/
theorem ofValueWithin?_block {depth : Nat} (h : Heading) {rules : List Node}
    {p : Option Position} (hp : ∀ q ∈ p, q.Fits)
    (hrules : ∀ n ∈ rules, ofValueWithin? depth n.toValue = some n) :
    ofValueWithin? (depth + 1) (toValue (.block h rules p)) = some (.block h rules p) := by
  have hposition := Position.asOption?_optionToValue hp
  have hlist : (Value.list (toValues rules)).asList? (ofValueWithin? depth) = some rules := by
    rw [toValues_eq_map]
    exact Value.asList?_map hrules
  cases h with
  | keyframes vendor name =>
    have hvendor : ((vendor.map Value.text).getD .null).asOption? Value.asText? = some vendor := by
      cases vendor <;> rfl
    simp [toValue, blockMembers, ofValueWithin?_tagged, readTagged?, Fields.of?_record,
      Fields.required, Fields.optional, Value.asText?, hposition, hlist, hvendor]
  | media | supports =>
    simp [toValue, blockMembers, ofValueWithin?_tagged, readTagged?, Fields.of?_record,
      Fields.required, Fields.optional, Value.asText?, hposition, hlist]
  | other name prelude =>
    simp [toValue, blockMembers, ofValueWithin?_tagged, readTagged?, readBody?, Fields.of?_record,
      Fields.required, Fields.optional, Value.asText?, hposition, hlist]

/-- A node in a block is less deep than the block. -/
theorem depth_lt_depth_block (h : Heading) {rules : List Node} (p : Option Position) {n : Node}
    (hn : n ∈ rules) : n.toValue.depth < (toValue (.block h rules p)).depth := by
  have hlist : n.toValue.depth < (Value.list (toValues rules)).depth := by
    rw [toValues_eq_map]
    exact Value.depth_lt_of_mem_items (List.mem_map_of_mem hn)
  refine Nat.lt_trans hlist ?_
  cases h with
  | media condition | supports condition =>
    exact Value.depth_lt_of_mem_members (k := "rules") (by simp [blockMembers])
  | keyframes vendor name =>
    exact Value.depth_lt_of_mem_members (k := "keyframes") (by simp [blockMembers])
  | other name prelude =>
    -- the rules stand one record further inside
    exact Nat.lt_trans (Value.depth_lt_of_mem_members (k := "Rules") (List.mem_singleton.2 rfl))
      (Value.depth_lt_of_mem_members (k := "body") (by simp [blockMembers]))

theorem depth_pos (n : Node) : 0 < n.toValue.depth := by
  cases n <;> exact Nat.succ_pos _

/-- A node is read back where as much depth is allowed as it has. -/
theorem ofValueWithin?_toValue {n : Node} (h : ∀ q ∈ n.positions, q.Fits) {depth : Nat}
    (hdepth : n.toValue.depth ≤ depth) : ofValueWithin? depth n.toValue = some n := by
  induction n generalizing depth with
  | item i p =>
    obtain ⟨depth, rfl⟩ := Nat.exists_eq_add_of_le' (Nat.le_trans (depth_pos _) hdepth)
    exact ofValueWithin?_item depth i fun q hq => h q (Option.mem_toList.2 hq)
  | block heading rules p ih =>
    obtain ⟨depth, rfl⟩ := Nat.exists_eq_add_of_le' (Nat.le_trans (depth_pos _) hdepth)
    rw [positions, List.forall_mem_append, positionsOf_eq_flatMap] at h
    refine ofValueWithin?_block heading (fun q hq => h.1 q (Option.mem_toList.2 hq)) fun n hn => ?_
    have hinner := depth_lt_depth_block heading p hn
    exact ih n hn (fun q hq => h.2 q (List.mem_flatMap.2 ⟨n, hn, hq⟩)) (by omega)

/-- The text of a node stands for the same value. -/
theorem reread_toValue (n : Node) : Json.reread n.toValue = n.toValue := by
  induction n with
  | item i p => cases i <;> simp [toValue, itemMembers, Json.reread, Json.rereadMembers]
  | block h rules p ih =>
    have hrules : Json.rereadItems (toValues rules) = toValues rules := by
      rw [toValues_eq_map]
      exact Json.rereadItems_map ih
    cases h with
    | keyframes vendor name =>
      cases vendor <;>
        simp [toValue, blockMembers, Json.reread, Json.rereadMembers, hrules]
    | media | supports | other =>
      simp [toValue, blockMembers, Json.reread, Json.rereadMembers, hrules]

/-! ## Nesting -/

mutual

/-- How many nodes stand one inside the other at most. -/
def height : Node → Nat
  | .item _ _ => 1
  | .block _ rules _ => heightOf rules + 1

/-- The greatest height among some nodes. -/
def heightOf : List Node → Nat
  | [] => 0
  | n :: ns => max n.height (heightOf ns)

end

/-- An item opens its own record, and three lists and records more at most: its body, the declarations
in it, and one of them. -/
theorem nesting_toValue_item (i : Item) (p : Option Position) :
    1 ≤ Json.nesting (toValue (.item i p)) ∧ Json.nesting (toValue (.item i p)) ≤ 4 := by
  have hposition := Position.nesting_optionToValue_le p
  rw [toValue, Json.nesting, Json.nestingOfMembers_append, Json.nestingOfMembers,
    Json.nestingOfMembers]
  cases i with
  | style _ ds | keyframe _ ds | fontFace ds | descriptors _ _ ds =>
    have hdeclarations := Declaration.nesting_listToValue_le ds
    simp only [itemMembers, Json.nestingOfMembers, Json.nesting, Json.nesting_ofTexts]
    omega
  | charset | comment | statement =>
    simp only [itemMembers, Json.nestingOfMembers, Json.nesting]
    omega

/-- A block opens two lists and records, or three if it has no kind of its own, besides those of the
nodes in it. -/
theorem nesting_toValue_block (h : Heading) (rules : List Node) (p : Option Position) :
    Json.nestingOfItems (toValues rules) + 2 ≤ Json.nesting (toValue (.block h rules p)) ∧
      Json.nesting (toValue (.block h rules p)) ≤ Json.nestingOfItems (toValues rules) + 3 := by
  have hposition := Position.nesting_optionToValue_le p
  rw [toValue, Json.nesting, Json.nestingOfMembers_append, Json.nestingOfMembers,
    Json.nestingOfMembers]
  cases h with
  | keyframes vendor name =>
    cases vendor <;>
      simp only [blockMembers, Json.nestingOfMembers, Json.nesting, Option.map_none,
        Option.map_some, Option.getD_none, Option.getD_some] <;> omega
  | media | supports | other =>
    simp only [blockMembers, Json.nestingOfMembers, Json.nesting]
    omega

theorem nestingOfItems_toValues {ns : List Node}
    (h : ∀ n ∈ ns, 2 * n.height ≤ Json.nesting n.toValue + 1 ∧
      Json.nesting n.toValue ≤ 3 * n.height + 1) :
    2 * heightOf ns ≤ Json.nestingOfItems (toValues ns) + 1 ∧
      Json.nestingOfItems (toValues ns) ≤ 3 * heightOf ns + 1 := by
  induction ns with
  | nil => exact ⟨Nat.zero_le _, Nat.zero_le _⟩
  | cons n ns ih =>
    obtain ⟨hn, hns⟩ := List.forall_mem_cons.1 h
    have := ih hns
    rw [toValues, Json.nestingOfItems, heightOf]
    omega

/-- What the text of a node has open, from the number of nodes inside one another. -/
theorem nesting_toValue (n : Node) :
    2 * n.height ≤ Json.nesting n.toValue + 1 ∧ Json.nesting n.toValue ≤ 3 * n.height + 1 := by
  induction n with
  | item i p =>
    have := nesting_toValue_item i p
    rw [height]
    omega
  | block h rules p ih =>
    have hblock := nesting_toValue_block h rules p
    have hrules := nestingOfItems_toValues ih
    rw [height]
    omega
end Node

/-! ## Style sheets -/

namespace Stylesheet

theorem ofValue?_toValue {sheet : Stylesheet} (h : ∀ q ∈ Node.positionsOf sheet, q.Fits) :
    ofValue? sheet.toValue = some sheet := by
  rw [Node.positionsOf_eq_flatMap] at h
  have hnodes : (Value.list (Node.toValues sheet)).asList? Node.ofValue? = some sheet := by
    rw [Node.toValues_eq_map]
    exact Value.asList?_map fun n hn =>
      Node.ofValueWithin?_toValue (fun q hq => h q (List.mem_flatMap.2 ⟨n, hn, hq⟩)) (Nat.le_refl _)
  simp [ofValue?, toValue, Fields.of?_record, Fields.required, hnodes]

theorem reread_toValue (sheet : Stylesheet) : Json.reread sheet.toValue = sheet.toValue := by
  have hnodes : Json.rereadItems (Node.toValues sheet) = Node.toValues sheet := by
    rw [Node.toValues_eq_map]
    exact Json.rereadItems_map fun n _ => n.reread_toValue
  simp [toValue, Json.reread, Json.rereadMembers, hnodes]

/-- A style sheet is read back from its text where the limit allows its nesting. -/
theorem readWithin?_write_toValue (sheet : Stylesheet) {limit : Nat}
    (hlimit : Json.nesting sheet.toValue ≤ limit) :
    Json.readWithin? limit (Json.write sheet.toValue) = some sheet.toValue := by
  rw [Json.readWithin?_write, if_pos hlimit, reread_toValue]

/-- Style sheets with the same text are written as the same value. -/
theorem toValue_inj_of_write {a b : Stylesheet}
    (h : Json.write a.toValue = Json.write b.toValue) : a.toValue = b.toValue := by
  have ha := a.readWithin?_write_toValue (Nat.le_max_left _ (Json.nesting b.toValue))
  have hb := b.readWithin?_write_toValue (Nat.le_max_right (Json.nesting a.toValue) _)
  rw [h, hb] at ha
  exact (Option.some.inj ha).symm

/-- Whatever nodes a style sheet has, and wherever they stand in it, it is read back from its
record, and from the text of the record by every reader that allows its nesting.  So no other style
sheet has the same record or the same text. -/
theorem record_roundTrip {sheet : Stylesheet} (h : ∀ q ∈ Node.positionsOf sheet, q.Fits) :
    ofValue? sheet.toValue = some sheet ∧
      (∀ limit, Json.nesting sheet.toValue ≤ limit →
        (Json.readWithin? limit (Json.write sheet.toValue)).bind ofValue? = some sheet) ∧
      ∀ other : Stylesheet, (∀ q ∈ Node.positionsOf other, q.Fits) → other ≠ sheet →
        other.toValue ≠ sheet.toValue ∧ Json.write other.toValue ≠ Json.write sheet.toValue := by
  refine ⟨ofValue?_toValue h, fun limit hlimit => ?text, fun other hother hne => ?distinct⟩
  case text =>
    rw [readWithin?_write_toValue sheet hlimit, Option.bind_some, ofValue?_toValue h]
  case distinct =>
    have hvalue : other.toValue ≠ sheet.toValue := fun hsame => by
      have hread := ofValue?_toValue hother
      rw [hsame, ofValue?_toValue h] at hread
      exact hne (Option.some.inj hread).symm
    exact ⟨hvalue, fun htext => hvalue (toValue_inj_of_write htext)⟩

/-- The text of a style sheet has its record and the list of its nodes open. -/
theorem nesting_toValue (sheet : Stylesheet) :
    2 * Node.heightOf sheet + 1 ≤ Json.nesting sheet.toValue ∧
      Json.nesting sheet.toValue ≤ 3 * Node.heightOf sheet + 3 := by
  have hrules := Node.nestingOfItems_toValues fun n (_ : n ∈ sheet) => n.nesting_toValue
  simp only [toValue, Json.nesting, Json.nestingOfMembers]
  omega

/-- The reader of documents, which allows 127 open lists and records, takes the text of every style
sheet whose nodes stand at most 41 deep inside one another, and of none in which they stand 64 deep.
In between it depends on their kinds, since a block opens two lists and records or three. -/
theorem read?_write_toValue {sheet : Stylesheet} (h : ∀ q ∈ Node.positionsOf sheet, q.Fits) :
    (Node.heightOf sheet ≤ 41 →
        (Json.read? (Json.write sheet.toValue)).bind ofValue? = some sheet) ∧
      (64 ≤ Node.heightOf sheet → Json.read? (Json.write sheet.toValue) = none) := by
  have hnesting := sheet.nesting_toValue
  have hlimit : Json.nestingLimit = 127 := rfl
  refine ⟨fun hheight => ?_, fun hheight => ?_⟩
  · rw [Json.read?, readWithin?_write_toValue sheet (by omega), Option.bind_some, ofValue?_toValue h]
  · rw [Json.read?, Json.readWithin?_write, if_neg (by omega)]

/-- A style sheet with every kind of node, one inside the other where they may be, whose last node
has a given form. -/
def everyKind (last : Node) : Stylesheet :=
  [.item (.charset "utf-8") (some ⟨1, 1⟩),
    .item (.comment " top ") none,
    .item (.fontFace [⟨"src", "url(\"a.woff\")"⟩]) (some ⟨2, 1⟩),
    .block (.media "print")
      [.block (.supports "(top: 0)") [.item (.style ["p", "nav"] [⟨"top", "0"⟩]) none]
        (some ⟨4, 3⟩)] (some ⟨3, 1⟩),
    .block (.keyframes (some "-webkit-") "spin")
      [.item (.keyframe ["from", "50%"] [⟨"top", "0"⟩]) (some ⟨9, 3⟩), .item (.style [] []) none,
        .block (.keyframes none "") [.item (.statement "import" "a") none] none] none,
    .item (.descriptors "page" ":first" [⟨"margin", "0"⟩]) (some ⟨max32, 1⟩),
    last]

/-- The three forms that the body of an at-rule can have are told apart even when there is nothing
in it. -/
theorem record_roundTrip_everyKind :
    (∀ q ∈ Node.positionsOf (everyKind (.block (.other "layer" "a") [] none)), q.Fits) ∧
      ofValue? (toValue (everyKind (.block (.other "layer" "a") [] none))) =
        some (everyKind (.block (.other "layer" "a") [] none)) ∧
      (Json.read? (Json.write (toValue (everyKind (.block (.other "layer" "a") [] none))))).bind
          ofValue? =
        some (everyKind (.block (.other "layer" "a") [] none)) ∧
      Json.write (toValue (everyKind (.item (.statement "layer" "a") none))) ≠
        Json.write (toValue (everyKind (.block (.other "layer" "a") [] none))) ∧
      Json.write (toValue (everyKind (.item (.descriptors "layer" "a" []) none))) ≠
        Json.write (toValue (everyKind (.block (.other "layer" "a") [] none))) := by
  have hfits : ∀ q ∈ Node.positionsOf (everyKind (.block (.other "layer" "a") [] none)), q.Fits :=
    by decide
  obtain ⟨hvalue, htext, hother⟩ := record_roundTrip hfits
  exact ⟨hfits, hvalue, htext _ (by decide),
    (hother (everyKind (.item (.statement "layer" "a") none)) (by decide) (by decide)).2,
    (hother (everyKind (.item (.descriptors "layer" "a" []) none)) (by decide) (by decide)).2⟩

end Stylesheet

end CriticalCss
