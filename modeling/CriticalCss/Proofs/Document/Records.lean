import CriticalCss.Document.Record
import CriticalCss.Proofs.Data.Fields
import CriticalCss.Proofs.Document.Places
import Mathlib.Data.List.Induction
import Mathlib.Data.List.Nodup

/-!
# A snapshot is read back from its text

A snapshot is written without what is empty or absent in it, and what is missing in the text is
empty or absent when it is read.  So it comes back with every field at every depth, as long as the
reader takes so many elements inside one another.

* `withDefault_list` and `withDefault_optionText` say that a field that is left out has the value
  that the reader assumes.
* `attributesOfValue?_attributesToValue` reads attributes back in their order.
* `ofFields?_membersWith` reads an element back whose children are read back, and
  `ofValueWithin?_reread` every element, by induction on the element.
* `Element.nesting_toValue` counts the lists and records that are open in the text of an element.
* `ofText?_toText` is the whole way of a snapshot.
-/

namespace CriticalCss

open Data

/-! ## Fields that may be left out -/

section SparseFields

variable (condition : Bool) (name : String) (v : Value)

theorem map_fst_fieldIf_sublist : ((fieldIf condition name v).map (·.1)).Sublist [name] := by
  cases condition
  · exact List.nil_sublist _
  · exact List.Sublist.refl _

@[simp]
theorem get?_fieldIf (key : String) :
    Fields.get? ⟨fieldIf condition name v, false⟩ key =
      if condition = true ∧ key = name then some v else none := by
  cases condition <;> simp [fieldIf]

theorem rereadMembers_fieldIf :
    Json.rereadMembers (fieldIf condition name v) = fieldIf condition name (Json.reread v) := by
  cases condition <;> rfl

theorem nestingOfMembers_fieldIf_le :
    Json.nestingOfMembers (fieldIf condition name v) ≤ Json.nesting v := by
  cases condition <;> simp [fieldIf, Json.nestingOfMembers]

variable {name : String} {v : Value} {f : Fields}

/-- A list that is written only where it is not empty is read. -/
theorem withDefault_list {α : Type} {xs : List α} {read : Value → Option (List α)}
    (hget : f.get? name = if (!xs.isEmpty) = true then some v else none)
    (hread : read v = some xs) : f.withDefault name [] read = some xs := by
  rw [Fields.withDefault, hget]
  cases xs with
  | nil => rfl
  | cons x xs => exact hread

/-- A text that is written only where there is one is read. -/
theorem withDefault_optionText {text : Option String}
    (hget : f.get? name = if text.isSome = true then some (.text (text.getD "")) else none) :
    f.withDefault name none (Value.asOption? Value.asText?) = some text := by
  rw [Fields.withDefault, hget]
  cases text <;> rfl

end SparseFields

/-! ## Attributes -/

theorem setAttribute_of_notMem {name : String} {attributes : List (String × String)}
    (h : name ∉ attributes.map (·.1)) (value : String) :
    setAttribute name value attributes = attributes ++ [(name, value)] := by
  induction attributes with
  | nil => rfl
  | cons a attributes ih =>
    rw [List.map_cons, List.mem_cons, not_or] at h
    rw [setAttribute, if_neg (Ne.symm h.1), ih h.2, List.cons_append]

namespace Element

theorem attributesOfValue?_attributesToValue {attributes : List (String × String)}
    (h : (attributes.map (·.1)).Nodup) :
    attributesOfValue? (attributesToValue attributes) = some attributes := by
  rw [attributesToValue, attributesOfValue?]
  induction attributes using List.reverseRecOn with
  | nil => rfl
  | append_singleton attributes a ih =>
    rw [List.map_append, List.map_singleton, List.nodup_append] at h
    have ha : a.1 ∉ attributes.map (·.1) := fun hmem =>
      h.2.2 _ hmem _ (List.mem_singleton.2 rfl) rfl
    rw [List.map_append, List.foldlM_append, ih h.1, ← setAttribute_of_notMem ha]
    rfl

theorem reread_attributesToValue (attributes : List (String × String)) :
    Json.reread (attributesToValue attributes) = attributesToValue attributes := by
  rw [attributesToValue, Json.reread, Json.rereadMembers_eq_map, List.map_map]
  rfl

end Element

/-! ## Rectangles -/

namespace Rect

/-- The four numbers of a rectangle. -/
def numbers (r : Rect) : List Float32 := [r.x, r.y, r.width, r.height]

/-- Every number of a rectangle is read back from its own text.  An infinite number is not, and
neither is what is no number. -/
def ComesBack (r : Rect) : Prop :=
  ∀ x ∈ r.numbers, (Json.read? (Json.write (.ofFloat32 x))).bind Value.asFloat32? = some x

instance (r : Rect) : Decidable r.ComesBack :=
  inferInstanceAs (Decidable (∀ x ∈ r.numbers, _ = some x))

theorem asFloat32?_reread {x : Float32}
    (h : (Json.read? (Json.write (.ofFloat32 x))).bind Value.asFloat32? = some x) :
    (Json.reread (.ofFloat32 x)).asFloat32? = some x := by
  rwa [Json.read?, Json.readWithin?_write, Json.nesting_ofFloat32, if_pos (Nat.zero_le _),
    Option.bind_some] at h

theorem ofValue?_reread {r : Rect} (h : r.ComesBack) :
    ofValue? (Json.reread r.toValue) = some r := by
  have hx := asFloat32?_reread (h r.x (by simp [numbers]))
  have hy := asFloat32?_reread (h r.y (by simp [numbers]))
  have hwidth := asFloat32?_reread (h r.width (by simp [numbers]))
  have hheight := asFloat32?_reread (h r.height (by simp [numbers]))
  simp [ofValue?, toValue, Json.reread, Json.rereadMembers, Fields.of?_record, Fields.required, hx,
    hy, hwidth, hheight]

theorem nesting_toValue (r : Rect) : Json.nesting r.toValue = 1 := by
  simp [toValue, Json.nesting, Json.nestingOfMembers]

end Rect

/-! ## Elements -/

namespace Element

mutual

/-- An element and everything inside it, in document order. -/
def all : Element → List Element
  | ⟨tag, id, classes, attributes, rect, late, text, children⟩ =>
    ⟨tag, id, classes, attributes, rect, late, text, children⟩ :: allOf children

/-- Some elements and everything inside them. -/
def allOf : List Element → List Element
  | [] => []
  | e :: es => e.all ++ allOf es

end

theorem allOf_eq_flatMap (es : List Element) : allOf es = es.flatMap all := by
  induction es with
  | nil => rfl
  | cons e es ih => rw [allOf, List.flatMap_cons, ih]

mutual

/-- How many elements stand one inside the other at most. -/
def height : Element → Nat
  | ⟨_, _, _, _, _, _, _, children⟩ => heightOf children + 1

/-- The greatest height among some elements. -/
def heightOf : List Element → Nat
  | [] => 0
  | e :: es => max e.height (heightOf es)

end

theorem height_pos (e : Element) : 0 < e.height := by
  cases e
  rw [height]
  exact Nat.succ_pos _

theorem toValues_eq_map (es : List Element) : toValues es = es.map toValue := by
  induction es with
  | nil => rfl
  | cons e es ih => rw [toValues, List.map_cons, ih]

/-- The members of an element, given what stands for its rectangle and for its children. -/
def membersWith (e : Element) (rect : Value) (children : List Value) : List (String × Value) :=
  [("tag", .text e.tag)] ++
    fieldIf e.id.isSome "id" (.text (e.id.getD "")) ++
    fieldIf (!e.classes.isEmpty) "classes" (.ofTexts e.classes) ++
    fieldIf (!e.attributes.isEmpty) "attributes" (attributesToValue e.attributes) ++
    [("rect", rect)] ++
    fieldIf e.late "lazy" (.bool true) ++
    fieldIf e.text.isSome "text" (.text (e.text.getD "")) ++
    fieldIf (!e.children.isEmpty) "children" (.list children)

theorem toValue_eq_record (e : Element) :
    e.toValue = .record (e.membersWith e.rect.toValue (e.children.map toValue)) := by
  obtain ⟨_, _, _, _, _, _, _, children⟩ := e
  rw [toValue, toValues_eq_map]
  rfl

theorem reread_toValue (e : Element) :
    Json.reread e.toValue =
      .record (e.membersWith (Json.reread e.rect.toValue)
        (e.children.map fun c => Json.reread c.toValue)) := by
  rw [toValue_eq_record, Json.reread]
  simp only [membersWith, Json.rereadMembers_append, rereadMembers_fieldIf, Json.rereadMembers,
    Json.reread, Json.reread_ofTexts, reread_attributesToValue, Json.rereadItems_eq_map,
    List.map_map]
  rfl

/-- The fields that are written stand in the order of all fields. -/
theorem map_fst_membersWith_sublist (e : Element) (rect : Value) (children : List Value) :
    ((e.membersWith rect children).map (·.1)).Sublist fieldNames := by
  simp only [membersWith, List.map_append]
  exact (((((((List.Sublist.refl ["tag"]).append (map_fst_fieldIf_sublist _ "id" _)).append
    (map_fst_fieldIf_sublist _ "classes" _)).append
    (map_fst_fieldIf_sublist _ "attributes" _)).append (List.Sublist.refl ["rect"])).append
    (map_fst_fieldIf_sublist _ "lazy" _)).append (map_fst_fieldIf_sublist _ "text" _)).append
    (map_fst_fieldIf_sublist _ "children" _)

/-- An element is read back from its record, given how its rectangle and its children are read. -/
theorem ofFields?_membersWith {readChild : Value → Option Element} {e : Element} {rect : Value}
    {children : List Value} (hnames : (e.attributes.map (·.1)).Nodup)
    (hbox : Rect.ofValue? rect = some e.rect)
    (hinside : (Value.list children).asList? readChild = some e.children) :
    ofFields? readChild (.record (e.membersWith rect children)) = some e := by
  obtain ⟨f, hf⟩ : ∃ f : Fields, f = ⟨e.membersWith rect children, false⟩ := ⟨_, rfl⟩
  have hfields : Fields.of? fieldNames (.record (e.membersWith rect children)) = some f :=
    hf ▸ Fields.of?_record (e.map_fst_membersWith_sublist rect children) (by decide)
  have htag : f.withDefault "tag" "" Value.asText? = some e.tag := by
    simp [Fields.withDefault, hf, membersWith, Value.asText?]
  have hid : f.withDefault "id" none (Value.asOption? Value.asText?) = some e.id :=
    withDefault_optionText (by simp [hf, membersWith, Fields.get?_append])
  have hclasses : f.withDefault "classes" [] Value.asTexts? = some e.classes :=
    withDefault_list (by simp [hf, membersWith, Fields.get?_append]) (Value.asTexts?_ofTexts _)
  have hattributes : f.withDefault "attributes" [] attributesOfValue? = some e.attributes :=
    withDefault_list (by simp [hf, membersWith, Fields.get?_append])
      (attributesOfValue?_attributesToValue hnames)
  have hrect : f.withDefault "rect" Rect.zero Rect.ofValue? = some e.rect := by
    simp [Fields.withDefault, hf, membersWith, Fields.get?_append, hbox]
  have hlate : f.withDefault "lazy" false Value.asBool? = some e.late := by
    cases h : e.late <;>
      simp [Fields.withDefault, hf, membersWith, Fields.get?_append, h, Value.asBool?]
  have htext : f.withDefault "text" none (Value.asOption? Value.asText?) = some e.text :=
    withDefault_optionText (by simp [hf, membersWith, Fields.get?_append])
  have hchildren : f.withDefault "children" [] (Value.asList? readChild) = some e.children :=
    withDefault_list (by simp [hf, membersWith, Fields.get?_append]) hinside
  simp only [ofFields?, hfields, htag, hid, hclasses, hattributes, hrect, hlate, htext, hchildren,
    Option.bind_eq_bind, Option.bind_some]
  cases e
  rfl

/-- The record of a child is less deep than the record that it stands in. -/
theorem depth_lt_depth_record {e c : Element} (hc : c ∈ e.children) :
    (Json.reread c.toValue).depth < (Json.reread e.toValue).depth := by
  have hlist : (Json.reread c.toValue).depth <
      (Value.list (e.children.map fun c => Json.reread c.toValue)).depth :=
    Value.depth_lt_of_mem_items (List.mem_map_of_mem hc)
  refine Nat.lt_trans hlist ?_
  rw [reread_toValue]
  refine Value.depth_lt_of_mem_members (k := "children") ?_
  have hne : (!e.children.isEmpty) = true := by
    rw [Bool.not_eq_true', List.isEmpty_eq_false_iff]
    exact List.ne_nil_of_mem hc
  rw [membersWith, hne]
  exact List.mem_append_right _ (List.mem_singleton.2 rfl)

/-- An element is one that JSON text can carry: no attribute stands twice, and the numbers of its
rectangle come back from their texts. -/
def Readable (e : Element) : Prop :=
  (e.attributes.map (·.1)).Nodup ∧ e.rect.ComesBack

instance (e : Element) : Decidable e.Readable :=
  inferInstanceAs (Decidable (_ ∧ _))

/-- An element is read back where as much depth is allowed as its text has. -/
theorem ofValueWithin?_reread {e : Element} (h : ∀ d ∈ e.all, d.Readable) {depth : Nat}
    (hdepth : (Json.reread e.toValue).depth ≤ depth) :
    ofValueWithin? depth (Json.reread e.toValue) = some e := by
  induction e generalizing depth with
  | element tag id classes attributes rect late text children ih =>
    rw [all, List.forall_mem_cons, allOf_eq_flatMap] at h
    obtain ⟨depth, rfl⟩ : ∃ d, depth = d + 1 := by
      rw [reread_toValue, Value.depth] at hdepth
      exact Nat.exists_eq_add_of_le' (Nat.le_trans (Nat.succ_pos _) hdepth)
    rw [ofValueWithin?, reread_toValue]
    refine ofFields?_membersWith h.1.1 (Rect.ofValue?_reread h.1.2) ?_
    refine Value.asList?_map fun c hc => ?_
    have hinner := depth_lt_depth_record
      (e := ⟨tag, id, classes, attributes, rect, late, text, children⟩) hc
    exact ih c hc (fun d hd => h.2 d (List.mem_flatMap.2 ⟨c, hc, hd⟩)) (by omega)

/-! ## Nesting -/

theorem nesting_attributesToValue (attributes : List (String × String)) :
    Json.nesting (attributesToValue attributes) = 1 := by
  rw [attributesToValue, Json.nesting, Nat.add_eq_right]
  induction attributes with
  | nil => rfl
  | cons a attributes ih =>
    rw [List.map_cons, Json.nestingOfMembers, ih]
    rfl

/-- If the nesting of each of some elements is known, that of all of them is. -/
theorem nestingOfItems_map_toValue {es : List Element}
    (h : ∀ e ∈ es, Json.nesting e.toValue = 2 * e.height) :
    Json.nestingOfItems (es.map toValue) = 2 * heightOf es := by
  induction es with
  | nil => rfl
  | cons e es ih =>
    obtain ⟨he, hes⟩ := List.forall_mem_cons.1 h
    rw [List.map_cons, Json.nestingOfItems, he, ih hes, heightOf, Nat.mul_max_mul_left]

/-- An element with another one inside it opens two lists and records more: its own record and the
list of its children.  The innermost one has its rectangle in it. -/
theorem nesting_toValue (e : Element) : Json.nesting e.toValue = 2 * e.height := by
  induction e with
  | element tag id classes attributes rect late text children ih =>
    have hid := nestingOfMembers_fieldIf_le id.isSome "id" (.text (id.getD ""))
    have hclasses := nestingOfMembers_fieldIf_le (!classes.isEmpty) "classes" (.ofTexts classes)
    have hattributes := nestingOfMembers_fieldIf_le (!attributes.isEmpty) "attributes"
      (attributesToValue attributes)
    have hlate := nestingOfMembers_fieldIf_le late "lazy" (.bool true)
    have htext := nestingOfMembers_fieldIf_le text.isSome "text" (.text (text.getD ""))
    have hchildren : max 1 (Json.nestingOfMembers
        (fieldIf (!children.isEmpty) "children" (.list (children.map toValue)))) =
        2 * heightOf children + 1 := by
      cases children with
      | nil => rfl
      | cons c cs =>
        have hmembers : fieldIf (!(c :: cs).isEmpty) "children" (.list ((c :: cs).map toValue)) =
          [("children", .list ((c :: cs).map toValue))] := rfl
        rw [hmembers, Json.nestingOfMembers, Json.nesting, nestingOfItems_map_toValue ih,
          Json.nestingOfMembers]
        omega
    rw [Json.nesting_ofTexts] at hclasses
    rw [nesting_attributesToValue] at hattributes
    rw [toValue_eq_record, Json.nesting, membersWith, height]
    simp only [Json.nestingOfMembers_append, Json.nestingOfMembers, Json.nesting,
      Rect.nesting_toValue] at *
    omega

end Element

/-! ## Snapshots -/

namespace Snapshot

/-- The members of a snapshot, given what stands for its root. -/
def membersWith (s : Snapshot) (root : Value) : List (String × Value) :=
  [("root", root)] ++
    fieldIf (!s.stylesheets.isEmpty) "stylesheets" (.ofTexts s.stylesheets) ++
    fieldIf (!s.subresources.isEmpty) "subresources" (.ofTexts s.subresources) ++
    [("loadTimeMs", .ofNat s.loadTime)]

theorem toValue_eq_record (s : Snapshot) : s.toValue = .record (s.membersWith s.root.toValue) := rfl

theorem reread_toValue (s : Snapshot) :
    Json.reread s.toValue = .record (s.membersWith (Json.reread s.root.toValue)) := by
  rw [toValue_eq_record, Json.reread]
  simp only [membersWith, Json.rereadMembers_append, rereadMembers_fieldIf, Json.rereadMembers,
    Json.reread_ofTexts, Json.reread_ofNat]

theorem map_fst_membersWith_sublist (s : Snapshot) (root : Value) :
    ((s.membersWith root).map (·.1)).Sublist
      ["root", "stylesheets", "subresources", "loadTimeMs"] := by
  simp only [membersWith, List.map_append]
  exact (((List.Sublist.refl ["root"]).append (map_fst_fieldIf_sublist _ "stylesheets" _)).append
    (map_fst_fieldIf_sublist _ "subresources" _)).append (List.Sublist.refl ["loadTimeMs"])

/-- A snapshot is read back from its record, given how its root is read. -/
theorem ofValue?_membersWith {s : Snapshot} {root : Value}
    (hroot : Element.ofValue? root = some s.root) (hload : s.loadTime ≤ max64) :
    ofValue? (.record (s.membersWith root)) = some s := by
  obtain ⟨f, hf⟩ : ∃ f : Fields, f = ⟨s.membersWith root, false⟩ := ⟨_, rfl⟩
  have hfields : Fields.of? ["root", "stylesheets", "subresources", "loadTimeMs"]
      (.record (s.membersWith root)) = some f :=
    hf ▸ Fields.of?_record (s.map_fst_membersWith_sublist root) (by decide)
  have hroot : f.required "root" Element.ofValue? = some s.root := by
    simp [Fields.required, hf, membersWith, hroot]
  have hstylesheets : f.withDefault "stylesheets" [] Value.asTexts? = some s.stylesheets :=
    withDefault_list (by simp [hf, membersWith, Fields.get?_append]) (Value.asTexts?_ofTexts _)
  have hsubresources : f.withDefault "subresources" [] Value.asTexts? = some s.subresources :=
    withDefault_list (by simp [hf, membersWith, Fields.get?_append]) (Value.asTexts?_ofTexts _)
  have hloadTime : f.withDefault "loadTimeMs" 0 (Value.asNat? max64) = some s.loadTime := by
    simp [Fields.withDefault, hf, membersWith, Fields.get?_append, Value.asNat?_ofNat hload]
  simp only [ofValue?, hfields, hroot, hstylesheets, hsubresources, hloadTime,
    Option.bind_eq_bind, Option.bind_some]

theorem nesting_toValue (s : Snapshot) : Json.nesting s.toValue = 2 * s.root.height + 1 := by
  have hstylesheets := nestingOfMembers_fieldIf_le (!s.stylesheets.isEmpty) "stylesheets"
    (.ofTexts s.stylesheets)
  have hsubresources := nestingOfMembers_fieldIf_le (!s.subresources.isEmpty) "subresources"
    (.ofTexts s.subresources)
  have hheight := s.root.height_pos
  rw [toValue_eq_record, Json.nesting, membersWith]
  simp only [Json.nestingOfMembers_append, Json.nestingOfMembers, Value.ofNat, Json.nesting,
    Element.nesting_toValue, Json.nesting_ofTexts] at *
  omega

/-! ## The text of a snapshot -/

/-- The text of a snapshot stands for its record where the reader allows its nesting. -/
theorem ofText?_toText_eq (s : Snapshot) :
    ofText? s.toText =
      if 2 * s.root.height + 1 ≤ Json.nestingLimit then
        ofValue? (.record (s.membersWith (Json.reread s.root.toValue)))
      else none := by
  rw [ofText?, toText, Json.read?, Json.readWithin?_write, nesting_toValue, reread_toValue]
  split <;> rfl

theorem ofText?_toText_of_height {s : Snapshot} (hall : ∀ e ∈ s.root.all, e.Readable)
    (hload : s.loadTime ≤ max64) (hheight : s.root.height ≤ 63) :
    ofText? s.toText = some s := by
  have hlimit : 2 * s.root.height + 1 ≤ Json.nestingLimit := by
    rw [Json.nestingLimit]
    omega
  rw [ofText?_toText_eq, if_pos hlimit]
  exact ofValue?_membersWith (Element.ofValueWithin?_reread hall (Nat.le_refl _)) hload

/-- A snapshot with too many elements inside one another is not read back, whatever is in it. -/
theorem ofText?_toText_of_deep {s : Snapshot} (hheight : 63 < s.root.height) :
    ofText? s.toText = none := by
  have hlimit : ¬2 * s.root.height + 1 ≤ Json.nestingLimit := by
    rw [Json.nestingLimit]
    omega
  rw [ofText?_toText_eq, if_neg hlimit]

/-- A snapshot is read back from its text, with every field and the order of the attributes, if its
elements stand at most 63 deep inside one another.  The text of a deeper one is refused, since two
lists and records are open for every element and the reader allows 127. -/
theorem ofText?_toText {s : Snapshot} (hall : ∀ e ∈ s.root.all, e.Readable)
    (hload : s.loadTime ≤ max64) :
    ofText? s.toText = if s.root.height ≤ 63 then some s else none := by
  split
  · next hheight =>
    exact ofText?_toText_of_height hall hload hheight
  · next hheight =>
    exact ofText?_toText_of_deep (Nat.lt_of_not_le hheight)

/-- A page in which every field is there in one element and left out in another. -/
def variedPage : Snapshot where
  root := ⟨"html", none, [], [("lang", "en"), ("data-a", "")], ⟨0.5, -0.25, 1200.5, 1080.75⟩, false,
    none,
    [⟨"p", some "", ["a", "b"], [], ⟨0.1, 2.5, 33.3, 16.125⟩, true, some "x \"y\" \n", []⟩,
      ⟨"", none, [], [], ⟨1.5, 1.5, 0.01, 0.01⟩, false, some "",
        [⟨"", none, [], [], ⟨1.5, 1.5, 0.01, 0.01⟩, false, none, []⟩]⟩]⟩
  stylesheets := ["", "p\x7bcolor:red\x7d"]
  subresources := []
  loadTime := max64

theorem ofText?_toText_variedPage :
    (∀ e ∈ variedPage.root.all, e.Readable) ∧ variedPage.loadTime ≤ max64 ∧
      ofText? variedPage.toText = some variedPage := by
  have hall : ∀ e ∈ variedPage.root.all, e.Readable := by decide +kernel
  have hload : variedPage.loadTime ≤ max64 := Nat.le_refl _
  have hheight : variedPage.root.height ≤ 63 := by decide
  exact ⟨hall, hload, (ofText?_toText hall hload).trans (if_pos hheight)⟩

/-- An element inside so many others. -/
def column : Nat → Element
  | 0 => ⟨"html", none, [], [], .zero, false, none, []⟩
  | n + 1 => ⟨"html", none, [], [], .zero, false, none, [column n]⟩

theorem height_column (n : Nat) : (column n).height = n + 1 := by
  induction n with
  | zero => rfl
  | succ n ih => rw [column, Element.height, Element.heightOf, Element.heightOf, ih, Nat.max_zero]

theorem readable_of_mem_column {n : Nat} {e : Element} (he : e ∈ (column n).all) : e.Readable := by
  have hzero : Rect.zero.ComesBack := by decide +kernel
  induction n with
  | zero =>
    rw [column, Element.all, Element.allOf, List.mem_singleton] at he
    exact he ▸ ⟨List.nodup_nil, hzero⟩
  | succ n ih =>
    rw [column, Element.all, Element.allOf, Element.allOf, List.append_nil] at he
    rcases List.mem_cons.1 he with rfl | he
    · exact ⟨List.nodup_nil, hzero⟩
    · exact ih he

/-- Sixty-four elements inside one another, each of them without attributes and with an empty
rectangle, are not read back. -/
theorem ofText?_toText_column :
    (∀ e ∈ (ofRoot (column 63)).root.all, e.Readable) ∧ (ofRoot (column 63)).loadTime ≤ max64 ∧
      ofText? (ofRoot (column 63)).toText ≠ some (ofRoot (column 63)) := by
  have hdeep : 63 < (ofRoot (column 63)).root.height :=
    (height_column 63).symm ▸ Nat.lt_succ_self 63
  refine ⟨fun e he => readable_of_mem_column he, Nat.zero_le _, ?_⟩
  rw [ofText?_toText_of_deep hdeep]
  exact (Option.some_ne_none _).symm

end Snapshot

end CriticalCss
