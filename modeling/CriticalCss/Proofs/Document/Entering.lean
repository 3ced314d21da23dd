import CriticalCss.Document.Layout
import CriticalCss.Proofs.Document.Places

/-!
# Entering the boxes of a page one by one

A document can be built by going through the tree of a page once.  Every element is entered after
the boxes that are there already, and its index is noted with its parent; then its children are
entered.  Children that are found by their parents are the ones that have been noted in this way.

* `Entry.IsLinked` says so of the boxes that have been entered so far.  `IsLinked.add` is what one
  box preserves, and `enters` what the walk through an element preserves, by induction on the tree.
* `enter_root_eq` is the walk through the whole page.
-/

namespace CriticalCss

/-- A box with the indices of its children, as far as they have been entered. -/
structure Entry where
  box : Box
  children : List Nat

namespace Entry

/-- Enters a box and notes its index with its parent. -/
def add (entries : List Entry) (box : Box) : List Entry :=
  let entered := entries ++ [⟨box, []⟩]
  match box.parent with
  | none => entered
  | some p => entered.modify p fun e => { e with children := e.children ++ [entries.length] }

/-- The boxes that have been entered, as a document. -/
def document (entries : List Entry) (viewport : Viewport) : Document :=
  ⟨entries.map (·.box), viewport⟩

/-- Parents have been entered before their children, and the children noted with every box are those
that are found by their parents. -/
structure IsLinked (entries : List Entry) (viewport : Viewport) : Prop where
  parents : ∀ (i p : Nat), (document entries viewport).parent? i = some p → p < i
  children : ∀ (i : Nat) (e : Entry), entries[i]? = some e →
    e.children = (document entries viewport).children i

end Entry

namespace Element

mutual

/-- Enters an element with all that is inside it, unless it is late and the page has not loaded. -/
def enter (loaded : Bool) (parent : Option Nat) (entries : List Entry) : Element → List Entry
  | ⟨tag, id, classes, attributes, rect, late, text, children⟩ =>
    if late && !loaded then entries
    else
      enterInside loaded entries.length
        (Entry.add entries (box ⟨tag, id, classes, attributes, rect, late, text, children⟩ parent))
        children

/-- Enters the children of an element. -/
def enterInside (loaded : Bool) (parent : Nat) (entries : List Entry) : List Element → List Entry
  | [] => entries
  | e :: es => enterInside loaded parent (enter loaded (some parent) entries e) es

end

end Element

/-- The boxes of a document with the children of each of them. -/
def Document.entries (d : Document) : List Entry :=
  d.boxes.mapIdx fun i box => ⟨box, d.children i⟩

variable {viewport : Viewport} {loaded : Bool}

/-! ## One box more -/

/-- A box at the end of a document is a child of its parent, and no other children change. -/
theorem Document.children_concat (boxes : List Box) (box : Box) (i : Nat) :
    (Document.mk (boxes ++ [box]) viewport).children i =
      (Document.mk boxes viewport).children i ++
        if box.parent = some i then [boxes.length] else [] := by
  have hbefore : ∀ j ∈ List.range boxes.length,
      ((Document.mk (boxes ++ [box]) viewport).parent? j == some i) =
        ((Document.mk boxes viewport).parent? j == some i) := by
    intro j hj
    rw [parent?, parent?, box?, box?, List.getElem?_append_left (List.mem_range.1 hj)]
  have hlast : (Document.mk (boxes ++ [box]) viewport).parent? boxes.length = box.parent := by
    rw [parent?, box?, List.getElem?_concat_length]
    rfl
  rw [children, children, List.length_append, List.length_singleton, List.range_succ,
    List.filter_append, List.filter_congr hbefore, List.filter_cons, hlast]
  simp only [beq_iff_eq, List.filter_nil]

namespace Entry

variable {entries : List Entry} {box : Box}

/-- What is noted with a box when one box more is entered. -/
theorem getElem?_add (entries : List Entry) (box : Box) (i : Nat) :
    (add entries box)[i]? = (entries ++ [⟨box, []⟩])[i]?.map fun e =>
      { e with children := e.children ++ if box.parent = some i then [entries.length] else [] } := by
  rw [add]
  cases box.parent with
  | none => simp
  | some p =>
    rw [List.getElem?_modify]
    by_cases hp : p = i <;> simp [hp]

theorem map_box_add (entries : List Entry) (box : Box) :
    (add entries box).map (·.box) = entries.map (·.box) ++ [box] := by
  refine List.ext_getElem? fun i => ?_
  have hmap : entries.map (·.box) ++ [box] = (entries ++ [Entry.mk box []]).map (·.box) := by
    rw [List.map_append, List.map_singleton]
  rw [hmap, List.getElem?_map, List.getElem?_map, getElem?_add, Option.map_map]
  rfl

theorem length_add (entries : List Entry) (box : Box) :
    (add entries box).length = entries.length + 1 := by
  simpa using congrArg List.length (map_box_add entries box)

theorem parent?_document_add (entries : List Entry) (box : Box) (i : Nat) :
    (document (add entries box) viewport).parent? i =
      if i = entries.length then box.parent else (document entries viewport).parent? i := by
  rw [Document.parent?, Document.parent?, Document.box?, Document.box?, document, document,
    map_box_add, ← List.length_map (fun e : Entry => e.box)]
  split
  · next hi =>
    rw [hi, List.getElem?_concat_length]
    rfl
  · next hi =>
    rcases Nat.lt_or_gt_of_ne hi with hlt | hgt
    · rw [List.getElem?_append_left hlt]
    · rw [List.getElem?_eq_none (Nat.le_of_lt hgt),
        List.getElem?_eq_none (by rw [List.length_append]; exact hgt)]

/-- A box that has not been entered has no children. -/
theorem IsLinked.children_eq_nil (h : IsLinked entries viewport) {i : Nat}
    (hi : entries.length ≤ i) : (document entries viewport).children i = [] := by
  refine List.filter_eq_nil_iff.2 fun j hj hparent => ?_
  have hlt := h.parents j i (beq_iff_eq.1 hparent)
  rw [List.mem_range, document, List.length_map] at hj
  omega

/-- What one box preserves, when its parent has been entered before it. -/
theorem IsLinked.add (h : IsLinked entries viewport)
    (hparent : ∀ p, box.parent = some p → p < entries.length) :
    IsLinked (add entries box) viewport where
  parents i p hp := by
    rw [parent?_document_add] at hp
    split at hp
    · next hi =>
      rw [hi]
      exact hparent p hp
    · exact h.parents i p hp
  children i e he := by
    have hchildren : (document (Entry.add entries box) viewport).children i =
        (document entries viewport).children i ++
          if box.parent = some i then [entries.length] else [] := by
      rw [document, map_box_add, Document.children_concat, List.length_map]
      rfl
    rw [getElem?_add] at he
    obtain ⟨e₀, he₀, rfl⟩ := Option.map_eq_some_iff.1 he
    rw [hchildren]
    by_cases hi : i < entries.length
    · rw [List.getElem?_append_left hi] at he₀
      rw [h.children i e₀ he₀]
    · have hge := Nat.le_of_not_lt hi
      rw [List.getElem?_append_right hge] at he₀
      obtain rfl : e₀ = ⟨box, []⟩ := List.mem_singleton.1 (List.mem_of_getElem? he₀)
      rw [h.children_eq_nil hge]

theorem isLinked_nil : IsLinked [] viewport where
  parents _ _ hp := by cases hp
  children _ _ he := by cases he

end Entry

/-! ## A whole tree -/

namespace Element

open Entry

/-- Entering some elements below an entry adds their boxes and preserves the links. -/
def Enters (loaded : Bool) (e : Element) : Prop :=
  ∀ (viewport : Viewport) (parent : Option Nat) (entries : List Entry),
    IsLinked entries viewport → (∀ p, parent = some p → p < entries.length) →
      IsLinked (e.enter loaded parent entries) viewport ∧
        (e.enter loaded parent entries).map (·.box) =
          entries.map (·.box) ++ e.boxes loaded parent entries.length

theorem enterInside_spec {es : List Element} (hes : ∀ e ∈ es, Enters loaded e) {parent : Nat}
    {entries : List Entry} (h : IsLinked entries viewport) (hparent : parent < entries.length) :
    IsLinked (enterInside loaded parent entries es) viewport ∧
      (enterInside loaded parent entries es).map (·.box) =
        entries.map (·.box) ++ boxesInside loaded parent entries.length es := by
  induction es generalizing entries with
  | nil => exact ⟨h, by rw [enterInside, boxesInside, List.append_nil]⟩
  | cons e es ih =>
    have hsome : ∀ p, some parent = some p → p < entries.length := by
      rintro p ⟨⟩
      exact hparent
    obtain ⟨hlinked, hboxes⟩ := hes e List.mem_cons_self viewport (some parent) entries h hsome
    have hlength : (e.enter loaded (some parent) entries).length =
        entries.length + (e.boxes loaded (some parent) entries.length).length := by
      simpa using congrArg List.length hboxes
    obtain ⟨hlinked', hboxes'⟩ :=
      ih (fun e he => hes e (List.mem_cons_of_mem _ he)) hlinked (by omega)
    rw [enterInside, boxesInside_cons]
    refine ⟨hlinked', ?_⟩
    rw [hboxes', hboxes, hlength, List.append_assoc]

/-- What the walk through an element preserves. -/
theorem enters (loaded : Bool) (e : Element) : Enters loaded e := by
  induction e with
  | element tag id classes attributes rect late text children ih =>
    intro viewport parent entries h hparent
    rw [enter, boxes]
    split
    · exact ⟨h, (List.append_nil _).symm⟩
    · have hadd : IsLinked (Entry.add entries
          (box ⟨tag, id, classes, attributes, rect, late, text, children⟩ parent)) viewport :=
        h.add hparent
      have hlt : entries.length < entries.length + 1 := Nat.lt_succ_self _
      rw [← length_add] at hlt
      obtain ⟨hlinked, hboxes⟩ := enterInside_spec ih hadd hlt
      refine ⟨hlinked, ?_⟩
      rw [hboxes, map_box_add, length_add, List.append_assoc]
      rfl

end Element

/-- The walk through a page enters the boxes of its layout, and notes the children of each. -/
theorem Snapshot.enter_root_eq (s : Snapshot) (viewport : Viewport) (loaded : Bool) :
    s.root.enter loaded none [] = (s.layout viewport loaded).entries := by
  obtain ⟨hlinked, hboxes⟩ :=
    s.root.enters loaded viewport none [] Entry.isLinked_nil (fun p hp => by cases hp)
  have hdocument : Entry.document (s.root.enter loaded none []) viewport =
      s.layout viewport loaded := by
    rw [Entry.document, hboxes]
    rfl
  refine List.ext_getElem? fun i => ?_
  rw [Document.entries, List.getElem?_mapIdx, ← hdocument, Entry.document, List.getElem?_map,
    Option.map_map]
  cases he : (s.root.enter loaded none [])[i]? with
  | none => rfl
  | some e =>
    refine congrArg some ?_
    show e = ⟨e.box, _⟩
    rw [← Entry.document, ← hlinked.children i e he]

end CriticalCss
