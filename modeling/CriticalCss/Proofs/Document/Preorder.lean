import CriticalCss.Proofs.Document.Entering
import Mathlib.Data.List.Sort

/-!
# Layouts list the tree of a page in pre-order

The layout of a page lists every element that appears, before what is inside it and in the order of
the tree.  `Document.Encodes` spells this out for the boxes of a document, their parents, children
and siblings, and `encodes_layout` says that every layout encodes its page.

* The elements.  `mem_places_iff` says which places are laid out, and `forall₂_boxes` which boxes
  are at them.
* The links.  `map_place_children` compares the children of a box with those of its element.
* The siblings.  `sibling?_of_children` reads the siblings of an element off the children of its
  parent, and `siblingsBefore_eq` and `siblingsAfter_eq` go from one sibling to the next.
* Late elements.  `boxes_withoutLate` says that a page that has not loaded is laid out like one
  without its late elements.
-/

namespace CriticalCss

namespace Element

variable {loaded : Bool}

/-! ## Definitions -/

/-- The element at a place. -/
def at? (e : Element) : List Nat → Option Element
  | [] => some e
  | k :: rest => e.children[k]?.bind fun child => child.at? rest

/-- There is an element at a place, and neither it nor anything around it is late, unless the page
has loaded. -/
def Appears (loaded : Bool) (e : Element) (place : List Nat) : Prop :=
  (e.at? place).isSome ∧
    (loaded = true ∨ ∀ above, above <+: place → ∀ a, e.at? above = some a → a.late = false)

/-- The positions of the children that are laid out with their parent. -/
def shownPositions (loaded : Bool) (e : Element) : List Nat :=
  (List.range e.children.length).filter fun k => e.children[k]?.any fun child => loaded || !child.late

mutual

/-- The element without the late elements inside it. -/
def withoutLate : Element → Element
  | ⟨tag, id, classes, attributes, rect, late, text, children⟩ =>
    ⟨tag, id, classes, attributes, rect, late, text, dropLate children⟩

/-- The elements that are not late, without the late elements inside them. -/
def dropLate : List Element → List Element
  | [] => []
  | e :: es => if e.late then dropLate es else e.withoutLate :: dropLate es

end

/-! ## Elements and places -/

theorem places_eq (loaded : Bool) (e : Element) :
    e.places loaded =
      if e.late && !loaded then [] else [] :: placesInside loaded 0 e.children := by
  obtain ⟨tag, id, classes, attributes, rect, late, text, children⟩ := e
  rw [places]

theorem boxes_eq (loaded : Bool) (parent : Option Nat) (start : Nat) (e : Element) :
    e.boxes loaded parent start =
      if e.late && !loaded then []
      else e.box parent :: boxesInside loaded start (start + 1) e.children := by
  obtain ⟨tag, id, classes, attributes, rect, late, text, children⟩ := e
  rw [boxes]

theorem at?_cons (e : Element) (k : Nat) (rest : List Nat) :
    e.at? (k :: rest) = e.children[k]?.bind fun child => child.at? rest := rfl

/-- The places below an element are those in its children. -/
theorem mem_placesInside_iff {es : List Element} {first : Nat} {place : List Nat} :
    place ∈ placesInside loaded first es ↔
      ∃ k rest child, place = (first + k) :: rest ∧ es[k]? = some child ∧
        rest ∈ child.places loaded := by
  induction es generalizing first with
  | nil => simp [placesInside]
  | cons e es ih =>
    rw [places_cons, List.mem_append, List.mem_map, ih]
    constructor
    · rintro (⟨rest, hrest, rfl⟩ | ⟨k, rest, child, rfl, hchild, hrest⟩)
      · exact ⟨0, rest, e, rfl, rfl, hrest⟩
      · exact ⟨k + 1, rest, child, by rw [Nat.add_assoc, Nat.add_comm 1], hchild, hrest⟩
    · rintro ⟨k, rest, child, rfl, hchild, hrest⟩
      cases k with
      | zero =>
        cases hchild
        exact .inl ⟨rest, hrest, rfl⟩
      | succ k =>
        exact .inr ⟨k, rest, child, by rw [Nat.add_assoc, Nat.add_comm 1], hchild, hrest⟩

theorem appears_nil_iff {e : Element} :
    e.Appears loaded [] ↔ (e.late && !loaded) = false := by
  have hprefix : (∀ above, above <+: [] → ∀ a, e.at? above = some a → a.late = false) ↔
      e.late = false := by
    constructor
    · intro h
      exact h [] List.prefix_rfl e rfl
    · intro h above habove a ha
      obtain rfl := List.prefix_nil.1 habove
      cases ha
      exact h
  rw [Appears, hprefix]
  cases loaded <;> simp [at?]

/-- An element inside another one appears with it when it appears in one of its children. -/
theorem appears_cons_iff {e : Element} {k : Nat} {rest : List Nat} :
    e.Appears loaded (k :: rest) ↔
      (e.late && !loaded) = false ∧
        ∃ child, e.children[k]? = some child ∧ child.Appears loaded rest := by
  constructor
  · rintro ⟨hsome, hlate⟩
    rw [at?_cons] at hsome
    cases hchild : e.children[k]? with
    | none =>
      rw [hchild] at hsome
      cases hsome
    | some child =>
      rw [hchild] at hsome
      refine ⟨?_, child, rfl, hsome, hlate.imp_right fun hlate above habove a ha => ?_⟩
      · rcases hlate with rfl | hlate
        · simp
        · rw [hlate [] List.nil_prefix e rfl]
          rfl
      · refine hlate (k :: above) (List.cons_prefix_cons.2 ⟨rfl, habove⟩) a ?_
        rw [at?_cons, hchild]
        exact ha
  · rintro ⟨hroot, child, hchild, hsome, hlate⟩
    refine ⟨?_, ?_⟩
    · rw [at?_cons, hchild]
      exact hsome
    · cases hloaded : loaded with
      | true => exact .inl rfl
      | false =>
        refine .inr fun above habove a ha => ?_
        rcases List.prefix_cons_iff.1 habove with rfl | ⟨below, rfl, hbelow⟩
        · cases ha
          simpa [hloaded] using hroot
        · rw [at?_cons, hchild] at ha
          exact hlate.resolve_left (by simp [hloaded]) below hbelow a ha

/-- The places that are laid out are those of the elements that appear. -/
theorem mem_places_iff {e : Element} {place : List Nat} :
    place ∈ e.places loaded ↔ e.Appears loaded place := by
  induction place generalizing e with
  | nil =>
    rw [places_eq, appears_nil_iff]
    cases e.late && !loaded <;> simp
  | cons k rest ih =>
    rw [places_eq, appears_cons_iff]
    cases hlate : e.late && !loaded with
    | true => simp
    | false =>
      have hne : k :: rest ≠ [] := List.cons_ne_nil _ _
      simp only [Bool.false_eq_true, if_false, List.mem_cons, hne, false_or, true_and]
      rw [mem_placesInside_iff]
      constructor
      · rintro ⟨k', rest', child, heq, hchild, hrest⟩
        rw [Nat.zero_add] at heq
        cases heq
        exact ⟨child, hchild, ih.1 hrest⟩
      · rintro ⟨child, hchild, hrest⟩
        exact ⟨k, rest, child, by rw [Nat.zero_add], hchild, ih.2 hrest⟩

/-- A child appears when its parent does and it is not late itself. -/
theorem appears_concat_iff {e : Element} {place : List Nat} {k : Nat} :
    e.Appears loaded (place ++ [k]) ↔
      e.Appears loaded place ∧ ∃ a child, e.at? place = some a ∧ a.children[k]? = some child ∧
        (child.late && !loaded) = false := by
  induction place generalizing e with
  | nil =>
    rw [List.nil_append, appears_cons_iff, appears_nil_iff]
    refine and_congr_right fun _ => ?_
    constructor
    · rintro ⟨child, hchild, hlate⟩
      exact ⟨e, child, rfl, hchild, appears_nil_iff.1 hlate⟩
    · rintro ⟨a, child, ⟨⟩, hchild, hlate⟩
      exact ⟨child, hchild, appears_nil_iff.2 hlate⟩
  | cons j rest ih =>
    rw [List.cons_append, appears_cons_iff, appears_cons_iff, and_assoc]
    refine and_congr_right fun _ => ?_
    constructor
    · rintro ⟨next, hnext, happears⟩
      obtain ⟨hnext', a, child, ha, hchild, hlate⟩ := ih.1 happears
      exact ⟨⟨next, hnext, hnext'⟩, a, child, by rw [at?_cons, hnext]; exact ha, hchild, hlate⟩
    · rintro ⟨⟨next, hnext, hnext'⟩, a, child, ha, hchild, hlate⟩
      rw [at?_cons, hnext] at ha
      exact ⟨next, hnext, ih.2 ⟨hnext', a, child, ha, hchild, hlate⟩⟩

theorem mem_shownPositions_iff {e : Element} {k : Nat} :
    k ∈ e.shownPositions loaded ↔
      ∃ child, e.children[k]? = some child ∧ (child.late && !loaded) = false := by
  rw [shownPositions, List.mem_filter, List.mem_range, Option.any_eq_true]
  constructor
  · rintro ⟨-, child, hchild, hshown⟩
    exact ⟨child, hchild, by rw [← Bool.not_eq_true', Bool.not_and, Bool.not_not, Bool.or_comm, hshown]⟩
  · rintro ⟨child, hchild, hlate⟩
    refine ⟨(List.getElem?_eq_some_iff.1 hchild).1, child, hchild, ?_⟩
    rw [← Bool.not_eq_true', Bool.not_and, Bool.not_not, Bool.or_comm] at hlate
    exact hlate

/-! ## Boxes and places -/

/-- A box is that of the element at a place. -/
def IsBoxAt (e : Element) (b : Box) (place : List Nat) : Prop :=
  ∃ a, e.at? place = some a ∧ b = a.box b.parent

/-- The boxes of some children are those of the elements at their places. -/
theorem forall₂_boxesInside {es : List Element}
    (hes : ∀ e ∈ es, ∀ up start,
      List.Forall₂ e.IsBoxAt (e.boxes loaded up start) (e.places loaded))
    (parent start first : Nat) :
    List.Forall₂
      (fun b place => ∃ k rest child, place = (first + k) :: rest ∧ es[k]? = some child ∧
        child.IsBoxAt b rest)
      (boxesInside loaded parent start es) (placesInside loaded first es) := by
  induction es generalizing start first with
  | nil =>
    rw [boxesInside, placesInside]
    exact .nil
  | cons e es ih =>
    rw [boxesInside_cons, places_cons]
    refine List.rel_append ?_ ?_
    · refine List.forall₂_map_right_iff.2 ((hes e List.mem_cons_self _ _).imp fun b rest hbox => ?_)
      exact ⟨0, rest, e, rfl, rfl, hbox⟩
    · have hes' := ih (fun e he => hes e (List.mem_cons_of_mem _ he))
        (start + (e.boxes loaded (some parent) start).length) (first + 1)
      refine hes'.imp fun b place hplace => ?_
      obtain ⟨k, rest, child, rfl, hchild, hbox⟩ := hplace
      exact ⟨k + 1, rest, child, by rw [Nat.add_assoc, Nat.add_comm 1], hchild, hbox⟩

/-- The boxes of an element are those of the elements at its places, in the same order. -/
theorem forall₂_boxes (e : Element) (up : Option Nat) (start : Nat) :
    List.Forall₂ e.IsBoxAt (e.boxes loaded up start) (e.places loaded) := by
  induction e generalizing up start with
  | element tag id classes attributes rect late text children ih =>
    rw [boxes_eq, places_eq]
    split
    · exact .nil
    · refine .cons ⟨_, rfl, rfl⟩ ((forall₂_boxesInside ih _ _ 0).imp fun b place hplace => ?_)
      obtain ⟨k, rest, child, rfl, hchild, a, ha, hbox⟩ := hplace
      refine ⟨a, ?_, hbox⟩
      rw [Nat.zero_add, at?_cons, hchild]
      exact ha

/-! ## Late elements -/

theorem late_withoutLate (e : Element) : e.withoutLate.late = e.late := by
  obtain ⟨tag, id, classes, attributes, rect, late, text, children⟩ := e
  rfl

/-- The boxes of some children, when the page has not loaded. -/
theorem boxesInside_dropLate {es : List Element}
    (hes : ∀ e ∈ es, e.late = false → ∀ up start,
      e.boxes false up start = e.withoutLate.boxes true up start)
    (parent start : Nat) :
    boxesInside false parent start es = boxesInside true parent start (dropLate es) := by
  induction es generalizing start with
  | nil => rfl
  | cons e es ih =>
    have hes' := ih fun e he => hes e (List.mem_cons_of_mem _ he)
    rw [boxesInside_cons, dropLate]
    cases hlate : e.late with
    | true =>
      rw [boxes_eq, hlate]
      exact hes' _
    | false =>
      rw [if_neg (by simp), boxesInside_cons, hes e List.mem_cons_self hlate, hes']

/-- An element that is not late is laid out in a page that has not loaded as it would be without the
late elements inside it. -/
theorem boxes_withoutLate {e : Element} (hlate : e.late = false) (up : Option Nat) (start : Nat) :
    e.boxes false up start = e.withoutLate.boxes true up start := by
  induction e generalizing up start with
  | element tag id classes attributes rect late text children ih =>
    rw [boxes_eq, boxes_eq, late_withoutLate, hlate]
    refine congrArg₂ List.cons rfl ?_
    exact boxesInside_dropLate (fun e he hlate up start => ih e he hlate up start) _ _

end Element

/-! ## Parents and children -/

section Links

variable {s : Snapshot} {viewport : Viewport} {loaded : Bool} {i : Nat} {place : List Nat}

theorem Snapshot.length_boxes_layout (s : Snapshot) (viewport : Viewport) (loaded : Bool) :
    (s.layout viewport loaded).boxes.length = (s.places loaded).length :=
  (s.root.forall₂_boxes none 0).length_eq

/-- The element that is listed first is the root. -/
theorem Snapshot.places_zero (hi : i < (s.places loaded).length) : (s.places loaded)[0]? = some [] := by
  rw [places, Element.places_eq] at hi ⊢
  split at hi
  · cases hi
  · next hlate => rw [if_neg hlate, List.getElem?_cons_zero]

namespace Document

/-- Only the first element has no parent. -/
theorem parent?_layout_eq_none_iff (hi : i < (s.layout viewport loaded).boxes.length) :
    (s.layout viewport loaded).parent? i = none ↔ i = 0 := by
  rw [s.length_boxes_layout] at hi
  have hzero := Snapshot.places_zero hi
  constructor
  · intro hnone
    have hplace := List.getElem?_eq_getElem hi
    rcases List.eq_nil_or_concat (s.places loaded)[i] with hnil | ⟨above, k, hconcat⟩
    · rw [hnil] at hplace
      exact Snapshot.index_unique hplace hzero
    · rw [hconcat, List.concat_eq_append] at hplace
      obtain ⟨p, -, hp⟩ := exists_parent? viewport hplace
      rw [hnone] at hp
      cases hp
  · rintro rfl
    cases hparent : (s.layout viewport loaded).parent? 0 with
    | none => rfl
    | some p =>
      obtain ⟨above, k, hconcat, -⟩ := parent?_layout_eq_some_iff.1 hparent
      rw [hzero] at hconcat
      simp at hconcat

/-- A parent is listed before its children. -/
theorem lt_of_parent?_layout {p : Nat} (hp : (s.layout viewport loaded).parent? i = some p) :
    p < i := by
  obtain ⟨above, k, hi, habove⟩ := parent?_layout_eq_some_iff.1 hp
  exact (Snapshot.index_lt_iff habove hi).2 (lt_concat above k)

theorem pairwise_lt_children (d : Document) (p : Nat) : (d.children p).Pairwise (· < ·) :=
  List.pairwise_lt_range.filter _

/-- The children of an element are at the places one step below it. -/
theorem mem_children_layout_iff (hi : (s.places loaded)[i]? = some place) {j : Nat} :
    j ∈ (s.layout viewport loaded).children i ↔
      ∃ k, (s.places loaded)[j]? = some (place ++ [k]) := by
  rw [mem_children_iff, parent?_layout_eq_some_iff]
  constructor
  · rintro ⟨above, k, hj, habove⟩
    obtain rfl : place = above := Option.some.inj (hi.symm.trans habove)
    exact ⟨k, hj⟩
  · rintro ⟨k, hj⟩
    exact ⟨place, k, hj, hi⟩

/-- A child is laid out when its parent is and the child is shown. -/
theorem concat_mem_places_iff {e : Element} (hplace : place ∈ s.places loaded)
    (he : s.root.at? place = some e) {k : Nat} :
    place ++ [k] ∈ s.places loaded ↔ k ∈ e.shownPositions loaded := by
  have happears := Element.mem_places_iff.1 hplace
  constructor
  · intro hmem
    obtain ⟨-, a, child, ha, hchild, hlate⟩ :=
      Element.appears_concat_iff.1 (Element.mem_places_iff.1 hmem)
    obtain rfl : e = a := Option.some.inj (he.symm.trans ha)
    exact Element.mem_shownPositions_iff.2 ⟨child, hchild, hlate⟩
  · intro hk
    obtain ⟨child, hchild, hlate⟩ := Element.mem_shownPositions_iff.1 hk
    exact Element.mem_places_iff.2
      (Element.appears_concat_iff.2 ⟨happears, e, child, he, hchild, hlate⟩)

/-- The children of an element in a document are its children in the tree that are laid out, in the
same order. -/
theorem map_place_children {e : Element} (hi : (s.places loaded)[i]? = some place)
    (he : s.root.at? place = some e) :
    ((s.layout viewport loaded).children i).map ((s.places loaded)[·]?) =
      (e.shownPositions loaded).map fun k => some (place ++ [k]) := by
  have hplace := List.mem_of_getElem? hi
  have hplaceOf : ∀ j ∈ (s.layout viewport loaded).children i,
      (s.places loaded)[j]? = some ((s.places loaded).getD j []) := by
    intro j hj
    obtain ⟨k, hj⟩ := (mem_children_layout_iff hi).1 hj
    rw [List.getD_eq_getElem?_getD, hj]
    rfl
  -- both lists increase, so it is enough that they have the same members
  have hsame : ((s.layout viewport loaded).children i).map ((s.places loaded).getD · []) =
      (e.shownPositions loaded).map (place ++ [·]) := by
    refine List.Pairwise.eq_of_mem_iff (r := (· < ·)) ?_ ?_ fun a => ?_
    · refine List.pairwise_map.2 ((pairwise_lt_children _ i).imp_of_mem fun hj hj' hlt => ?_)
      exact (Snapshot.index_lt_iff (hplaceOf _ hj) (hplaceOf _ hj')).1 hlt
    · refine List.pairwise_map.2 ((List.pairwise_lt_range.filter _).imp fun hlt => ?_)
      exact (concat_lt_concat_iff place _ _).2 hlt
    · rw [List.mem_map, List.mem_map]
      constructor
      · rintro ⟨j, hj, rfl⟩
        obtain ⟨k, hk⟩ := (mem_children_layout_iff hi).1 hj
        refine ⟨k, (concat_mem_places_iff hplace he).1 (List.mem_of_getElem? hk), ?_⟩
        rw [List.getD_eq_getElem?_getD, hk]
        rfl
      · rintro ⟨k, hk, rfl⟩
        obtain ⟨j, hj⟩ := List.getElem?_of_mem ((concat_mem_places_iff hplace he).2 hk)
        refine ⟨j, (mem_children_layout_iff hi).2 ⟨k, hj⟩, ?_⟩
        rw [List.getD_eq_getElem?_getD, hj]
        rfl
  calc ((s.layout viewport loaded).children i).map ((s.places loaded)[·]?)
    _ = (((s.layout viewport loaded).children i).map ((s.places loaded).getD · [])).map some := by
      rw [List.map_map]
      exact List.map_congr_left hplaceOf
    _ = (e.shownPositions loaded).map fun k => some (place ++ [k]) := by
      rw [hsame, List.map_map]
      rfl

end Document

end Links

/-! ## Siblings -/

namespace Document

variable {d : Document} {p i j : Nat} {before after : List Nat}

/-- The children of an element stand in document order. -/
theorem lt_of_children (h : d.children p = before ++ i :: after) :
    (∀ j ∈ before, j < i) ∧ ∀ j ∈ after, i < j := by
  have hsorted := d.pairwise_lt_children p
  rw [h, List.pairwise_append, List.pairwise_cons] at hsorted
  obtain ⟨-, ⟨hafter, -⟩, hbefore⟩ := hsorted
  exact ⟨fun j hj => hbefore j hj i List.mem_cons_self, hafter⟩

/-- The sibling of an element some places on, when it stands among the children of its parent. -/
theorem sibling?_of_children (h : d.children p = before ++ i :: after) (offset : Int) :
    d.sibling? i offset =
      if before.length + offset < 0 then none
      else (before ++ i :: after)[(before.length + offset).toNat]? := by
  have hparent : d.parent? i = some p := mem_children_iff.1 (by simp [h])
  have hindex : (before ++ i :: after).idxOf? i = some before.length := by
    refine List.idxOf?_eq_some_iff.2 ⟨by simp, by simp, fun k hk => ?_⟩
    rw [List.getElem_append_left hk]
    exact Nat.ne_of_lt ((lt_of_children h).1 _ (List.getElem_mem hk))
  rw [sibling?, hparent, Option.bind_some, h, hindex, Option.bind_some]

/-- The siblings of an element, when it stands among the children of its parent. -/
theorem siblings_of_children (h : d.children p = before ++ i :: after) :
    d.previous? i = before.getLast? ∧ d.next? i = after.head? ∧
      d.siblingsBefore i = before.reverse ∧ d.siblingsAfter i = after := by
  have hparent : d.parent? i = some p := mem_children_iff.1 (by simp [h])
  obtain ⟨hlt, hafter⟩ := lt_of_children h
  have hsiblings : d.siblings i = before ++ i :: after := by
    rw [siblings, hparent]
    exact h
  refine ⟨?_, ?_, ?_, ?_⟩
  · rw [previous?, sibling?_of_children h]
    rcases List.eq_nil_or_concat before with rfl | ⟨init, j, rfl⟩
    · rfl
    · have hplace : ((init.concat j).length : Int) + -1 = init.length := by
        rw [List.length_concat]
        omega
      rw [hplace, if_neg (by omega), Int.toNat_natCast]
      simp
  · rw [next?, sibling?_of_children h, if_neg (by omega)]
    have hplace : ((before.length : Int) + 1).toNat = before.length + 1 := by omega
    rw [hplace, List.getElem?_append_right (Nat.le_add_right _ _), Nat.add_sub_cancel_left,
      List.getElem?_cons_succ, List.head?_eq_getElem?]
  · rw [siblingsBefore, hsiblings]
    have hall : before.filter (· < i) = before := List.filter_eq_self.2 (by simpa using hlt)
    have hnone : after.filter (· < i) = [] := List.filter_eq_nil_iff.2 fun j hj => by
      simpa using Nat.le_of_lt (hafter j hj)
    simp [List.filter_append, hall, hnone]
  · rw [siblingsAfter, hsiblings]
    have hall : after.filter (i < ·) = after := List.filter_eq_self.2 (by simpa using hafter)
    have hnone : before.filter (i < ·) = [] := List.filter_eq_nil_iff.2 fun j hj => by
      simpa using Nat.le_of_lt (hlt j hj)
    simp [List.filter_append, hall, hnone]

/-- An element with a sibling on some side stands among the children of its parent. -/
theorem exists_children_of_sibling? {offset : Int} (h : d.sibling? i offset = some j) :
    ∃ p before after, d.children p = before ++ i :: after := by
  obtain ⟨p, hparent, -⟩ := Option.bind_eq_some_iff.1 h
  exact ⟨p, List.append_of_mem (mem_children_iff.2 hparent)⟩

/-- The sibling after an element is the one that has it before itself. -/
theorem next?_eq_some_iff : d.next? i = some j ↔ d.previous? j = some i := by
  constructor
  · intro h
    obtain ⟨p, before, after, hchildren⟩ := exists_children_of_sibling? h
    rw [(siblings_of_children hchildren).2.1] at h
    obtain ⟨after, rfl⟩ := List.head?_eq_some_iff.1 h
    rw [List.append_cons] at hchildren
    rw [(siblings_of_children hchildren).1, List.getLast?_concat]
  · intro h
    obtain ⟨p, before, after, hchildren⟩ := exists_children_of_sibling? h
    rw [(siblings_of_children hchildren).1] at h
    obtain ⟨before, rfl⟩ := List.getLast?_eq_some_iff.1 h
    rw [← List.append_cons] at hchildren
    rw [(siblings_of_children hchildren).2.1, List.head?_cons]

/-- Going back from sibling to sibling leads to all siblings before an element. -/
theorem siblingsBefore_eq (d : Document) (i : Nat) :
    d.siblingsBefore i = (d.previous? i).elim [] fun j => j :: d.siblingsBefore j := by
  cases hparent : d.parent? i with
  | none =>
    have hnone : d.previous? i = none := by rw [previous?, sibling?, hparent]; rfl
    rw [hnone, siblingsBefore, siblings, hparent]
    simp
  | some p =>
    obtain ⟨before, after, hchildren⟩ := List.append_of_mem (mem_children_iff.2 hparent)
    obtain ⟨hprevious, -, hbefore, -⟩ := siblings_of_children hchildren
    rw [hprevious, hbefore]
    rcases List.eq_nil_or_concat before with rfl | ⟨init, j, rfl⟩
    · rfl
    · rw [List.concat_eq_append, ← List.append_cons] at hchildren
      rw [List.concat_eq_append, List.getLast?_concat, Option.elim_some,
        (siblings_of_children hchildren).2.2.1, List.reverse_append]
      rfl

/-- Going on from sibling to sibling leads to all siblings after an element. -/
theorem siblingsAfter_eq (d : Document) (i : Nat) :
    d.siblingsAfter i = (d.next? i).elim [] fun j => j :: d.siblingsAfter j := by
  cases hparent : d.parent? i with
  | none =>
    have hnone : d.next? i = none := by rw [next?, sibling?, hparent]; rfl
    rw [hnone, siblingsAfter, siblings, hparent]
    simp
  | some p =>
    obtain ⟨before, after, hchildren⟩ := List.append_of_mem (mem_children_iff.2 hparent)
    obtain ⟨-, hnext, -, hafter⟩ := siblings_of_children hchildren
    rw [hnext, hafter]
    cases after with
    | nil => rfl
    | cons j after =>
      rw [List.append_cons] at hchildren
      rw [List.head?_cons, Option.elim_some, (siblings_of_children hchildren).2.2.2]

/-! ## The encoding -/

/-- A document lists the tree of a page in pre-order. -/
structure Encodes (d : Document) (s : Snapshot) (loaded : Bool) : Prop where
  /-- The places that are listed are those of the elements that appear. -/
  listed : ∀ place, place ∈ s.places loaded ↔ s.root.Appears loaded place
  /-- An element stands before what is inside it, and this before the next child. -/
  ordered : (s.places loaded).Pairwise (· < ·)
  /-- Every box is that of the element at its place. -/
  boxes : List.Forall₂ s.root.IsBoxAt d.boxes (s.places loaded)
  parentless : ∀ i < d.boxes.length, d.parent? i = none ↔ i = 0
  /-- The parent is the element one step above, and stands before its children. -/
  parents : ∀ i p, d.parent? i = some p → p < i ∧ ∃ above k,
    (s.places loaded)[i]? = some (above ++ [k]) ∧ (s.places loaded)[p]? = some above
  increasing : ∀ i, (d.children i).Pairwise (· < ·)
  /-- The children are the children in the tree that appear, in order. -/
  children : ∀ (i : Nat) place e, (s.places loaded)[i]? = some place → s.root.at? place = some e →
    (d.children i).map ((s.places loaded)[·]?) =
      (e.shownPositions loaded).map fun k => some (place ++ [k])
  siblings : ∀ p before i after, d.children p = before ++ i :: after →
    d.previous? i = before.getLast? ∧ d.next? i = after.head?
  inverse : ∀ i j, d.next? i = some j ↔ d.previous? j = some i
  /-- The siblings on both sides are those that are found by going from one to the next. -/
  before : ∀ i, d.siblingsBefore i = (d.previous? i).elim [] fun j => j :: d.siblingsBefore j
  after : ∀ i, d.siblingsAfter i = (d.next? i).elim [] fun j => j :: d.siblingsAfter j

end Document

/-- The layout of a page lists its tree in pre-order, and entering the elements one by one notes the
same boxes with the same children.  As long as the page has not loaded, it is laid out like the page
without its late elements. -/
theorem Snapshot.encodes_layout (s : Snapshot) (viewport : Viewport) (loaded : Bool) :
    (s.layout viewport loaded).Encodes s loaded ∧
      s.root.enter loaded none [] = (s.layout viewport loaded).entries ∧
      s.layout viewport false =
        if s.root.late then ⟨[], viewport⟩
        else { s with root := s.root.withoutLate }.layout viewport true := by
  refine ⟨?_, s.enter_root_eq viewport loaded, ?_⟩
  · exact {
      listed := fun _ => Element.mem_places_iff
      ordered := s.root.pairwise_lt_places loaded
      boxes := s.root.forall₂_boxes none 0
      parentless := fun _ hi => Document.parent?_layout_eq_none_iff hi
      parents := fun _ _ hp => ⟨Document.lt_of_parent?_layout hp, Document.parent?_layout_eq_some_iff.1 hp⟩
      increasing := Document.pairwise_lt_children _
      children := fun _ _ _ hi he => Document.map_place_children hi he
      siblings := fun _ _ _ _ h =>
        ⟨(Document.siblings_of_children h).1, (Document.siblings_of_children h).2.1⟩
      inverse := fun _ _ => Document.next?_eq_some_iff
      before := Document.siblingsBefore_eq _
      after := Document.siblingsAfter_eq _ }
  · cases hlate : s.root.late with
    | true =>
      rw [layout, Element.boxes_eq, hlate]
      rfl
    | false => exact congrArg (Document.mk · viewport) (Element.boxes_withoutLate hlate none 0)

end CriticalCss
