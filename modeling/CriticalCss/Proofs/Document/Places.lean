import CriticalCss.Document.Match
import Mathlib.Data.List.Basic

/-!
# Places in the tree of a page

An element of a laid-out document comes from a place in the tree of the snapshot: the positions,
among the children, that lead to it from the root.  A document knows the indices of parents only;
ancestors and siblings follow from these and from the order of the indices.  They are the ancestors
and siblings that the places have in the tree.

* `places` lists the places of the elements that are laid out, in document order.
* `boxes_at_places` says which index the box at a place has for its parent, and
  `pairwise_lt_places` that the order of the indices is that of the tree.
* `mem_ancestors_iff` and `mem_siblingsBefore_iff` read the links of a document as relations between
  places, and `mem_related_iff` does so for every combinator.
-/

namespace CriticalCss

namespace Element

/-- Induction on elements.  The statement may be used for every child. -/
@[elab_as_elim, induction_eliminator]
theorem inductionOn {motive : Element → Prop}
    (element : ∀ tag id classes attributes rect late text children,
      (∀ e ∈ children, motive e) →
        motive ⟨tag, id, classes, attributes, rect, late, text, children⟩) :
    ∀ e, motive e :=
  @Element.rec motive (fun es => ∀ e ∈ es, motive e) element
    (fun _ he => absurd he List.not_mem_nil)
    (fun _ _ he hes => List.forall_mem_cons.2 ⟨he, hes⟩)

mutual

/-- The places of an element and of what is inside it, in document order, as far as they are laid
out. -/
def places (loaded : Bool) : Element → List (List Nat)
  | ⟨_, _, _, _, _, late, _, children⟩ =>
    if late && !loaded then [] else [] :: placesInside loaded 0 children

/-- The places of the children of an element, the first of which has the position `first`. -/
def placesInside (loaded : Bool) (first : Nat) : List Element → List (List Nat)
  | [] => []
  | e :: es => (places loaded e).map (first :: ·) ++ placesInside loaded (first + 1) es

end

variable {loaded : Bool}

/-! ## Parents -/

/-- A box at a place has an index for its parent: `up` at the place of the whole tree, and otherwise
that of the place one step above, where the indices of the places begin with `start`. -/
def HasParent (places : List (List Nat)) (up : Option Nat) (start : Nat) (place : List Nat)
    (parent : Option Nat) : Prop :=
  (place = [] ∧ parent = up) ∨
    ∃ above k m, place = above ++ [k] ∧ places[m]? = some above ∧ parent = some (start + m)

/-- The boxes of an element are at its places. -/
def BoxesAtPlaces (loaded : Bool) (e : Element) : Prop :=
  ∀ up start, (e.boxes loaded up start).length = (e.places loaded).length ∧
    ∀ (n : Nat) (b : Box), (e.boxes loaded up start)[n]? = some b →
      ∃ place, (e.places loaded)[n]? = some place ∧
        HasParent (e.places loaded) up start place b.parent

theorem places_cons (first : Nat) (e : Element) (es : List Element) :
    placesInside loaded first (e :: es) =
      (e.places loaded).map (first :: ·) ++ placesInside loaded (first + 1) es := by
  rw [placesInside]

theorem boxesInside_cons (parent start : Nat) (e : Element) (es : List Element) :
    boxesInside loaded parent start (e :: es) =
      e.boxes loaded (some parent) start ++
        boxesInside loaded parent (start + (e.boxes loaded (some parent) start).length) es := by
  rw [boxesInside]

/-- The boxes of some children are at their places.  A place is below the one of their parent, and
its first position tells the child. -/
theorem boxesInside_at_places {es : List Element} (hes : ∀ e ∈ es, BoxesAtPlaces loaded e)
    (parent start first : Nat) :
    (boxesInside loaded parent start es).length = (placesInside loaded first es).length ∧
      ∀ (n : Nat) (b : Box), (boxesInside loaded parent start es)[n]? = some b →
        ∃ k place, (placesInside loaded first es)[n]? = some (k :: place) ∧
          ((place = [] ∧ b.parent = some parent) ∨
            ∃ above j m, place = above ++ [j] ∧
              (placesInside loaded first es)[m]? = some (k :: above) ∧
              b.parent = some (start + m)) := by
  induction es generalizing start first with
  | nil => exact ⟨by simp [boxesInside, placesInside], fun n b hb => by simp [boxesInside] at hb⟩
  | cons e es ih =>
    obtain ⟨hlength, hboxes⟩ := hes e List.mem_cons_self (some parent) start
    obtain ⟨hlength', hboxes'⟩ := ih (fun e he => hes e (List.mem_cons_of_mem _ he))
      (start + (e.boxes loaded (some parent) start).length) (first + 1)
    rw [boxesInside_cons, places_cons]
    refine ⟨?_, fun n b hb => ?_⟩
    · rw [List.length_append, List.length_append, List.length_map, hlength, ← hlength', hlength]
    by_cases hn : n < (e.boxes loaded (some parent) start).length
    · -- a box of the first child
      rw [List.getElem?_append_left hn] at hb
      obtain ⟨place, hplace, hparent⟩ := hboxes n b hb
      have hfirst : ∀ (m : Nat) place, (e.places loaded)[m]? = some place →
          ((e.places loaded).map (first :: ·) ++ placesInside loaded (first + 1) es)[m]? =
            some (first :: place) := by
        intro m place hm
        have hlt : m < ((e.places loaded).map (first :: ·)).length := by
          rw [List.length_map]
          exact (List.getElem?_eq_some_iff.1 hm).1
        rw [List.getElem?_append_left hlt, List.getElem?_map, hm]
        rfl
      refine ⟨first, place, hfirst n place hplace, ?_⟩
      rcases hparent with hroot | ⟨above, k, m, habove, hm, hparent⟩
      · exact .inl hroot
      · exact .inr ⟨above, k, m, habove, hfirst m above hm, hparent⟩
    · -- a box of a later child
      have hn' := Nat.le_of_not_lt hn
      rw [List.getElem?_append_right hn'] at hb
      obtain ⟨k, place, hplace, hparent⟩ := hboxes' _ b hb
      have hlater : ∀ m : Nat, ((e.places loaded).map (first :: ·) ++
          placesInside loaded (first + 1) es)[(e.boxes loaded (some parent) start).length + m]? =
            (placesInside loaded (first + 1) es)[m]? := by
        intro m
        rw [List.getElem?_append_right (by simp [hlength]), List.length_map, ← hlength,
          Nat.add_sub_cancel_left]
      refine ⟨k, place, ?_, ?_⟩
      · rw [← hlater, Nat.add_sub_cancel' hn'] at hplace
        exact hplace
      · rcases hparent with hroot | ⟨above, j, m, habove, hm, hparent⟩
        · exact .inl hroot
        · exact .inr ⟨above, j, _, habove, (hlater m).trans hm, by rw [hparent, Nat.add_assoc]⟩

/-- Every box of an element is at one of its places. -/
theorem boxes_at_places (loaded : Bool) (e : Element) : BoxesAtPlaces loaded e := by
  induction e with
  | element tag id classes attributes rect late text children ih =>
    intro up start
    obtain ⟨hlength, hboxes⟩ := boxesInside_at_places ih start (start + 1) 0
    rw [boxes, places]
    split
    · exact ⟨rfl, fun n b hb => by simp at hb⟩
    · refine ⟨congrArg (· + 1) hlength, fun n b hb => ?_⟩
      cases n with
      | zero =>
        cases hb
        exact ⟨[], rfl, .inl ⟨rfl, rfl⟩⟩
      | succ n =>
        obtain ⟨k, place, hplace, hparent⟩ := hboxes n b hb
        refine ⟨k :: place, hplace, .inr ?_⟩
        rcases hparent with ⟨rfl, hparent⟩ | ⟨above, j, m, rfl, hm, hparent⟩
        · exact ⟨[], k, 0, rfl, rfl, hparent⟩
        · exact ⟨k :: above, j, m + 1, rfl, hm, by rw [hparent, Nat.add_assoc, Nat.add_comm 1]⟩

/-! ## The order of the places -/

/-- The places below an element begin with the position of a child. -/
theorem exists_of_mem_placesInside {first : Nat} {es : List Element} {place : List Nat}
    (h : place ∈ placesInside loaded first es) : ∃ k rest, place = k :: rest ∧ first ≤ k := by
  induction es generalizing first with
  | nil => simp [placesInside] at h
  | cons e es ih =>
    rw [places_cons, List.mem_append] at h
    rcases h with h | h
    · obtain ⟨rest, _, rfl⟩ := List.mem_map.1 h
      exact ⟨first, rest, rfl, Nat.le_refl _⟩
    · obtain ⟨k, rest, rfl, hk⟩ := ih h
      exact ⟨k, rest, rfl, Nat.le_of_succ_le hk⟩

theorem pairwise_lt_placesInside {es : List Element}
    (hes : ∀ e ∈ es, (e.places loaded).Pairwise (· < ·)) (first : Nat) :
    (placesInside loaded first es).Pairwise (· < ·) := by
  induction es generalizing first with
  | nil => simp [placesInside]
  | cons e es ih =>
    rw [places_cons, List.pairwise_append]
    refine ⟨?_, ih (fun e he => hes e (List.mem_cons_of_mem _ he)) _, ?_⟩
    · refine List.pairwise_map.2 ((hes e List.mem_cons_self).imp fun {a b} hab => ?_)
      exact List.cons_lt_cons_iff.2 (.inr ⟨rfl, hab⟩)
    · intro a ha b hb
      obtain ⟨rest, _, rfl⟩ := List.mem_map.1 ha
      obtain ⟨k, rest', rfl, hk⟩ := exists_of_mem_placesInside hb
      exact List.cons_lt_cons_iff.2 (.inl hk)

/-- In document order an element stands before what is inside it, and this before what is inside the
next child: the places increase. -/
theorem pairwise_lt_places (loaded : Bool) (e : Element) :
    (e.places loaded).Pairwise (· < ·) := by
  induction e with
  | element tag id classes attributes rect late text children ih =>
    rw [places]
    split
    · exact .nil
    · refine .cons (fun place hplace => ?_) (pairwise_lt_placesInside ih 0)
      obtain ⟨k, rest, rfl, _⟩ := exists_of_mem_placesInside hplace
      exact List.nil_lt_cons k rest

end Element

/-! ## Relations between places -/

/-- How the place to the left of a combinator stands to the one on its right, in a tree with some
places. -/
def Combinator.Relates (places : List (List Nat)) : Combinator → List Nat → List Nat → Prop
  -- a proper ancestor, and the parent
  | .descendant, a, b => a ≠ b ∧ a <+: b
  | .child, a, b => ∃ k, b = a ++ [k]
  -- the sibling right before, and any one before
  | .next, a, b => ∃ parent j k, a = parent ++ [j] ∧ b = parent ++ [k] ∧ j < k ∧
      ∀ m, j < m → m < k → parent ++ [m] ∉ places
  | .later, a, b => ∃ parent j k, a = parent ++ [j] ∧ b = parent ++ [k] ∧ j < k

namespace Snapshot

/-- The places of the elements that are laid out, in document order. -/
def places (s : Snapshot) (loaded : Bool) : List (List Nat) :=
  s.root.places loaded

/-- The elements with two indices stand to each other as a combinator says. -/
def Stands (s : Snapshot) (loaded : Bool) (c : Combinator) (i j : Nat) : Prop :=
  ∃ a b, (s.places loaded)[i]? = some a ∧ (s.places loaded)[j]? = some b ∧
    c.Relates (s.places loaded) a b

end Snapshot

/-! ## Links of a document -/

section Links

variable {s : Snapshot} {viewport : Viewport} {loaded : Bool} {i j : Nat} {a b : List Nat}

/-- Indices are ordered as the places are. -/
theorem Snapshot.index_lt_iff (hi : (s.places loaded)[i]? = some a)
    (hj : (s.places loaded)[j]? = some b) : i < j ↔ a < b := by
  have hsorted := s.root.pairwise_lt_places loaded
  obtain ⟨hilt, rfl⟩ := List.getElem?_eq_some_iff.1 hi
  obtain ⟨hjlt, rfl⟩ := List.getElem?_eq_some_iff.1 hj
  have hlt : ∀ {m n : Nat} (hm : m < (s.places loaded).length) (hn : n < (s.places loaded).length),
      m < n → (s.places loaded)[m] < (s.places loaded)[n] :=
    fun hm hn => List.pairwise_iff_getElem.1 hsorted _ _ hm hn
  constructor
  · exact hlt hilt hjlt
  · intro hab
    rcases Nat.lt_trichotomy i j with hij | rfl | hji
    · exact hij
    · exact absurd hab (List.lt_irrefl _)
    · exact absurd (List.lt_trans hab (hlt hjlt hilt hji)) (List.lt_irrefl _)

/-- No place stands at two indices. -/
theorem Snapshot.index_unique (hi : (s.places loaded)[i]? = some a)
    (hj : (s.places loaded)[j]? = some a) : i = j := by
  have hij := (index_lt_iff hi hj).not.2 (List.lt_irrefl a)
  have hji := (index_lt_iff hj hi).not.2 (List.lt_irrefl a)
  omega

/-- Above every place but the first stands another one, and the element there is the parent. -/
theorem Document.exists_parent? (viewport : Viewport) {above : List Nat} {k : Nat}
    (hi : (s.places loaded)[i]? = some (above ++ [k])) :
    ∃ p : Nat, (s.places loaded)[p]? = some above ∧
      (s.layout viewport loaded).parent? i = some p := by
  obtain ⟨hlength, hboxes⟩ := s.root.boxes_at_places loaded none 0
  have hlt : i < (s.root.boxes loaded none 0).length := by
    rw [hlength]
    exact (List.getElem?_eq_some_iff.1 hi).1
  have hbox := List.getElem?_eq_getElem hlt
  obtain ⟨place, hplace, hparent⟩ := hboxes i _ hbox
  obtain rfl : above ++ [k] = place := Option.some.inj (hi.symm.trans hplace)
  rcases hparent with ⟨hnil, -⟩ | ⟨above', k', m, heq, hm, hparent⟩
  · simp at hnil
  · obtain ⟨rfl, -⟩ := List.append_inj' heq rfl
    rw [Nat.zero_add] at hparent
    exact ⟨m, hm, Option.bind_eq_some_iff.2 ⟨_, hbox, hparent⟩⟩

/-- The parent of an element is the one above its place. -/
theorem Document.parent?_layout_eq_some_iff {p : Nat} :
    (s.layout viewport loaded).parent? i = some p ↔
      ∃ above k, (s.places loaded)[i]? = some (above ++ [k]) ∧
        (s.places loaded)[p]? = some above := by
  constructor
  · intro hp
    obtain ⟨box, hbox, hp⟩ := Option.bind_eq_some_iff.1 hp
    obtain ⟨place, hplace, ⟨-, hnone⟩ | ⟨above, k, m, rfl, hm, hparent⟩⟩ :=
      (s.root.boxes_at_places loaded none 0).2 i box hbox
    · rw [hp] at hnone
      cases hnone
    · rw [hp, Nat.zero_add] at hparent
      cases hparent
      exact ⟨above, k, hplace, hm⟩
  · rintro ⟨above, k, hi, hp⟩
    obtain ⟨m, hm, hparent⟩ := exists_parent? viewport hi
    rw [hparent, Snapshot.index_unique hm hp]

namespace Document

theorem mem_children_iff {d : Document} {p : Nat} : j ∈ d.children p ↔ d.parent? j = some p := by
  rw [children, List.mem_filter, List.mem_range, beq_iff_eq, and_iff_right_iff_imp]
  intro hp
  obtain ⟨box, hbox, -⟩ := Option.bind_eq_some_iff.1 hp
  exact (List.getElem?_eq_some_iff.1 hbox).1

/-- What is inside an element stands after it. -/
theorem lt_concat (above : List Nat) (k : Nat) : above < above ++ [k] := by
  induction above with
  | nil => exact List.nil_lt_cons k []
  | cons x above ih => exact List.cons_lt_cons_iff.2 (.inr ⟨rfl, ih⟩)

/-- Siblings stand in the order of their positions. -/
theorem concat_lt_concat_iff (parent : List Nat) (m k : Nat) :
    parent ++ [m] < parent ++ [k] ↔ m < k := by
  induction parent with
  | nil => simp [List.cons_lt_cons_iff]
  | cons x parent ih => simpa [List.cons_lt_cons_iff] using ih

/-- The first element of a descending list is its greatest. -/
theorem mem_take_one_iff {l : List Nat} (hl : l.Pairwise (· > ·)) :
    j ∈ l.take 1 ↔ j ∈ l ∧ ∀ j' ∈ l, j' ≤ j := by
  cases hl with
  | nil => simp
  | @cons first rest hfirst _ =>
    rw [List.take_succ_cons, List.take_zero, List.mem_singleton]
    constructor
    · rintro rfl
      refine ⟨List.mem_cons_self, fun j' hj' => ?_⟩
      rcases List.mem_cons.1 hj' with rfl | hj'
      · exact Nat.le_refl _
      · exact Nat.le_of_lt (hfirst j' hj')
    · rintro ⟨hj, hgreatest⟩
      rcases List.mem_cons.1 hj with rfl | hj
      · rfl
      · have hle := hgreatest first List.mem_cons_self
        exact absurd (hfirst j hj) (Nat.not_lt.2 hle)

/-- The siblings before an element have a smaller last position. -/
theorem mem_siblingsBefore_iff :
    j ∈ (s.layout viewport loaded).siblingsBefore i ↔
      ∃ parent m k, (s.places loaded)[j]? = some (parent ++ [m]) ∧
        (s.places loaded)[i]? = some (parent ++ [k]) ∧ m < k := by
  rw [siblingsBefore, List.mem_reverse, List.mem_filter, decide_eq_true_eq, siblings]
  constructor
  · rintro ⟨hj, hlt⟩
    split at hj
    · rw [List.mem_singleton] at hj
      omega
    · next p hp =>
      obtain ⟨above, k, hi, hp⟩ := parent?_layout_eq_some_iff.1 hp
      obtain ⟨above', m, hj, hp'⟩ := parent?_layout_eq_some_iff.1 (mem_children_iff.1 hj)
      obtain rfl : above = above' := Option.some.inj (hp.symm.trans hp')
      exact ⟨above, m, k, hj, hi, (concat_lt_concat_iff _ _ _).1 ((Snapshot.index_lt_iff hj hi).1 hlt)⟩
  · rintro ⟨parent, m, k, hj, hi, hlt⟩
    obtain ⟨p, hp, hparent⟩ := exists_parent? viewport hi
    rw [hparent]
    refine ⟨mem_children_iff.2 (parent?_layout_eq_some_iff.2 ⟨parent, m, hj, hp⟩), ?_⟩
    exact (Snapshot.index_lt_iff hj hi).2 ((concat_lt_concat_iff _ _ _).2 hlt)

/-- The siblings before an element stand in descending order. -/
theorem pairwise_gt_siblingsBefore (d : Document) (i : Nat) :
    (d.siblingsBefore i).Pairwise (· > ·) := by
  rw [siblingsBefore, List.pairwise_reverse, siblings]
  refine List.Pairwise.filter _ ?_
  split
  · exact List.pairwise_singleton _ _
  · exact List.pairwise_lt_range.filter _

/-- The ancestors of an element have a shorter place that its own place begins with. -/
theorem mem_ancestors_iff :
    j ∈ (s.layout viewport loaded).ancestors i ↔
      ∃ a b, (s.places loaded)[j]? = some a ∧ (s.places loaded)[i]? = some b ∧ a ≠ b ∧ a <+: b := by
  induction i using Nat.strongRecOn with
  | ind i ih =>
    rw [ancestors]
    split
    · next hnone =>
      refine iff_of_false List.not_mem_nil ?_
      rintro ⟨a, b, hj, hi, hne, rest, rfl⟩
      -- a place with a shorter one before it has a parent
      rcases List.eq_nil_or_concat rest with rfl | ⟨init, k, rfl⟩
      · exact hne (List.append_nil a).symm
      · rw [List.concat_eq_append, ← List.append_assoc] at hi
        obtain ⟨p, -, hp⟩ := exists_parent? viewport hi
        rw [hp] at hnone
        cases hnone
    · next p hp =>
      obtain ⟨above, k, hi, habove⟩ := parent?_layout_eq_some_iff.1 hp
      have hlt : p < i := (Snapshot.index_lt_iff habove hi).2 (lt_concat above k)
      rw [dif_pos hlt, List.mem_cons, ih p hlt]
      constructor
      · rintro (rfl | ⟨a, b, hj, hp, hne, hprefix⟩)
        · exact ⟨above, _, habove, hi, by simp, List.prefix_append _ _⟩
        · obtain rfl : above = b := Option.some.inj (habove.symm.trans hp)
          refine ⟨a, _, hj, hi, ?_, hprefix.trans (List.prefix_append _ _)⟩
          rintro rfl
          have hlength := hprefix.length_le
          rw [List.length_append, List.length_singleton] at hlength
          omega
      · rintro ⟨a, b, hj, hi', hne, hprefix⟩
        obtain rfl : above ++ [k] = b := Option.some.inj (hi.symm.trans hi')
        rcases List.prefix_concat_iff.1 hprefix with rfl | hprefix
        · exact absurd rfl hne
        · by_cases heq : a = above
          · subst heq
            exact .inl (Snapshot.index_unique hj habove)
          · exact .inr ⟨a, above, hj, habove, heq, hprefix⟩

/-- The elements that a combinator relates to an element are those that stand to it in the tree as
the combinator says. -/
theorem mem_related_iff {c : Combinator} :
    j ∈ (s.layout viewport loaded).related i c ↔ s.Stands loaded c j i := by
  cases c with
  | descendant => exact mem_ancestors_iff
  | child =>
    rw [related, Option.mem_toList, parent?_layout_eq_some_iff]
    constructor
    · rintro ⟨above, k, hi, hj⟩
      exact ⟨above, _, hj, hi, k, rfl⟩
    · rintro ⟨a, b, hj, hi, k, rfl⟩
      exact ⟨a, k, hi, hj⟩
  | later =>
    rw [related, mem_siblingsBefore_iff]
    constructor
    · rintro ⟨parent, m, k, hj, hi, hlt⟩
      exact ⟨_, _, hj, hi, parent, m, k, rfl, rfl, hlt⟩
    · rintro ⟨a, b, hj, hi, parent, m, k, rfl, rfl, hlt⟩
      exact ⟨parent, m, k, hj, hi, hlt⟩
  | next =>
    rw [related, mem_take_one_iff (pairwise_gt_siblingsBefore _ i), mem_siblingsBefore_iff]
    constructor
    · rintro ⟨⟨parent, m, k, hj, hi, hlt⟩, hnearest⟩
      refine ⟨_, _, hj, hi, parent, m, k, rfl, rfl, hlt, fun n hmn hnk hmem => ?_⟩
      obtain ⟨j', hj'⟩ := List.getElem?_of_mem hmem
      have hle := hnearest j' (mem_siblingsBefore_iff.2 ⟨parent, n, k, hj', hi, hnk⟩)
      have hafter := (Snapshot.index_lt_iff hj hj').2 ((concat_lt_concat_iff _ _ _).2 hmn)
      omega
    · rintro ⟨a, b, hj, hi, parent, m, k, rfl, rfl, hlt, hnone⟩
      refine ⟨⟨parent, m, k, hj, hi, hlt⟩, fun j' hj' => ?_⟩
      obtain ⟨parent', n, k', hj', hi', hnk⟩ := mem_siblingsBefore_iff.1 hj'
      obtain ⟨rfl, hk⟩ := List.append_inj' (Option.some.inj (hi.symm.trans hi')) rfl
      obtain rfl : k = k' := by simpa using hk
      have hnm : ¬ m < n := fun hmn => hnone n hmn hnk (List.mem_of_getElem? hj')
      by_contra hgt
      have hbefore := (Snapshot.index_lt_iff hj hj').1 (Nat.lt_of_not_le hgt)
      exact hnm ((concat_lt_concat_iff _ _ _).1 hbefore)

end Document

end Links

end CriticalCss
