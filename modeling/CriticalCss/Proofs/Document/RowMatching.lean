import CriticalCss.Document.RowMatch
import CriticalCss.Proofs.Selector.RowCounts

/-!
# Matching finds its way through a row

Matching goes through a row from right to left, with a search at every combinator.  Where there is one
combinator between any two neighbouring compounds, the search gets to an answer on every path, whatever
the element, and the answer is the one for the selector.

* `isSome_rowMatches?` says that there is an answer.
* `rowMatches?_combine` is one step of the walk, and `rowMatches?_rowOf` the whole of it.
* `Row.lookups_inside` puts this together with what is read and what is built.
-/

namespace CriticalCss

namespace Document

variable {d : Document}

/-! ## There is an answer -/

theorem isSome_anyM {α : Type} {f : α → Option Bool} {l : List α} (h : ∀ a ∈ l, (f a).isSome) :
    (l.anyM f).isSome := by
  induction l with
  | nil => rfl
  | cons a l ih =>
    obtain ⟨ha, hl⟩ := List.forall_mem_cons.1 h
    obtain ⟨b, hb⟩ := Option.isSome_iff_exists.1 ha
    rw [List.anyM, hb]
    cases b with
    | true => rfl
    | false => exact ih hl

theorem rowTests_eq_map (ps : List RowCompound) : d.rowTests ps = ps.map d.rowCompoundMatches? := by
  induction ps with
  | nil => rfl
  | cons p ps ih => rw [rowTests, ih, List.map_cons]

/-- The walk goes down by one place with one combinator at a time. -/
theorem isSome_walk? {tests : List (Nat → Option Bool)} {combinators : List Combinator}
    (htests : ∀ t ∈ tests, ∀ i, (t i).isSome) {k : Nat} (hk : k < tests.length)
    (hcombinators : k ≤ combinators.length) (i : Nat) : (d.walk? tests combinators k i).isSome := by
  induction k generalizing i with
  | zero =>
    rw [walk?, List.getElem?_eq_getElem hk]
    exact htests _ (List.getElem_mem hk) i
  | succ k ih =>
    obtain ⟨b, hb⟩ := Option.isSome_iff_exists.1 (htests _ (List.getElem_mem hk) i)
    have hlt : k < combinators.length := by omega
    have hanswer : (d.walk? tests combinators (k + 1) i) =
        if b then (d.related i combinators[k]).anyM (d.walk? tests combinators k) else some false := by
      rw [walk?, List.getElem?_eq_getElem hk, List.getElem?_eq_getElem hlt]
      show (do if ← tests[k + 1] i then _ else _) = _
      rw [hb]
      rfl
    rw [hanswer]
    cases b with
    | false => rfl
    | true => exact isSome_anyM fun j _ => ih (by omega) (by omega) j

theorem isSome_someRowMatches? {rows : List Row} {i : Nat}
    (h : ∀ r ∈ rows, (d.rowMatches? r i).isSome) : (d.someRowMatches? rows i).isSome := by
  induction rows with
  | nil => rfl
  | cons r rows ih =>
    obtain ⟨hr, hrows⟩ := List.forall_mem_cons.1 h
    obtain ⟨b, hb⟩ := Option.isSome_iff_exists.1 hr
    rw [someRowMatches?, hb]
    cases b with
    | true => rfl
    | false => exact ih hrows

theorem isSome_allRowPseudoMatch? {qs : List RowPseudoClass} {i : Nat} {b : Box}
    (h : ∀ q ∈ qs, (d.rowPseudoMatches? q i b).isSome) : (d.allRowPseudoMatch? qs i b).isSome := by
  induction qs with
  | nil => rfl
  | cons q qs ih =>
    obtain ⟨hq, hqs⟩ := List.forall_mem_cons.1 h
    obtain ⟨x, hx⟩ := Option.isSome_iff_exists.1 hq
    rw [allRowPseudoMatch?, hx]
    cases x with
    | false => rfl
    | true => exact ih hqs

theorem isSome_rowCompoundMatches? {p : RowCompound} {i : Nat}
    (h : ∀ q ∈ p.pseudoClasses, ∀ b, (d.rowPseudoMatches? q i b).isSome) :
    (d.rowCompoundMatches? p i).isSome := by
  rw [rowCompoundMatches?]
  split
  · rfl
  · split
    · exact isSome_allRowPseudoMatch? fun q hq => h q hq _
    · rfl

/-- A row that fits at every depth is matched with any element: nothing is looked up outside of it. -/
theorem isSome_rowMatches? {r : Row} (h : ∀ t, Row.IsWithin [r] t → t.IsCounted) (i : Nat) :
    (d.rowMatches? r i).isSome := by
  refine Row.counted_induction (motive := fun r => ∀ i, (d.rowMatches? r i).isSome)
    (fun r hr ih i => ?_) h i
  have hparts : ∀ p ∈ r.parts, ∀ j, (d.rowCompoundMatches? p j).isSome := by
    intro p hp j
    refine isSome_rowCompoundMatches? fun q hq b => ?_
    cases q with
    | condition c => rfl
    | nth counting positions => rfl
    | not inner =>
      rw [rowPseudoMatches?, Option.isSome_map]
      exact isSome_someRowMatches? fun t ht => ih p hp _ hq inner (.inl rfl) t ht j
    | is inner => exact isSome_someRowMatches? fun t ht => ih p hp _ hq inner (.inr rfl) t ht j
  have hcount : r.combinators.length = r.parts.length - 1 := hr
  rw [rowMatches?]
  split
  · rfl
  · next hsome =>
    have hlength : 0 < r.parts.length :=
      List.length_pos_iff.2 fun hnil => hsome (List.isEmpty_iff.2 hnil)
    refine isSome_walk? (fun t ht j => ?_) ?_ (by omega) i
    · rw [rowTests_eq_map] at ht
      obtain ⟨p, hp, rfl⟩ := List.mem_map.1 ht
      exact hparts p hp j
    · rw [rowTests_eq_map, List.length_map]
      omega

/-! ## The answer is the one for the selector -/

/-- What stands to the right of a place does not matter for the walk from there. -/
theorem walk?_append {tests : List (Nat → Option Bool)} {combinators : List Combinator}
    (t : Nat → Option Bool) (c : Combinator) {k : Nat} (hk : k < tests.length)
    (hcombinators : k ≤ combinators.length) (i : Nat) :
    d.walk? (tests ++ [t]) (combinators ++ [c]) k i = d.walk? tests combinators k i := by
  induction k generalizing i with
  | zero => rw [walk?, walk?, List.getElem?_append_left hk]
  | succ k ih =>
    have hrest : d.walk? (tests ++ [t]) (combinators ++ [c]) k = d.walk? tests combinators k :=
      funext fun j => ih (by omega) (by omega) j
    rw [walk?, walk?, List.getElem?_append_left hk, List.getElem?_append_left (by omega), hrest]

/-- A compound that is added to a row is matched first, and then the row with the elements in the
relation of the combinator. -/
theorem rowMatches?_combine {r : Row} (c : Combinator) (p : RowCompound)
    (hcount : r.combinators.length + 1 = r.parts.length) (i : Nat) :
    d.rowMatches? (r.combine c p) i = (do
      if ← d.rowCompoundMatches? p i then (d.related i c).anyM (d.rowMatches? r)
      else return false) := by
  obtain ⟨parts, combinators⟩ := r
  replace hcount : combinators.length + 1 = parts.length := hcount
  have hparts : parts ≠ [] := List.ne_nil_of_length_eq_add_one hcount.symm
  have htests : (d.rowTests parts).length = combinators.length + 1 := by
    rw [rowTests_eq_map, List.length_map, hcount]
  have hrest : d.walk? (d.rowTests parts ++ [d.rowCompoundMatches? p]) (combinators ++ [c])
      combinators.length = d.rowMatches? ⟨parts, combinators⟩ := by
    funext j
    rw [walk?_append _ _ (by omega) (Nat.le_refl _), rowMatches?,
      List.isEmpty_eq_false_iff.2 hparts, ← hcount]
    rfl
  have hconcat : d.rowTests (parts ++ [p]) = d.rowTests parts ++ [d.rowCompoundMatches? p] := by
    rw [rowTests_eq_map, rowTests_eq_map, List.map_append, List.map_singleton]
  have hplace : (parts ++ [p]).length - 1 = combinators.length + 1 := by simp [hcount]
  have hlast : (d.rowTests parts ++ [d.rowCompoundMatches? p])[combinators.length + 1]? =
      some (d.rowCompoundMatches? p) := by
    rw [← htests, List.getElem?_concat_length]
  rw [RowOf.combine_eq hparts, rowMatches?, if_neg (by simp), hplace, hconcat, walk?, hrest, hlast,
    List.getElem?_concat_length]
  rfl

mutual

/-- Rows match the elements that the selectors they come from match, by induction on the selector. -/
theorem rowMatches?_rowOf (s : Selector) (i : Nat) :
    d.rowMatches? (rowOf s) i = some (d.selectorMatches s i) := by
  match s with
  | .compound p => exact rowCompoundMatches?_rowPartOf p i
  | .combined left c p =>
    have hleft : d.rowMatches? (rowOf left) = fun j => some (d.selectorMatches left j) :=
      funext fun j => rowMatches?_rowOf left j
    have hsearch : ((d.related i c).anyM fun j => some (d.selectorMatches left j)) =
        some ((d.related i c).any (d.selectorMatches left)) := List.anyM_pure
    rw [rowOf, rowMatches?_combine c _ (length_rowOf left), rowCompoundMatches?_rowPartOf p i, hleft,
      hsearch, selectorMatches]
    cases d.compoundMatches p i <;> rfl

theorem rowCompoundMatches?_rowPartOf (p : Compound) (i : Nat) :
    d.rowCompoundMatches? (rowPartOf p) i = some (d.compoundMatches p i) := by
  match p with
  | ⟨type, id, classes, attributes, qs, pseudoElement⟩ =>
    rw [rowPartOf, rowCompoundMatches?, compoundMatches]
    cases d.box? i with
    | none => rfl
    | some b =>
      dsimp only
      rw [allRowPseudoMatch?_rowPseudoClassesOf qs i b]
      split
      · next htests =>
        rw [htests, Bool.true_and]
      · next htests =>
        rw [Bool.eq_false_iff.2 htests, Bool.false_and]

theorem allRowPseudoMatch?_rowPseudoClassesOf (qs : List PseudoClass) (i : Nat) (b : Box) :
    d.allRowPseudoMatch? (rowPseudoClassesOf qs) i b = some (d.allPseudoMatch qs i b) := by
  match qs with
  | [] => rfl
  | q :: qs =>
    rw [rowPseudoClassesOf, allRowPseudoMatch?, rowPseudoMatches?_toRows q i b,
      allRowPseudoMatch?_rowPseudoClassesOf qs i b, allPseudoMatch]
    cases d.pseudoMatches q i b <;> rfl

theorem rowPseudoMatches?_toRows (q : PseudoClass) (i : Nat) (b : Box) :
    d.rowPseudoMatches? q.toRows i b = some (d.pseudoMatches q i b) := by
  match q with
  | .condition c => rfl
  | .nth counting positions => rfl
  | .not ss =>
    rw [PseudoClass.toRows, rowPseudoMatches?, someRowMatches?_rowsOf ss i]
    rfl
  | .is ss =>
    rw [PseudoClass.toRows, rowPseudoMatches?, someRowMatches?_rowsOf ss i]
    rfl

theorem someRowMatches?_rowsOf (ss : List Selector) (i : Nat) :
    d.someRowMatches? (rowsOf ss) i = some (d.someMatch ss i) := by
  match ss with
  | [] => rfl
  | s :: ss =>
    rw [rowsOf, someRowMatches?, rowMatches?_rowOf s i, someRowMatches?_rowsOf ss i, someMatch]
    cases d.selectorMatches s i <;> rfl

end

end Document

/-! ## Rows that are read or built -/

namespace Row

/-- The row can be written, and it can be matched with every element of every document: a place
outside of it is never looked up. -/
structure NeverOutside (r : Row) : Prop where
  text : r.text?.isSome
  matching : ∀ (d : Document) (i : Nat), (d.rowMatches? r i).isSome

/-- A row of a list that is read from some text, or of a list inside of it, at any depth. -/
def IsRead (r : Row) : Prop :=
  ∃ text rows, readList text = .ok rows ∧ IsWithin rows r

theorem IsWithin.trans {rows : List Row} {r t : Row} (hr : IsWithin rows r) (ht : IsWithin [r] t) :
    IsWithin rows t := by
  induction hr with
  | member mem => exact ht.mono fun u hu => by rwa [List.mem_singleton.1 hu]
  | inside mem part pseudoClass holds _ ih => exact .inside mem part pseudoClass holds (ih ht)

theorem IsRead.wellFormed {r : Row} (h : r.IsRead) : r.WellFormed := by
  obtain ⟨text, rows, hread, hwithin⟩ := h
  exact wellFormed_of_readList hread hwithin

theorem neverOutside_of_isCounted {r : Row} (h : ∀ t, IsWithin [r] t → t.IsCounted) :
    r.NeverOutside :=
  ⟨isSome_text? h, fun _ i => Document.isSome_rowMatches? h i⟩

/-- Every row that is read, at every depth, has compounds, none of them empty, and one combinator
fewer.  Every row that is built has as many combinators, and none without compounds.  So rows that are
read, and rows with nothing in them but what is read or built, are written and matched without looking
up a place outside of them.  Reading gives the rows of the selectors, and they are written and matched
as these are. -/
theorem lookups_inside :
    (∀ r : Row, r.IsRead → r.WellFormed ∧ r.NeverOutside) ∧
      (∀ r : Row, r.IsBuilt → r.combinators.length = r.parts.length - 1) ∧
      (∀ r : Row, (∀ t, IsWithin [r] t → t.IsRead ∨ t.IsBuilt) → r.NeverOutside) ∧
      (∀ text, readList text = (Selector.readList text).map rowsOf) ∧
      ∀ s : Selector, (rowOf s).text? = some s.text ∧
        ∀ (d : Document) (i : Nat), d.rowMatches? (rowOf s) i = some (d.selectorMatches s i) := by
  refine ⟨fun r hr => ⟨hr.wellFormed, neverOutside_of_isCounted fun t ht => ?_⟩,
    fun r hr => RowOf.isCounted_of_isBuilt hr, fun r hr => neverOutside_of_isCounted fun t ht => ?_,
    readList_eq, fun s => ⟨rowText?_rowOf s, fun d i => Document.rowMatches?_rowOf s i⟩⟩
  · obtain ⟨text, rows, hread, hwithin⟩ := hr
    have htread : t.IsRead := ⟨text, rows, hread, hwithin.trans ht⟩
    exact htread.wellFormed.isCounted
  · rcases hr t ht with hread | hbuilt
    · exact hread.wellFormed.isCounted
    · exact RowOf.isCounted_of_isBuilt hbuilt

/-- An item that is none of two others. -/
def otherItem : RowCompound :=
  ⟨some (.name "li"), none, [], [], [.not [⟨[⟨none, none, ["x"], [], [], none⟩], []⟩,
    ⟨[⟨some (.name "p"), none, [], [], [], none⟩, ⟨some (.name "a"), none, [], [], [], none⟩],
      [.later]⟩]], none⟩

/-- Such an item right inside of another one. -/
def nestedItems : Row :=
  (RowOf.empty.child otherItem).child otherItem

theorem lookups_inside_otherItem :
    readList "li:Not(.x , p~a) *" = .ok [⟨[otherItem, ⟨some .universal, none, [], [], [], none⟩],
        [.descendant]⟩] ∧
      (∀ q ∈ otherItem.pseudoClasses, ∀ inner, q.Holds inner → ∀ r, IsWithin inner r →
        r.WellFormed ∧ r.NeverOutside) ∧
      nestedItems.combinators.length = nestedItems.parts.length - 1 ∧ nestedItems.NeverOutside := by
  have htokens : Token.scanAll "li:Not(.x , p~a) *".toList =
      [.ident "li", .colon, .function "Not", .delim '.', .ident "x", .space " ", .comma, .space " ",
        .ident "p", .delim '~', .ident "a", .closing .round, .space " ", .delim '*'] := by
    decide +kernel
  have hread : readList "li:Not(.x , p~a) *" =
      .ok [⟨[otherItem, ⟨some .universal, none, [], [], [], none⟩], [.descendant]⟩] := by
    rw [readList_eq, Selector.readList_of_tokens _ htokens rfl]
    rfl
  have hinner : ∀ q ∈ otherItem.pseudoClasses, ∀ inner, q.Holds inner → ∀ r, IsWithin inner r →
      r.IsRead := fun q hq inner hholds r hr =>
    ⟨_, _, hread, .inside List.mem_cons_self List.mem_cons_self hq hholds hr⟩
  have hbuilt : nestedItems.IsBuilt :=
    (RowOf.IsBuilt.empty.child otherItem).child otherItem
  refine ⟨hread, fun q hq inner hholds r hr => lookups_inside.1 r (hinner q hq inner hholds r hr),
    lookups_inside.2.1 _ hbuilt, lookups_inside.2.2.1 _ fun t ht => ?_⟩
  cases ht with
  | member mem =>
    rw [List.mem_singleton.1 mem]
    exact .inr hbuilt
  | inside mem part pseudoClass holds within =>
    rw [List.mem_singleton.1 mem] at part
    obtain rfl : _ = otherItem := List.eq_of_mem_replicate (n := 2) part
    exact .inl (hinner _ pseudoClass _ holds _ within)

end Row

end CriticalCss
