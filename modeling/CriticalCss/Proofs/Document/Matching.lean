import CriticalCss.Proofs.Document.Places
import CriticalCss.Proofs.Selector.Steps

/-!
# What matching finds

A selector is matched from right to left, with a search among ancestors and siblings at every
combinator.  It matches an element exactly when elements can be chosen for all its compounds, the
element itself for the last one, such that neighbouring ones stand to each other in the tree as the
combinator between them says.

* `Chain` is such a choice of elements, and `chain_combined_iff` what one more compound asks for.
* `selectorMatches_iff_exists_chain` is the search in any document, by induction on the selector.
* `selectorMatches_layout_iff` is the search in the tree of a page, with the elements that a query
  returns.
-/

namespace CriticalCss

namespace Document

/-- Elements for the compounds of a selector: every compound matches its element, and the elements
on both sides of a combinator stand to each other as a relation says. -/
structure Chain (d : Document) (stands : Combinator → Nat → Nat → Prop) (s : Selector)
    (elements : Nat → Nat) : Prop where
  parts : ∀ (k : Nat) part, s.parts[k]? = some part → d.compoundMatches part (elements k) = true
  combinators : ∀ (k : Nat) c, s.combinators[k]? = some c → stands c (elements k) (elements (k + 1))

section Chain

variable {d : Document} {stands : Combinator → Nat → Nat → Prop} {elements : Nat → Nat}

theorem chain_compound_iff {part : Compound} :
    d.Chain stands (.compound part) elements ↔ d.compoundMatches part (elements 0) = true := by
  constructor
  · intro h
    exact h.parts 0 part rfl
  · intro h
    refine ⟨fun k part' hpart => ?_, fun k c hc => ?_⟩
    · cases k with
      | zero => cases hpart; exact h
      | succ k => simp [SelectorOf.parts] at hpart
    · simp [SelectorOf.combinators] at hc

/-- One more compound asks for one more element, which stands to the one before as the combinator
says. -/
theorem chain_combined_iff {left : Selector} {c : Combinator} {part : Compound} {n : Nat}
    (hn : left.combinators.length = n) :
    d.Chain stands (.combined left c part) elements ↔
      d.Chain stands left elements ∧ d.compoundMatches part (elements (n + 1)) = true ∧
        stands c (elements n) (elements (n + 1)) := by
  have hparts : left.parts.length = n + 1 := by rw [left.length_parts, hn]
  constructor
  · intro h
    refine ⟨⟨fun k part' hk => h.parts k part' ?_, fun k c' hk => h.combinators k c' ?_⟩, ?_, ?_⟩
    · rw [SelectorOf.parts, List.getElem?_append_left (List.getElem?_eq_some_iff.1 hk).1, hk]
    · rw [SelectorOf.combinators, List.getElem?_append_left (List.getElem?_eq_some_iff.1 hk).1, hk]
    · exact h.parts (n + 1) part (by simp [SelectorOf.parts, hparts])
    · exact h.combinators n c (by simp [SelectorOf.combinators, hn])
  · rintro ⟨hleft, hpart, hstands⟩
    refine ⟨fun k part' hk => ?_, fun k c' hk => ?_⟩
    · rw [SelectorOf.parts, List.getElem?_append, hparts] at hk
      split at hk
      · exact hleft.parts k part' hk
      · next hlt =>
        obtain ⟨hle, rfl⟩ : k - (n + 1) = 0 ∧ part = part' := by
          simpa [List.getElem?_singleton] using hk
        obtain rfl : k = n + 1 := by omega
        exact hpart
    · rw [SelectorOf.combinators, List.getElem?_append, hn] at hk
      split at hk
      · exact hleft.combinators k c' hk
      · next hlt =>
        obtain ⟨hle, rfl⟩ : k - n = 0 ∧ c = c' := by
          simpa [List.getElem?_singleton] using hk
        obtain rfl : k = n := by omega
        exact hstands

/-- Only the elements for the compounds matter. -/
theorem Chain.congr {s : Selector} {elements' : Nat → Nat} (h : d.Chain stands s elements)
    (hsame : ∀ k ≤ s.combinators.length, elements k = elements' k) :
    d.Chain stands s elements' where
  parts k part hk := by
    have hlt := (List.getElem?_eq_some_iff.1 hk).1
    rw [s.length_parts] at hlt
    rw [← hsame k (Nat.le_of_lt_succ hlt)]
    exact h.parts k part hk
  combinators k c hk := by
    have hlt := (List.getElem?_eq_some_iff.1 hk).1
    rw [← hsame k (Nat.le_of_lt hlt), ← hsame (k + 1) hlt]
    exact h.combinators k c hk

/-- A selector matches an element when there are elements for its compounds, this element for the
last one.  The induction follows the search from right to left: the compounds to the left are matched
with the element that was found last. -/
theorem selectorMatches_iff_exists_chain
    (hrelated : ∀ i c j, j ∈ d.related i c ↔ stands c j i) (s : Selector) (i : Nat) :
    d.selectorMatches s i = true ↔
      ∃ elements, elements s.combinators.length = i ∧ d.Chain stands s elements := by
  induction s generalizing i with
  | compound part =>
    rw [selectorMatches]
    constructor
    · intro h
      exact ⟨fun _ => i, rfl, chain_compound_iff.2 h⟩
    · rintro ⟨elements, rfl, h⟩
      exact chain_compound_iff.1 h
  | combined left c part ih =>
    have hlength : (SelectorOf.combined left c part).combinators.length =
        left.combinators.length + 1 := by simp [SelectorOf.combinators]
    rw [selectorMatches, Bool.and_eq_true, List.any_eq_true, hlength]
    constructor
    · rintro ⟨hpart, j, hj, hleft⟩
      obtain ⟨elements, hlast, hchain⟩ := (ih j).1 hleft
      let extended : Nat → Nat := fun k => if k ≤ left.combinators.length then elements k else i
      have hext : extended (left.combinators.length + 1) = i := if_neg (Nat.not_succ_le_self _)
      have hbefore : extended left.combinators.length = j := (if_pos (Nat.le_refl _)).trans hlast
      refine ⟨extended, hext, (chain_combined_iff rfl).2 ⟨?_, ?_, ?_⟩⟩
      · exact hchain.congr fun k hk => (if_pos hk).symm
      · rw [hext]
        exact hpart
      · rw [hext, hbefore]
        exact (hrelated i c j).1 hj
    · rintro ⟨elements, rfl, hchain⟩
      obtain ⟨hleft, hpart, hstands⟩ := (chain_combined_iff rfl).1 hchain
      exact ⟨hpart, _, (hrelated _ c _).2 hstands, (ih _).2 ⟨elements, rfl, hleft⟩⟩

end Chain

/-! ## Queries -/

theorem someMatch_eq_any (d : Document) (ss : List Selector) (i : Nat) :
    d.someMatch ss i = ss.any (d.selectorMatches · i) := by
  induction ss with
  | nil => rfl
  | cons s ss ih => rw [someMatch, ih, List.any_cons]

/-- Only elements of the document are matched. -/
theorem lt_of_compoundMatches {d : Document} {part : Compound} {i : Nat}
    (h : d.compoundMatches part i = true) : i < d.boxes.length := by
  obtain ⟨type, id, classes, attributes, pseudoClasses, pseudoElement⟩ := part
  rw [compoundMatches] at h
  split at h
  · cases h
  · next b hb =>
    exact (List.getElem?_eq_some_iff.1 hb).1

theorem lt_of_selectorMatches {d : Document} {s : Selector} {i : Nat}
    (h : d.selectorMatches s i = true) : i < d.boxes.length := by
  cases s with
  | compound part =>
    rw [selectorMatches] at h
    exact lt_of_compoundMatches h
  | combined left c part =>
    rw [selectorMatches, Bool.and_eq_true] at h
    exact lt_of_compoundMatches h.1

theorem mem_select_iff {d : Document} {ss : List Selector} {i : Nat} :
    i ∈ d.select ss ↔ ∃ s ∈ ss, d.selectorMatches s i = true := by
  rw [select, List.mem_filter, List.mem_range, someMatch_eq_any, List.any_eq_true,
    and_iff_right_iff_imp]
  rintro ⟨s, _, hs⟩
  exact lt_of_selectorMatches hs

/-- In the document of a page, a selector matches an element when there are elements for its
compounds that stand in the tree as the combinators say: a proper ancestor, the parent, the sibling
right before, or any sibling before.  A query returns the elements that some selector of the list
matches, in document order and none twice. -/
theorem selectorMatches_layout_iff (page : Snapshot) (viewport : Viewport) (loaded : Bool) :
    (∀ (s : Selector) (i : Nat), (page.layout viewport loaded).selectorMatches s i = true ↔
        ∃ elements, elements s.combinators.length = i ∧
          (page.layout viewport loaded).Chain (page.Stands loaded) s elements) ∧
      ∀ (text : String) (ss : List Selector), Selector.readList text = .ok ss →
        ∃ nodes, (page.layout viewport loaded).query text = .ok nodes ∧ nodes.Pairwise (· < ·) ∧
          ∀ i, i ∈ nodes ↔ ∃ s ∈ ss, (page.layout viewport loaded).selectorMatches s i = true := by
  constructor
  · exact selectorMatches_iff_exists_chain fun i c j => mem_related_iff
  · intro text ss hread
    refine ⟨(page.layout viewport loaded).select ss, ?_, ?_, fun i => mem_select_iff⟩
    · rw [query, hread]
      rfl
    · exact List.pairwise_lt_range.filter _

/-- A paragraph in two nested divisions, and one after a late paragraph next to the outer of them. -/
def nestedPage : Snapshot :=
  let paragraph := Element.named "p"
  let inner := (Element.named "div").withChildren [paragraph]
  let outer := (Element.named "div").withChildren [inner]
  .ofRoot ((Element.named "section").withChildren [outer, { paragraph with late := true }, paragraph])

/-- The compound that tests a name. -/
def nameTest (name : String) : Compound := ⟨some (.name name), none, [], [], [], none⟩

/-- The outer division has to be tried for the paragraph inside, and the late paragraph is passed
over for the one outside. -/
theorem selectorMatches_layout_iff_nestedPage :
    Selector.readList "section>div p,div+p" = .ok
        [.combined (.combined (.compound (nameTest "section")) .child (nameTest "div")) .descendant
            (nameTest "p"),
          .combined (.compound (nameTest "div")) .next (nameTest "p")] ∧
      ∃ nodes, (nestedPage.layout ⟨800, 600⟩ false).query "section>div p,div+p" = .ok nodes ∧
        nodes.Pairwise (· < ·) ∧ 3 ∈ nodes ∧ 4 ∈ nodes := by
  have hread : Selector.readList "section>div p,div+p" = .ok
      [.combined (.combined (.compound (nameTest "section")) .child (nameTest "div")) .descendant
          (nameTest "p"),
        .combined (.compound (nameTest "div")) .next (nameTest "p")] :=
    Selector.readList_of_tokens [.ident "section", .delim '>', .ident "div", .space " ", .ident "p",
      .comma, .ident "div", .delim '+', .ident "p"] (by decide +kernel) rfl
  obtain ⟨hmatches, hquery⟩ := selectorMatches_layout_iff nestedPage ⟨800, 600⟩ false
  obtain ⟨nodes, hnodes, hsorted, hmem⟩ := hquery _ _ hread
  refine ⟨hread, nodes, hnodes, hsorted, ?_, ?_⟩
  · refine (hmem 3).2 ⟨_, List.mem_cons_self, (hmatches _ 3).2 ⟨fun k => [0, 1, 3].getD k 0, rfl, ?_⟩⟩
    refine (chain_combined_iff rfl).2 ⟨(chain_combined_iff rfl).2 ⟨chain_compound_iff.2 ?_, ?_, ?_⟩,
      ?_, ?_⟩
    · decide +kernel
    · decide +kernel
    · exact ⟨[], [0], rfl, rfl, 0, rfl⟩
    · decide +kernel
    · exact ⟨[0], [0, 0, 0], rfl, rfl, by simp, [0, 0], rfl⟩
  · refine (hmem 4).2 ⟨_, List.mem_cons_of_mem _ List.mem_cons_self,
      (hmatches _ 4).2 ⟨fun k => [1, 4].getD k 0, rfl, ?_⟩⟩
    refine (chain_combined_iff rfl).2 ⟨chain_compound_iff.2 ?_, ?_, ?_⟩
    · decide +kernel
    · decide +kernel
    · refine ⟨[0], [2], rfl, rfl, [], 0, 2, rfl, rfl, by decide, fun m h0 h2 hm => ?_⟩
      obtain rfl : m = 1 := by omega
      exact absurd hm (by decide +kernel)

end Document

end CriticalCss
