import CriticalCss.Proofs.Selector.Steps
import CriticalCss.Proofs.Token.Forming
import Mathlib.Data.List.TakeWhile

/-!
# White space at the ends of a selector list

White space before and after a list of selectors says nothing.  White space after it may stand in a
block: at the end of a text every block is closed.

* `Component.Spaced` relates components to the same ones without white space at the end, and
  `Nesting.OnTop` a component tree to the same one with components before it.
* `readSelectors_of_spaced`: what is read is also read without the white space at the end.
* `readSelectors_of_framed` says so for both ends of a list of tokens.
-/

namespace CriticalCss

/-! ## Components -/

namespace Component

/-- The first components are the second ones, with white space after them; it may stand in the blocks
that come last. -/
inductive Spaced : List Component → List Component → Prop
  | spaces {cs : List Component} (spaces : ∀ c ∈ cs, c.isSpace = true) : Spaced cs []
  | cons {cs ds : List Component} (c : Component) (rest : Spaced cs ds) : Spaced (c :: cs) (c :: ds)
  | block {cs ds : List Component} (opening : Token) (content : Spaced cs ds) :
    Spaced [.block opening cs] [.block opening ds]

namespace Spaced

variable {cs ds : List Component}

theorem refl (cs : List Component) : Spaced cs cs := by
  induction cs with
  | nil => exact .spaces (List.forall_mem_nil _)
  | cons c cs ih => exact .cons c ih

theorem append_left (es : List Component) (h : Spaced cs ds) : Spaced (es ++ cs) (es ++ ds) := by
  induction es with
  | nil => exact h
  | cons c es ih => exact .cons c ih

theorem eq_nil (h : Spaced [] ds) : ds = [] := by
  cases h
  rfl

theorem of_token {t : Token} (h : Spaced (.token t :: cs) ds) (ht : isSpace (.token t) = false) :
    ∃ es, ds = .token t :: es ∧ Spaced cs es := by
  cases h with
  | spaces spaces => exact absurd (spaces _ List.mem_cons_self) (Bool.eq_false_iff.1 ht)
  | cons _ rest => exact ⟨_, rfl, rest⟩

theorem of_block {opening : Token} {content : List Component}
    (h : Spaced (.block opening content :: cs) ds) :
    ∃ content' es, ds = .block opening content' :: es ∧ Spaced content content' ∧ Spaced cs es := by
  cases h with
  | spaces spaces => cases spaces _ List.mem_cons_self
  | cons _ rest => exact ⟨_, _, rfl, refl _, rest⟩
  | block _ inside => exact ⟨_, _, rfl, inside, refl _⟩

theorem dropSpaces (h : Spaced cs ds) :
    Spaced (Component.dropSpaces cs) (Component.dropSpaces ds) := by
  induction h with
  | spaces spaces =>
    have hnil : Component.dropSpaces _ = [] := List.dropWhile_eq_nil_iff.2 spaces
    rw [hnil]
    exact refl _
  | cons c rest ih =>
    unfold Component.dropSpaces at ih ⊢
    rw [List.dropWhile_cons, List.dropWhile_cons]
    split
    · exact ih
    · exact .cons c rest
  | block opening content => exact .block opening content

/-- What the components begin with, white space apart. -/
theorem cases_dropSpaces (h : Spaced cs ds) :
    (Component.dropSpaces cs = [] ∧ Component.dropSpaces ds = []) ∨
      (∃ t es fs, Component.dropSpaces cs = .token t :: es ∧
        Component.dropSpaces ds = .token t :: fs ∧ Spaced es fs) ∨
      ∃ opening content es content' fs, Component.dropSpaces cs = .block opening content :: es ∧
        Component.dropSpaces ds = .block opening content' :: fs := by
  have hspaced := h.dropSpaces
  cases hcs : Component.dropSpaces cs with
  | nil =>
    rw [hcs] at hspaced
    exact .inl ⟨rfl, hspaced.eq_nil⟩
  | cons c es =>
    have hhead : c.isSpace = false := by
      have hnot := List.head?_dropWhile_not (p := Component.isSpace) cs
      rw [Component.dropSpaces] at hcs
      rw [hcs] at hnot
      simpa using hnot
    rw [hcs] at hspaced
    cases c with
    | token t =>
      obtain ⟨fs, hds, hrest⟩ := hspaced.of_token hhead
      exact .inr (.inl ⟨t, es, fs, rfl, hds, hrest⟩)
    | block opening content =>
      obtain ⟨content', fs, hds, -, -⟩ := hspaced.of_block
      exact .inr (.inr ⟨opening, content, es, content', fs, rfl, hds⟩)

end Spaced

end Component

open Component (Spaced)

/-! ## Attribute tests -/

namespace AttributeTest

variable {cs ds : List Component}

theorem readFlag_of_spaced (h : Spaced cs ds) : readFlag cs = readFlag ds := by
  unfold readFlag
  obtain ⟨hcs, hds⟩ | ⟨t, es, fs, hcs, hds, hrest⟩ | ⟨_, _, _, _, _, hcs, hds⟩ :=
    h.cases_dropSpaces
  · rw [hcs, hds]
  · rw [hcs, hds]
    cases t with
    | ident flag =>
      dsimp only
      obtain ⟨hes, hfs⟩ | ⟨_, _, _, hes, hfs, -⟩ | ⟨_, _, _, _, _, hes, hfs⟩ :=
        hrest.cases_dropSpaces
      · rw [hes, hfs]
      · rw [hes, hfs]
      · rw [hes, hfs]
        rfl
    | _ => rfl
  · rw [hcs, hds]
    rfl

theorem readValue_of_spaced (name : String) (operator : AttributeOperator) (h : Spaced cs ds) :
    readValue name operator cs = readValue name operator ds := by
  unfold readValue
  obtain ⟨hcs, hds⟩ | ⟨t, es, fs, hcs, hds, hrest⟩ | ⟨_, _, _, _, _, hcs, hds⟩ :=
    h.cases_dropSpaces
  · rw [hcs, hds]
  · rw [hcs, hds]
    cases t with
    | ident value =>
      dsimp only
      rw [readFlag_of_spaced hrest]
    | string value =>
      dsimp only
      rw [readFlag_of_spaced hrest]
    | _ => rfl
  · rw [hcs, hds]
    rfl

theorem read_of_spaced (h : Spaced cs ds) : AttributeTest.read cs = AttributeTest.read ds := by
  unfold AttributeTest.read
  obtain ⟨hcs, hds⟩ | ⟨t, es, fs, hcs, hds, hrest⟩ | ⟨_, _, _, _, _, hcs, hds⟩ :=
    h.cases_dropSpaces
  · rw [hcs, hds]
  · rw [hcs, hds]
    cases t with
    | ident name =>
      dsimp only
      obtain ⟨hes, hfs⟩ | ⟨_, _, _, hes, hfs, hmore⟩ | ⟨_, _, _, _, _, hes, hfs⟩ :=
        hrest.cases_dropSpaces
      · rw [hes, hfs]
      · rw [hes, hfs]
        dsimp only
        split
        · rfl
        · exact readValue_of_spaced _ _ hmore
      · rw [hes, hfs]
        rfl
    | _ => rfl
  · rw [hcs, hds]
    rfl

end AttributeTest

/-! ## Positions -/

namespace Nth

/-- A reader reads from components what it reads when white space stands after them, and leaves
components that differ in the same way. -/
def Overlooks (f : List Component → Except NthFault (Nth × List Component)) : Prop :=
  ∀ ⦃cs ds⦄, Spaced cs ds → ∀ ⦃e rest⦄, f cs = .ok (e, rest) →
    ∃ rest', f ds = .ok (e, rest') ∧ Spaced rest rest'

/-- Nothing more is read. -/
theorem overlooks_ok (e : Nth) : Overlooks fun cs => .ok (e, cs) := by
  rintro cs ds h _ _ ⟨⟩
  exact ⟨ds, rfl, h⟩

theorem overlooks_error (fault : NthFault) : Overlooks fun _ => .error fault := by
  rintro cs ds - _ _ ⟨⟩

theorem overlooks_readUnsigned (step sign : Int) : Overlooks (readUnsigned step sign) := by
  intro cs ds h e rest hread
  unfold readUnsigned at hread ⊢
  obtain ⟨hcs, hds⟩ | ⟨t, es, fs, hcs, hds, hrest⟩ | ⟨_, _, _, _, _, hcs, hds⟩ :=
    h.cases_dropSpaces
  · rw [hcs] at hread
    cases hread
  · rw [hcs] at hread
    rw [hds]
    cases t with
    | number n =>
      dsimp only at hread ⊢
      split at hread
      · cases hread
        exact ⟨fs, rfl, hrest⟩
      · cases hread
    | _ => cases hread
  · rw [hcs] at hread
    cases hread

theorem overlooks_readOffset (step : Int) : Overlooks (readOffset step) := by
  intro cs ds h e rest hread
  unfold readOffset at hread ⊢
  obtain ⟨hcs, hds⟩ | ⟨t, es, fs, hcs, hds, hrest⟩ | ⟨_, _, _, _, _, hcs, hds⟩ :=
    h.cases_dropSpaces
  · rw [hcs] at hread
    rw [hds]
    exact overlooks_ok _ h hread
  · rw [hcs] at hread
    rw [hds]
    split at hread
    · next heq =>
      cases heq
      exact overlooks_readUnsigned _ _ hrest hread
    · next heq =>
      cases heq
      exact overlooks_readUnsigned _ _ hrest hread
    · next heq =>
      cases heq
      dsimp only
      split at hread
      · cases hread
        exact ⟨fs, rfl, hrest⟩
      · exact overlooks_ok _ h hread
    · next hplus hminus hnumber =>
      split
      · next heq =>
        cases heq
        exact absurd rfl (hplus es)
      · next heq =>
        cases heq
        exact absurd rfl (hminus es)
      · next heq =>
        cases heq
        exact absurd rfl (hnumber _ es)
      · exact overlooks_ok _ h hread
  · rw [hcs] at hread
    rw [hds]
    exact overlooks_ok _ h hread

theorem overlooks_readAfterStep (step : Int) (name whole : String) :
    Overlooks (readAfterStep step name whole) := by
  unfold readAfterStep
  split
  · exact overlooks_readOffset step
  split
  · exact overlooks_readUnsigned step (-1)
  split
  · exact overlooks_ok _
  · exact overlooks_error _

theorem overlooks_readName (name : String) : Overlooks (readName name) := by
  unfold readName
  split
  · exact overlooks_ok _
  split
  · exact overlooks_ok _
  split
  · exact overlooks_readAfterStep _ _ _
  · exact overlooks_readAfterStep _ _ _

theorem overlooks_readStart : Overlooks readStart := by
  intro cs ds h e rest hread
  unfold readStart at hread ⊢
  obtain ⟨hcs, hds⟩ | ⟨t, es, fs, hcs, hds, hrest⟩ | ⟨_, _, _, _, _, hcs, hds⟩ :=
    h.cases_dropSpaces
  · rw [hcs] at hread
    cases hread
  · rw [hcs] at hread
    rw [hds]
    dsimp only at hread ⊢
    split at hread
    · split at hread
      · cases hread
        exact ⟨fs, rfl, hrest⟩
      · cases hread
    · split at hread
      · exact overlooks_readAfterStep _ _ _ hrest hread
      · cases hread
    · exact overlooks_readName _ hrest hread
    · split at hread
      · obtain ⟨after, rfl, hafter⟩ := hrest.of_token rfl
        exact overlooks_readAfterStep _ _ _ hafter hread
      · cases hread
      · cases hread
    · cases hread
  · rw [hcs] at hread
    cases hread

theorem read_of_spaced {cs ds : List Component} {positions : Nth} (h : Spaced cs ds)
    (hread : Nth.read cs = .ok positions) : Nth.read ds = .ok positions := by
  obtain ⟨⟨e, rest⟩, hstart, hread⟩ := exists_of_bind_eq_ok hread
  obtain ⟨rest', hstart', hrest⟩ := overlooks_readStart h hstart
  rw [Nth.read, hstart']
  dsimp only [bind, Except.bind] at hread ⊢
  obtain ⟨hcs, hds⟩ | ⟨_, _, _, hcs, -, -⟩ | ⟨_, _, _, _, _, hcs, -⟩ := hrest.cases_dropSpaces
  · rw [hcs] at hread
    rw [hds]
    exact hread
  · rw [hcs] at hread
    cases hread
  · rw [hcs] at hread
    cases hread

end Nth

/-! ## Selectors -/

variable {s t : SelectorProgress} {cs ds rest : List Component} {ss : List Selector}

/-- A part of a compound is read without the white space at the end.  The selectors inside of it are
given by what holds of everything smaller. -/
theorem ReadsPart.of_spaced (h : ReadsPart s cs t rest) (hspaced : Spaced cs ds)
    (hinner : ∀ content content' ss, sizeOf content < sizeOf cs → Spaced content content' →
      readSelectors .start content = .ok ss → readSelectors .start content' = .ok ss) :
    ∃ rest', ReadsPart s ds t rest' ∧ Spaced rest rest' := by
  cases h with
  | name named =>
    obtain ⟨es, rfl, hrest⟩ := hspaced.of_token rfl
    exact ⟨es, .name named, hrest⟩
  | universal named =>
    obtain ⟨es, rfl, hrest⟩ := hspaced.of_token rfl
    exact ⟨es, .universal named, hrest⟩
  | id =>
    obtain ⟨es, rfl, hrest⟩ := hspaced.of_token rfl
    exact ⟨es, .id, hrest⟩
  | className =>
    obtain ⟨es, rfl, hname⟩ := hspaced.of_token rfl
    obtain ⟨fs, rfl, hrest⟩ := hname.of_token rfl
    exact ⟨fs, .className, hrest⟩
  | attributeTest read =>
    obtain ⟨content', es, rfl, hcontent, hrest⟩ := hspaced.of_block
    exact ⟨es, .attributeTest (AttributeTest.read_of_spaced hcontent ▸ read), hrest⟩
  | pseudoElement =>
    obtain ⟨es, rfl, hcolon⟩ := hspaced.of_token rfl
    obtain ⟨fs, rfl, hname⟩ := hcolon.of_token rfl
    obtain ⟨gs, rfl, hrest⟩ := hname.of_token rfl
    exact ⟨gs, .pseudoElement, hrest⟩
  | pseudoFunction =>
    obtain ⟨es, rfl, hcolon⟩ := hspaced.of_token rfl
    obtain ⟨fs, rfl, hname⟩ := hcolon.of_token rfl
    obtain ⟨content', gs, rfl, -, hrest⟩ := hname.of_block
    exact ⟨gs, .pseudoFunction, hrest⟩
  | named named =>
    obtain ⟨es, rfl, hname⟩ := hspaced.of_token rfl
    obtain ⟨fs, rfl, hrest⟩ := hname.of_token rfl
    exact ⟨fs, .named named, hrest⟩
  | nth counts read =>
    obtain ⟨es, rfl, hname⟩ := hspaced.of_token rfl
    obtain ⟨content', fs, rfl, hcontent, hrest⟩ := hname.of_block
    exact ⟨fs, .nth counts (Nth.read_of_spaced hcontent read), hrest⟩
  | not counts named read =>
    obtain ⟨es, rfl, hname⟩ := hspaced.of_token rfl
    obtain ⟨content', fs, rfl, hcontent, hrest⟩ := hname.of_block
    have hread := hinner _ _ _ (by simp; omega) hcontent read
    exact ⟨fs, .not counts named hread, hrest⟩
  | is counts other named read =>
    obtain ⟨es, rfl, hname⟩ := hspaced.of_token rfl
    obtain ⟨content', fs, rfl, hcontent, hrest⟩ := hname.of_block
    have hread := hinner _ _ _ (by simp; omega) hcontent read
    exact ⟨fs, .is counts other named hread, hrest⟩

/-- White space does not change where a selector may end. -/
theorem SelectorProgress.finish_space (s : SelectorProgress) : s.space.finish = s.finish := by
  unfold space
  split
  · next hspace =>
    rw [Bool.and_eq_true, Option.isNone_iff_eq_none] at hspace
    have hawaits : s.awaitsPart = false := by
      rw [awaitsPart, hspace.2]
      rfl
    unfold finish
    rw [hawaits]
    rfl
  · rfl

/-- White space at the end changes nothing. -/
theorem readSelectors_spaces (s : SelectorProgress) (hcs : ∀ c ∈ cs, c.isSpace = true) :
    readSelectors s cs = readSelectors s [] := by
  induction cs generalizing s with
  | nil => rfl
  | cons c cs ih =>
    obtain ⟨hc, hrest⟩ := List.forall_mem_cons.1 hcs
    unfold Component.isSpace at hc
    split at hc
    · rw [Advances.space.readSelectors_eq, ih s.space hrest, readSelectors, readSelectors,
        s.finish_space]
    · cases hc

/-- What is read is also read without the white space at the end.  The induction is on the size of
the components, so that it reaches the arguments of pseudo-classes. -/
theorem readSelectors_of_spaced (h : readSelectors s cs = .ok ss) (hspaced : Spaced cs ds) :
    readSelectors s ds = .ok ss := by
  induction hsize : sizeOf cs using Nat.strongRecOn generalizing s cs ds ss with
  | _ size ih =>
    subst hsize
    cases cs with
    | nil => rwa [hspaced.eq_nil]
    | cons c rest =>
      rcases readSelectors_cons h with
        ⟨rfl, first, more, hfirst, hmore, rfl⟩ | ⟨t, after, hstep, hafter⟩
      · obtain ⟨es, rfl, hrest⟩ := hspaced.of_token rfl
        have hread := ih _ (by simp) hmore hrest rfl
        rw [readSelectors, hfirst, hread]
        rfl
      · have hsize := hstep.sizeOf_lt
        cases hstep with
        | space =>
          cases hspaced with
          | spaces spaces => rwa [← readSelectors_spaces s spaces]
          | cons _ hrest =>
            rw [Advances.space.readSelectors_eq]
            exact ih _ hsize hafter hrest rfl
        | combinator mark combined =>
          obtain ⟨es, rfl, hrest⟩ := hspaced.of_token rfl
          rw [(Advances.combinator mark combined).readSelectors_eq]
          exact ih _ hsize hafter hrest rfl
        | part begins reads =>
          obtain ⟨es, hreads, hrest⟩ := reads.of_spaced hspaced fun _ _ _ hlt hcontent hread =>
            ih _ hlt hread hcontent rfl
          rw [hreads.readSelectors_eq begins]
          exact ih _ hsize hafter hrest rfl

/-- White space at the start is left out. -/
theorem readSelectors_start_append (hcs : ∀ c ∈ cs, c.isSpace = true) (ds : List Component) :
    readSelectors .start (cs ++ ds) = readSelectors .start ds := by
  induction cs with
  | nil => rfl
  | cons c cs ih =>
    obtain ⟨hc, hrest⟩ := List.forall_mem_cons.1 hcs
    unfold Component.isSpace at hc
    split at hc
    · rw [List.cons_append, Advances.space.readSelectors_eq]
      exact ih hrest
    · cases hc

/-! ## Tokens -/

namespace Nesting

/-- The second component tree under construction is the first one with components before it, which
are given last component first. -/
inductive OnTop (cs : List Component) : Nesting → Nesting → Prop
  | bottom (inner : List Component) : OnTop cs ⟨inner, []⟩ ⟨inner ++ cs, []⟩
  | opened {before before' : List Component} {outer outer' : List (Token × List Component)}
    (inner : List Component) (opening : Token) (below : OnTop cs ⟨before, outer⟩ ⟨before', outer'⟩) :
    OnTop cs ⟨inner, (opening, before) :: outer⟩ ⟨inner, (opening, before') :: outer'⟩

namespace OnTop

variable {n m : Nesting}

theorem cons {inner inner' : List Component} {outer outer' : List (Token × List Component)}
    (h : OnTop cs ⟨inner, outer⟩ ⟨inner', outer'⟩) (c : Component) :
    OnTop cs ⟨c :: inner, outer⟩ ⟨c :: inner', outer'⟩ := by
  cases h with
  | bottom => exact .bottom (c :: inner)
  | opened _ opening below => exact .opened (c :: inner) opening below

theorem add (h : OnTop cs n m) (t : Token) : OnTop cs (n.add t) (m.add t) := by
  unfold Nesting.add
  split
  · exact h
  split
  · exact .opened [] t h
  · cases h with
    | bottom inner => exact .bottom (.token t :: inner)
    | opened inner opening below =>
      dsimp only
      split
      · exact below.cons (.block opening inner.reverse)
      · exact .opened (.token t :: inner) opening below

theorem foldl_add (h : OnTop cs n m) (ts : List Token) :
    OnTop cs (ts.foldl Nesting.add n) (ts.foldl Nesting.add m) := by
  induction ts generalizing n m with
  | nil => exact h
  | cons t ts ih => exact ih (h.add t)

theorem finish (h : OnTop cs n m) : m.finish = cs.reverse ++ n.finish := by
  unfold Nesting.finish
  obtain ⟨inner, outer⟩ := n
  induction outer generalizing inner m with
  | nil =>
    cases h
    exact List.reverse_append
  | cons o outer ih =>
    cases h with
    | opened _ opening below =>
      have hclosed := ih _ (below.cons (.block opening inner.reverse))
      exact hclosed

end OnTop

theorem spaced_closeAll {inner inner' : List Component} (h : Spaced inner.reverse inner'.reverse)
    (outer : List (Token × List Component)) :
    Spaced (closeAll inner outer) (closeAll inner' outer) := by
  induction outer generalizing inner inner' with
  | nil => exact h
  | cons o outer ih =>
    obtain ⟨opening, before⟩ := o
    refine ih ?_
    rw [List.reverse_cons, List.reverse_cons]
    exact .append_left _ (.block opening h)

/-- White space is added to the innermost open block. -/
theorem foldl_add_spaces {ts : List Token} (hts : ∀ t ∈ ts, (Component.token t).isSpace = true)
    (n : Nesting) :
    ts.foldl Nesting.add n = { n with inner := (ts.map Component.token).reverse ++ n.inner } := by
  induction ts generalizing n with
  | nil => rfl
  | cons t ts ih =>
    obtain ⟨ht, hts⟩ := List.forall_mem_cons.1 hts
    have halone : t.standsAlone = true := by
      cases t <;> first | rfl | cases ht
    rw [List.foldl_cons, ih hts, add_of_standsAlone halone, push, List.map_cons, List.reverse_cons,
      List.append_assoc]
    rfl

end Nesting

namespace Component

theorem forall_isSpace_map {ts : List Token} (hts : ∀ t ∈ ts, (token t).isSpace = true) :
    ∀ c ∈ ts.map token, c.isSpace = true := by
  intro c hc
  obtain ⟨t, ht, rfl⟩ := List.mem_map.1 hc
  exact hts t ht

theorem ofTokens_spaces_append {lead : List Token} (hlead : ∀ t ∈ lead, (token t).isSpace = true)
    (ts : List Token) : ofTokens (lead ++ ts) = lead.map token ++ ofTokens ts := by
  have htop : Nesting.OnTop (lead.map token).reverse .start (lead.foldl Nesting.add .start) := by
    rw [Nesting.foldl_add_spaces hlead]
    dsimp only [Nesting.start]
    rw [List.append_nil]
    exact .bottom []
  rw [ofTokens, List.foldl_append, (htop.foldl_add ts).finish, List.reverse_reverse]
  rfl

theorem spaced_ofTokens (ts : List Token) {trail : List Token}
    (htrail : ∀ t ∈ trail, (token t).isSpace = true) :
    Spaced (ofTokens (ts ++ trail)) (ofTokens ts) := by
  unfold ofTokens
  rw [List.foldl_append, Nesting.foldl_add_spaces htrail]
  refine Nesting.spaced_closeAll ?_ _
  dsimp only
  rw [List.reverse_append, List.reverse_reverse]
  have hspaced := Spaced.append_left (ts.foldl Nesting.add .start).inner.reverse
    (.spaces (forall_isSpace_map htrail))
  rwa [List.append_nil] at hspaced

end Component

/-- White space around a list of selectors says nothing. -/
theorem readSelectors_of_framed {lead ts trail : List Token}
    (hlead : ∀ t ∈ lead, (Component.token t).isSpace = true)
    (htrail : ∀ t ∈ trail, (Component.token t).isSpace = true)
    (h : readSelectors .start (Component.ofTokens (lead ++ (ts ++ trail))) = .ok ss) :
    readSelectors .start (Component.ofTokens ts) = .ok ss := by
  rw [Component.ofTokens_spaces_append hlead,
    readSelectors_start_append (Component.forall_isSpace_map hlead)] at h
  exact readSelectors_of_spaced h (Component.spaced_ofTokens ts htrail)

end CriticalCss
