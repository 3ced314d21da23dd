import CriticalCss.Proofs.Selector.Steps
import Mathlib.Data.List.TakeWhile

/-!
# What follows a colon

Some selectors speak of elements only: no pseudo-element stands in them, and no pseudo-class for
visited links, at any depth.  In the text of such a selector every colon is followed by the name of
another pseudo-class.

* `Component.tokensOf` takes a component tree apart again, and `exists_tokensOf_ofTokens` says that
  these are the tokens it was built from.
* `Advances.isQueryable`: what a step adds to a selector can be seen in the selector that is read.
* `colonsNamed_of_readSelectors` is the whole of a list, by induction on the size of the components.
-/

namespace CriticalCss

/-! ## The tokens of a component tree -/

/-- The token that closes a block. -/
def Token.closer (opening : Token) : List Token :=
  (opening.opens?.map Token.closing).toList

mutual

/-- The tokens of a component; a block ends with its closing bracket. -/
def Component.tokens : Component → List Token
  | .token t => [t]
  | .block opening content => opening :: (Component.tokensOf content ++ opening.closer)

/-- The tokens of components. -/
def Component.tokensOf : List Component → List Token
  | [] => []
  | c :: cs => c.tokens ++ Component.tokensOf cs

end

namespace Component

theorem tokensOf_append (cs ds : List Component) :
    tokensOf (cs ++ ds) = tokensOf cs ++ tokensOf ds := by
  induction cs with
  | nil => rfl
  | cons c cs ih => rw [List.cons_append, tokensOf, tokensOf, ih, List.append_assoc]

theorem tokensOf_singleton (c : Component) : tokensOf [c] = c.tokens := by
  rw [tokensOf, tokensOf, List.append_nil]

end Component

/-- Whether a token is a comment. -/
def Token.isComment : Token → Bool
  | .comment _ => true
  | _ => false

namespace Nesting

open Component (tokensOf)

/-- The tokens before the innermost open block and its opening. -/
def outerTokens : List (Token × List Component) → List Token
  | [] => []
  | (opening, before) :: outer => outerTokens outer ++ tokensOf before.reverse ++ [opening]

/-- The tokens that have been added. -/
def tokens (n : Nesting) : List Token :=
  outerTokens n.outer ++ tokensOf n.inner.reverse

theorem tokens_push (n : Nesting) (t : Token) : (n.push t).tokens = n.tokens ++ [t] := by
  rw [tokens, push, List.reverse_cons, Component.tokensOf_append, Component.tokensOf_singleton,
    ← List.append_assoc]
  rfl

theorem tokens_add (n : Nesting) {t : Token} (ht : t.isComment = false) :
    (n.add t).tokens = n.tokens ++ [t] := by
  unfold add
  split
  · cases ht
  split
  · rw [tokens, outerTokens, tokens, List.reverse_nil, Component.tokensOf, List.append_nil]
  split
  · next opening before outer houter =>
    split
    · next hcloses =>
      obtain ⟨b, rfl⟩ : ∃ b, t = .closing b := by
        cases t <;> first | exact ⟨_, rfl⟩ | cases hcloses.1
      have hcloser : opening.closer = [.closing b] := by
        rw [Token.closer, ← hcloses.2]
        rfl
      rw [tokens, tokens, houter, outerTokens, List.reverse_cons, Component.tokensOf_append,
        Component.tokensOf_singleton, Component.tokens, hcloser]
      simp only [List.append_assoc, List.cons_append, List.nil_append]
    · exact n.tokens_push t
  · exact n.tokens_push t

theorem add_of_isComment (n : Nesting) {t : Token} (ht : t.isComment = true) : n.add t = n := by
  cases t <;> first | rfl | cases ht

/-- Comments are left out, and nothing else. -/
theorem tokens_foldl_add (ts : List Token) (n : Nesting) :
    (ts.foldl Nesting.add n).tokens = n.tokens ++ ts.filter fun t => !t.isComment := by
  induction ts generalizing n with
  | nil => exact (List.append_nil _).symm
  | cons t ts ih =>
    rw [List.foldl_cons, ih, List.filter_cons]
    cases hcomment : t.isComment with
    | true =>
      rw [n.add_of_isComment hcomment]
      rfl
    | false =>
      rw [n.tokens_add hcomment, List.append_assoc]
      rfl

theorem exists_tokensOf_closeAll (inner : List Component) (outer : List (Token × List Component)) :
    ∃ closers, tokensOf (closeAll inner outer) = tokens ⟨inner, outer⟩ ++ closers := by
  induction outer generalizing inner with
  | nil => exact ⟨[], (List.append_nil _).symm⟩
  | cons b outer ih =>
    obtain ⟨closers, h⟩ := ih (.block b.1 inner.reverse :: b.2)
    refine ⟨b.1.closer ++ closers, ?_⟩
    rw [closeAll, h, tokens, tokens, outerTokens, List.reverse_cons, Component.tokensOf_append,
      Component.tokensOf_singleton, Component.tokens]
    simp only [List.append_assoc, List.cons_append, List.nil_append]

end Nesting

/-- A tree is built from its tokens.  Brackets that the text leaves open come after them. -/
theorem Component.exists_tokensOf_ofTokens (ts : List Token) :
    ∃ closers, tokensOf (ofTokens ts) = (ts.filter fun t => !t.isComment) ++ closers := by
  obtain ⟨closers, h⟩ := Nesting.exists_tokensOf_closeAll (ts.foldl Nesting.add .start).inner
    (ts.foldl Nesting.add .start).outer
  exact ⟨closers, h.trans (congrArg (· ++ closers) (Nesting.tokens_foldl_add ts .start))⟩

theorem Component.ofTokens_filter (ts : List Token) :
    ofTokens (ts.filter fun t => !t.isComment) = ofTokens ts := by
  rw [ofTokens, List.foldl_filter, ofTokens]
  refine congrArg (fun f => (ts.foldl f Nesting.start).finish) (funext fun n => funext fun t => ?_)
  cases hcomment : t.isComment with
  | true => exact (n.add_of_isComment hcomment).symm
  | false => rfl

/-! ## Selectors of elements -/

/-- A pseudo-class that laid-out elements can have, at every depth. -/
inductive PseudoClass.IsQueryable : PseudoClass → Prop
  | condition {c : Condition} (known : c ≠ .visited) : IsQueryable (.condition c)
  | nth (counting : Counting) (positions : Nth) : IsQueryable (.nth counting positions)
  | not {ss : List (SelectorOf PseudoClass)}
    (whole : ∀ s ∈ ss, ∀ p ∈ s.parts, p.pseudoElement = none)
    (inside : ∀ s ∈ ss, ∀ p ∈ s.parts, ∀ q ∈ p.pseudoClasses, IsQueryable q) :
    IsQueryable (.not ss)
  | is {ss : List (SelectorOf PseudoClass)}
    (whole : ∀ s ∈ ss, ∀ p ∈ s.parts, p.pseudoElement = none)
    (inside : ∀ s ∈ ss, ∀ p ∈ s.parts, ∀ q ∈ p.pseudoClasses, IsQueryable q) :
    IsQueryable (.is ss)

/-- A compound without pseudo-element and without `:visited`. -/
structure CompoundOf.IsQueryable (c : CompoundOf PseudoClass) : Prop where
  pseudoElement : c.pseudoElement = none
  pseudoClasses : ∀ q ∈ c.pseudoClasses, q.IsQueryable

/-- A selector without pseudo-element and without `:visited`. -/
def SelectorOf.IsQueryable (s : SelectorOf PseudoClass) : Prop :=
  ∀ p ∈ s.parts, p.IsQueryable

theorem PseudoClass.IsQueryable.inner {q : PseudoClass} {ss : List Selector} (h : q.IsQueryable)
    (hq : q = .not ss ∨ q = .is ss) : ∀ s ∈ ss, s.IsQueryable := by
  cases h with
  | condition known => rcases hq with hq | hq <;> cases hq
  | nth counting positions => rcases hq with hq | hq <;> cases hq
  | not whole inside =>
    rcases hq with hq | hq <;> cases hq
    exact fun s hs p hp => ⟨whole s hs p hp, inside s hs p hp⟩
  | is whole inside =>
    rcases hq with hq | hq <;> cases hq
    exact fun s hs p hp => ⟨whole s hs p hp, inside s hs p hp⟩

namespace CompoundOf

variable {c : CompoundOf PseudoClass}

theorem IsQueryable.of_withId {n : String} (h : (c.withId n).IsQueryable) : c.IsQueryable := by
  unfold CompoundOf.withId at h
  split at h
  · exact ⟨h.pseudoElement, h.pseudoClasses⟩
  · exact ⟨h.pseudoElement, h.pseudoClasses⟩

theorem IsQueryable.of_withPseudoClass {q : PseudoClass} (h : (c.withPseudoClass q).IsQueryable) :
    c.IsQueryable ∧ q.IsQueryable :=
  ⟨⟨h.pseudoElement, fun p hp => h.pseudoClasses p (List.mem_append_left _ hp)⟩,
    h.pseudoClasses q (List.mem_append_right _ (List.mem_singleton_self q))⟩

end CompoundOf

namespace SelectorProgress

variable {s t : SelectorProgress}

theorem exists_parts_selector (s : SelectorProgress) :
    ∃ before, ∀ f, (s.onPart f).selector.parts = before ++ [f s.part] := by
  obtain ⟨left, part, pending⟩ := s
  cases left with
  | none => exact ⟨[], fun f => rfl⟩
  | some left => exact ⟨left.1.parts, fun f => rfl⟩

/-- What a compound has after a change it had before, so far as the change shows it. -/
theorem isQueryable_of_onPart {f : Compound → Compound}
    (h : (s.onPart f).selector.IsQueryable)
    (hf : (f s.part).IsQueryable → s.part.IsQueryable) :
    s.selector.IsQueryable ∧ (f s.part).IsQueryable := by
  obtain ⟨before, hparts⟩ := s.exists_parts_selector
  have hself : s.selector.parts = before ++ [s.part] := hparts id
  have hpart : (f s.part).IsQueryable := h _ (by simp [hparts])
  refine ⟨fun p hp => ?_, hpart⟩
  rw [hself] at hp
  rcases List.mem_append.1 hp with hp | hp
  · exact h p (by simp [hparts, hp])
  · rw [List.mem_singleton.1 hp]
    exact hf hpart

theorem isQueryable_of_pseudoClass {q : PseudoClass}
    (h : (s.onPart (·.withPseudoClass q)).selector.IsQueryable) :
    s.selector.IsQueryable ∧ q.IsQueryable :=
  (isQueryable_of_onPart h fun hpart => hpart.of_withPseudoClass.1).imp_right
    fun hpart => hpart.of_withPseudoClass.2

theorem not_isQueryable_pseudoElement (n : String) :
    ¬ (s.pseudoElement n).selector.IsQueryable := by
  intro h
  have hpart := (isQueryable_of_onPart h fun hpart => nomatch hpart.pseudoElement).2
  cases hpart.pseudoElement

theorem selector_space (s : SelectorProgress) : s.space.selector = s.selector := by
  unfold space
  split <;> rfl

theorem selector_of_combine {c : Combinator} {token : Token} (h : s.combine c token = .ok t) :
    t.selector = s.selector := by
  unfold combine at h
  split at h
  · cases h
  · cases h
    rfl

/-- A new compound stands behind the ones that are there. -/
theorem isQueryable_of_beginPart (h : s.beginPart = .ok t) (ht : t.selector.IsQueryable) :
    s.selector.IsQueryable := by
  unfold beginPart at h
  dsimp only at h
  split at h
  · split at h
    · cases h
    · cases h
      exact ht
  · cases h
    exact fun p hp => ht p (List.mem_append_left _ hp)

theorem selector_of_finish {selector : Selector} (h : s.finish = .ok selector) :
    selector = s.selector := by
  unfold finish at h
  split at h
  · cases h
  · split at h
    · cases h
    · cases h
      rfl

end SelectorProgress

/-! ## Names after colons -/

/-- A token that a pseudo-class begins with, but not `:visited`. -/
def Token.IsQueryName : Token → Prop
  | .ident n => ∃ c, Condition.ofName? n = some c ∧ c ≠ .visited
  | .function n => (∃ counting, Counting.ofName? (Text.lower n) = some counting) ∨
      Text.sameLetters n "not" = true ∨ Text.sameLetters n "is" = true ∨
      Text.sameLetters n "where" = true
  | _ => False

/-- After every colon a pseudo-class begins. -/
def ColonsNamed : List Token → Prop
  | [] => True
  | t :: ts => (t = .colon → ∃ t' ts', ts = t' :: ts' ∧ t'.IsQueryName) ∧ ColonsNamed ts

theorem ColonsNamed.cons {t : Token} {ts : List Token} (ht : t ≠ .colon) (h : ColonsNamed ts) :
    ColonsNamed (t :: ts) :=
  ⟨fun heq => absurd heq ht, h⟩

theorem ColonsNamed.append {ts us : List Token} (hts : ColonsNamed ts) (hus : ColonsNamed us) :
    ColonsNamed (ts ++ us) := by
  induction ts with
  | nil => exact hus
  | cons t ts ih =>
    refine ⟨fun ht => ?_, ih hts.2⟩
    obtain ⟨t', ts', rfl, hname⟩ := hts.1 ht
    exact ⟨t', ts' ++ us, rfl, hname⟩

theorem colonsNamed_of_not_mem {ts : List Token} (h : .colon ∉ ts) : ColonsNamed ts := by
  induction ts with
  | nil => exact trivial
  | cons t ts ih =>
    rw [List.mem_cons, not_or] at h
    exact (ih h.2).cons (Ne.symm h.1)

/-! ## Contents without colons -/

/-- Single tokens other than colons. -/
def Colonless (cs : List Component) : Prop :=
  ∀ c ∈ cs, ∃ t, c = .token t ∧ t ≠ .colon

namespace Colonless

variable {t : Token} {cs : List Component}

theorem cons (ht : t ≠ .colon) (h : Colonless cs) : Colonless (.token t :: cs) :=
  List.forall_mem_cons.2 ⟨⟨t, rfl, ht⟩, h⟩

/-- White space is no colon. -/
theorem of_dropSpaces (h : Colonless (Component.dropSpaces cs)) : Colonless cs := by
  intro c hc
  rw [← List.takeWhile_append_dropWhile (p := Component.isSpace) (l := cs)] at hc
  rcases List.mem_append.1 hc with hc | hc
  · have hspace : c.isSpace = true := List.mem_takeWhile_imp hc
    unfold Component.isSpace at hspace
    split at hspace
    · exact ⟨_, rfl, nofun⟩
    · cases hspace
  · exact h c hc

theorem not_mem_tokensOf (h : Colonless cs) : .colon ∉ Component.tokensOf cs := by
  induction cs with
  | nil => exact List.not_mem_nil
  | cons c cs ih =>
    obtain ⟨⟨t, rfl, ht⟩, hcs⟩ := List.forall_mem_cons.1 h
    rw [Component.tokensOf, List.mem_append, not_or]
    exact ⟨fun hmem => ht (List.mem_singleton.1 hmem).symm, ih hcs⟩

end Colonless

namespace AttributeTest

variable {cs : List Component}

theorem colonless_of_readFlag {flag : Bool} (h : readFlag cs = .ok flag) : Colonless cs := by
  refine .of_dropSpaces ?_
  unfold readFlag at h
  split at h
  · next hnil =>
    rw [hnil]
    exact nofun
  · next name rest hcs =>
    rw [hcs]
    split at h
    · split at h
      · next hrest =>
        refine .cons nofun (.of_dropSpaces ?_)
        rw [hrest]
        exact nofun
      · cases h
    · cases h
  · cases h

theorem colonless_of_readValue {name : String} {operator : AttributeOperator} {test : AttributeTest}
    (h : readValue name operator cs = .ok test) : Colonless cs := by
  refine .of_dropSpaces ?_
  unfold readValue at h
  split at h
  · cases h
  · next hcs =>
    obtain ⟨flag, hflag, -⟩ := exists_of_bind_eq_ok h
    rw [hcs]
    exact .cons nofun (colonless_of_readFlag hflag)
  · next hcs =>
    obtain ⟨flag, hflag, -⟩ := exists_of_bind_eq_ok h
    rw [hcs]
    exact .cons nofun (colonless_of_readFlag hflag)
  · cases h

theorem exists_of_operator? {c : Component} {o : AttributeOperator} (h : operator? c = some o) :
    ∃ t, c = .token t ∧ t ≠ .colon := by
  unfold operator? at h
  split at h <;> first | exact ⟨_, rfl, nofun⟩ | cases h

theorem colonless_of_read {test : AttributeTest} (h : AttributeTest.read cs = .ok test) :
    Colonless cs := by
  refine .of_dropSpaces ?_
  unfold AttributeTest.read at h
  split at h
  · cases h
  · next name rest hcs =>
    rw [hcs]
    refine .cons nofun (.of_dropSpaces ?_)
    split at h
    · next hnil =>
      rw [hnil]
      exact nofun
    · next c after hrest =>
      rw [hrest]
      split at h
      · cases h
      · next operator hoperator =>
        obtain ⟨t, rfl, ht⟩ := exists_of_operator? hoperator
        exact .cons ht (colonless_of_readValue h)
  · cases h

end AttributeTest

namespace Nth

variable {cs : List Component} {r : Nth × List Component}

theorem colonless_of_readUnsigned {step sign : Int} (h : readUnsigned step sign cs = .ok r)
    (hr : Colonless r.2) : Colonless cs := by
  refine .of_dropSpaces ?_
  unfold readUnsigned at h
  split at h
  · cases h
  · next c rest hcs =>
    rw [hcs]
    split at h
    · split at h
      · cases h
        exact hr.cons nofun
      · cases h
    · cases h

theorem colonless_of_readOffset {step : Int} (h : readOffset step cs = .ok r)
    (hr : Colonless r.2) : Colonless cs := by
  unfold readOffset at h
  split at h
  · next rest hcs =>
    refine .of_dropSpaces ?_
    rw [hcs]
    exact (colonless_of_readUnsigned h hr).cons nofun
  · next rest hcs =>
    refine .of_dropSpaces ?_
    rw [hcs]
    exact (colonless_of_readUnsigned h hr).cons nofun
  · next n rest hcs =>
    split at h
    · cases h
      refine .of_dropSpaces ?_
      rw [hcs]
      exact hr.cons nofun
    · cases h
      exact hr
  · cases h
    exact hr

theorem colonless_of_readAfterStep {step : Int} {name whole : String}
    (h : readAfterStep step name whole cs = .ok r) (hr : Colonless r.2) : Colonless cs := by
  unfold readAfterStep at h
  split at h
  · exact colonless_of_readOffset h hr
  split at h
  · exact colonless_of_readUnsigned h hr
  split at h
  · cases h
    exact hr
  · cases h

theorem colonless_of_readName {name : String} (h : readName name cs = .ok r)
    (hr : Colonless r.2) : Colonless cs := by
  unfold readName at h
  split at h
  · cases h
    exact hr
  split at h
  · cases h
    exact hr
  split at h
  · exact colonless_of_readAfterStep h hr
  · exact colonless_of_readAfterStep h hr

theorem colonless_of_readStart (h : readStart cs = .ok r) (hr : Colonless r.2) :
    Colonless cs := by
  refine .of_dropSpaces ?_
  unfold readStart at h
  split at h
  · cases h
  · next c rest hcs =>
    rw [hcs]
    split at h
    · split at h
      · cases h
        exact hr.cons nofun
      · cases h
    · split at h
      · exact (colonless_of_readAfterStep h hr).cons nofun
      · cases h
    · exact (colonless_of_readName h hr).cons nofun
    · split at h
      · next name after =>
        have hname : Colonless (.token (.ident name) :: after) :=
          (colonless_of_readAfterStep h hr).cons nofun
        exact hname.cons nofun
      · cases h
      · cases h
    · cases h

theorem colonless_of_read {positions : Nth} (h : Nth.read cs = .ok positions) :
    Colonless cs := by
  obtain ⟨⟨e, rest⟩, hstart, h⟩ := exists_of_bind_eq_ok h
  refine colonless_of_readStart hstart (.of_dropSpaces ?_)
  dsimp only at h ⊢
  split at h
  · next hnil =>
    rw [hnil]
    exact nofun
  · cases h

end Nth

/-! ## Reading -/

/-- A block stands between its brackets. -/
theorem colonsNamed_block {opening : Token} {content : List Component} (hopening : opening ≠ .colon)
    (h : ColonsNamed (Component.tokensOf content)) :
    ColonsNamed (Component.block opening content).tokens := by
  rw [Component.tokens]
  refine .cons hopening (h.append (colonsNamed_of_not_mem ?_))
  rw [Token.closer, Option.mem_toList, Option.map_eq_some_iff]
  exact nofun

variable {s t : SelectorProgress} {cs rest : List Component}

/-- A colon and a function that it may stand before. -/
theorem colonsNamed_function {n : String} {content : List Component}
    (hn : (Token.function n).IsQueryName) (hcontent : ColonsNamed (Component.tokensOf content))
    (hrest : ColonsNamed (Component.tokensOf rest)) :
    ColonsNamed (Component.tokensOf (.token .colon :: .block (.function n) content :: rest)) := by
  have hblock : ColonsNamed (Component.block (.function n) content).tokens :=
    colonsNamed_block (by simp) hcontent
  exact ⟨fun _ => ⟨_, _, rfl, hn⟩, hblock.append hrest⟩

/-- A part of a compound can be seen in the selector, and its colons are followed by names.  The
selectors inside of it are given by what holds of everything smaller. -/
theorem ReadsPart.isQueryable (h : ReadsPart s cs t rest) (ht : t.selector.IsQueryable)
    (hrest : ColonsNamed (Component.tokensOf rest))
    (hinner : ∀ content ss, sizeOf content < sizeOf cs → readSelectors .start content = .ok ss →
      (∀ s ∈ ss, s.IsQueryable) → ColonsNamed (Component.tokensOf content)) :
    s.selector.IsQueryable ∧ ColonsNamed (Component.tokensOf cs) := by
  have hkept : ∀ {f : Compound → Compound}, (s.onPart f).selector.IsQueryable →
      (∀ c, (f c).pseudoElement = c.pseudoElement) → (∀ c, (f c).pseudoClasses = c.pseudoClasses) →
        s.selector.IsQueryable := fun h he hc =>
    (SelectorProgress.isQueryable_of_onPart h fun hpart =>
      ⟨he s.part ▸ hpart.pseudoElement, hc s.part ▸ hpart.pseudoClasses⟩).1
  cases h with
  | name named =>
    unfold SelectorProgress.name at named
    split at named
    · cases named
      exact ⟨hkept ht (fun _ => rfl) fun _ => rfl, hrest.cons (by simp)⟩
    · cases named
  | universal named =>
    unfold SelectorProgress.universal at named
    split at named
    · cases named
      exact ⟨hkept ht (fun _ => rfl) fun _ => rfl, hrest.cons (by simp)⟩
    · cases named
  | id =>
    exact ⟨(SelectorProgress.isQueryable_of_onPart ht fun hpart => hpart.of_withId).1,
      hrest.cons (by simp)⟩
  | @className n =>
    have hname : ColonsNamed (.ident n :: Component.tokensOf rest) := hrest.cons (by simp)
    exact ⟨hkept ht (fun _ => rfl) fun _ => rfl, hname.cons (by simp)⟩
  | attributeTest read =>
    refine ⟨hkept ht (fun _ => rfl) fun _ => rfl, ColonsNamed.append ?_ hrest⟩
    have hcontent := (AttributeTest.colonless_of_read read).not_mem_tokensOf
    exact colonsNamed_block (by simp) (colonsNamed_of_not_mem hcontent)
  | pseudoElement => exact absurd ht (SelectorProgress.not_isQueryable_pseudoElement _)
  | pseudoFunction => exact absurd ht (SelectorProgress.not_isQueryable_pseudoElement _)
  | named named =>
    unfold SelectorProgress.named at named
    split at named
    · cases named
      exact absurd ht (SelectorProgress.not_isQueryable_pseudoElement _)
    · split at named
      · next c hc =>
        cases named
        obtain ⟨hs, hcondition⟩ := SelectorProgress.isQueryable_of_pseudoClass ht
        refine ⟨hs, fun _ => ⟨_, _, rfl, c, hc, ?_⟩, hrest.cons (by simp)⟩
        cases hcondition with
        | condition known => exact known
      · cases named
  | nth counts read =>
    obtain ⟨hs, -⟩ := SelectorProgress.isQueryable_of_pseudoClass ht
    have hcontent := (Nth.colonless_of_read read).not_mem_tokensOf
    exact ⟨hs, colonsNamed_function (.inl ⟨_, counts⟩) (colonsNamed_of_not_mem hcontent) hrest⟩
  | not counts named read =>
    obtain ⟨hs, hnot⟩ := SelectorProgress.isQueryable_of_pseudoClass ht
    have hcontent := hinner _ _ (by simp; omega) read (hnot.inner (.inl rfl))
    exact ⟨hs, colonsNamed_function (.inr (.inl named)) hcontent hrest⟩
  | is counts other named read =>
    obtain ⟨hs, his⟩ := SelectorProgress.isQueryable_of_pseudoClass ht
    have hcontent := hinner _ _ (by simp; omega) read (his.inner (.inr rfl))
    exact ⟨hs, colonsNamed_function (.inr (.inr named)) hcontent hrest⟩

/-- What is read from components that make queryable selectors has names after all its colons.  The
induction is on the size of the components, so that it reaches the arguments of pseudo-classes. -/
theorem colonsNamed_of_readSelectors {ss : List Selector} (h : readSelectors s cs = .ok ss)
    (hss : ∀ s ∈ ss, s.IsQueryable) :
    s.selector.IsQueryable ∧ ColonsNamed (Component.tokensOf cs) := by
  induction hsize : sizeOf cs using Nat.strongRecOn generalizing s cs ss with
  | _ size ih =>
    subst hsize
    cases cs with
    | nil =>
      rw [readSelectors] at h
      obtain ⟨selector, hfinish, h⟩ := exists_of_bind_eq_ok h
      cases h
      rw [← SelectorProgress.selector_of_finish hfinish]
      exact ⟨hss selector (List.mem_singleton_self _), trivial⟩
    | cons c rest =>
      rcases readSelectors_cons h with
        ⟨rfl, first, more, hfirst, hmore, rfl⟩ | ⟨t, after, hstep, hafter⟩
      · have hrest := ih _ (by simp) hmore (fun s hs => hss s (List.mem_cons_of_mem _ hs)) rfl
        rw [← SelectorProgress.selector_of_finish hfirst]
        exact ⟨hss first List.mem_cons_self, hrest.2.cons (by simp)⟩
      · obtain ⟨ht, hcolons⟩ := ih _ hstep.sizeOf_lt hafter hss rfl
        cases hstep with
        | space => exact ⟨s.selector_space ▸ ht, hcolons.cons (by simp)⟩
        | combinator mark combined =>
          exact ⟨SelectorProgress.selector_of_combine combined ▸ ht, hcolons.cons (by simp)⟩
        | part begins reads =>
          obtain ⟨hbegun, hall⟩ := reads.isQueryable ht hcolons fun content inner hlt hread hinner =>
            (ih _ hlt hread hinner rfl).2
          exact ⟨SelectorProgress.isQueryable_of_beginPart begins hbegun, hall⟩

end CriticalCss
