import CriticalCss.Proofs.Selector.Colons

/-!
# Where pseudo-elements may stand

A pseudo-element ends its compound, but a combinator with another compound may follow.  Whether
pseudo-elements stand only in the last compounds of the selectors that are read can be seen in the
text.

* `Selector.IsWithin` are the selectors of a list at every depth, and `SelectorOf.PseudoElementsLast`
  says that no compound but the last one has a pseudo-element.
* `Component.pseudoElementsEnd` says that nothing but white space stands between a pseudo-element and
  the next comma or the end.
* `inOrder_readSelectors_iff` follows the reading step by step: a selector is in order so far
  if the compounds to the left have no pseudo-element, and if the compound at hand has one, the
  selector ends there.
-/

namespace CriticalCss

/-! ## Selectors inside of selectors -/

/-- The selectors inside of a pseudo-class. -/
def PseudoClass.Holds (q : PseudoClass) (ss : List Selector) : Prop :=
  q = .not ss ∨ q = .is ss

/-- A selector of a list, or of a list inside of it, at any depth. -/
inductive Selector.IsWithin : List Selector → Selector → Prop
  | member {ss : List Selector} {s : Selector} (mem : s ∈ ss) : IsWithin ss s
  | inside {ss inner : List Selector} {s t : Selector} {p : Compound} {q : PseudoClass} (mem : s ∈ ss)
    (part : p ∈ s.parts) (pseudoClass : q ∈ p.pseudoClasses) (holds : q.Holds inner)
    (within : IsWithin inner t) : IsWithin ss t

/-- Only the last compound may have a pseudo-element. -/
def SelectorOf.PseudoElementsLast (s : SelectorOf PseudoClass) : Prop :=
  ∀ p ∈ s.parts.dropLast, p.pseudoElement = none

/-- Pseudo-elements stand in last compounds only, at every depth. -/
def Selector.InOrder (ss : List Selector) : Prop :=
  ∀ s, IsWithin ss s → s.PseudoElementsLast

/-- The selectors inside of a compound are in order. -/
def CompoundOf.InnerInOrder (p : CompoundOf PseudoClass) : Prop :=
  ∀ q ∈ p.pseudoClasses, ∀ inner, q.Holds inner → Selector.InOrder inner

namespace Selector

variable {s : Selector} {ss : List Selector}

/-- What holds of everything in a list holds of everything in its first selector and in the others. -/
theorem forall_isWithin_cons {P : Selector → Prop} :
    (∀ t, IsWithin (s :: ss) t → P t) ↔
      (∀ t, IsWithin [s] t → P t) ∧ ∀ t, IsWithin ss t → P t := by
  constructor
  · refine fun h => ⟨fun t ht => h t ?_, fun t ht => h t ?_⟩
    · cases ht with
      | member mem => exact .member (List.mem_cons.2 (.inl (List.mem_singleton.1 mem)))
      | inside mem part pseudoClass holds within =>
        exact .inside (List.mem_cons.2 (.inl (List.mem_singleton.1 mem))) part pseudoClass holds within
    · cases ht with
      | member mem => exact .member (List.mem_cons_of_mem _ mem)
      | inside mem part pseudoClass holds within =>
        exact .inside (List.mem_cons_of_mem _ mem) part pseudoClass holds within
  · rintro ⟨hs, hss⟩ t ht
    cases ht with
    | member mem =>
      rcases List.mem_cons.1 mem with rfl | mem
      · exact hs _ (.member (List.mem_singleton_self _))
      · exact hss _ (.member mem)
    | inside mem part pseudoClass holds within =>
      rcases List.mem_cons.1 mem with rfl | mem
      · exact hs _ (.inside (List.mem_singleton_self _) part pseudoClass holds within)
      · exact hss _ (.inside mem part pseudoClass holds within)

/-- What holds of everything in a selector holds of the selector and of everything in its
compounds. -/
theorem forall_isWithin_singleton {P : Selector → Prop} :
    (∀ t, IsWithin [s] t → P t) ↔
      P s ∧ ∀ p ∈ s.parts, ∀ q ∈ p.pseudoClasses, ∀ inner, q.Holds inner →
        ∀ t, IsWithin inner t → P t := by
  constructor
  · intro h
    refine ⟨h s (.member (List.mem_singleton_self s)), fun p hp q hq inner hinner t ht => ?_⟩
    exact h t (.inside (List.mem_singleton_self s) hp hq hinner ht)
  · rintro ⟨hs, hinner⟩ t ht
    cases ht with
    | member mem =>
      rw [List.mem_singleton.1 mem]
      exact hs
    | inside mem part pseudoClass holds within =>
      rw [List.mem_singleton.1 mem] at part
      exact hinner _ part _ pseudoClass _ holds _ within

theorem inOrder_cons : InOrder (s :: ss) ↔ InOrder [s] ∧ InOrder ss :=
  forall_isWithin_cons

theorem inOrder_singleton :
    InOrder [s] ↔ s.PseudoElementsLast ∧ ∀ p ∈ s.parts, p.InnerInOrder :=
  forall_isWithin_singleton

end Selector

/-! ## The condition on the text -/

namespace Component

/-- Whether a selector ends here: after white space there is a comma or nothing. -/
def endsSelector : List Component → Bool
  | [] => true
  | .token .comma :: _ => true
  | .token (.space _) :: rest => endsSelector rest
  | _ => false

mutual

/-- Whether every pseudo-element ends its selector.  The arguments of pseudo-classes are selectors
again; the arguments of pseudo-elements are not looked at. -/
def pseudoElementsEnd : List Component → Bool
  | [] => true
  | .token .colon :: .token .colon :: .token (.ident _) :: rest =>
    endsSelector rest && pseudoElementsEnd rest
  | .token .colon :: .token .colon :: .block _ _ :: rest =>
    endsSelector rest && pseudoElementsEnd rest
  | .token .colon :: .token (.ident n) :: rest =>
    (!shortPseudoElements.contains (Text.lower n) || endsSelector rest) && pseudoElementsEnd rest
  | .token .colon :: .block opening content :: rest =>
    pseudoElementsEndInside (.block opening content) && pseudoElementsEnd rest
  | _ :: rest => pseudoElementsEnd rest
termination_by structural cs => cs

/-- Whether every pseudo-element inside of a block ends its selector. -/
def pseudoElementsEndInside : Component → Bool
  | .token _ => true
  | .block _ content => pseudoElementsEnd content
termination_by structural c => c

end

theorem pseudoElementsEnd_cons {c : Component} (hc : c ≠ .token .colon) (rest : List Component) :
    pseudoElementsEnd (c :: rest) = pseudoElementsEnd rest := by
  cases c with
  | block opening content => rfl
  | token t => cases t <;> first | rfl | exact absurd rfl hc

/-- Without colons there are no pseudo-elements. -/
theorem pseudoElementsEnd_of_colonless {cs : List Component} (h : Colonless cs) :
    pseudoElementsEnd cs = true := by
  induction cs with
  | nil => rfl
  | cons c cs ih =>
    obtain ⟨⟨t, rfl, ht⟩, hcs⟩ := List.forall_mem_cons.1 h
    rw [pseudoElementsEnd_cons fun heq => ht (Component.token.inj heq)]
    exact ih hcs

end Component

/-! ## Selectors that are being read -/

namespace SelectorProgress

variable {s t begun : SelectorProgress} {cs rest : List Component}

/-- The compounds to the left of the one at hand. -/
def before (s : SelectorProgress) : List Compound :=
  match s.left with
  | none => []
  | some (left, _) => left.parts

theorem parts_selector (s : SelectorProgress) : s.selector.parts = s.before ++ [s.part] := by
  obtain ⟨left, part, pending⟩ := s
  cases left <;> rfl

/-- What has been read is in order, whatever follows: no compound to the left has a pseudo-element,
and the selectors inside of the compounds are in order. -/
structure InOrder (s : SelectorProgress) : Prop where
  before : ∀ p ∈ s.before, p.pseudoElement = none ∧ p.InnerInOrder
  part : s.part.InnerInOrder

theorem inOrder_start : start.InOrder :=
  ⟨nofun, nofun⟩

theorem inOrder_selector : Selector.InOrder [s.selector] ↔ s.InOrder := by
  rw [Selector.inOrder_singleton, SelectorOf.PseudoElementsLast, parts_selector,
    List.dropLast_concat]
  constructor
  · rintro ⟨hlast, hinner⟩
    exact ⟨fun p hp => ⟨hlast p hp, hinner p (List.mem_append_left _ hp)⟩,
      hinner s.part (List.mem_append_right _ (List.mem_singleton_self _))⟩
  · rintro ⟨hbefore, hpart⟩
    refine ⟨fun p hp => (hbefore p hp).1, fun p hp => ?_⟩
    rcases List.mem_append.1 hp with hp | hp
    · exact (hbefore p hp).2
    · rw [List.mem_singleton.1 hp]
      exact hpart

theorem inOrder_space : s.space.InOrder ↔ s.InOrder := by
  rw [← inOrder_selector, selector_space, inOrder_selector]

theorem part_space (s : SelectorProgress) : s.space.part = s.part := by
  unfold space
  split <;> rfl

theorem part_of_combine {k : Combinator} {token : Token} (h : s.combine k token = .ok t) :
    t.part = s.part := by
  unfold combine at h
  split at h <;> cases h
  rfl

theorem inOrder_of_combine {k : Combinator} {token : Token} (h : s.combine k token = .ok t) :
    t.InOrder ↔ s.InOrder := by
  rw [← inOrder_selector, selector_of_combine h, inOrder_selector]

theorem awaitsPart_of_combine {c : Char} {k : Combinator} {token : Token}
    (hmark : Combinator.ofMark? c = some k) (h : s.combine k token = .ok t) :
    t.awaitsPart = true := by
  have hk : k ≠ .descendant := by
    rintro rfl
    unfold Combinator.ofMark? at hmark
    repeat' split at hmark
    all_goals cases hmark
  unfold combine at h
  split at h <;> cases h
  simpa [awaitsPart] using hk

/-- A part follows only a compound without pseudo-element, unless it begins a compound of its own. -/
theorem inOrder_of_beginPart (h : s.beginPart = .ok begun) :
    begun.part.pseudoElement = none ∧
      (begun.InOrder ↔ s.InOrder ∧ s.part.pseudoElement = none) := by
  unfold beginPart at h
  dsimp only at h
  split at h
  · split at h
    · cases h
    · next hnone =>
      cases h
      have hpart := Option.not_isSome_iff_eq_none.1 hnone
      exact ⟨hpart, fun hs => ⟨hs, hpart⟩, And.left⟩
  · cases h
    refine ⟨rfl, fun hbegun => ?_, fun hs => ⟨?_, nofun⟩⟩
    · have hall : ∀ p ∈ s.selector.parts, p.pseudoElement = none ∧ p.InnerInOrder :=
        hbegun.before
      rw [parts_selector] at hall
      have hpart := hall s.part (List.mem_append_right _ (List.mem_singleton_self _))
      exact ⟨⟨fun p hp => hall p (List.mem_append_left _ hp), hpart.2⟩, hpart.1⟩
    · show ∀ p ∈ s.selector.parts, p.pseudoElement = none ∧ p.InnerInOrder
      rw [parts_selector]
      intro p hp
      rcases List.mem_append.1 hp with hp | hp
      · exact hs.1.before p hp
      · rw [List.mem_singleton.1 hp]
        exact ⟨hs.2, hs.1.part⟩

/-- A change of the compound at hand that leaves the pseudo-classes alone. -/
theorem inOrder_onPart {f : Compound → Compound}
    (hf : (f s.part).pseudoClasses = s.part.pseudoClasses) : (s.onPart f).InOrder ↔ s.InOrder := by
  have hinner : (f s.part).InnerInOrder ↔ s.part.InnerInOrder := by
    rw [CompoundOf.InnerInOrder, hf, CompoundOf.InnerInOrder]
  exact ⟨fun h => ⟨h.before, hinner.1 h.part⟩, fun h => ⟨h.before, hinner.2 h.part⟩⟩

/-- The selectors inside of a new pseudo-class have to be in order as well. -/
theorem inOrder_withPseudoClass {q : PseudoClass} :
    (s.onPart (·.withPseudoClass q)).InOrder ↔
      s.InOrder ∧ ∀ inner, q.Holds inner → Selector.InOrder inner := by
  constructor
  · intro h
    refine ⟨⟨h.before, fun p hp => h.part p (List.mem_append_left _ hp)⟩, ?_⟩
    exact h.part q (List.mem_append_right _ (List.mem_singleton_self q))
  · rintro ⟨hs, hq⟩
    refine ⟨hs.before, fun p hp => ?_⟩
    rcases List.mem_append.1 hp with hp | hp
    · exact hs.part p hp
    · rw [List.mem_singleton.1 hp]
      exact hq

/-- While a compound must follow, the selector does not end. -/
theorem endsSelector_of_awaitsPart {ss : List Selector} (hs : s.awaitsPart = true)
    (h : readSelectors s cs = .ok ss) : Component.endsSelector cs = false := by
  have hfinish : ∀ selector, s.finish ≠ .ok selector := by
    intro selector hok
    unfold finish at hok
    split at hok
    · cases hok
    · cases hok
  induction cs with
  | nil =>
    rw [readSelectors] at h
    obtain ⟨selector, hok, -⟩ := exists_of_bind_eq_ok h
    exact absurd hok (hfinish selector)
  | cons c cs ih =>
    unfold Component.endsSelector
    split
    · next heq =>
      cases heq
    · next heq =>
      cases heq
      rw [readSelectors] at h
      obtain ⟨selector, hok, -⟩ := exists_of_bind_eq_ok h
      exact absurd hok (hfinish selector)
    · next heq =>
      cases heq
      rw [readSelectors] at h
      -- White space is no combinator where one is pending already.
      have hspace : s.space = s := by
        unfold space
        cases hpending : s.pending with
        | none =>
          rw [awaitsPart, hpending] at hs
          cases hs
        | some k => simp
      rw [hspace] at h
      exact ih h
    · rfl

end SelectorProgress

/-! ## Reading -/

variable {s t : SelectorProgress} {cs rest : List Component} {ss : List Selector}

/-- What has been read and what follows are in order. -/
def SelectorProgress.WillBeInOrder (s : SelectorProgress) (cs : List Component) : Prop :=
  s.InOrder ∧ (s.part.pseudoElement = none ∨ Component.endsSelector cs = true) ∧
    Component.pseudoElementsEnd cs = true

/-- No selector ends where a part of a compound begins. -/
theorem ReadsPart.endsSelector_eq (h : ReadsPart s cs t rest) :
    Component.endsSelector cs = false := by
  cases h <;> rfl

namespace SelectorProgress

/-- A change of the compound at hand that leaves its pseudo-element and its pseudo-classes alone. -/
theorem willBeInOrder_onPart (hs : s.part.pseudoElement = none) {f : Compound → Compound}
    (he : (f s.part).pseudoElement = s.part.pseudoElement)
    (hc : (f s.part).pseudoClasses = s.part.pseudoClasses) :
    (s.onPart f).WillBeInOrder rest ↔ s.InOrder ∧ Component.pseudoElementsEnd rest = true := by
  rw [WillBeInOrder, inOrder_onPart hc]
  exact and_congr_right fun _ => and_iff_right (.inl (he.trans hs))

/-- Behind a pseudo-element the selector has to end. -/
theorem willBeInOrder_pseudoElement (name : String) :
    (s.pseudoElement name).WillBeInOrder rest ↔
      s.InOrder ∧ (Component.endsSelector rest && Component.pseudoElementsEnd rest) = true := by
  rw [WillBeInOrder, Bool.and_eq_true]
  exact and_congr (inOrder_onPart rfl) (and_congr_left fun _ => or_iff_right nofun)

/-- A new pseudo-class, where it is known what tells whether the selectors inside are in order. -/
theorem willBeInOrder_withPseudoClass (hs : s.part.pseudoElement = none) {q : PseudoClass}
    (inside : Bool) (hq : (∀ inner, q.Holds inner → Selector.InOrder inner) ↔ inside = true) :
    (s.onPart (·.withPseudoClass q)).WillBeInOrder rest ↔
      s.InOrder ∧ (inside && Component.pseudoElementsEnd rest) = true := by
  rw [WillBeInOrder, inOrder_withPseudoClass, hq, Bool.and_eq_true, and_assoc]
  exact and_congr_right fun _ => and_congr_right fun _ => and_iff_right (.inl hs)

end SelectorProgress

open SelectorProgress in
/-- A part of a compound shows whether what follows it is in order.  The selectors inside of it are
given by what holds of everything smaller. -/
theorem ReadsPart.willBeInOrder_iff (h : ReadsPart s cs t rest)
    (hs : s.part.pseudoElement = none)
    (hinner : ∀ content inner, sizeOf content < sizeOf cs →
      readSelectors .start content = .ok inner →
        (Selector.InOrder inner ↔ Component.pseudoElementsEnd content = true)) :
    t.WillBeInOrder rest ↔ s.InOrder ∧ Component.pseudoElementsEnd cs = true := by
  cases h with
  | name named =>
    unfold SelectorProgress.name at named
    split at named
    · cases named
      exact willBeInOrder_onPart hs rfl rfl
    · cases named
  | universal named =>
    unfold SelectorProgress.universal at named
    split at named
    · cases named
      exact willBeInOrder_onPart hs rfl rfl
    · cases named
  | id =>
    refine willBeInOrder_onPart hs ?_ ?_
    · unfold CompoundOf.withId
      split <;> rfl
    · unfold CompoundOf.withId
      split <;> rfl
  | className => exact willBeInOrder_onPart hs rfl rfl
  | attributeTest read => exact willBeInOrder_onPart hs rfl rfl
  | pseudoElement => exact willBeInOrder_pseudoElement _
  | pseudoFunction => exact willBeInOrder_pseudoElement _
  | @named _ n _ named =>
    unfold SelectorProgress.named at named
    rw [show Component.pseudoElementsEnd (.token .colon :: .token (.ident n) :: rest) =
      ((!shortPseudoElements.contains (Text.lower n) || Component.endsSelector rest) &&
        Component.pseudoElementsEnd rest) from rfl]
    split at named
    · next hshort =>
      cases named
      rw [hshort]
      exact willBeInOrder_pseudoElement n
    · next hshort =>
      rw [Bool.eq_false_iff.2 hshort]
      split at named
      · cases named
        exact willBeInOrder_withPseudoClass hs true (iff_of_true (fun inner h => nomatch h) rfl)
      · cases named
  | @nth _ content _ _ _ counts read =>
    have hcontent : Component.pseudoElementsEnd content = true :=
      Component.pseudoElementsEnd_of_colonless (Nth.colonless_of_read read)
    exact willBeInOrder_withPseudoClass hs _ (iff_of_true (fun inner h => nomatch h) hcontent)
  | not counts named read =>
    refine willBeInOrder_withPseudoClass hs _ (Iff.trans ?_ (hinner _ _ (by simp; omega) read))
    exact ⟨fun h => h _ (.inl rfl), fun h inner hq => by rcases hq with hq | hq <;> cases hq; exact h⟩
  | is counts other named read =>
    refine willBeInOrder_withPseudoClass hs _ (Iff.trans ?_ (hinner _ _ (by simp; omega) read))
    exact ⟨fun h => h _ (.inr rfl), fun h inner hq => by rcases hq with hq | hq <;> cases hq; exact h⟩

open SelectorProgress in
/-- The selectors that are read are in order exactly if what has been read and what follows are.  The
induction is on the size of the components, so that it reaches the arguments of pseudo-classes. -/
theorem inOrder_readSelectors_iff (h : readSelectors s cs = .ok ss) :
    Selector.InOrder ss ↔ s.WillBeInOrder cs := by
  induction hsize : sizeOf cs using Nat.strongRecOn generalizing s cs ss with
  | _ size ih =>
    subst hsize
    have hends : ∀ first : Selector, s.finish = .ok first → (Selector.InOrder [first] ↔ s.InOrder) :=
      fun first hfirst => by rw [selector_of_finish hfirst, inOrder_selector]
    cases cs with
    | nil =>
      rw [readSelectors] at h
      obtain ⟨selector, hfinish, h⟩ := exists_of_bind_eq_ok h
      cases h
      rw [hends selector hfinish]
      exact (and_iff_left ⟨.inr rfl, rfl⟩).symm
    | cons c rest =>
      rcases readSelectors_cons h with
        ⟨rfl, first, more, hfirst, hmore, rfl⟩ | ⟨t, after, hstep, hafter⟩
      · rw [Selector.inOrder_cons, hends first hfirst, ih _ (by simp) hmore rfl]
        exact and_congr_right fun _ => ⟨fun hrest => ⟨.inr rfl, hrest.2.2⟩,
          fun hrest => ⟨inOrder_start, .inl rfl, hrest.2⟩⟩
      · rw [ih _ hstep.sizeOf_lt hafter rfl]
        cases hstep with
        | space =>
          rw [WillBeInOrder, inOrder_space, part_space]
          exact Iff.rfl
        | combinator mark combined =>
          -- A mark has to be followed by a compound, so the selector does not end there.
          have hawaits : t.awaitsPart = true := awaitsPart_of_combine mark combined
          have hnoEnd := endsSelector_of_awaitsPart hawaits hafter
          rw [WillBeInOrder, hnoEnd, inOrder_of_combine combined, part_of_combine combined]
          exact Iff.rfl
        | part begins reads =>
          obtain ⟨hpart, hbegun⟩ := inOrder_of_beginPart begins
          rw [reads.willBeInOrder_iff hpart fun content inner hlt hread => ?_, hbegun, and_assoc,
            WillBeInOrder, reads.endsSelector_eq]
          · simp
          · exact (ih _ hlt hread rfl).trans
              ⟨fun h => h.2.2, fun h => ⟨inOrder_start, .inl rfl, h⟩⟩

namespace Selector

/-- The selectors that are read from a text have pseudo-elements in their last compounds only, at
every depth, exactly if in the text every pseudo-element is followed by nothing but white space up
to the next comma or the end.  A combinator and another compound may follow a pseudo-element. -/
theorem readList_pseudoElementsLast_iff {text : String} (h : readList text = .ok ss) :
    (∀ s, IsWithin ss s → s.PseudoElementsLast) ↔
      Component.pseudoElementsEnd (Component.ofText text) = true := by
  have hread : readSelectors .start (Component.ofText text) = .ok ss := mapError_eq_ok_iff.1 h
  refine (inOrder_readSelectors_iff hread).trans ⟨fun hstart => hstart.2.2, fun hend => ?_⟩
  exact ⟨SelectorProgress.inOrder_start, .inl rfl, hend⟩

/-- A list with pseudo-elements at the ends of selectors, also inside of a pseudo-class. -/
def pseudoText : String :=
  "ul LI:Not(.x, p::Before )::part(a), *:After "

/-- What `pseudoText` is read as. -/
def pseudoSelectors : List Selector :=
  [.combined (.compound ⟨some (.name "ul"), none, [], [], [], none⟩) .descendant
    ⟨some (.name "li"), none, [], [],
      [.not [.compound ⟨none, none, ["x"], [], [], none⟩,
        .compound ⟨some (.name "p"), none, [], [], [], some "before"⟩]], some "part"⟩,
    .compound ⟨some .universal, none, [], [], [], some "after"⟩]

theorem readList_pseudoElementsLast_iff_pseudoText :
    readList pseudoText = .ok pseudoSelectors ∧
      Component.pseudoElementsEnd (Component.ofText pseudoText) = true ∧
      ∀ s, IsWithin pseudoSelectors s → s.PseudoElementsLast := by
  have htokens : Token.scanAll pseudoText.toList =
      [.ident "ul", .space " ", .ident "LI", .colon, .function "Not", .delim '.', .ident "x", .comma,
        .space " ", .ident "p", .colon, .colon, .ident "Before", .space " ", .closing .round, .colon,
        .colon, .function "part", .ident "a", .closing .round, .comma, .space " ", .delim '*', .colon,
        .ident "After", .space " "] := by decide +kernel
  have hread : readList pseudoText = .ok pseudoSelectors := readList_of_tokens _ htokens rfl
  have hend : Component.pseudoElementsEnd (Component.ofText pseudoText) = true := by
    rw [Component.ofText, htokens]
    rfl
  exact ⟨hread, hend, (readList_pseudoElementsLast_iff hread).2 hend⟩

/-- The child of a pseudo-element is read as a selector. -/
theorem readList_child_of_pseudoElement :
    ∃ ss, readList "p::before > a" = .ok ss ∧ ∃ s, IsWithin ss s ∧ ¬s.PseudoElementsLast := by
  have htokens : Token.scanAll "p::before > a".toList =
      [.ident "p", .colon, .colon, .ident "before", .space " ", .delim '>', .space " ",
        .ident "a"] := by decide +kernel
  refine ⟨_, readList_of_tokens _ htokens rfl, _, .member (List.mem_singleton_self _), fun hlast => ?_⟩
  cases hlast _ (List.mem_singleton_self _)

end Selector

end CriticalCss
