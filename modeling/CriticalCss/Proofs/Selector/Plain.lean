import CriticalCss.Proofs.Selector.Positions

/-!
# Selectors that need no escapes

The components of a clean text hold names and values that can be written as they are.  So do the
selectors that are read from them, at every depth of nesting: names of elements, attributes and
pseudo-elements are in lower case, no compound and no list of selectors is empty, and the numbers
in `an+b` are numbers of 32 bits.

* `SelectorProgress.IsPlain` is what every step of reading keeps.
* `isPlain_of_readSelectors` is what a whole run of the reader gives.
-/

namespace CriticalCss

/-! ## Names in lower case -/

namespace Token

theorem isNameStart_toLower {c : Char} (h : isNameStart c = true) :
    isNameStart c.toLower = true := by
  cases halpha : c.isAlpha with
  | true => simp [isNameStart, halpha]
  | false => rwa [Text.toLower_of_not_isAlpha halpha]

theorem isNameChar_toLower {c : Char} (h : (isNameChar c && c.toNat != 0) = true) :
    (isNameChar c.toLower && c.toLower.toNat != 0) = true := by
  cases halpha : c.isAlpha with
  | true =>
    have hne : c.toLower.toNat ≠ 0 := by
      intro hzero
      have hnull : c.toLower = '\x00' := Char.toNat_inj.1 hzero
      rw [← Text.isAlpha_toLower, hnull] at halpha
      cases halpha
    simp [isNameChar, isNameStart, halpha, hne]
  | false => rwa [Text.toLower_of_not_isAlpha halpha]

theorem isName_map_toLower {v : List Char} (h : isName v = true) :
    isName (v.map Char.toLower) = true := by
  rw [isName, Bool.and_eq_true]
  refine ⟨?_, List.all_eq_true.2 fun c hc => ?_⟩
  · rcases exists_of_isName h with ⟨c, w, rfl, hc⟩ | ⟨c, w, rfl, hc⟩
    · exact startsName_of_isNameStart (isNameStart_toLower hc) _
    · rcases hc with hc | rfl
      · simp [startsName, isNameStart_toLower hc]
      · rfl
  · obtain ⟨d, hd, rfl⟩ := List.mem_map.1 hc
    rw [isName, Bool.and_eq_true] at h
    exact isNameChar_toLower (List.all_eq_true.1 h.2 d hd)

theorem isQuotable_of_isName {v : List Char} (h : isName v = true) : IsQuotable v := by
  intro c hc
  rw [isName, Bool.and_eq_true] at h
  have hchar := List.all_eq_true.1 h.2 c hc
  rw [Bool.and_eq_true] at hchar
  have hne : ∀ d : Char, isNameChar d = false → c ≠ d := by
    rintro _ hd rfl
    rw [hchar.1] at hd
    cases hd
  refine ⟨hne _ (by decide), hne _ (by decide), ?_, by simpa using hchar.2⟩
  simp [isNewline, hne '\n' (by decide), hne '\r' (by decide), hne '\x0c' (by decide)]

end Token

/-- A name that needs no escapes and has no capital letters. -/
structure IsLowerName (s : String) : Prop where
  name : Token.isName s.toList = true
  lower : Text.lower s = s

theorem isLowerName_lower {s : String} (h : Token.isName s.toList = true) :
    IsLowerName (Text.lower s) where
  name := by simpa [Text.lower] using Token.isName_map_toLower h
  lower := Text.lower_lower s

/-! ## Plain selectors -/

/-- A test of an attribute that needs no escapes. -/
structure AttributeTest.IsPlain (t : AttributeTest) : Prop where
  name : IsLowerName t.name
  value : ∀ o v, t.comparison = some (o, v) → Token.IsQuotable v.toList
  /-- Only a comparison can ignore case. -/
  presence : t.comparison = none → t.ignoresCase = false

/-- A compound whose tests need no escapes, apart from its pseudo-classes. -/
structure CompoundOf.HasPlainTests {P : Type} (c : CompoundOf P) : Prop where
  type : ∀ n, c.type = some (.name n) → IsLowerName n
  id : ∀ n, c.id = some n → Token.isName n.toList = true
  classes : ∀ n ∈ c.classes, Token.isName n.toList = true
  attributes : ∀ t ∈ c.attributes, t.IsPlain
  pseudoElement : ∀ n, c.pseudoElement = some n → IsLowerName n

/-- A pseudo-class with plain selectors at every depth. -/
inductive PseudoClass.IsPlain : PseudoClass → Prop
  | condition (c : Condition) : IsPlain (.condition c)
  | nth {counting : Counting} {positions : Nth} (held : positions.IsHeld) :
    IsPlain (.nth counting positions)
  | not {ss : List (SelectorOf PseudoClass)} (nonempty : ss ≠ [])
    (tests : ∀ s ∈ ss, ∀ p ∈ s.parts, p.isEmpty = false ∧ p.HasPlainTests)
    (inside : ∀ s ∈ ss, ∀ p ∈ s.parts, ∀ q ∈ p.pseudoClasses, IsPlain q) : IsPlain (.not ss)
  | is {ss : List (SelectorOf PseudoClass)} (nonempty : ss ≠ [])
    (tests : ∀ s ∈ ss, ∀ p ∈ s.parts, p.isEmpty = false ∧ p.HasPlainTests)
    (inside : ∀ s ∈ ss, ∀ p ∈ s.parts, ∀ q ∈ p.pseudoClasses, IsPlain q) : IsPlain (.is ss)

/-- A compound that needs no escapes. -/
structure CompoundOf.IsPlain (c : CompoundOf PseudoClass) : Prop where
  tests : c.HasPlainTests
  pseudoClasses : ∀ q ∈ c.pseudoClasses, q.IsPlain

/-- A selector that needs no escapes and has no empty compound. -/
def SelectorOf.IsPlain (s : SelectorOf PseudoClass) : Prop :=
  ∀ p ∈ s.parts, p.isEmpty = false ∧ p.IsPlain

/-- A list of plain selectors that is not empty. -/
structure IsPlainList (ss : List (SelectorOf PseudoClass)) : Prop where
  nonempty : ss ≠ []
  plain : ∀ s ∈ ss, s.IsPlain

namespace IsPlainList

variable {ss : List (SelectorOf PseudoClass)}

theorem tests (h : IsPlainList ss) : ∀ s ∈ ss, ∀ p ∈ s.parts, p.isEmpty = false ∧ p.HasPlainTests :=
  fun s hs p hp => ⟨(h.plain s hs p hp).1, (h.plain s hs p hp).2.tests⟩

theorem inside (h : IsPlainList ss) : ∀ s ∈ ss, ∀ p ∈ s.parts, ∀ q ∈ p.pseudoClasses, q.IsPlain :=
  fun s hs p hp => (h.plain s hs p hp).2.pseudoClasses

end IsPlainList

namespace CompoundOf

variable {c : CompoundOf PseudoClass}

theorem isPlain_empty : (empty : CompoundOf PseudoClass).IsPlain where
  tests := ⟨nofun, nofun, nofun, nofun, nofun⟩
  pseudoClasses := nofun

theorem IsPlain.withClass (h : c.IsPlain) {n : String} (hn : Token.isName n.toList = true) :
    (c.withClass n).IsPlain where
  tests := { h.tests with
    classes := fun m hm => by
      rcases List.mem_append.1 hm with hm | hm
      · exact h.tests.classes m hm
      · rw [List.mem_singleton.1 hm]
        exact hn }
  pseudoClasses := h.pseudoClasses

theorem IsPlain.withAttribute (h : c.IsPlain) {t : AttributeTest} (ht : t.IsPlain) :
    (c.withAttribute t).IsPlain where
  tests := { h.tests with
    attributes := fun u hu => by
      rcases List.mem_append.1 hu with hu | hu
      · exact h.tests.attributes u hu
      · rw [List.mem_singleton.1 hu]
        exact ht }
  pseudoClasses := h.pseudoClasses

theorem IsPlain.withPseudoClass (h : c.IsPlain) {q : PseudoClass} (hq : q.IsPlain) :
    (c.withPseudoClass q).IsPlain where
  tests := ⟨h.tests.type, h.tests.id, h.tests.classes, h.tests.attributes, h.tests.pseudoElement⟩
  pseudoClasses p hp := by
    rcases List.mem_append.1 hp with hp | hp
    · exact h.pseudoClasses p hp
    · rw [List.mem_singleton.1 hp]
      exact hq

/-- A second id is a test of the attribute, which is plain as well. -/
theorem IsPlain.withId (h : c.IsPlain) {n : String} (hn : Token.isName n.toList = true) :
    (c.withId n).IsPlain := by
  unfold CompoundOf.withId
  split
  · exact ⟨{ h.tests with id := fun m hm => by cases hm; exact hn }, h.pseudoClasses⟩
  · have hname : IsLowerName "id" := ⟨by decide, by decide⟩
    refine h.withAttribute ⟨hname, fun o v hv => ?_, nofun⟩
    cases hv
    exact Token.isQuotable_of_isName hn

theorem IsPlain.withType (h : c.IsPlain) {type : TypeTest}
    (htype : ∀ n, type = .name n → IsLowerName n) :
    ({ c with type := some type } : Compound).IsPlain :=
  ⟨{ h.tests with type := fun n hn => htype n (Option.some.inj hn) }, h.pseudoClasses⟩

theorem IsPlain.withPseudoElement (h : c.IsPlain) {n : String} (hn : IsLowerName n) :
    ({ c with pseudoElement := some n } : Compound).IsPlain :=
  ⟨{ h.tests with pseudoElement := fun m hm => by cases hm; exact hn }, h.pseudoClasses⟩

end CompoundOf

/-! ## What is read is plain -/

theorem Component.isPlain_of_mem_dropSpaces {cs : List Component} (h : ∀ c ∈ cs, c.IsPlain) :
    ∀ c ∈ Component.dropSpaces cs, c.IsPlain :=
  fun c hc => h c ((List.dropWhile_sublist _).subset hc)

theorem Component.IsPlain.of_token {t : Token} (h : (Component.token t).IsPlain) : t.IsPlain := by
  cases h
  assumption

theorem Component.IsPlain.of_block {opening : Token} {content : List Component}
    (h : (Component.block opening content).IsPlain) :
    opening.IsPlain ∧ ∀ c ∈ content, c.IsPlain := by
  cases h
  exact ⟨‹_›, ‹_›⟩

theorem AttributeTest.isPlain_of_readValue {name : String} (hname : IsLowerName name)
    {o : AttributeOperator} {cs : List Component} (hcs : ∀ c ∈ cs, c.IsPlain) {t : AttributeTest}
    (h : readValue name o cs = .ok t) : t.IsPlain := by
  have hplain := Component.isPlain_of_mem_dropSpaces hcs
  unfold readValue at h
  split at h
  · cases h
  · next value rest heq =>
    obtain ⟨flag, -, h⟩ := exists_of_bind_eq_ok h
    rw [heq] at hplain
    cases h
    refine ⟨hname, fun o v hv => ?_, nofun⟩
    cases hv
    exact Token.isQuotable_of_isName (hplain _ List.mem_cons_self).of_token
  · next value rest heq =>
    obtain ⟨flag, -, h⟩ := exists_of_bind_eq_ok h
    rw [heq] at hplain
    cases h
    refine ⟨hname, fun o v hv => ?_, nofun⟩
    cases hv
    exact (hplain _ List.mem_cons_self).of_token
  · cases h

theorem AttributeTest.isPlain_of_read {cs : List Component} (hcs : ∀ c ∈ cs, c.IsPlain)
    {t : AttributeTest} (h : read cs = .ok t) : t.IsPlain := by
  have hplain := Component.isPlain_of_mem_dropSpaces hcs
  unfold AttributeTest.read at h
  split at h
  · cases h
  · next name rest heq =>
    rw [heq] at hplain
    have hname := isLowerName_lower (hplain _ List.mem_cons_self).of_token
    have hrest := Component.isPlain_of_mem_dropSpaces
      fun c hc => hplain c (List.mem_cons_of_mem _ hc)
    split at h
    · cases h
      exact ⟨hname, nofun, fun _ => rfl⟩
    · next c after heq' =>
      rw [heq'] at hrest
      split at h
      · cases h
      · exact isPlain_of_readValue hname (fun c hc => hrest c (List.mem_cons_of_mem _ hc)) h
  · cases h

/-- What has been read of a selector is plain, and only a compound with a test can have a
combinator after it. -/
structure SelectorProgress.IsPlain (s : SelectorProgress) : Prop where
  left : ∀ l c, s.left = some (l, c) → l.IsPlain
  part : s.part.IsPlain
  pending : s.pending ≠ none → s.part.isEmpty = false

namespace SelectorProgress

variable {s t : SelectorProgress}

theorem isPlain_start : start.IsPlain := ⟨nofun, CompoundOf.isPlain_empty, fun h => absurd rfl h⟩

theorem IsPlain.selector (h : s.IsPlain) (hpart : s.part.isEmpty = false) : s.selector.IsPlain := by
  unfold SelectorProgress.selector
  split
  · intro p hp
    rw [List.mem_singleton.1 hp]
    exact ⟨hpart, h.part⟩
  · next left c hleft =>
    intro p hp
    rcases List.mem_append.1 hp with hp | hp
    · exact h.left left c hleft p hp
    · rw [List.mem_singleton.1 hp]
      exact ⟨hpart, h.part⟩

theorem IsPlain.space (h : s.IsPlain) : s.space.IsPlain := by
  unfold SelectorProgress.space
  split
  · next hspace =>
    simp only [Bool.and_eq_true, Bool.not_eq_true'] at hspace
    exact ⟨h.left, h.part, fun _ => hspace.1⟩
  · exact h

theorem IsPlain.combine (h : s.IsPlain) {k : Combinator} {token : Token}
    (ht : s.combine k token = .ok t) : t.IsPlain := by
  unfold SelectorProgress.combine at ht
  split at ht
  · cases ht
  · next hnot =>
    cases ht
    refine ⟨h.left, h.part, fun _ => ?_⟩
    simp only [Bool.or_eq_true, not_or, Bool.not_eq_true] at hnot
    exact hnot.1

theorem IsPlain.beginPart (h : s.IsPlain) (ht : s.beginPart = .ok t) :
    t.IsPlain ∧ t.pending = none := by
  unfold SelectorProgress.beginPart at ht
  dsimp only at ht
  split at ht
  · next hpending =>
    split at ht
    · cases ht
    · cases ht
      exact ⟨h, hpending⟩
  · next c hpending =>
    have hpart := h.pending (by simp [hpending])
    cases ht
    refine ⟨⟨fun l k hl => ?_, CompoundOf.isPlain_empty, fun hne => absurd rfl hne⟩, rfl⟩
    cases hl
    exact h.selector hpart

theorem IsPlain.onPart (h : s.IsPlain) (hpending : s.pending = none) {f : Compound → Compound}
    (hf : (f s.part).IsPlain) : (s.onPart f).IsPlain :=
  ⟨h.left, hf, fun hne => absurd hpending hne⟩

theorem IsPlain.pseudoElement (h : s.IsPlain) (hpending : s.pending = none) {n : String}
    (hn : Token.isName n.toList = true) : (s.pseudoElement n).IsPlain :=
  h.onPart hpending (h.part.withPseudoElement (isLowerName_lower hn))

theorem IsPlain.named (h : s.IsPlain) (hpending : s.pending = none) {n : String}
    (hn : Token.isName n.toList = true) (ht : s.named n = .ok t) : t.IsPlain := by
  unfold SelectorProgress.named at ht
  split at ht
  · cases ht
    exact h.pseudoElement hpending hn
  · split at ht
    · cases ht
      exact h.onPart hpending (h.part.withPseudoClass (.condition _))
    · cases ht

end SelectorProgress

/-- A part of a compound keeps the progress plain where its components are plain.  The selectors
inside of it are given by what holds of everything smaller. -/
theorem ReadsPart.isPlain {s t : SelectorProgress} {cs rest : List Component}
    (h : ReadsPart s cs t rest) (hs : s.IsPlain) (hpending : s.pending = none)
    (hcs : ∀ c ∈ cs, c.IsPlain)
    (hinner : ∀ content ss, sizeOf content < sizeOf cs → (∀ c ∈ content, c.IsPlain) →
      readSelectors .start content = .ok ss → IsPlainList ss) : t.IsPlain := by
  cases h with
  | name named =>
    have hname : Token.isName _ = true := (hcs _ List.mem_cons_self).of_token
    unfold SelectorProgress.name at named
    split at named
    · cases named
      exact hs.onPart hpending
        (hs.part.withType fun m hm => TypeTest.name.inj hm ▸ isLowerName_lower hname)
    · cases named
  | universal named =>
    unfold SelectorProgress.universal at named
    split at named
    · cases named
      exact hs.onPart hpending (hs.part.withType nofun)
    · cases named
  | id => exact hs.onPart hpending (hs.part.withId (hcs _ List.mem_cons_self).of_token)
  | className =>
    exact hs.onPart hpending
      (hs.part.withClass (hcs _ (List.mem_cons_of_mem _ List.mem_cons_self)).of_token)
  | attributeTest read =>
    have hcontent := (hcs _ List.mem_cons_self).of_block.2
    exact hs.onPart hpending (hs.part.withAttribute (AttributeTest.isPlain_of_read hcontent read))
  | pseudoElement =>
    have hplain := hcs _ (List.mem_cons_of_mem _ (List.mem_cons_of_mem _ List.mem_cons_self))
    exact hs.pseudoElement hpending hplain.of_token
  | pseudoFunction =>
    have hplain := hcs _ (List.mem_cons_of_mem _ (List.mem_cons_of_mem _ List.mem_cons_self))
    exact hs.pseudoElement hpending hplain.of_block.1
  | named named =>
    exact hs.named hpending (hcs _ (List.mem_cons_of_mem _ List.mem_cons_self)).of_token named
  | nth counts read =>
    have hcontent := (hcs _ (List.mem_cons_of_mem _ List.mem_cons_self)).of_block.2
    exact hs.onPart hpending (hs.part.withPseudoClass (.nth (Nth.isHeld_of_read hcontent read)))
  | not counts named read =>
    have hcontent := (hcs _ (List.mem_cons_of_mem _ List.mem_cons_self)).of_block.2
    have hplain := hinner _ _ (by simp; omega) hcontent read
    exact hs.onPart hpending
      (hs.part.withPseudoClass (.not hplain.nonempty hplain.tests hplain.inside))
  | is counts other named read =>
    have hcontent := (hcs _ (List.mem_cons_of_mem _ List.mem_cons_self)).of_block.2
    have hplain := hinner _ _ (by simp; omega) hcontent read
    exact hs.onPart hpending
      (hs.part.withPseudoClass (.is hplain.nonempty hplain.tests hplain.inside))

theorem SelectorProgress.isPlain_of_finish {s : SelectorProgress} (hs : s.IsPlain)
    {selector : Selector} (h : s.finish = .ok selector) : selector.IsPlain := by
  unfold SelectorProgress.finish at h
  split at h
  · cases h
  · next hpart =>
    split at h
    · cases h
    · cases h
      exact hs.selector (Bool.eq_false_iff.2 hpart)

/-- What is read from plain components is a list of plain selectors.  The induction is on the size
of the components, so that it reaches the arguments of pseudo-classes. -/
theorem isPlain_of_readSelectors {s : SelectorProgress} {cs : List Component} {ss : List Selector}
    (hs : s.IsPlain) (hcs : ∀ c ∈ cs, c.IsPlain) (h : readSelectors s cs = .ok ss) :
    IsPlainList ss := by
  induction hsize : sizeOf cs using Nat.strongRecOn generalizing s cs ss with
  | ind size ih =>
    subst hsize
    cases cs with
    | nil =>
      rw [readSelectors] at h
      obtain ⟨selector, hfinish, h⟩ := exists_of_bind_eq_ok h
      cases h
      refine ⟨by simp, fun t ht => ?_⟩
      rw [List.mem_singleton.1 ht]
      exact s.isPlain_of_finish hs hfinish
    | cons c rest =>
      rcases readSelectors_cons h with
        ⟨rfl, first, more, hfirst, hmore, rfl⟩ | ⟨t, after, hstep, hafter⟩
      · have hplain := ih _ (by simp) SelectorProgress.isPlain_start
          (fun c hc => hcs c (List.mem_cons_of_mem _ hc)) hmore rfl
        refine ⟨by simp, fun t ht => ?_⟩
        rcases List.mem_cons.1 ht with rfl | ht
        · exact s.isPlain_of_finish hs hfirst
        · exact hplain.plain t ht
      · have ht : t.IsPlain := by
          cases hstep with
          | space => exact hs.space
          | combinator mark combined => exact hs.combine combined
          | part begins reads =>
            obtain ⟨hbegun, hpending⟩ := hs.beginPart begins
            exact reads.isPlain hbegun hpending hcs fun content inner hlt hcontent hinner =>
              ih _ hlt SelectorProgress.isPlain_start hcontent hinner rfl
        exact ih _ hstep.sizeOf_lt ht (fun c hc => hcs c (hstep.subset hc)) hafter rfl

end CriticalCss
