import CriticalCss.Proofs.Selector.PseudoElements

/-!
# No compound is empty

Every compound of a selector that is read has a test, at every depth.  A combinator is accepted only
after a compound with a test, and the compound at hand is put into the selector only when a combinator
stands after it or when the selector ends.

* `ReadsPart.exists_onPart` says what a part of a compound can change.
* `Advances.isFilled` is what every step of reading keeps.
* `allFilled_of_readSelectors` is what a whole run of the reader gives.
-/

namespace CriticalCss

/-- Every compound has a test. -/
def SelectorOf.IsFilled (s : SelectorOf PseudoClass) : Prop :=
  ∀ p ∈ s.parts, p.isEmpty = false

/-- Every compound has a test, at every depth. -/
def Selector.AllFilled (ss : List Selector) : Prop :=
  ∀ s, IsWithin ss s → s.IsFilled

/-- Every compound inside of this one has a test. -/
def CompoundOf.InnerFilled (p : CompoundOf PseudoClass) : Prop :=
  ∀ q ∈ p.pseudoClasses, ∀ inner, q.Holds inner → Selector.AllFilled inner

namespace SelectorProgress

/-- What has been read has no empty compound, but for the one at hand, which may be empty as long as
no combinator stands after it. -/
structure IsFilled (s : SelectorProgress) : Prop where
  before : ∀ p ∈ s.before, p.isEmpty = false ∧ p.InnerFilled
  part : s.part.InnerFilled
  pending : s.pending ≠ none → s.part.isEmpty = false

variable {s t : SelectorProgress}

theorem isFilled_start : start.IsFilled :=
  ⟨nofun, nofun, fun h => absurd rfl h⟩

theorem IsFilled.parts_selector (h : s.IsFilled) (hpart : s.part.isEmpty = false) :
    ∀ p ∈ s.selector.parts, p.isEmpty = false ∧ p.InnerFilled := by
  intro p hp
  rw [SelectorProgress.parts_selector] at hp
  rcases List.mem_append.1 hp with hp | hp
  · exact h.before p hp
  · rw [List.mem_singleton.1 hp]
    exact ⟨hpart, h.part⟩

theorem IsFilled.space (h : s.IsFilled) : s.space.IsFilled := by
  unfold SelectorProgress.space
  split
  · next hspace =>
    rw [Bool.and_eq_true, Bool.not_eq_true'] at hspace
    exact ⟨h.before, h.part, fun _ => hspace.1⟩
  · exact h

theorem IsFilled.combine (h : s.IsFilled) {k : Combinator} {token : Token}
    (ht : s.combine k token = .ok t) : t.IsFilled := by
  unfold SelectorProgress.combine at ht
  split at ht
  · cases ht
  · next hnot =>
    cases ht
    rw [Bool.or_eq_true, not_or, Bool.not_eq_true] at hnot
    exact ⟨h.before, h.part, fun _ => hnot.1⟩

/-- The compound that a combinator stands after has a test, so it may be put into the selector. -/
theorem IsFilled.beginPart (h : s.IsFilled) (ht : s.beginPart = .ok t) :
    t.IsFilled ∧ t.pending = none := by
  unfold SelectorProgress.beginPart at ht
  dsimp only at ht
  split at ht
  · next hpending =>
    split at ht
    · cases ht
    · cases ht
      exact ⟨h, hpending⟩
  · next c hpending =>
    have hpart := h.pending (by rw [hpending]; exact Option.some_ne_none c)
    cases ht
    exact ⟨⟨h.parts_selector hpart, nofun, fun hne => absurd rfl hne⟩, rfl⟩

theorem IsFilled.finish (h : s.IsFilled) {selector : Selector} (ht : s.finish = .ok selector) :
    Selector.AllFilled [selector] := by
  unfold SelectorProgress.finish at ht
  split at ht
  · cases ht
  · next hpart =>
    split at ht
    · cases ht
    · cases ht
      have hparts := h.parts_selector (Bool.eq_false_iff.2 hpart)
      refine Selector.forall_isWithin_singleton.2 ⟨fun p hp => (hparts p hp).1, fun p hp => ?_⟩
      exact (hparts p hp).2

end SelectorProgress

variable {s t : SelectorProgress} {cs rest : List Component} {ss : List Selector}

/-- A part changes the compound at hand only, and of its pseudo-classes it changes nothing or adds
one, whose selectors are read from something smaller. -/
theorem ReadsPart.exists_onPart (h : ReadsPart s cs t rest) :
    ∃ f added, t = s.onPart f ∧
      (f s.part).pseudoClasses = s.part.pseudoClasses ++ added ∧
      ∀ q ∈ added, ∀ inner, q.Holds inner →
        ∃ content, sizeOf content < sizeOf cs ∧ readSelectors .start content = .ok inner := by
  cases h with
  | name named =>
    unfold SelectorProgress.name at named
    split at named
    · cases named
      exact ⟨_, [], rfl, (List.append_nil _).symm, nofun⟩
    · cases named
  | universal named =>
    unfold SelectorProgress.universal at named
    split at named
    · cases named
      exact ⟨_, [], rfl, (List.append_nil _).symm, nofun⟩
    · cases named
  | id =>
    refine ⟨_, [], rfl, ?_, nofun⟩
    unfold CompoundOf.withId
    split <;> exact (List.append_nil _).symm
  | className => exact ⟨_, [], rfl, (List.append_nil _).symm, nofun⟩
  | attributeTest read => exact ⟨_, [], rfl, (List.append_nil _).symm, nofun⟩
  | pseudoElement => exact ⟨_, [], rfl, (List.append_nil _).symm, nofun⟩
  | pseudoFunction => exact ⟨_, [], rfl, (List.append_nil _).symm, nofun⟩
  | named named =>
    unfold SelectorProgress.named at named
    split at named
    · cases named
      exact ⟨_, [], rfl, (List.append_nil _).symm, nofun⟩
    · split at named
      · cases named
        refine ⟨_, [.condition _], rfl, rfl, fun q hq inner hinner => ?_⟩
        rw [List.mem_singleton.1 hq] at hinner
        rcases hinner with hinner | hinner <;> cases hinner
      · cases named
  | nth counts read =>
    refine ⟨_, [.nth _ _], rfl, rfl, fun q hq inner hinner => ?_⟩
    rw [List.mem_singleton.1 hq] at hinner
    rcases hinner with hinner | hinner <;> cases hinner
  | not counts named read =>
    refine ⟨_, [.not _], rfl, rfl, fun q hq inner hinner => ?_⟩
    rw [List.mem_singleton.1 hq] at hinner
    rcases hinner with hinner | hinner <;> cases hinner
    exact ⟨_, by simp; omega, read⟩
  | is counts other named read =>
    refine ⟨_, [.is _], rfl, rfl, fun q hq inner hinner => ?_⟩
    rw [List.mem_singleton.1 hq] at hinner
    rcases hinner with hinner | hinner <;> cases hinner
    exact ⟨_, by simp; omega, read⟩

/-- A step leaves no empty compound behind.  The selectors inside of a part are given by what holds
of everything smaller. -/
theorem Advances.isFilled (h : Advances s cs t rest) (hs : s.IsFilled)
    (hinner : ∀ content inner, sizeOf content < sizeOf cs →
      readSelectors .start content = .ok inner → Selector.AllFilled inner) : t.IsFilled := by
  cases h with
  | space => exact hs.space
  | combinator mark combined => exact hs.combine combined
  | part begins reads =>
    obtain ⟨hbegun, hpending⟩ := hs.beginPart begins
    obtain ⟨f, added, rfl, hclasses, hadded⟩ := reads.exists_onPart
    refine ⟨hbegun.before, fun q hq inner hholds => ?_, fun hne => absurd hpending hne⟩
    have hq : q ∈ (f _).pseudoClasses := hq
    rw [hclasses] at hq
    rcases List.mem_append.1 hq with hq | hq
    · exact hbegun.part q hq inner hholds
    · obtain ⟨content, hlt, hread⟩ := hadded q hq inner hholds
      exact hinner content inner hlt hread

/-- No compound that is read is empty, at any depth.  The induction is on the size of the components,
so that it reaches the arguments of pseudo-classes. -/
theorem allFilled_of_readSelectors (hs : s.IsFilled) (h : readSelectors s cs = .ok ss) :
    Selector.AllFilled ss := by
  induction hsize : sizeOf cs using Nat.strongRecOn generalizing s cs ss with
  | _ size ih =>
    subst hsize
    cases cs with
    | nil =>
      rw [readSelectors] at h
      obtain ⟨selector, hfinish, h⟩ := exists_of_bind_eq_ok h
      cases h
      exact hs.finish hfinish
    | cons c rest =>
      rcases readSelectors_cons h with
        ⟨rfl, first, more, hfirst, hmore, rfl⟩ | ⟨t, after, hstep, hafter⟩
      · have hrest := ih _ (by simp) SelectorProgress.isFilled_start hmore rfl
        exact Selector.forall_isWithin_cons.2 ⟨hs.finish hfirst, hrest⟩
      · have ht : t.IsFilled := hstep.isFilled hs fun content inner hlt hread =>
          ih _ hlt SelectorProgress.isFilled_start hread rfl
        exact ih _ hstep.sizeOf_lt ht hafter rfl

theorem Selector.allFilled_of_readList {text : String} (h : readList text = .ok ss) :
    AllFilled ss :=
  allFilled_of_readSelectors SelectorProgress.isFilled_start (mapError_eq_ok_iff.1 h)

end CriticalCss
