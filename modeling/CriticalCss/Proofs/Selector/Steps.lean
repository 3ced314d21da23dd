import CriticalCss.Selector.Reader

/-!
# The steps of reading a selector

Between two commas a selector is read step by step.  `ReadsPart` lists what is read as a part of a
compound, and `Advances` adds white space and combinators.

* `SelectorHead` and `PseudoHead` tell apart what a reader of selectors finds at a place and after a colon.
* `Advances.readSelectors_eq`: a step leads on to reading the rest.
* `readSelectors_cons`: what is read successfully begins with a comma or with a step.
* `readList_of_tokens`: a list is read from the tokens of its text.
-/

namespace CriticalCss

/-! ## What stands at a place -/

/-- Whether a reader of selectors goes on with a component or ends a selector at it. -/
def Component.isExpected : Component → Bool
  | .token .comma => true
  | .token (.space _) => true
  | .token (.ident _) => true
  | .token (.idHash _) => true
  | .token (.delim _) => true
  | .token .colon => true
  | .block (.opening .square) _ => true
  | _ => false

/-- What a reader of selectors finds at a place. -/
inductive SelectorHead : List Component → Prop where
  | ends : SelectorHead []
  | comma (rest : List Component) : SelectorHead (.token .comma :: rest)
  | space (text : String) (rest : List Component) : SelectorHead (.token (.space text) :: rest)
  | name (n : String) (rest : List Component) : SelectorHead (.token (.ident n) :: rest)
  | id (n : String) (rest : List Component) : SelectorHead (.token (.idHash n) :: rest)
  | point (rest : List Component) : SelectorHead (.token (.delim '.') :: rest)
  | asterisk (rest : List Component) : SelectorHead (.token (.delim '*') :: rest)
  | mark (c : Char) (rest : List Component) (point : c ≠ '.') (asterisk : c ≠ '*') :
    SelectorHead (.token (.delim c) :: rest)
  | test (content rest : List Component) : SelectorHead (.block (.opening .square) content :: rest)
  | colon (rest : List Component) : SelectorHead (.token .colon :: rest)
  | unexpected (c : Component) (rest : List Component) (unexpected : c.isExpected = false) :
    SelectorHead (c :: rest)

theorem selectorHead (cs : List Component) : SelectorHead cs := by
  cases cs with
  | nil => exact .ends
  | cons c rest =>
    cases c with
    | token t =>
      cases t with
      | comma => exact .comma rest
      | space text => exact .space text rest
      | ident n => exact .name n rest
      | idHash n => exact .id n rest
      | colon => exact .colon rest
      | delim c =>
        by_cases hpoint : c = '.'
        · exact hpoint ▸ .point rest
        by_cases hasterisk : c = '*'
        · exact hasterisk ▸ .asterisk rest
        · exact .mark c rest hpoint hasterisk
      | _ => exact .unexpected _ rest rfl
    | block opening content =>
      cases opening with
      | opening b =>
        cases b with
        | square => exact .test content rest
        | _ => exact .unexpected _ rest rfl
      | _ => exact .unexpected _ rest rfl

/-- The fault of what follows a colon, where no pseudo-class and no pseudo-element does. -/
def colonFault? : List Component → Option SelectorFault
  | [] => some .endOfInput
  | .token .comma :: _ => some .endOfInput
  | [.token .colon] => some .endOfInput
  | .token .colon :: .token .comma :: _ => some .endOfInput
  | .token .colon :: .token (.ident _) :: _ => none
  | .token .colon :: .block (.function _) _ :: _ => none
  | .token .colon :: other :: _ => some (.invalidPseudoElement other.head)
  | .token (.ident _) :: _ => none
  | .block (.function _) _ :: _ => none
  | other :: _ => some (.invalidPseudoClass other.head)

/-- What a reader of selectors finds after a colon. -/
inductive PseudoHead : List Component → Prop where
  | pseudoElement (n : String) (rest : List Component) :
    PseudoHead (.token .colon :: .token (.ident n) :: rest)
  | pseudoFunction (n : String) (content rest : List Component) :
    PseudoHead (.token .colon :: .block (.function n) content :: rest)
  | name (n : String) (rest : List Component) : PseudoHead (.token (.ident n) :: rest)
  | function (n : String) (content rest : List Component) :
    PseudoHead (.block (.function n) content :: rest)
  | fault (rest : List Component) (e : SelectorFault) (fault : colonFault? rest = some e) :
    PseudoHead rest

theorem pseudoHead (cs : List Component) : PseudoHead cs := by
  cases hfault : colonFault? cs with
  | some e => exact .fault cs e hfault
  | none =>
    unfold colonFault? at hfault
    split at hfault <;> cases hfault
    · exact .pseudoElement _ _
    · exact .pseudoFunction _ _ _
    · exact .name _ _
    · exact .function _ _ _

theorem readSelectors_of_unexpected {c : Component} (h : c.isExpected = false) (s : SelectorProgress)
    (rest : List Component) :
    readSelectors s (c :: rest) = s.beginPart >>= fun _ => .error (.unexpectedToken c.head) := by
  rw [readSelectors]
  all_goals (intros; subst_vars; cases h)

theorem readSelectors_of_mark {c : Char} {k : Combinator} (hmark : Combinator.ofMark? c = some k)
    (s : SelectorProgress) (rest : List Component) :
    readSelectors s (.token (.delim c) :: rest) =
      s.combine k (.delim c) >>= fun t => readSelectors t rest := by
  have hpoint : c ≠ '.' := by rintro rfl; cases hmark
  have hasterisk : c ≠ '*' := by rintro rfl; cases hmark
  rw [readSelectors]
  · rw [hmark]
  · exact hpoint
  · exact hasterisk

theorem readSelectors_of_noMark {c : Char} (hpoint : c ≠ '.') (hasterisk : c ≠ '*')
    (hmark : Combinator.ofMark? c = none) (s : SelectorProgress) (rest : List Component) :
    readSelectors s (.token (.delim c) :: rest) =
      s.beginPart >>= fun _ => .error (.unexpectedToken (.delim c)) := by
  rw [readSelectors]
  · rw [hmark]
  · exact hpoint
  · exact hasterisk

theorem readSelectors_of_colonFault {e : SelectorFault} {rest : List Component}
    (h : colonFault? rest = some e) (s : SelectorProgress) :
    readSelectors s (.token .colon :: rest) = s.beginPart >>= fun _ => .error e := by
  rw [readSelectors]
  unfold colonFault? at h
  split at h <;> cases h
  all_goals simp [*]

/-! ## Steps -/

/-- A part of a compound is read: the progress before and after it, each with what follows. -/
inductive ReadsPart : SelectorProgress → List Component → SelectorProgress → List Component → Prop
  | name {s t : SelectorProgress} {n : String} {rest : List Component} (named : s.name n = .ok t) :
    ReadsPart s (.token (.ident n) :: rest) t rest
  | universal {s t : SelectorProgress} {rest : List Component} (named : s.universal = .ok t) :
    ReadsPart s (.token (.delim '*') :: rest) t rest
  | id {s : SelectorProgress} {n : String} {rest : List Component} :
    ReadsPart s (.token (.idHash n) :: rest) (s.onPart (·.withId n)) rest
  | className {s : SelectorProgress} {n : String} {rest : List Component} :
    ReadsPart s (.token (.delim '.') :: .token (.ident n) :: rest) (s.onPart (·.withClass n)) rest
  | attributeTest {s : SelectorProgress} {content rest : List Component} {test : AttributeTest}
    (read : AttributeTest.read content = .ok test) :
    ReadsPart s (.block (.opening .square) content :: rest) (s.onPart (·.withAttribute test)) rest
  | pseudoElement {s : SelectorProgress} {n : String} {rest : List Component} :
    ReadsPart s (.token .colon :: .token .colon :: .token (.ident n) :: rest)
      (s.pseudoElement n) rest
  /-- The arguments of a pseudo-element are left out. -/
  | pseudoFunction {s : SelectorProgress} {n : String} {content rest : List Component} :
    ReadsPart s (.token .colon :: .token .colon :: .block (.function n) content :: rest)
      (s.pseudoElement n) rest
  | named {s t : SelectorProgress} {n : String} {rest : List Component}
    (named : s.named n = .ok t) : ReadsPart s (.token .colon :: .token (.ident n) :: rest) t rest
  | nth {s : SelectorProgress} {n : String} {content rest : List Component} {counting : Counting}
    {positions : Nth} (counts : Counting.ofName? (Text.lower n) = some counting)
    (read : Nth.read content = .ok positions) :
    ReadsPart s (.token .colon :: .block (.function n) content :: rest)
      (s.onPart (·.withPseudoClass (.nth counting positions))) rest
  | not {s : SelectorProgress} {n : String} {content rest : List Component} {inner : List Selector}
    (counts : Counting.ofName? (Text.lower n) = none) (named : Text.sameLetters n "not" = true)
    (read : readSelectors .start content = .ok inner) :
    ReadsPart s (.token .colon :: .block (.function n) content :: rest)
      (s.onPart (·.withPseudoClass (.not inner))) rest
  | is {s : SelectorProgress} {n : String} {content rest : List Component} {inner : List Selector}
    (counts : Counting.ofName? (Text.lower n) = none) (other : Text.sameLetters n "not" = false)
    (named : Text.sameLetters n "is" = true ∨ Text.sameLetters n "where" = true)
    (read : readSelectors .start content = .ok inner) :
    ReadsPart s (.token .colon :: .block (.function n) content :: rest)
      (s.onPart (·.withPseudoClass (.is inner))) rest

/-- One step of reading a selector: the progress before and after it, each with what follows. -/
inductive Advances : SelectorProgress → List Component → SelectorProgress → List Component → Prop
  | space {s : SelectorProgress} {text : String} {rest : List Component} :
    Advances s (.token (.space text) :: rest) s.space rest
  | combinator {s t : SelectorProgress} {c : Char} {k : Combinator} {rest : List Component}
    (mark : Combinator.ofMark? c = some k) (combined : s.combine k (.delim c) = .ok t) :
    Advances s (.token (.delim c) :: rest) t rest
  | part {s begun t : SelectorProgress} {cs rest : List Component}
    (begins : s.beginPart = .ok begun) (reads : ReadsPart begun cs t rest) : Advances s cs t rest

/-- A result comes from a result of the first of two readings. -/
theorem exists_of_bind_eq_ok {ε α β : Type} {x : Except ε α} {f : α → Except ε β} {b : β}
    (h : x >>= f = .ok b) : ∃ a, x = .ok a ∧ f a = .ok b := by
  cases x with
  | error e => cases h
  | ok a => exact ⟨a, rfl, h⟩

theorem mapError_eq_ok_iff {ε ε' α : Type} {f : ε → ε'} {x : Except ε α} {a : α} :
    x.mapError f = .ok a ↔ x = .ok a := by
  constructor
  · intro h
    cases x with
    | error e => cases h
    | ok b => cases h; rfl
  · rintro rfl
    rfl

variable {s t begun : SelectorProgress} {c : Component} {cs rest : List Component}

theorem ReadsPart.sizeOf_lt (h : ReadsPart s cs t rest) : sizeOf rest < sizeOf cs := by
  cases h <;> simp only [List.cons.sizeOf_spec] <;> omega

theorem ReadsPart.subset (h : ReadsPart s cs t rest) : rest ⊆ cs := by
  intro c hc
  cases h <;> simp [hc]

theorem Advances.subset (h : Advances s cs t rest) : rest ⊆ cs := by
  cases h with
  | space => exact List.subset_cons_self _ _
  | combinator => exact List.subset_cons_self _ _
  | part _ reads => exact reads.subset

/-- A step takes at least one component. -/
theorem Advances.sizeOf_lt (h : Advances s cs t rest) : sizeOf rest < sizeOf cs := by
  cases h with
  | space => simp only [List.cons.sizeOf_spec]; omega
  | combinator => simp only [List.cons.sizeOf_spec]; omega
  | part _ reads => exact reads.sizeOf_lt

/-- Where a part of a compound begins, the rest is read after it. -/
theorem ReadsPart.readSelectors_eq (h : ReadsPart begun cs t rest) (hs : s.beginPart = .ok begun) :
    readSelectors s cs = readSelectors t rest := by
  cases h with
  | name named => simp [readSelectors, hs, named, bind, Except.bind]
  | universal named => simp [readSelectors, hs, named, bind, Except.bind]
  | id => simp [readSelectors, hs, bind, Except.bind]
  | className => simp [readSelectors, hs, bind, Except.bind]
  | attributeTest read => simp [readSelectors, hs, read, bind, Except.bind]
  | pseudoElement => simp [readSelectors, hs, bind, Except.bind]
  | pseudoFunction => simp [readSelectors, hs, bind, Except.bind]
  | named named => simp [readSelectors, hs, named, bind, Except.bind]
  | nth counts read =>
    have hread := (mapError_eq_ok_iff (f := SelectorFault.ofNth)).2 read
    simp [readSelectors, hs, counts, hread, bind, Except.bind]
  | not counts named read =>
    simp [readSelectors, readArgument, hs, counts, named, read, bind, Except.bind]
  | is counts other named read =>
    simp [readSelectors, readArgument, hs, counts, other, named, read, bind, Except.bind]

/-- A step leads on to reading the rest. -/
theorem Advances.readSelectors_eq (h : Advances s cs t rest) :
    readSelectors s cs = readSelectors t rest := by
  cases h with
  | space => rw [readSelectors]
  | combinator mark combined =>
    rw [readSelectors_of_mark mark, combined]
    rfl
  | part begins reads => exact reads.readSelectors_eq begins

variable {ss : List Selector}

/-- What is read after a colon begins with a pseudo-class or with a pseudo-element. -/
theorem exists_of_readSelectors_colon (h : readSelectors s (.token .colon :: rest) = .ok ss) :
    ∃ t after, Advances s (.token .colon :: rest) t after ∧ readSelectors t after = .ok ss := by
  cases pseudoHead rest with
  | pseudoElement n rest =>
    rw [readSelectors] at h
    obtain ⟨begun, hbegun, h⟩ := exists_of_bind_eq_ok h
    exact ⟨_, _, .part hbegun .pseudoElement, h⟩
  | pseudoFunction n content rest =>
    rw [readSelectors] at h
    obtain ⟨begun, hbegun, h⟩ := exists_of_bind_eq_ok h
    exact ⟨_, _, .part hbegun .pseudoFunction, h⟩
  | name n rest =>
    rw [readSelectors] at h
    obtain ⟨begun, hbegun, h⟩ := exists_of_bind_eq_ok h
    obtain ⟨t, hnamed, h⟩ := exists_of_bind_eq_ok h
    exact ⟨_, _, .part hbegun (.named hnamed), h⟩
  | function n content rest =>
    rw [readSelectors] at h
    obtain ⟨begun, hbegun, h⟩ := exists_of_bind_eq_ok h
    cases hcounting : Counting.ofName? (Text.lower n) with
    | some counting =>
      simp only [hcounting] at h
      obtain ⟨positions, hpositions, h⟩ := exists_of_bind_eq_ok h
      exact ⟨_, _, .part hbegun (.nth hcounting (mapError_eq_ok_iff.1 hpositions)), h⟩
    | none =>
      simp only [hcounting] at h
      by_cases hnot : Text.sameLetters n "not" = true
      · rw [if_pos hnot] at h
        obtain ⟨inner, hinner, h⟩ := exists_of_bind_eq_ok h
        exact ⟨_, _, .part hbegun (.not hcounting hnot hinner), h⟩
      rw [if_neg hnot] at h
      by_cases his : Text.sameLetters n "is" = true ∨ Text.sameLetters n "where" = true
      · rw [if_pos his] at h
        obtain ⟨inner, hinner, h⟩ := exists_of_bind_eq_ok h
        exact ⟨_, _, .part hbegun (.is hcounting (Bool.eq_false_iff.2 hnot) his hinner), h⟩
      · rw [if_neg his] at h
        cases h
  | fault rest e hfault =>
    rw [readSelectors_of_colonFault hfault] at h
    obtain ⟨_, -, h⟩ := exists_of_bind_eq_ok h
    cases h

/-- What is read begins with a comma or with a step. -/
theorem readSelectors_cons (h : readSelectors s (c :: rest) = .ok ss) :
    (c = .token .comma ∧ ∃ first more, s.finish = .ok first ∧
        readSelectors .start rest = .ok more ∧ ss = first :: more) ∨
      ∃ t after, Advances s (c :: rest) t after ∧ readSelectors t after = .ok ss := by
  cases selectorHead (c :: rest) with
  | comma =>
    rw [readSelectors] at h
    obtain ⟨first, hfirst, h⟩ := exists_of_bind_eq_ok h
    obtain ⟨more, hmore, h⟩ := exists_of_bind_eq_ok h
    cases h
    exact .inl ⟨rfl, first, more, hfirst, hmore, rfl⟩
  | space =>
    rw [readSelectors] at h
    exact .inr ⟨_, _, .space, h⟩
  | name =>
    rw [readSelectors] at h
    obtain ⟨begun, hbegun, h⟩ := exists_of_bind_eq_ok h
    obtain ⟨t, hname, h⟩ := exists_of_bind_eq_ok h
    exact .inr ⟨_, _, .part hbegun (.name hname), h⟩
  | id =>
    rw [readSelectors] at h
    obtain ⟨begun, hbegun, h⟩ := exists_of_bind_eq_ok h
    exact .inr ⟨_, _, .part hbegun .id, h⟩
  | point =>
    rw [readSelectors] at h
    obtain ⟨begun, hbegun, h⟩ := exists_of_bind_eq_ok h
    split at h
    · exact .inr ⟨_, _, .part hbegun .className, h⟩
    · cases h
  | asterisk =>
    rw [readSelectors] at h
    obtain ⟨begun, hbegun, h⟩ := exists_of_bind_eq_ok h
    obtain ⟨t, huniversal, h⟩ := exists_of_bind_eq_ok h
    exact .inr ⟨_, _, .part hbegun (.universal huniversal), h⟩
  | mark c rest hpoint hasterisk =>
    cases hmark : Combinator.ofMark? c with
    | some k =>
      rw [readSelectors_of_mark hmark] at h
      obtain ⟨t, hcombined, h⟩ := exists_of_bind_eq_ok h
      exact .inr ⟨_, _, .combinator hmark hcombined, h⟩
    | none =>
      rw [readSelectors_of_noMark hpoint hasterisk hmark] at h
      obtain ⟨_, -, h⟩ := exists_of_bind_eq_ok h
      cases h
  | test =>
    rw [readSelectors] at h
    obtain ⟨begun, hbegun, h⟩ := exists_of_bind_eq_ok h
    obtain ⟨test, htest, h⟩ := exists_of_bind_eq_ok h
    exact .inr ⟨_, _, .part hbegun (.attributeTest htest), h⟩
  | colon => exact .inr (exists_of_readSelectors_colon h)
  | unexpected _ _ hunexpected =>
    rw [readSelectors_of_unexpected hunexpected] at h
    obtain ⟨_, -, h⟩ := exists_of_bind_eq_ok h
    cases h

/-- A list is read from the tokens of its text. -/
theorem Selector.readList_of_tokens (ts : List Token) {text : String}
    (htokens : Token.scanAll text.toList = ts)
    (hread : readSelectors .start (Component.ofTokens ts) = .ok ss) : readList text = .ok ss := by
  rw [readList, Component.ofText, htokens, hread]
  rfl

end CriticalCss
