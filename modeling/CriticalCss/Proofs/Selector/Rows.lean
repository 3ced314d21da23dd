import CriticalCss.Proofs.Selector.Filled
import CriticalCss.Selector.RowReader

/-!
# The rows of selectors

Reading into rows and reading into selectors take the same steps, and what they hold after each step
corresponds: the rows have the compounds to the left, and as many combinators, the last of which stands
before the compound at hand.

* `parts_rowOf` and `combinators_rowOf` are the rows of a selector.
* `SelectorProgress.asRow` is the correspondence, which every step of reading keeps.
* `SelectorProgress.readsAlike` is a whole run of the reader, failures included.
-/

namespace CriticalCss

/-! ## Selectors and their rows -/

theorem rowsOf_eq_map (ss : List Selector) : rowsOf ss = ss.map rowOf := by
  induction ss with
  | nil => rfl
  | cons s ss ih => rw [rowsOf, ih, List.map_cons]

theorem rowPseudoClassesOf_eq_map (qs : List PseudoClass) :
    rowPseudoClassesOf qs = qs.map PseudoClass.toRows := by
  induction qs with
  | nil => rfl
  | cons q qs ih => rw [rowPseudoClassesOf, ih, List.map_cons]

/-- Only the pseudo-classes of a compound change. -/
theorem rowPartOf_eq (p : Compound) :
    rowPartOf p = ⟨p.type, p.id, p.classes, p.attributes, p.pseudoClasses.map PseudoClass.toRows,
      p.pseudoElement⟩ := by
  rw [rowPartOf, rowPseudoClassesOf_eq_map]

theorem pseudoElement_rowPartOf (p : Compound) : (rowPartOf p).pseudoElement = p.pseudoElement := by
  rw [rowPartOf_eq]

theorem isEmpty_rowPartOf (p : Compound) : (rowPartOf p).isEmpty = p.isEmpty := by
  rw [rowPartOf_eq, CompoundOf.isEmpty, CompoundOf.isEmpty, List.isEmpty_map]

/-- Behind a compound there is room for a combinator. -/
theorem RowOf.combine_eq {P : Type} {r : RowOf P} (h : r.parts ≠ []) (c : Combinator)
    (part : CompoundOf P) : r.combine c part = ⟨r.parts ++ [part], r.combinators ++ [c]⟩ := by
  rw [combine, List.isEmpty_eq_false_iff.2 h]
  rfl

theorem parts_rowOf (s : Selector) : (rowOf s).parts = s.parts.map rowPartOf := by
  induction s with
  | compound p => rfl
  | combined left c p ih =>
    show (rowOf left).parts ++ [rowPartOf p] = _
    rw [ih, SelectorOf.parts, List.map_append, List.map_singleton]

/-- The first compound has no combinator before it, and all others have one. -/
theorem combinators_rowOf (s : Selector) : (rowOf s).combinators = s.combinators := by
  induction s with
  | compound p => rfl
  | combined left c p ih =>
    have hparts : (rowOf left).parts ≠ [] := by
      rw [parts_rowOf, ← List.length_pos_iff, List.length_map, left.length_parts]
      exact Nat.succ_pos _
    rw [rowOf, RowOf.combine_eq hparts, ih, SelectorOf.combinators]

theorem rowOf_eq (s : Selector) : rowOf s = ⟨s.parts.map rowPartOf, s.combinators⟩ := by
  rw [← parts_rowOf, ← combinators_rowOf]

/-! ## Reading -/

namespace SelectorProgress

/-- What has been read of a selector, in rows. -/
def asRow (s : SelectorProgress) : RowProgress :=
  ⟨s.before.map rowPartOf, match s.left with
    | none => []
    | some (left, c) => left.combinators ++ [c], rowPartOf s.part, s.pending⟩

variable (s : SelectorProgress)

theorem parts_selector_asRow :
    s.selector.parts.map rowPartOf = s.asRow.parts ++ [s.asRow.part] := by
  rw [parts_selector, List.map_append, List.map_singleton]
  rfl

theorem combinators_selector_asRow : s.selector.combinators = s.asRow.combinators := by
  obtain ⟨left, part, pending⟩ := s
  cases left <;> rfl

theorem isEmpty_part_asRow : s.asRow.part.isEmpty = s.part.isEmpty :=
  isEmpty_rowPartOf s.part

theorem pending_asRow : s.asRow.pending = s.pending := rfl

theorem awaitsPart_asRow : s.asRow.awaitsPart = s.awaitsPart := rfl

theorem asRow_space : s.asRow.space = s.space.asRow := by
  unfold RowProgress.space space
  rw [isEmpty_part_asRow, pending_asRow]
  split <;> rfl

theorem asRow_combine (c : Combinator) (t : Token) :
    s.asRow.combine c t = (s.combine c t).map asRow := by
  unfold RowProgress.combine combine
  rw [isEmpty_part_asRow, awaitsPart_asRow]
  split <;> rfl

/-- A pending combinator and the compound at hand go to their rows together. -/
theorem asRow_beginPart : s.asRow.beginPart = s.beginPart.map asRow := by
  unfold RowProgress.beginPart beginPart
  rw [pending_asRow]
  cases s.pending with
  | none =>
    show (if (rowPartOf s.part).pseudoElement.isSome then _ else _) = _
    rw [pseudoElement_rowPartOf]
    dsimp only
    split <;> rfl
  | some c =>
    rw [← parts_selector_asRow, ← combinators_selector_asRow]
    rfl

/-- The last compound goes to its row alone. -/
theorem asRow_finish : s.asRow.finish = s.finish.map rowOf := by
  unfold RowProgress.finish finish
  rw [isEmpty_part_asRow, awaitsPart_asRow, ← parts_selector_asRow, ← combinators_selector_asRow,
    ← rowOf_eq]
  split
  · rfl
  · split <;> rfl

/-- A change of the compound at hand. -/
theorem asRow_onPart {f : Compound → Compound} {g : RowCompound → RowCompound}
    (h : rowPartOf (f s.part) = g (rowPartOf s.part)) : s.asRow.onPart g = (s.onPart f).asRow := by
  show (⟨_, _, g (rowPartOf s.part), _⟩ : RowProgress) = _
  rw [← h]
  rfl

theorem asRow_withPseudoClass (q : PseudoClass) :
    s.asRow.onPart (·.withPseudoClass q.toRows) = (s.onPart (·.withPseudoClass q)).asRow := by
  apply asRow_onPart
  simp only [rowPartOf_eq, CompoundOf.withPseudoClass, List.map_append, List.map_singleton]

theorem asRow_withId (n : String) :
    s.asRow.onPart (·.withId n) = (s.onPart (·.withId n)).asRow := by
  apply asRow_onPart
  simp only [rowPartOf_eq, CompoundOf.withId]
  split <;> rfl

theorem asRow_withClass (n : String) :
    s.asRow.onPart (·.withClass n) = (s.onPart (·.withClass n)).asRow :=
  s.asRow_onPart (by simp only [rowPartOf_eq, CompoundOf.withClass])

theorem asRow_withAttribute (test : AttributeTest) :
    s.asRow.onPart (·.withAttribute test) = (s.onPart (·.withAttribute test)).asRow :=
  s.asRow_onPart (by simp only [rowPartOf_eq, CompoundOf.withAttribute])

theorem asRow_name (n : String) : s.asRow.name n = (s.name n).map asRow := by
  unfold RowProgress.name name
  rw [isEmpty_part_asRow]
  split
  · exact congrArg Except.ok (s.asRow_onPart (by simp only [rowPartOf_eq]))
  · rfl

theorem asRow_universal : s.asRow.universal = s.universal.map asRow := by
  unfold RowProgress.universal universal
  rw [isEmpty_part_asRow]
  split
  · exact congrArg Except.ok (s.asRow_onPart (by simp only [rowPartOf_eq]))
  · rfl

theorem asRow_pseudoElement (n : String) : s.asRow.pseudoElement n = (s.pseudoElement n).asRow :=
  s.asRow_onPart (by simp only [rowPartOf_eq])

theorem asRow_named (n : String) : s.asRow.named n = (s.named n).map asRow := by
  unfold RowProgress.named named
  split
  · exact congrArg Except.ok (s.asRow_pseudoElement n)
  · cases Condition.ofName? n with
    | none => rfl
    | some c => exact congrArg Except.ok (s.asRow_withPseudoClass (.condition c))

end SelectorProgress

/-- Readings that go on alike from the same result, or from results that correspond. -/
theorem bind_map_eq {ε α β γ δ : Type} {x : Except ε α} {y : Except ε β} {f : α → β}
    {g : γ → δ} {k : α → Except ε γ} {k' : β → Except ε δ} (hxy : y = x.map f)
    (h : ∀ a, k' (f a) = (k a).map g) : y >>= k' = (x >>= k).map g := by
  subst hxy
  cases x with
  | error e => rfl
  | ok a => exact h a

theorem bind_eq_map {ε α γ δ : Type} {x : Except ε α} {g : γ → δ} {k : α → Except ε γ}
    {k' : α → Except ε δ} (h : ∀ a, k' a = (k a).map g) : x >>= k' = (x >>= k).map g := by
  cases x with
  | error e => rfl
  | ok a => exact h a

namespace SelectorProgress

variable {s : SelectorProgress} {cs rest : List Component}

/-- Reading on into rows gives the rows of what reading on gives. -/
def ReadsAlike (s : SelectorProgress) (cs : List Component) : Prop :=
  readRows s.asRow cs = (readSelectors s cs).map rowsOf

theorem readRows_of_unexpected {c : Component} (h : c.isExpected = false) (s : RowProgress)
    (rest : List Component) :
    readRows s (c :: rest) = s.beginPart >>= fun _ => .error (.unexpectedToken c.head) := by
  rw [readRows]
  all_goals (intros; subst_vars; cases h)

theorem readRows_of_mark {c : Char} {k : Combinator} (hmark : Combinator.ofMark? c = some k)
    (s : RowProgress) (rest : List Component) :
    readRows s (.token (.delim c) :: rest) =
      s.combine k (.delim c) >>= fun t => readRows t rest := by
  have hpoint : c ≠ '.' := by rintro rfl; cases hmark
  have hasterisk : c ≠ '*' := by rintro rfl; cases hmark
  rw [readRows]
  · rw [hmark]
  · exact hpoint
  · exact hasterisk

theorem readRows_of_noMark {c : Char} (hpoint : c ≠ '.') (hasterisk : c ≠ '*')
    (hmark : Combinator.ofMark? c = none) (s : RowProgress) (rest : List Component) :
    readRows s (.token (.delim c) :: rest) =
      s.beginPart >>= fun _ => .error (.unexpectedToken (.delim c)) := by
  rw [readRows]
  · rw [hmark]
  · exact hpoint
  · exact hasterisk

theorem readRows_of_colonFault {e : SelectorFault} (h : colonFault? rest = some e) (s : RowProgress) :
    readRows s (.token .colon :: rest) = s.beginPart >>= fun _ => .error e := by
  rw [readRows]
  unfold colonFault? at h
  split at h <;> cases h
  all_goals simp [*]

/-- After a colon there is a pseudo-element or a pseudo-class.  The rows inside of a pseudo-class are
read alike, as they are read from something smaller. -/
theorem readsAlike_colon
    (ih : ∀ t cs, sizeOf cs < sizeOf (Component.token .colon :: rest) → ReadsAlike t cs) :
    s.ReadsAlike (.token .colon :: rest) := by
  cases pseudoHead rest with
  | pseudoElement n rest =>
    rw [ReadsAlike, readRows, readSelectors]
    refine bind_map_eq s.asRow_beginPart fun begun => ?_
    dsimp only
    rw [asRow_pseudoElement]
    exact ih _ rest (by simp only [List.cons.sizeOf_spec]; omega)
  | pseudoFunction n content rest =>
    rw [ReadsAlike, readRows, readSelectors]
    refine bind_map_eq s.asRow_beginPart fun begun => ?_
    dsimp only
    rw [asRow_pseudoElement]
    exact ih _ rest (by simp only [List.cons.sizeOf_spec]; omega)
  | name n rest =>
    rw [ReadsAlike, readRows, readSelectors]
    refine bind_map_eq s.asRow_beginPart fun begun => ?_
    exact bind_map_eq (begun.asRow_named n) fun t =>
      ih t rest (by simp only [List.cons.sizeOf_spec]; omega)
  | function n content rest =>
    rw [ReadsAlike, readRows, readSelectors]
    refine bind_map_eq s.asRow_beginPart fun begun => ?_
    have hcontent : start.ReadsAlike content :=
      ih _ _ (by simp only [List.cons.sizeOf_spec, Component.block.sizeOf_spec]; omega)
    have hrest : ∀ q : PseudoClass,
        readRows (begun.asRow.onPart (·.withPseudoClass q.toRows)) rest =
          (readSelectors (begun.onPart (·.withPseudoClass q)) rest).map rowsOf := by
      intro q
      rw [asRow_withPseudoClass]
      exact ih _ rest (by simp only [List.cons.sizeOf_spec]; omega)
    dsimp only [readRowArgument, readArgument]
    cases Counting.ofName? (Text.lower n) with
    | some counting => exact bind_eq_map fun positions => hrest (.nth counting positions)
    | none =>
      dsimp only
      split
      · exact bind_map_eq hcontent fun inner => hrest (.not inner)
      · split
        · exact bind_map_eq hcontent fun inner => hrest (.is inner)
        · rfl
  | fault rest e hfault =>
    rw [ReadsAlike, readRows_of_colonFault hfault, readSelectors_of_colonFault hfault]
    exact bind_map_eq s.asRow_beginPart fun begun => rfl

/-- The induction is on the size of the components, so that it reaches the arguments of
pseudo-classes. -/
theorem readsAlike (s : SelectorProgress) (cs : List Component) : s.ReadsAlike cs := by
  induction hsize : sizeOf cs using Nat.strongRecOn generalizing s cs with
  | _ size ih =>
    subst hsize
    replace ih : ∀ t rest, sizeOf rest < sizeOf cs → ReadsAlike t rest :=
      fun t rest hlt => ih _ hlt t rest rfl
    cases selectorHead cs with
    | ends =>
      rw [ReadsAlike, readRows, readSelectors]
      exact bind_map_eq s.asRow_finish fun first => rfl
    | comma rest =>
      rw [ReadsAlike, readRows, readSelectors]
      refine bind_map_eq s.asRow_finish fun first => ?_
      have hrest : start.ReadsAlike rest := ih _ _ (by simp only [List.cons.sizeOf_spec]; omega)
      exact bind_map_eq hrest fun more => rfl
    | space text rest =>
      rw [ReadsAlike, readRows, readSelectors, asRow_space]
      exact ih _ rest (by simp only [List.cons.sizeOf_spec]; omega)
    | name n rest =>
      rw [ReadsAlike, readRows, readSelectors]
      refine bind_map_eq s.asRow_beginPart fun begun => ?_
      exact bind_map_eq (begun.asRow_name n) fun t =>
        ih t rest (by simp only [List.cons.sizeOf_spec]; omega)
    | id n rest =>
      rw [ReadsAlike, readRows, readSelectors]
      refine bind_map_eq s.asRow_beginPart fun begun => ?_
      rw [asRow_withId]
      exact ih _ rest (by simp only [List.cons.sizeOf_spec]; omega)
    | point rest =>
      rw [ReadsAlike, readRows, readSelectors]
      refine bind_map_eq s.asRow_beginPart fun begun => ?_
      split
      · next n rest =>
        rw [asRow_withClass]
        exact ih _ rest (by simp only [List.cons.sizeOf_spec]; omega)
      · simp [Except.map]
    | asterisk rest =>
      rw [ReadsAlike, readRows, readSelectors]
      refine bind_map_eq s.asRow_beginPart fun begun => ?_
      exact bind_map_eq begun.asRow_universal fun t =>
        ih t rest (by simp only [List.cons.sizeOf_spec]; omega)
    | mark c rest hpoint hasterisk =>
      cases hmark : Combinator.ofMark? c with
      | none =>
        rw [ReadsAlike, readRows_of_noMark hpoint hasterisk hmark,
          readSelectors_of_noMark hpoint hasterisk hmark]
        exact bind_map_eq s.asRow_beginPart fun begun => rfl
      | some k =>
        rw [ReadsAlike, readRows_of_mark hmark, readSelectors_of_mark hmark]
        exact bind_map_eq (s.asRow_combine k _) fun t =>
          ih t rest (by simp only [List.cons.sizeOf_spec]; omega)
    | test content rest =>
      rw [ReadsAlike, readRows, readSelectors]
      refine bind_map_eq s.asRow_beginPart fun begun => bind_eq_map fun test => ?_
      rw [asRow_withAttribute]
      exact ih _ rest (by simp only [List.cons.sizeOf_spec]; omega)
    | colon rest => exact readsAlike_colon ih
    | unexpected c rest hunexpected =>
      rw [ReadsAlike, readRows_of_unexpected hunexpected, readSelectors_of_unexpected hunexpected]
      exact bind_map_eq s.asRow_beginPart fun begun => rfl

end SelectorProgress

/-- A list is read into rows as it is read into selectors. -/
theorem Row.readList_eq (text : String) :
    readList text = (Selector.readList text).map rowsOf := by
  have hread : readRows .start (Component.ofText text) = _ :=
    SelectorProgress.start.readsAlike (Component.ofText text)
  rw [readList, Selector.readList, hread]
  cases readSelectors .start (Component.ofText text) with
  | error e => rfl
  | ok ss => rfl

end CriticalCss
