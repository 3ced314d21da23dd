import CriticalCss.Proofs.Selector.Rows
import CriticalCss.Selector.Printer

/-!
# Compounds and combinators fit

A row that is read has compounds with tests only, at least one of them, and one combinator between any
two neighbours; so have the rows inside of it.  A row that is built compound by compound has as many
combinators.  Where the rows fit, writing a row finds every combinator it looks up.

* `Row.wellFormed_of_readList` is about everything that is read, `RowOf.isCounted_of_isBuilt` about
  everything that is built.
* `Row.counted_induction` reaches the rows inside of a row that fits at every depth.
* `Row.isSome_text?` says that such a row can be written, and `rowText?_rowOf` that the text is the
  one of the selector.
-/

namespace CriticalCss

/-! ## Rows that fit -/

namespace RowOf

variable {P : Type}

/-- One combinator fewer than compounds, and none without compounds. -/
def IsCounted (r : RowOf P) : Prop :=
  r.combinators.length = r.parts.length - 1

/-- There is a compound, every compound has a test, and there is one combinator fewer. -/
structure WellFormed (r : RowOf P) : Prop where
  parts : r.parts ≠ []
  filled : ∀ p ∈ r.parts, p.isEmpty = false
  combinators : r.combinators.length + 1 = r.parts.length

theorem WellFormed.isCounted {r : RowOf P} (h : r.WellFormed) : r.IsCounted := by
  have hlength := h.combinators
  show r.combinators.length = r.parts.length - 1
  omega

/-- The rows that are built from one without compounds or from one test by adding compounds. -/
inductive IsBuilt : RowOf P → Prop
  | empty : IsBuilt .empty
  | ofType (name : String) : IsBuilt (.ofType name)
  | ofClass (name : String) : IsBuilt (.ofClass name)
  | descendant {r : RowOf P} (built : IsBuilt r) (part : CompoundOf P) : IsBuilt (r.descendant part)
  | child {r : RowOf P} (built : IsBuilt r) (part : CompoundOf P) : IsBuilt (r.child part)
  | combine {r : RowOf P} (built : IsBuilt r) (c : Combinator) (part : CompoundOf P) :
    IsBuilt (r.combine c part)

/-- The first compound brings no combinator with it, and every other one brings one. -/
theorem IsCounted.combine {r : RowOf P} (h : r.IsCounted) (c : Combinator) (part : CompoundOf P) :
    (r.combine c part).IsCounted := by
  obtain ⟨parts, combinators⟩ := r
  have hlength : combinators.length = parts.length - 1 := h
  cases parts with
  | nil => exact hlength
  | cons first parts =>
    show (combinators ++ [c]).length = (first :: parts ++ [part]).length - 1
    simp only [List.length_append, List.length_cons, List.length_nil] at hlength ⊢
    omega

theorem isCounted_of_isBuilt {r : RowOf P} (h : r.IsBuilt) : r.IsCounted := by
  induction h with
  | empty => rfl
  | ofType name => rfl
  | ofClass name => rfl
  | descendant built part ih => exact ih.combine .descendant part
  | child built part ih => exact ih.combine .child part
  | combine built c part ih => exact ih.combine c part

end RowOf

/-! ## Rows inside of rows -/

/-- The rows inside of a pseudo-class. -/
def RowPseudoClass.Holds (q : RowPseudoClass) (rows : List Row) : Prop :=
  q = .not rows ∨ q = .is rows

namespace Row

/-- A row of a list, or of a list inside of it, at any depth. -/
inductive IsWithin : List Row → Row → Prop
  | member {rows : List Row} {r : Row} (mem : r ∈ rows) : IsWithin rows r
  | inside {rows inner : List Row} {r t : Row} {p : RowCompound} {q : RowPseudoClass} (mem : r ∈ rows)
    (part : p ∈ r.parts) (pseudoClass : q ∈ p.pseudoClasses) (holds : q.Holds inner)
    (within : IsWithin inner t) : IsWithin rows t

theorem IsWithin.mono {rows more : List Row} {t : Row} (h : IsWithin rows t) (hsub : rows ⊆ more) :
    IsWithin more t := by
  cases h with
  | member mem => exact .member (hsub mem)
  | inside mem part pseudoClass holds within => exact .inside (hsub mem) part pseudoClass holds within

/-- To prove something of a row that fits at every depth, it may be taken to hold of the rows inside
of its compounds. -/
theorem counted_induction {motive : Row → Prop}
    (step : ∀ r : Row, r.IsCounted → (∀ p ∈ r.parts, ∀ q ∈ p.pseudoClasses, ∀ inner,
      q.Holds inner → ∀ t ∈ inner, motive t) → motive r)
    {r : Row} (h : ∀ t, IsWithin [r] t → t.IsCounted) : motive r := by
  induction hsize : sizeOf r using Nat.strongRecOn generalizing r with
  | _ size ih =>
    subst hsize
    have hself : r ∈ [r] := List.mem_singleton_self r
    refine step r (h r (.member hself)) fun p hp q hq inner hinner t ht => ?_
    refine ih (sizeOf t) ?_ (fun u hu => h u ?_) rfl
    · have hparts := List.sizeOf_lt_of_mem hp
      have hclasses := List.sizeOf_lt_of_mem hq
      have hmem := List.sizeOf_lt_of_mem ht
      obtain ⟨parts, combinators⟩ := r
      obtain ⟨type, id, classes, attributes, pseudoClasses, pseudoElement⟩ := p
      simp only [RowOf.mk.sizeOf_spec, CompoundOf.mk.sizeOf_spec] at hparts hclasses ⊢
      rcases hinner with rfl | rfl
      · simp only [RowPseudoClass.not.sizeOf_spec] at hclasses
        omega
      · simp only [RowPseudoClass.is.sizeOf_spec] at hclasses
        omega
    · exact .inside hself hp hq hinner (hu.mono fun v hv => by rwa [List.mem_singleton.1 hv])

end Row

/-! ## Rows that are read -/

theorem PseudoClass.exists_of_holds_toRows {q : PseudoClass} {rows : List Row}
    (h : q.toRows.Holds rows) : ∃ inner, q.Holds inner ∧ rows = rowsOf inner := by
  cases q with
  | condition c => rcases h with h | h <;> cases h
  | nth counting positions => rcases h with h | h <;> cases h
  | not inner =>
    rcases h with h | h <;> cases h
    exact ⟨inner, .inl rfl, rfl⟩
  | is inner =>
    rcases h with h | h <;> cases h
    exact ⟨inner, .inr rfl, rfl⟩

/-- What is inside of the rows of selectors are the rows of what is inside of the selectors. -/
theorem Row.IsWithin.exists_selector {rows : List Row} {r : Row} (h : IsWithin rows r) :
    ∀ ss : List Selector, rows = rowsOf ss → ∃ s, Selector.IsWithin ss s ∧ r = rowOf s := by
  induction h with
  | member mem =>
    rintro ss rfl
    rw [rowsOf_eq_map] at mem
    obtain ⟨s, hs, rfl⟩ := List.mem_map.1 mem
    exact ⟨s, .member hs, rfl⟩
  | inside mem part pseudoClass holds within ih =>
    rintro ss rfl
    rw [rowsOf_eq_map] at mem
    obtain ⟨s, hs, rfl⟩ := List.mem_map.1 mem
    rw [parts_rowOf] at part
    obtain ⟨p, hp, rfl⟩ := List.mem_map.1 part
    rw [rowPartOf_eq] at pseudoClass
    obtain ⟨q, hq, rfl⟩ := List.mem_map.1 pseudoClass
    obtain ⟨inner, hinner, rfl⟩ := PseudoClass.exists_of_holds_toRows holds
    obtain ⟨t, ht, rfl⟩ := ih inner rfl
    exact ⟨t, .inside hs hp hq hinner ht, rfl⟩

theorem length_rowOf (s : Selector) :
    (rowOf s).combinators.length + 1 = (rowOf s).parts.length := by
  rw [parts_rowOf, combinators_rowOf, List.length_map, s.length_parts]

theorem wellFormed_rowOf {s : Selector} (h : s.IsFilled) : (rowOf s).WellFormed := by
  have hlength := length_rowOf s
  refine ⟨List.ne_nil_of_length_eq_add_one hlength.symm, fun p hp => ?_, hlength⟩
  rw [parts_rowOf] at hp
  obtain ⟨q, hq, rfl⟩ := List.mem_map.1 hp
  rw [isEmpty_rowPartOf]
  exact h q hq

/-- Everything inside of a list that is read fits. -/
theorem Row.wellFormed_of_readList {text : String} {rows : List Row}
    (h : readList text = .ok rows) {r : Row} (hr : IsWithin rows r) : r.WellFormed := by
  rw [readList_eq] at h
  cases hread : Selector.readList text with
  | error e => rw [hread] at h; cases h
  | ok ss =>
    rw [hread] at h
    obtain ⟨s, hs, rfl⟩ := hr.exists_selector ss (Except.ok.inj h).symm
    exact wellFormed_rowOf (Selector.allFilled_of_readList hread s hs)

/-! ## Writing rows -/

namespace RowOf

/-- With one combinator between any two neighbours, the combinators are there to be written. -/
theorem isSome_textFrom? {combinators : List Combinator} {texts : List String} {i : Nat}
    (h : i + texts.length ≤ combinators.length + 1) : (textFrom? combinators i texts).isSome := by
  induction texts generalizing i with
  | nil => cases i <;> rfl
  | cons text texts ih =>
    rw [List.length_cons] at h
    cases i with
    | zero =>
      obtain ⟨after, hafter⟩ := Option.isSome_iff_exists.1 (ih (i := 1) (by omega))
      rw [textFrom?, hafter]
      rfl
    | succ i =>
      have hlt : i < combinators.length := by omega
      obtain ⟨after, hafter⟩ := Option.isSome_iff_exists.1 (ih (i := i + 2) (by omega))
      rw [textFrom?, List.getElem?_eq_getElem hlt, hafter]
      rfl

/-- One more compound is written behind one more combinator. -/
theorem textFrom?_append {combinators : List Combinator} (c : Combinator) {texts : List String}
    (text : String) {i : Nat} {before : String} (h : i + texts.length = combinators.length + 1)
    (hbefore : textFrom? combinators i texts = some before) :
    textFrom? (combinators ++ [c]) i (texts ++ [text]) = some (before ++ c.text ++ text) := by
  induction texts generalizing i before with
  | nil =>
    obtain rfl : i = combinators.length + 1 := h
    obtain rfl : "" = before := Option.some.inj hbefore
    rw [List.nil_append, textFrom?, List.getElem?_concat_length]
    simp [textFrom?]
  | cons first texts ih =>
    rw [List.length_cons] at h
    cases i with
    | zero =>
      rw [textFrom?] at hbefore
      obtain ⟨after, hafter, heq⟩ := Option.bind_eq_some_iff.1 hbefore
      cases heq
      have hrest := ih (i := 1) (by omega) hafter
      simp [textFrom?, hrest, String.append_assoc]
    | succ i =>
      rw [textFrom?] at hbefore
      obtain ⟨k, hk, heq⟩ := Option.bind_eq_some_iff.1 hbefore
      obtain ⟨after, hafter, heq⟩ := Option.bind_eq_some_iff.1 heq
      cases heq
      have hrest := ih (i := i + 2) (by omega) hafter
      have hget : (combinators ++ [c])[i]? = some k := by
        rw [List.getElem?_append_left (by omega), hk]
      simp [textFrom?, hget, hrest, String.append_assoc]

end RowOf

theorem exists_rowTexts? {rows : List Row} (h : ∀ r ∈ rows, (rowText? r).isSome) :
    ∃ texts, rowTexts? rows = some texts := by
  induction rows with
  | nil => exact ⟨[], rfl⟩
  | cons r rows ih =>
    obtain ⟨hr, hrows⟩ := List.forall_mem_cons.1 h
    obtain ⟨text, htext⟩ := Option.isSome_iff_exists.1 hr
    obtain ⟨texts, htexts⟩ := ih hrows
    exact ⟨text :: texts, by rw [rowTexts?, htext, htexts]; rfl⟩

theorem isSome_rowPseudoClassTexts? {qs : List RowPseudoClass} (h : ∀ q ∈ qs, q.text?.isSome) :
    (rowPseudoClassTexts? qs).isSome := by
  induction qs with
  | nil => rfl
  | cons q qs ih =>
    obtain ⟨hq, hqs⟩ := List.forall_mem_cons.1 h
    obtain ⟨text, htext⟩ := Option.isSome_iff_exists.1 hq
    obtain ⟨texts, htexts⟩ := Option.isSome_iff_exists.1 (ih hqs)
    rw [rowPseudoClassTexts?, htext, htexts]
    rfl

theorem exists_rowPartTexts? {ps : List RowCompound} (h : ∀ p ∈ ps, (rowPartText? p).isSome) :
    ∃ texts, rowPartTexts? ps = some texts ∧ texts.length = ps.length := by
  induction ps with
  | nil => exact ⟨[], rfl, rfl⟩
  | cons p ps ih =>
    obtain ⟨hp, hps⟩ := List.forall_mem_cons.1 h
    obtain ⟨text, htext⟩ := Option.isSome_iff_exists.1 hp
    obtain ⟨texts, htexts, hlength⟩ := ih hps
    exact ⟨text :: texts, by rw [rowPartTexts?, htext, htexts]; rfl, congrArg (· + 1) hlength⟩

/-- A row that fits at every depth can be written: no combinator is looked up where there is none. -/
theorem Row.isSome_text? {r : Row} (h : ∀ t, IsWithin [r] t → t.IsCounted) : r.text?.isSome := by
  refine counted_induction (motive := fun r => (rowText? r).isSome) (fun r hr ih => ?_) h
  have hparts : ∀ p ∈ r.parts, (rowPartText? p).isSome := by
    intro p hp
    rw [rowPartText?, Option.isSome_map]
    refine isSome_rowPseudoClassTexts? fun q hq => ?_
    cases q with
    | condition c => rfl
    | nth counting positions => rfl
    | not inner =>
      obtain ⟨texts, htexts⟩ := exists_rowTexts? (ih p hp _ hq inner (.inl rfl))
      rw [RowPseudoClass.text?, htexts]
      rfl
    | is inner =>
      obtain ⟨texts, htexts⟩ := exists_rowTexts? (ih p hp _ hq inner (.inr rfl))
      rw [RowPseudoClass.text?, htexts]
      rfl
  obtain ⟨texts, htexts, hlength⟩ := exists_rowPartTexts? hparts
  have hcount : r.combinators.length = r.parts.length - 1 := hr
  rw [rowText?, htexts]
  exact RowOf.isSome_textFrom? (by omega)

/-! ## The text is the one of the selector -/

theorem rowPartTexts?_concat {ps : List RowCompound} {p : RowCompound} {texts : List String}
    {text : String} (hps : rowPartTexts? ps = some texts) (hp : rowPartText? p = some text) :
    rowPartTexts? (ps ++ [p]) = some (texts ++ [text]) ∧ texts.length = ps.length := by
  induction ps generalizing texts with
  | nil =>
    cases hps
    exact ⟨by rw [List.nil_append, rowPartTexts?, hp]; rfl, rfl⟩
  | cons first ps ih =>
    rw [rowPartTexts?] at hps
    obtain ⟨head, hhead, hps⟩ := Option.bind_eq_some_iff.1 hps
    obtain ⟨tail, htail, hps⟩ := Option.bind_eq_some_iff.1 hps
    cases hps
    obtain ⟨hconcat, hlength⟩ := ih htail
    exact ⟨by rw [List.cons_append, rowPartTexts?, hhead, hconcat]; rfl, congrArg (· + 1) hlength⟩

/-- A compound that is added to a row is written behind its combinator. -/
theorem rowText?_combine {r : Row} {c : Combinator} {p : RowCompound} {before text : String}
    (hcount : r.combinators.length + 1 = r.parts.length) (hr : rowText? r = some before)
    (hp : rowPartText? p = some text) :
    rowText? (r.combine c p) = some (before ++ c.text ++ text) := by
  obtain ⟨parts, combinators⟩ := r
  rw [rowText?] at hr
  obtain ⟨texts, htexts, hbefore⟩ := Option.bind_eq_some_iff.1 hr
  obtain ⟨hconcat, hlength⟩ := rowPartTexts?_concat htexts hp
  rw [RowOf.combine_eq (List.ne_nil_of_length_eq_add_one hcount.symm), rowText?, hconcat]
  have hcombinators : 0 + texts.length = combinators.length + 1 := by
    rw [Nat.zero_add, hlength]
    exact hcount.symm
  exact RowOf.textFrom?_append c text hcombinators hbefore

mutual

theorem text?_toRows (q : PseudoClass) : q.toRows.text? = some q.text := by
  match q with
  | .condition c => rfl
  | .nth counting positions => rfl
  | .not ss => rw [PseudoClass.toRows, RowPseudoClass.text?, rowTexts?_rowsOf ss]; rfl
  | .is ss => rw [PseudoClass.toRows, RowPseudoClass.text?, rowTexts?_rowsOf ss]; rfl

theorem rowTexts?_rowsOf (ss : List Selector) : rowTexts? (rowsOf ss) = some (selectorTexts ss) := by
  match ss with
  | [] => rfl
  | s :: ss => rw [rowsOf, rowTexts?, rowText?_rowOf s, rowTexts?_rowsOf ss]; rfl

/-- Rows are written as the selectors they come from, by induction on the selector. -/
theorem rowText?_rowOf (s : Selector) : rowText? (rowOf s) = some (selectorText s) := by
  match s with
  | .compound p =>
    rw [rowOf, rowText?, rowPartTexts?, rowPartText?_rowPartOf p]
    simp [rowPartTexts?, RowOf.textFrom?, selectorText]
  | .combined left c p =>
    exact rowText?_combine (length_rowOf left) (rowText?_rowOf left) (rowPartText?_rowPartOf p)

theorem rowPartText?_rowPartOf (p : Compound) : rowPartText? (rowPartOf p) = some (compoundText p) := by
  match p with
  | ⟨type, id, classes, attributes, qs, pseudoElement⟩ =>
    rw [rowPartOf, rowPartText?, rowPseudoClassTexts?_rowPseudoClassesOf qs]
    rfl

theorem rowPseudoClassTexts?_rowPseudoClassesOf (qs : List PseudoClass) :
    rowPseudoClassTexts? (rowPseudoClassesOf qs) = some (pseudoClassTexts qs) := by
  match qs with
  | [] => rfl
  | q :: qs =>
    rw [rowPseudoClassesOf, rowPseudoClassTexts?, text?_toRows q,
      rowPseudoClassTexts?_rowPseudoClassesOf qs]
    rfl

end

end CriticalCss
