import CriticalCss.Proofs.Selector.Plain
import CriticalCss.Selector.Printer

/-!
# Reading the text of a compound

The parts of a compound are written one after the other, and each of them is read where it stands:
`Extends` says that a text takes the reader from one compound to another.  No part runs into the
next one, because each ends before one of the characters of `EndsPart`.

`extends_compound` puts the parts together: the text of a plain compound is read as the compound,
if its pseudo-classes are.
-/

namespace CriticalCss

open Token

/-- Nothing that continues a part of a compound begins a text. -/
def EndsPart (rest : List Char) : Prop :=
  ∀ c ∈ rest.head?, [' ', ',', ')', '#', '.', '[', ':'].contains c = true

namespace EndsPart

variable {x rest : List Char} {c : Char}

theorem nil : EndsPart [] := nofun

theorem cons (hc : [' ', ',', ')', '#', '.', '[', ':'].contains c = true) (rest : List Char) :
    EndsPart (c :: rest) := by
  intro d hd
  cases hd
  exact hc

theorem append (hx : EndsPart x) (hrest : EndsPart rest) : EndsPart (x ++ rest) := by
  cases x with
  | nil => exact hrest
  | cons c x => exact hx

theorem endsName (h : EndsPart rest) : EndsName rest := by
  have hall : [' ', ',', ')', '#', '.', '[', ':'].all Token.endsName = true := by decide
  exact fun c hc => List.all_eq_true.1 hall c (List.contains_iff_mem.1 (h c hc))

theorem not_equals (h : EndsPart rest) : '=' ∉ rest.head? :=
  fun hmem => absurd (h '=' hmem) (by decide)

end EndsPart

/-- Something other than white space begins a text. -/
def BeginsPart (x : List Char) : Prop :=
  ∃ c w, x = c :: w ∧ isSpace c = false

theorem BeginsPart.append {x : List Char} (h : BeginsPart x) (y : List Char) :
    BeginsPart (x ++ y) := by
  obtain ⟨c, w, rfl, hc⟩ := h
  exact ⟨c, w ++ y, rfl, hc⟩

/-- A text in front of another one is read as parts of a compound: it takes the reader from one
compound to another. -/
def Extends (x : List Char) (p q : Compound) (rest : List Char) : Prop :=
  BeginsPart x ∧ ∃ cs, Component.Forms x cs rest ∧
    ∀ s left more, s.beginPart = .ok ⟨left, p, none⟩ →
      readSelectors s (cs ++ more) = readSelectors ⟨left, q, none⟩ more

/-- The same for a text that may be empty. -/
def WeaklyExtends (x : List Char) (p q : Compound) (rest : List Char) : Prop :=
  x = [] ∧ q = p ∨ Extends x p q rest

theorem SelectorProgress.beginPart_of_none {p : Compound} (hp : p.pseudoElement = none)
    (left : Option (Selector × Combinator)) :
    beginPart ⟨left, p, none⟩ = .ok ⟨left, p, none⟩ := by
  simp [beginPart, hp]

variable {x y rest : List Char} {p q r : Compound}

theorem Extends.of_readsPart {cs : List Component} (hbegins : BeginsPart x)
    (hforms : Component.Forms x cs rest)
    (hreads : ∀ left more, ReadsPart ⟨left, p, none⟩ (cs ++ more) ⟨left, q, none⟩ more) :
    Extends x p q rest :=
  ⟨hbegins, cs, hforms, fun _ left more hs => (hreads left more).readSelectors_eq hs⟩

theorem Extends.append (hx : Extends x p q (y ++ rest)) (hy : Extends y q r rest)
    (hq : q.pseudoElement = none) : Extends (x ++ y) p r rest := by
  obtain ⟨hbegins, cs, hforms, hreads⟩ := hx
  obtain ⟨-, ds, hforms', hreads'⟩ := hy
  refine ⟨hbegins.append y, cs ++ ds, hforms.append hforms', fun s left more hs => ?_⟩
  rw [List.append_assoc, hreads s left _ hs]
  exact hreads' _ left more (SelectorProgress.beginPart_of_none hq left)

theorem WeaklyExtends.append (hx : WeaklyExtends x p q (y ++ rest)) (hy : WeaklyExtends y q r rest)
    (hq : q.pseudoElement = none) : WeaklyExtends (x ++ y) p r rest := by
  rcases hx with ⟨rfl, rfl⟩ | hx
  · exact hy
  · rcases hy with ⟨rfl, rfl⟩ | hy
    · rw [List.append_nil]
      exact .inr hx
    · exact .inr (hx.append hy hq)

/-- The rest of the text of a compound, from some part on that does not begin with a name. -/
structure Continues (x : List Char) (p q : Compound) (rest : List Char) : Prop where
  ends : EndsPart x
  reads : WeaklyExtends x p q rest

namespace Continues

theorem prepend (hy : Continues y q r rest) (hrest : EndsPart rest) (hx : EndsPart x)
    (hextends : ∀ rest, EndsPart rest → WeaklyExtends x p q rest) (hq : q.pseudoElement = none) :
    Continues (x ++ y) p r rest where
  ends := hx.append hy.ends
  reads := (hextends _ (hy.ends.append hrest)).append hy.reads hq

/-- The parts of one kind are read one after the other; `stage` is the compound with those that have
been read. -/
theorem flatMap {α : Type} {xs : List α} (text : α → List Char) (stage : List α → Compound)
    (before : List α) (hy : Continues y (stage (before ++ xs)) r rest) (hrest : EndsPart rest)
    (htext : ∀ x, EndsPart (text x)) (hstage : ∀ before, (stage before).pseudoElement = none)
    (hextends : ∀ x ∈ xs, ∀ before rest, EndsPart rest →
      Extends (text x) (stage before) (stage (before ++ [x])) rest) :
    Continues (xs.flatMap text ++ y) (stage before) r rest := by
  induction xs generalizing before with
  | nil =>
    rw [List.append_nil] at hy
    exact hy
  | cons x xs ih =>
    rw [List.append_cons] at hy
    have hmore := ih _ hy fun y hy => hextends y (List.mem_cons_of_mem _ hy)
    rw [List.flatMap_cons, List.append_assoc]
    exact hmore.prepend hrest (htext x)
      (fun rest hrest => .inr (hextends x List.mem_cons_self before rest hrest)) (hstage _)

end Continues

/-! ## The parts of a compound -/

theorem forms_ident {n : String} (hn : isName n.toList = true) (hrest : EndsName rest) :
    Component.Forms n.toList [.token (.ident n)] rest := by
  have hscan := scan_ident hn hrest
  rw [String.ofList_toList] at hscan
  exact .token hscan rfl

theorem forms_string {v : String} (hv : IsQuotable v.toList) (rest : List Char) :
    Component.Forms ('"' :: (v.toList ++ ['"'])) [.token (.string v)] rest := by
  have hscan := scan_string hv rest
  rw [String.ofList_toList] at hscan
  refine .token ?_ rfl
  rw [List.cons_append, List.append_assoc]
  exact hscan

theorem forms_colon (rest : List Char) : Component.Forms [':'] [.token .colon] rest :=
  .token rfl rfl

theorem beginsPart_of_isName (hx : isName x = true) (y : List Char) : BeginsPart (x ++ y) := by
  rcases exists_of_isName hx with ⟨c, w, rfl, hc⟩ | ⟨c, w, rfl, -⟩
  · have hne : ∀ d : Char, isNameStart d = false → c ≠ d := fun d hd => ne_of_isNameStart hd hc
    refine ⟨c, w ++ y, rfl, ?_⟩
    simp [isSpace, isNewline, hne ' ' (by decide), hne '\t' (by decide), hne '\n' (by decide),
      hne '\r' (by decide), hne '\x0c' (by decide)]
  · exact ⟨'-', c :: w ++ y, rfl, rfl⟩

theorem weaklyExtends_type {type : Option TypeTest}
    (htype : ∀ n, type = some (.name n) → IsLowerName n) (hrest : EndsPart rest) :
    WeaklyExtends ((type.map TypeTest.text).getD "").toList .empty
      { CompoundOf.empty with type := type } rest := by
  rcases type with _ | (_ | n)
  · exact .inl ⟨rfl, rfl⟩
  · exact .inr (.of_readsPart ⟨'*', [], rfl, rfl⟩ (.token (scan_asterisk hrest.not_equals) rfl)
      fun left more => .universal rfl)
  · have hn := htype n rfl
    have hbegins := beginsPart_of_isName hn.name []
    rw [List.append_nil] at hbegins
    refine .inr
      (.of_readsPart hbegins (forms_ident hn.name hrest.endsName) fun left more => .name ?_)
    have hlower : ({ CompoundOf.empty with type := some (.name n) } : Compound) =
        { CompoundOf.empty with type := some (.name (Text.lower n)) } := by rw [hn.lower]
    rw [hlower]
    rfl

theorem weaklyExtends_id {id : Option String} (hid : ∀ n, id = some n → isName n.toList = true)
    (hp : p.id = none) (hrest : EndsPart rest) :
    WeaklyExtends ((id.map ("#" ++ ·)).getD "").toList p { p with id := id } rest := by
  rcases id with _ | n
  · refine .inl ⟨rfl, ?_⟩
    rw [← hp]
  · have hscan := scan_idHash (hid n rfl) hrest.endsName
    rw [String.ofList_toList] at hscan
    have htext : ("#" ++ n).toList = '#' :: n.toList := by simp
    refine .inr ?_
    show Extends ("#" ++ n).toList _ _ _
    rw [htext]
    have hwith : p.withId n = { p with id := some n } := by simp [CompoundOf.withId, hp]
    refine .of_readsPart ⟨'#', _, rfl, rfl⟩ (.token hscan rfl) fun left more => ?_
    rw [← hwith]
    exact .id

theorem extends_class {n : String} (hn : isName n.toList = true) (hrest : EndsPart rest) :
    Extends ("." ++ n).toList p (p.withClass n) rest := by
  have htext : ("." ++ n).toList = ['.'] ++ n.toList := by simp
  have hpoint : Component.Forms ['.'] [.token (.delim '.')] (n.toList ++ rest) :=
    .token (scan_point hn rest) rfl
  rw [htext]
  exact .of_readsPart ⟨'.', _, rfl, rfl⟩ (hpoint.append (forms_ident hn hrest.endsName))
    fun left more => .className

theorem weaklyExtends_pseudoElement {element : Option String}
    (helement : ∀ n, element = some n → IsLowerName n) (hp : p.pseudoElement = none)
    (hrest : EndsPart rest) :
    WeaklyExtends ((element.map ("::" ++ ·)).getD "").toList p
      { p with pseudoElement := element } rest := by
  rcases element with _ | n
  · refine .inl ⟨rfl, ?_⟩
    rw [← hp]
  · have hn := helement n rfl
    have htext : ("::" ++ n).toList = [':'] ++ ([':'] ++ n.toList) := by simp
    refine .inr ?_
    show Extends ("::" ++ n).toList _ _ _
    rw [htext]
    refine .of_readsPart ⟨':', _, rfl, rfl⟩
      ((forms_colon _).append ((forms_colon _).append (forms_ident hn.name hrest.endsName)))
      fun left more => ?_
    have hlower : ({ p with pseudoElement := some n } : Compound) =
        { p with pseudoElement := some (Text.lower n) } := by rw [hn.lower]
    rw [hlower]
    exact .pseudoElement

/-! ## Tests of attributes -/

namespace AttributeTest

theorem endsName_operator (o : AttributeOperator) (rest : List Char) :
    EndsName (o.text.toList ++ rest) := by
  cases o <;> exact .cons (by decide) _

theorem forms_operator (o : AttributeOperator) (rest : List Char) :
    Component.Forms o.text.toList [.token (ofOperator o)] rest :=
  .token (scan_operator o rest) (by cases o <;> rfl)

theorem operator?_ofOperator (o : AttributeOperator) :
    operator? (.token (ofOperator o)) = some o := by
  cases o <;> rfl

/-- The flag at the end of a test. -/
theorem exists_readFlag (ignoresCase : Bool) (rest : List Char) :
    ∃ cs, Component.Forms (if ignoresCase then " i" else "").toList cs (']' :: rest) ∧
      readFlag cs = .ok ignoresCase := by
  cases ignoresCase with
  | false => exact ⟨[], .nil _, rfl⟩
  | true =>
    have hends : EndsName (']' :: rest) := .cons (by decide) _
    have hspace : Component.Forms [' '] [.token (.space " ")] ("i".toList ++ ']' :: rest) :=
      .token (scan_singleSpace fun c hc => by cases hc; decide) rfl
    exact ⟨_, hspace.append (forms_ident (by decide) hends), rfl⟩

/-- The tokens of a comparison are read as it. -/
theorem read_comparison {name : String} (hlower : Text.lower name = name) {ignoresCase : Bool}
    {flag : List Component} (hflag : readFlag flag = .ok ignoresCase) {o : AttributeOperator}
    {v : String} :
    read (.token (.ident name) :: .token (ofOperator o) :: .token (.string v) :: flag) =
      .ok ⟨name, some (o, v), ignoresCase⟩ := by
  have hoperator : (Component.token (ofOperator o)).isSpace = false := by cases o <;> rfl
  rw [read, Component.dropSpaces_cons rfl]
  simp only [Component.dropSpaces_cons hoperator, operator?_ofOperator, readValue,
    Component.dropSpaces_cons (c := .token (.string v)) rfl, hflag, hlower]
  rfl

/-- The inside of the brackets of a test. -/
theorem exists_read {t : AttributeTest} (ht : t.IsPlain) (rest : List Char) :
    ∃ x cs, t.text.toList = '[' :: (x ++ [']']) ∧ Component.Forms x cs (']' :: rest) ∧
      read cs = .ok t := by
  obtain ⟨name, comparison, ignoresCase⟩ := t
  obtain ⟨hname, hlower⟩ := ht.name
  rcases comparison with _ | ⟨o, v⟩
  · have hcase : ignoresCase = false := ht.presence rfl
    refine ⟨name.toList, _, by simp [AttributeTest.text],
      forms_ident hname (.cons (by decide) _), ?_⟩
    subst hcase
    show Except.ok (presence (Text.lower name)) = _
    rw [hlower]
    rfl
  · obtain ⟨flag, hflag, hread⟩ := exists_readFlag ignoresCase rest
    have hvalue := ht.value o v rfl
    have htext : (AttributeTest.mk name (some (o, v)) ignoresCase).text.toList =
        '[' :: (name.toList ++ (o.text.toList ++ (('"' :: (v.toList ++ ['"'])) ++
          (if ignoresCase then " i" else "").toList)) ++ [']']) := by
      simp [AttributeTest.text]
    refine ⟨_, _, htext, (forms_ident hname ?_).append
      ((forms_operator o _).append ((forms_string hvalue _).append hflag)), ?_⟩
    · rw [List.append_assoc]
      exact endsName_operator o _
    · exact read_comparison hlower hread

end AttributeTest

theorem extends_attribute {t : AttributeTest} (ht : t.IsPlain) :
    Extends t.text.toList p (p.withAttribute t) rest := by
  obtain ⟨x, cs, htext, hforms, hread⟩ := AttributeTest.exists_read ht rest
  rw [htext]
  have hblock : Component.Forms (['['] ++ (x ++ [']'])) [.block (.opening .square) cs] rest :=
    .block rfl rfl hforms rfl
  exact .of_readsPart ⟨'[', _, rfl, rfl⟩ hblock fun left more => .attributeTest hread

/-! ## Compounds -/

theorem endsPart_attribute (t : AttributeTest) : EndsPart t.text.toList := by
  unfold AttributeTest.text
  split
  · simp only [String.toList_append]
    exact .cons (by decide) _
  · simp only [String.toList_append]
    exact .cons (by decide) _

theorem endsPart_id (id : Option String) : EndsPart ((id.map ("#" ++ ·)).getD "").toList := by
  cases id with
  | none => exact .nil
  | some n =>
    show EndsPart ("#" ++ n).toList
    rw [String.toList_append]
    exact .cons (by decide) _

theorem endsPart_class (n : String) : EndsPart ("." ++ n).toList := by
  rw [String.toList_append]
  exact .cons (by decide) _

theorem endsPart_pseudoElement (element : Option String) :
    EndsPart ((element.map ("::" ++ ·)).getD "").toList := by
  cases element with
  | none => exact .nil
  | some n =>
    show EndsPart ("::" ++ n).toList
    rw [String.toList_append]
    exact .cons (by decide) _

theorem toList_pseudoClassTexts (qs : List PseudoClass) :
    (pseudoClassTexts qs).toList = qs.flatMap fun q => ':' :: q.text.toList := by
  induction qs with
  | nil => rfl
  | cons q qs ih => simp [pseudoClassTexts, ih]

/-- What is read of a pseudo-class, whatever compound it stands in. -/
def PseudoClass.ReadsBack (q : PseudoClass) : Prop :=
  ∀ p rest, EndsPart rest → Extends (':' :: q.text.toList) p (p.withPseudoClass q) rest

theorem extends_compound {c : Compound} (hne : c.isEmpty = false) (htests : c.HasPlainTests)
    (hinside : ∀ q ∈ c.pseudoClasses, q.ReadsBack) (hrest : EndsPart rest) :
    Extends (compoundText c).toList .empty c rest := by
  obtain ⟨type, id, classes, attributes, pseudoClasses, element⟩ := c
  have htext : (compoundText ⟨type, id, classes, attributes, pseudoClasses, element⟩).toList =
      ((type.map TypeTest.text).getD "").toList ++ (((id.map ("#" ++ ·)).getD "").toList ++
        (classes.flatMap (fun n => ("." ++ n).toList) ++ (attributes.flatMap (·.text.toList) ++
          (pseudoClasses.flatMap (fun q => ':' :: q.text.toList) ++
            ((element.map ("::" ++ ·)).getD "").toList)))) := by
    simp only [compoundText, String.toList_append, String.toList_join, List.flatMap_map,
      toList_pseudoClassTexts, List.append_assoc]
  have helement : Continues ((element.map ("::" ++ ·)).getD "").toList
      ⟨type, id, classes, attributes, pseudoClasses, none⟩
      ⟨type, id, classes, attributes, pseudoClasses, element⟩ rest :=
    ⟨endsPart_pseudoElement element, weaklyExtends_pseudoElement htests.pseudoElement rfl hrest⟩
  have hpseudoClasses := Continues.flatMap (fun q : PseudoClass => ':' :: q.text.toList)
    (fun qs => ⟨type, id, classes, attributes, qs, none⟩) [] helement hrest
    (fun _ => .cons (by decide) _) (fun _ => rfl)
    fun q hq before rest hrest => hinside q hq _ rest hrest
  have hattributes := Continues.flatMap (fun t : AttributeTest => t.text.toList)
    (fun ts => ⟨type, id, classes, ts, [], none⟩) [] hpseudoClasses hrest endsPart_attribute
    (fun _ => rfl) fun t ht _ _ _ => extends_attribute (htests.attributes t ht)
  have hclasses := Continues.flatMap (fun n : String => ("." ++ n).toList)
    (fun ns => ⟨type, id, ns, [], [], none⟩) [] hattributes hrest endsPart_class
    (fun _ => rfl) fun n hn _ _ hrest => extends_class (htests.classes n hn) hrest
  have hid := hclasses.prepend (p := ⟨type, none, [], [], [], none⟩) hrest (endsPart_id id)
    (fun rest hrest => weaklyExtends_id htests.id rfl hrest) rfl
  have hall := (weaklyExtends_type htests.type (hid.ends.append hrest)).append hid.reads rfl
  rw [htext]
  refine hall.resolve_left fun hempty => ?_
  rw [hempty.2] at hne
  cases hne

end CriticalCss
