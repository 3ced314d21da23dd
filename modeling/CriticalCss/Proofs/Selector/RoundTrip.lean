import CriticalCss.Proofs.Selector.Extending

/-!
# The text of selectors reads back

A text that needs no escapes is read as selectors whose text is read as the same selectors
(`Selector.readList_selectorListText`).

`exists_read_selector` and `exists_read_selectors` go from compounds to selectors and to lists of
them.  `PseudoClass.IsPlain.readsBack` closes the circle: pseudo-classes with selectors inside go by
induction on `PseudoClass.IsPlain`.
-/

namespace CriticalCss

open Token

variable {x rest : List Char}

/-! ## Selectors -/

/-- The progress of a reader that has read a selector and nothing after it. -/
def SelectorProgress.after : Selector → SelectorProgress
  | .compound part => ⟨none, part, none⟩
  | .combined left c part => ⟨some (left, c), part, none⟩

namespace SelectorProgress

theorem selector_after (s : Selector) : (after s).selector = s := by
  cases s <;> rfl

theorem part_after (s : Selector) : (after s).part = s.subject := by
  cases s <;> rfl

theorem pending_after (s : Selector) : (after s).pending = none := by
  cases s <;> rfl

/-- A combinator after a selector begins a new compound to its right. -/
theorem beginPart_after (s : Selector) (c : Combinator) :
    beginPart { after s with pending := some c } = .ok ⟨some (s, c), .empty, none⟩ := by
  cases s <;> rfl

theorem finish_after {s : Selector} (hs : s.subject.isEmpty = false) :
    (after s).finish = .ok s := by
  simp [finish, awaitsPart, part_after, pending_after, selector_after, hs]

variable {s : SelectorProgress}

theorem space_of_part (hpart : s.part.isEmpty = false) (hpending : s.pending = none) :
    s.space = { s with pending := some .descendant } := by
  simp [space, hpart, hpending]

theorem combine_of_descendant (hpart : s.part.isEmpty = false) (c : Combinator) (t : Token) :
    combine { s with pending := some .descendant } c t = .ok { s with pending := some c } := by
  simp [combine, awaitsPart, hpart]

theorem space_of_pending (c : Combinator) :
    space { s with pending := some c } = { s with pending := some c } := by
  simp [space]

end SelectorProgress

theorem subject_mem_parts (s : Selector) : s.subject ∈ s.parts := by
  cases s <;> simp [SelectorOf.parts, SelectorOf.subject]

theorem forms_space (hx : BeginsPart x) (rest : List Char) :
    Component.Forms [' '] [.token (.space " ")] (x ++ rest) := by
  obtain ⟨c, w, rfl, hc⟩ := hx
  exact .token (scan_singleSpace fun d hd => by cases hd; exact hc) rfl

/-- A marked combinator between spaces is read after a compound. -/
theorem exists_read_mark {m : Char} {c : Combinator} (hm : Combinator.ofMark? m = some c)
    (hspace : isSpace m = false)
    (hscan : ∀ rest, scan (m :: ' ' :: rest) = some (.delim m, ' ' :: rest)) (hx : BeginsPart x)
    (rest : List Char) :
    ∃ cs, Component.Forms [' ', m, ' '] cs (x ++ rest) ∧
      ∀ s more, s.part.isEmpty = false → s.pending = none →
        readSelectors s (cs ++ more) = readSelectors { s with pending := some c } more := by
  have hbefore : Component.Forms [' '] [.token (.space " ")] ([m, ' '] ++ (x ++ rest)) :=
    forms_space ⟨m, [' '], rfl, hspace⟩ _
  have hmark : Component.Forms [m] [.token (.delim m)] ([' '] ++ (x ++ rest)) :=
    .token (hscan (x ++ rest)) rfl
  refine ⟨_, hbefore.append (hmark.append (forms_space hx rest)), fun s more hpart hpending => ?_⟩
  have hcombine : Advances { s with pending := some .descendant }
      (.token (.delim m) :: .token (.space " ") :: more) { s with pending := some c }
      (.token (.space " ") :: more) :=
    .combinator hm (SelectorProgress.combine_of_descendant hpart c (.delim m))
  calc readSelectors s (.token (.space " ") :: .token (.delim m) :: .token (.space " ") :: more)
      = readSelectors s.space (.token (.delim m) :: .token (.space " ") :: more) :=
        Advances.space.readSelectors_eq
    _ = readSelectors { s with pending := some c } (.token (.space " ") :: more) := by
        rw [SelectorProgress.space_of_part hpart hpending, hcombine.readSelectors_eq]
    _ = readSelectors { s with pending := some c } more := by
        rw [Advances.space.readSelectors_eq, SelectorProgress.space_of_pending]

/-- A combinator is read after a compound. -/
theorem exists_read_combinator (c : Combinator) (hx : BeginsPart x) (rest : List Char) :
    ∃ cs, Component.Forms c.text.toList cs (x ++ rest) ∧
      ∀ s more, s.part.isEmpty = false → s.pending = none →
        readSelectors s (cs ++ more) = readSelectors { s with pending := some c } more := by
  cases c with
  | descendant =>
    refine ⟨_, forms_space hx rest, fun s more hpart hpending => ?_⟩
    rw [← SelectorProgress.space_of_part hpart hpending]
    exact Advances.space.readSelectors_eq
  | child => exact exists_read_mark rfl rfl (fun _ => rfl) hx rest
  | next => exact exists_read_mark rfl rfl (fun _ => rfl) hx rest
  | later => exact exists_read_mark rfl rfl (fun _ => rfl) hx rest

theorem endsPart_combinator (c : Combinator) (rest : List Char) :
    EndsPart (c.text.toList ++ rest) := by
  cases c <;> exact .cons (by decide) _

/-- The text of a compound is read as it stands in a selector. -/
def CompoundOf.ReadsBack (p : CompoundOf PseudoClass) : Prop :=
  p.isEmpty = false ∧ ∀ rest, EndsPart rest → Extends (compoundText p).toList .empty p rest

theorem exists_read_selector {s : Selector} (hs : ∀ p ∈ s.parts, p.ReadsBack)
    (hrest : EndsPart rest) :
    BeginsPart (selectorText s).toList ∧ ∃ cs, Component.Forms (selectorText s).toList cs rest ∧
      ∀ more, readSelectors .start (cs ++ more) = readSelectors (.after s) more := by
  induction s generalizing rest with
  | compound part =>
    obtain ⟨hbegins, cs, hforms, hreads⟩ := (hs part (by simp [SelectorOf.parts])).2 rest hrest
    exact ⟨hbegins, cs, hforms, fun more => hreads _ none more rfl⟩
  | combined left c part ih =>
    have htext : (selectorText (.combined left c part)).toList =
        (selectorText left).toList ++ (c.text.toList ++ (compoundText part).toList) := by
      simp [selectorText]
    have hleft : ∀ p ∈ left.parts, p.ReadsBack := fun p hp => hs p (by simp [SelectorOf.parts, hp])
    obtain ⟨hpart, hpartReads⟩ := hs part (by simp [SelectorOf.parts])
    obtain ⟨hbegins, ds, hds, hreadPart⟩ := hpartReads rest hrest
    obtain ⟨es, hes, hreadCombinator⟩ := exists_read_combinator c hbegins rest
    have hends : EndsPart ((c.text.toList ++ (compoundText part).toList) ++ rest) := by
      rw [List.append_assoc]
      exact endsPart_combinator c _
    obtain ⟨hbeginsLeft, cs, hcs, hreadLeft⟩ := ih hleft hends
    rw [htext]
    refine ⟨hbeginsLeft.append _, _, hcs.append (hes.append hds), fun more => ?_⟩
    have hsubject := (hleft _ (subject_mem_parts left)).1
    rw [List.append_assoc, List.append_assoc, hreadLeft, hreadCombinator]
    · exact hreadPart _ (some (left, c)) more (SelectorProgress.beginPart_after left c)
    · rw [SelectorProgress.part_after]
      exact hsubject
    · exact SelectorProgress.pending_after left

/-- The text of a list of selectors is read as the list. -/
theorem exists_read_selectors {ss : List Selector} (hne : ss ≠ [])
    (hss : ∀ s ∈ ss, ∀ p ∈ s.parts, p.ReadsBack) (hrest : EndsPart rest) :
    BeginsPart (selectorListText ss).toList ∧
      ∃ cs, Component.Forms (selectorListText ss).toList cs rest ∧
        readSelectors .start cs = .ok ss := by
  induction ss with
  | nil => exact absurd rfl hne
  | cons s ss ih =>
    have hs := hss s List.mem_cons_self
    have hfinish := SelectorProgress.finish_after (hs _ (subject_mem_parts s)).1
    cases ss with
    | nil =>
      have htext : selectorListText [s] = selectorText s := by
        simp [selectorListText, selectorTexts]
      obtain ⟨hbegins, cs, hforms, hread⟩ := exists_read_selector hs hrest
      rw [htext]
      refine ⟨hbegins, cs, hforms, ?_⟩
      have hend := hread []
      rw [List.append_nil] at hend
      rw [hend, readSelectors, hfinish]
      rfl
    | cons t ss =>
      have htext : (selectorListText (s :: t :: ss)).toList =
          (selectorText s).toList ++ ([','] ++ ([' '] ++ (selectorListText (t :: ss)).toList)) := by
        simp [selectorListText, selectorTexts, String.intercalate_cons_cons]
      obtain ⟨hbeginsMore, ds, hds, hreadMore⟩ := ih (by simp)
        fun u hu => hss u (List.mem_cons_of_mem _ hu)
      have hcomma : Component.Forms [','] [.token .comma]
          ([' '] ++ (selectorListText (t :: ss)).toList ++ rest) := .token rfl rfl
      have hends : EndsPart ([','] ++ ([' '] ++ (selectorListText (t :: ss)).toList) ++ rest) :=
        .cons (by decide) _
      obtain ⟨hbegins, cs, hcs, hread⟩ := exists_read_selector hs hends
      rw [htext]
      refine ⟨hbegins.append _, _,
        hcs.append (hcomma.append ((forms_space hbeginsMore rest).append hds)), ?_⟩
      rw [hread, List.singleton_append, List.singleton_append, readSelectors, hfinish]
      have hstart : SelectorProgress.start.space = .start := rfl
      rw [readSelectors, hstart, hreadMore]
      rfl

/-! ## Pseudo-classes -/

theorem isName_condition (c : Condition) : isName c.name.toList = true := by
  cases c <;> decide

theorem ofName?_condition (c : Condition) :
    shortPseudoElements.contains (Text.lower c.name) = false ∧
      Condition.ofName? c.name = some c := by
  cases c <;> decide

theorem named_condition (c : Condition) (s : SelectorProgress) :
    s.named c.name = .ok (s.onPart (·.withPseudoClass (.condition c))) := by
  obtain ⟨hshort, hname⟩ := ofName?_condition c
  rw [SelectorProgress.named, hshort, hname]
  rfl

theorem isName_counting (counting : Counting) :
    isName counting.name.toList = true ∧ Text.sameLetters counting.name "url" = false ∧
      Counting.ofName? (Text.lower counting.name) = some counting := by
  cases counting <;> decide

/-- A colon and a function. -/
theorem forms_function {n : String} {cs : List Component} (hn : isName n.toList = true)
    (hurl : Text.sameLetters n "url" = false) (hinside : Component.Forms x cs (')' :: rest)) :
    Component.Forms ([':'] ++ ((n.toList ++ ['(']) ++ (x ++ [')'])))
      [.token .colon, .block (.function n) cs] rest := by
  have hscan := scan_function hn (by rwa [String.ofList_toList]) (x ++ ')' :: rest)
  rw [String.ofList_toList] at hscan
  refine (forms_colon _).append (.block ?_ rfl hinside rfl)
  rw [List.append_assoc]
  exact hscan

theorem toList_function (n inside : String) :
    ':' :: (n ++ "(" ++ inside ++ ")").toList =
      [':'] ++ ((n.toList ++ ['(']) ++ (inside.toList ++ [')'])) := by
  simp

/-- The selectors inside of a pseudo-class read back where their own pseudo-classes do. -/
theorem exists_read_inside {ss : List Selector} (hne : ss ≠ [])
    (htests : ∀ s ∈ ss, ∀ p ∈ s.parts, p.isEmpty = false ∧ p.HasPlainTests)
    (hinside : ∀ s ∈ ss, ∀ p ∈ s.parts, ∀ q ∈ p.pseudoClasses, q.ReadsBack)
    (hrest : EndsPart rest) :
    ∃ cs, Component.Forms (selectorListText ss).toList cs rest ∧
      readSelectors .start cs = .ok ss := by
  have hlist : ∀ s ∈ ss, ∀ p ∈ s.parts, p.ReadsBack := by
    intro s hs p hp
    obtain ⟨hpart, hplain⟩ := htests s hs p hp
    exact ⟨hpart, fun rest hrest => extends_compound hpart hplain (hinside s hs p hp) hrest⟩
  exact (exists_read_selectors hne hlist hrest).2

/-- Plain pseudo-classes read back.  The induction reaches the selectors at every depth. -/
theorem PseudoClass.IsPlain.readsBack {q : PseudoClass} (h : q.IsPlain) : q.ReadsBack := by
  induction h with
  | condition c =>
    intro p rest hrest
    exact .of_readsPart ⟨':', _, rfl, rfl⟩
      ((forms_colon _).append (forms_ident (isName_condition c) hrest.endsName))
      fun left more => .named (named_condition c _)
  | @nth counting positions held =>
    intro p rest hrest
    obtain ⟨hname, hurl, hcounts⟩ := isName_counting counting
    obtain ⟨cs, hforms, hread⟩ := Nth.exists_read_text held rest
    rw [PseudoClass.text, toList_function]
    exact .of_readsPart ⟨':', _, rfl, rfl⟩ (forms_function hname hurl hforms)
      fun left more => .nth hcounts hread
  | @not ss nonempty tests inside ih =>
    intro p rest hrest
    have hends : EndsPart (')' :: rest) := .cons (by decide) _
    obtain ⟨cs, hforms, hread⟩ := exists_read_inside nonempty tests ih hends
    have htext : (PseudoClass.not ss).text = "not" ++ "(" ++ selectorListText ss ++ ")" := rfl
    rw [htext, toList_function]
    exact .of_readsPart ⟨':', _, rfl, rfl⟩ (forms_function (by decide) (by decide) hforms)
      fun left more => .not (by decide) (by decide) hread
  | @is ss nonempty tests inside ih =>
    intro p rest hrest
    have hends : EndsPart (')' :: rest) := .cons (by decide) _
    obtain ⟨cs, hforms, hread⟩ := exists_read_inside nonempty tests ih hends
    have htext : (PseudoClass.is ss).text = "is" ++ "(" ++ selectorListText ss ++ ")" := rfl
    rw [htext, toList_function]
    exact .of_readsPart ⟨':', _, rfl, rfl⟩ (forms_function (by decide) (by decide) hforms)
      fun left more => .is (by decide) (by decide) (by decide) hread

/-! ## Lists of selectors -/

theorem IsPlainList.readList_text {ss : List Selector} (h : IsPlainList ss) :
    Selector.readList (selectorListText ss) = .ok ss := by
  obtain ⟨cs, hforms, hread⟩ := exists_read_inside h.nonempty h.tests
    (fun s hs p hp q hq => (h.inside s hs p hp q hq).readsBack) .nil
  rw [Selector.readList, Component.ofText_eq_of_forms hforms, hread]
  rfl

theorem Selector.isPlainList_of_readList {text : String} (hclean : IsClean text.toList)
    {ss : List Selector} (h : Selector.readList text = .ok ss) : IsPlainList ss :=
  isPlain_of_readSelectors SelectorProgress.isPlain_start
    (Component.isPlain_of_mem_ofText hclean) (mapError_eq_ok_iff.1 h)

/-- A compound of one pseudo-class that counts siblings. -/
def Counting.compound (counting : Counting) (e : Nth) : Compound :=
  CompoundOf.empty.withPseudoClass (.nth counting e)

theorem Counting.isPlainList_compound (counting : Counting) {e : Nth} (he : e.IsHeld) :
    IsPlainList [.compound (counting.compound e)] where
  nonempty := by simp
  plain s hs p hp := by
    rw [List.mem_singleton.1 hs, SelectorOf.parts, List.mem_singleton] at hp
    rw [hp]
    exact ⟨rfl, CompoundOf.isPlain_empty.withPseudoClass (.nth he)⟩

/-- The text of the selectors that are read from a text without backslash and apostrophe is read as
the same selectors, whatever pseudo-classes they have inside of each other; and so is the text of
every expression `an+b` with numbers of 32 bits. -/
theorem Selector.readList_selectorListText :
    (∀ (text : String) (ss : List Selector), '\\' ∉ text.toList → '\'' ∉ text.toList →
      Selector.readList text = .ok ss → Selector.readList (selectorListText ss) = .ok ss) ∧
    ∀ (counting : Counting) (e : Nth), Numeral.Holds e.step → Numeral.Holds e.offset →
      Selector.readList (selectorListText [.compound (counting.compound e)]) =
        .ok [.compound (counting.compound e)] :=
  ⟨fun _ _ hback hquote h => (isPlainList_of_readList ⟨hback, hquote⟩ h).readList_text,
    fun counting _ hstep hoffset => (counting.isPlainList_compound ⟨hstep, hoffset⟩).readList_text⟩

namespace Selector

/-- Capital letters, two ids, a pseudo-element with one colon, and selectors inside of selectors. -/
def mixedText : String :=
  "UL>LI#a#b:NOT(.x:Where([Lang|=en i], *:Nth-Child( -N + 3 ))):before"

/-- The tokens of `mixedText`. -/
def mixedTokens : List Token :=
  [.ident "UL", .delim '>', .ident "LI", .idHash "a", .idHash "b", .colon, .function "NOT",
    .delim '.', .ident "x", .colon, .function "Where", .opening .square, .ident "Lang", .dashMatch,
    .ident "en", .space " ", .ident "i", .closing .square, .comma, .space " ", .delim '*', .colon,
    .function "Nth-Child", .space " ", .ident "-N", .space " ", .delim '+', .space " ",
    .number ⟨false, false, [3], [], none⟩, .space " ", .closing .round, .closing .round,
    .closing .round, .colon, .ident "before"]

/-- What `mixedText` is read as. -/
def mixedSelectors : List Selector :=
  [.combined (.compound ⟨some (.name "ul"), none, [], [], [], none⟩) .child
    ⟨some (.name "li"), some "a", [], [.compare "id" .equals "b"],
      [.not [.compound ⟨none, none, ["x"], [],
        [.is [.compound ⟨none, none, [], [⟨"lang", some (.dashed, "en"), true⟩], [], none⟩,
          .compound ⟨some .universal, none, [], [], [.nth .child ⟨-1, 3⟩], none⟩]], none⟩]],
      some "before"⟩]

theorem readList_mixedText : readList mixedText = .ok mixedSelectors :=
  readList_of_tokens mixedTokens (by decide +kernel) rfl

theorem readList_selectorListText_mixedText :
    '\\' ∉ mixedText.toList ∧ '\'' ∉ mixedText.toList ∧ readList mixedText = .ok mixedSelectors ∧
      readList (selectorListText mixedSelectors) = .ok mixedSelectors ∧
      Numeral.Holds (-2147483648) ∧ Numeral.Holds 2147483647 ∧
      readList (selectorListText
          [.compound (Counting.lastOfType.compound ⟨-2147483648, 2147483647⟩)]) =
        .ok [.compound (Counting.lastOfType.compound ⟨-2147483648, 2147483647⟩)] :=
  ⟨by decide, by decide, readList_mixedText,
    readList_selectorListText.1 mixedText mixedSelectors (by decide) (by decide) readList_mixedText,
    by decide, by decide, readList_selectorListText.2 .lastOfType _ (by decide) (by decide)⟩

example : selectorListText mixedSelectors =
    "ul > li#a[id=\"b\"]:not(.x:is([lang|=\"en\" i], *:nth-child(-1n+3)))::before" := by
  decide +kernel

end Selector

end CriticalCss
