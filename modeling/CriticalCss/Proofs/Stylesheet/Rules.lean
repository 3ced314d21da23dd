import CriticalCss.Proofs.Stylesheet.Blocks

/-!
# Reading rules back

What stands at a place in a list of rules depends on the first token there.  These lemmas read one
printed rule, whatever stands after it.

* `IsHeading` describes the text before the block or the semicolon of an at-rule, and
  `nextRule_of_block` and `nextRule_of_statement` read it.
* `blockRule_keyword` says that the keyword a heading is printed with leads back to the heading.
* `nextRule_of_selectors` reads a style rule.
-/

namespace CriticalCss

open Token (isCalm isSpace isName isBreak isStop skipUntil skipBlanks scan closeBlock between
  startsName PassesOver ClosesOver)

namespace Stylesheet

/-! ## Rules one by one -/

section Rules

variable {stops source more : List Char} {p next : Place}

/-- What stands at a place where no stop does. -/
theorem nextRule_of_scan (source : List Char) {c : Char} {cs rest : List Char} {token : Token}
    (hc : stops.contains c = false) (hscan : scan (c :: cs) = some (token, rest)) :
    nextRule stops source ⟨c :: cs, false⟩ =
      match token with
      | .space _ | .cdo | .cdc | .semicolon => some (.nothing, ⟨rest, false⟩)
      | .comment text => some (.node (.item (.comment text)
          (some (Position.locate source (c :: cs)))), ⟨rest, false⟩)
      | .atKeyword keyword =>
        some (atRule stops source keyword (Position.locate source (c :: cs)) rest)
      | _ => some (styleRule stops (Position.locate source (c :: cs)) ⟨c :: cs, false⟩) := by
  have hsettled : (⟨c :: cs, false⟩ : Place).settled = c :: cs := rfl
  rw [nextRule, hsettled]
  simp only [List.head?_cons, Option.any_some, hc, hscan, Bool.false_eq_true, if_false]
  cases token <;> rfl

end Rules

/-- Stop characters within blocks of rules and outside of them. -/
def AreEnds (stops : List Char) : Prop :=
  ∀ c ∈ stops, c = '\x7d'

section Rules

variable {stops source : List Char}

theorem AreEnds.isStop (hstops : AreEnds stops) (marks : List Char)
    (hmarks : ∀ c ∈ marks, isStop c = true) : ∀ c ∈ marks ++ stops, isStop c = true := by
  intro c hc
  rcases List.mem_append.1 hc with hc | hc
  · exact hmarks c hc
  · rw [hstops c hc]
    decide

theorem AreEnds.not_contains (hstops : AreEnds stops) {c : Char} (hc : c ≠ '\x7d') :
    stops.contains c = false := by
  rw [List.contains_eq_mem, decide_eq_false_iff_not]
  exact fun hmem => hc (hstops c hmem)

/-- White space stands before a rule. -/
theorem rulesFrom_append_of_space (hstops : AreEnds stops) {w : List Char}
    (hw : ∀ c ∈ w, isSpace c = true) (rest : List Char) :
    rulesFrom stops source ⟨w ++ rest, false⟩ = rulesFrom stops source ⟨rest, false⟩ := by
  have hrun : ∀ c rest, isSpace c = true → rulesFrom stops source ⟨c :: rest, false⟩ =
      rulesFrom stops source ⟨rest.dropWhile isSpace, false⟩ := by
    intro c rest hc
    have hbrace : c ≠ '\x7d' := by
      rintro rfl
      cases hc
    exact rulesFrom_of_nothing
      (nextRule_of_scan source (hstops.not_contains hbrace) (Token.scan_space hc rest))
  induction w with
  | nil => rfl
  | cons c w ih =>
    have hfirst := Token.eq_of_dropWhile_isSpace (f := fun cs => rulesFrom stops source ⟨cs, false⟩)
      hrun (hw c List.mem_cons_self) (w ++ rest)
    exact hfirst.trans (ih fun d hd => hw d (List.mem_cons_of_mem _ hd))

/-! ## At-rules -/

/-- The text before the block or the semicolon of an at-rule. -/
structure IsHeading (header : List Char) (name prelude : String) : Prop where
  isName : Token.isName name.toList = true
  isPhrase : Text.isPhrase prelude = true
  eq : header = '@' :: (name.toList ++ ' ' :: prelude.toList) ∨
    header = '@' :: name.toList ∧ prelude = ""

theorem isHeading_keywordText {name prelude : String} (hname : Token.isName name.toList = true)
    (hprelude : Text.isPhrase prelude = true) :
    IsHeading (keywordText name prelude).toList name prelude where
  isName := hname
  isPhrase := hprelude
  eq := by
    rw [keywordText]
    split
    · next hempty => exact .inr ⟨by simp, hempty⟩
    · exact .inl (by simp)

variable {header : List Char} {name prelude : String} {gap : List Char} {mark : Char}

/-- A heading with what follows it: the keyword, a break, and the prelude with spaces around it. -/
theorem IsHeading.exists_eq (h : IsHeading header name prelude) (hgap : ∀ c ∈ gap, c = ' ')
    (hmark : isBreak mark = true) (rest : List Char) :
    ∃ w b more, header ++ (gap ++ mark :: rest) = '@' :: (name.toList ++ b :: more) ∧
      isBreak b = true ∧ (∀ c ∈ w, isSpace c = true) ∧
      b :: more = w ++ (prelude.toList ++ (gap ++ mark :: rest)) := by
  rcases h.eq with rfl | ⟨rfl, rfl⟩
  · refine ⟨[' '], ' ', prelude.toList ++ (gap ++ mark :: rest), ?_, rfl,
      List.all_eq_true.1 rfl, rfl⟩
    simp
  · obtain ⟨b, more, hnext, hb⟩ := exists_break hgap hmark rest
    refine ⟨[], b, more, ?_, hb, by simp, ?_⟩
    · rw [hnext]
      rfl
    · rw [← hnext]
      rfl

/-- Going over a heading. -/
theorem IsHeading.closesOver (h : IsHeading header name prelude) (b : Char) (more : List Char)
    (hb : isBreak b = true) : ClosesOver header (b :: more) := by
  rcases h.eq with rfl | ⟨rfl, -⟩
  · refine ClosesOver.append (x := '@' :: name.toList) ?_ (.append (x := [' ']) ?_ ?_)
    · exact Token.closesOver_atKeyword h.isName rfl _
    · exact (Token.passesOver_space rfl _).close
    · exact (Token.passesOver_calm (Text.calm_of_isPhrase h.isPhrase) hb more).close
  · exact Token.closesOver_atKeyword h.isName hb more

/-- The prelude of an at-rule ends at the mark. -/
theorem skipUntil_prelude (hstops : AreEnds stops) (hprelude : Text.isPhrase prelude = true)
    {w : List Char} (hw : ∀ c ∈ w, isSpace c = true) (hgap : ∀ c ∈ gap, c = ' ')
    (hmark : mark = '\x7b' ∨ mark = ';') (rest : List Char) :
    skipUntil ('\x7b' :: ';' :: stops) (w ++ (prelude.toList ++ (gap ++ mark :: rest))) =
      mark :: rest := by
  have hbreak : isBreak mark = true := by rcases hmark with rfl | rfl <;> decide
  have hpass := (passesOver_framed hw (Text.calm_of_isPhrase hprelude) hgap hbreak rest).skip
    ('\x7b' :: ';' :: stops) (hstops.isStop ['\x7b', ';'] (List.all_eq_true.1 rfl))
  simp only [List.append_assoc] at hpass
  rw [hpass]
  rcases hmark with rfl | rfl
  · exact Token.skipUntil_of_stop rfl
  · exact Token.skipUntil_of_stop rfl

theorem rawText_prelude (hprelude : Text.isPhrase prelude = true) {w : List Char}
    (hw : ∀ c ∈ w, isSpace c = true) (hgap : ∀ c ∈ gap, c = ' ') (rest : List Char) :
    rawText (w ++ (prelude.toList ++ (gap ++ rest))) rest = prelude := by
  have hspaces := isSpace_of_eq_space hgap
  rw [rawText_framed hw (Text.trimmed_of_isPhrase hprelude) hspaces rest, String.ofList_toList]

/-- What stands at a heading. -/
theorem nextRule_of_heading (source : List Char) (hstops : AreEnds stops)
    (h : IsHeading header name prelude) (hgap : ∀ c ∈ gap, c = ' ')
    (hmark : mark = '\x7b' ∨ mark = ';') (rest : List Char) :
    ∃ position w, (∀ c ∈ w, isSpace c = true) ∧
      nextRule stops source ⟨header ++ (gap ++ mark :: rest), false⟩ =
        some (atRule stops source name position
          (w ++ (prelude.toList ++ (gap ++ mark :: rest)))) := by
  have hbreak : isBreak mark = true := by rcases hmark with rfl | rfl <;> decide
  obtain ⟨w, b, more, htext, hb, hw, hrest⟩ := h.exists_eq hgap hbreak rest
  have hscan := Token.scan_atKeyword h.isName hb more
  rw [String.ofList_toList] at hscan
  have hnext : nextRule stops source ⟨'@' :: (name.toList ++ b :: more), false⟩ =
      some (atRule stops source name
        (Position.locate source ('@' :: (name.toList ++ b :: more))) (b :: more)) :=
    nextRule_of_scan source (hstops.not_contains (by decide)) hscan
  rw [← htext, hrest] at hnext
  exact ⟨_, w, hw, hnext⟩

/-- An at-rule with a block. -/
theorem nextRule_of_block (source : List Char) (hstops : AreEnds stops)
    (h : IsHeading header name prelude) (hcharset : Text.lower name ≠ "charset")
    (hgap : ∀ c ∈ gap, c = ' ') (body : List Char) :
    ∃ position, nextRule stops source ⟨header ++ (gap ++ '\x7b' :: body), false⟩ =
      some (blockRule source name prelude position body, ⟨closeBlock .curly body, false⟩) := by
  obtain ⟨position, w, hw, hnext⟩ :=
    nextRule_of_heading source hstops h hgap (.inl rfl) body
  refine ⟨position, hnext.trans ?_⟩
  rw [atRule, skipUntil_prelude hstops h.isPhrase hw hgap (.inl rfl),
    rawText_prelude h.isPhrase hw hgap]
  simp only [if_neg hcharset]

/-- An at-rule without a block. -/
theorem nextRule_of_statement (source : List Char) (hstops : AreEnds stops)
    (h : IsHeading header name prelude) (rest : List Char) :
    ∃ position, nextRule stops source ⟨header ++ ';' :: rest, false⟩ =
      some (statementRule name prelude position, ⟨rest, false⟩) := by
  have hgap : ∀ c ∈ [], c = ' ' := List.forall_mem_nil _
  obtain ⟨position, w, hw, hnext⟩ :=
    nextRule_of_heading source hstops h hgap (.inr rfl) rest
  refine ⟨position, hnext.trans ?_⟩
  rw [atRule, skipUntil_prelude hstops h.isPhrase hw hgap (.inr rfl),
    rawText_prelude h.isPhrase hw hgap]
  rfl

end Rules

/-! ## Kinds of at-rules -/

theorem endsWith_iff {s t : String} : s.endsWith t = true ↔ t.toList <:+ s.toList := by
  rw [String.endsWith_eq_endsWith_toSlice, String.Slice.endsWith_string_iff, String.copy_toSlice]

end Stylesheet

/-- The keyword a heading is printed with. -/
def Heading.keyword : Heading → String
  | .media _ => "media"
  | .supports _ => "supports"
  | .keyframes vendor _ => vendor.getD "" ++ "keyframes"
  | .other name _ => name

namespace Stylesheet

/-- The vendor mark is found in the keyword. -/
theorem vendor?_append {vendor : Option String} (h : vendor ≠ some "") :
    vendor? (vendor.getD "" ++ "keyframes") = vendor := by
  cases vendor with
  | none =>
    rw [Option.getD_none, String.empty_append]
    exact if_neg fun h => h.2 rfl
  | some v =>
    have hends : (v ++ "keyframes").endsWith "keyframes" = true := by
      rw [endsWith_iff, String.toList_append]
      exact List.suffix_append _ _
    have hne : v ++ "keyframes" ≠ "keyframes" := by
      intro heq
      have hlength := congrArg String.length heq
      rw [String.length_append, Nat.add_eq_right, ← String.length_toList,
        List.length_eq_zero_iff, String.toList_eq_nil_iff] at hlength
      exact h (congrArg some hlength)
    rw [Option.getD_some, vendor?, if_pos ⟨hends, hne⟩, String.length_append, Nat.add_sub_cancel,
      String.toList_append, ← String.length_toList, List.take_left, String.ofList_toList]

/-- Headings of a kind of their own are printed with a space, even before an empty text. -/
theorem headingText_eq {heading : Heading} (h : heading.kind ≠ .other) :
    headingText heading = "@" ++ heading.keyword ++ " " ++ heading.criterion := by
  cases heading with
  | media condition =>
    exact congrArg (· ++ condition) (by decide : "@media " = "@" ++ "media" ++ " ")
  | supports condition =>
    exact congrArg (· ++ condition) (by decide : "@supports " = "@" ++ "supports" ++ " ")
  | keyframes vendor name => simp [headingText, Heading.keyword, Heading.criterion,
      String.append_assoc]
  | other name prelude => exact absurd rfl h

/-- What is asked of the keyword and the text after it. -/
theorem isName_keyword {heading : Heading} (h : heading.isPrintable = true) :
    isName heading.keyword.toList = true ∧ Text.isPhrase heading.criterion = true := by
  cases heading with
  | media condition => exact ⟨(by decide : isName "media".toList = true), h⟩
  | supports condition => exact ⟨(by decide : isName "supports".toList = true), h⟩
  | keyframes vendor name =>
    cases vendor with
    | none => exact ⟨(by decide : isName ("" ++ "keyframes").toList = true), h⟩
    | some v =>
      simp only [Heading.isPrintable, Bool.and_eq_true] at h
      exact ⟨h.1.2, h.2⟩
  | other name prelude =>
    simp only [Heading.isPrintable, Bool.and_eq_true] at h
    exact ⟨h.1.1, h.2⟩

theorem isHeading_headingText {heading : Heading} (h : heading.isPrintable = true) :
    IsHeading (headingText heading).toList heading.keyword heading.criterion := by
  obtain ⟨hname, hprelude⟩ := isName_keyword h
  by_cases hkind : heading.kind = .other
  · cases heading <;> cases hkind
    exact isHeading_keywordText hname hprelude
  · rw [headingText_eq hkind]
    exact ⟨hname, hprelude, .inl (by simp)⟩

/-- The lower case of a keyword of an animation. -/
theorem endsWith_lower (v : String) :
    (Text.lower (v ++ "keyframes")).endsWith "keyframes" = true := by
  have hlower : (Text.lower (v ++ "keyframes")).toList =
      v.toList.map Char.toLower ++ "keyframes".toList := by
    rw [Text.lower, String.toList_ofList, String.toList_append, List.map_append]
    rfl
  rw [endsWith_iff, hlower]
  exact List.suffix_append _ _

theorem ne_of_endsWith {s t : String} (hs : s.endsWith "keyframes" = true)
    (ht : ¬ "keyframes".toList <:+ t.toList) : s ≠ t := by
  rintro rfl
  exact ht (endsWith_iff.1 hs)

/-- The keyword a heading is printed with leads back to the heading. -/
theorem blockRule_keyword {heading : Heading} (h : heading.isPrintable = true)
    (source : List Char) (position : Position) (body : List Char) :
    blockRule source heading.keyword heading.criterion position body =
      if heading.groupsRules then .group heading position body
      else .node (.block heading (steps source body) (some position)) := by
  cases heading with
  | media condition =>
    have hlower : Text.lower "media" = "media" := by decide
    simp [blockRule, Heading.keyword, Heading.criterion, Heading.groupsRules, hlower]
  | supports condition =>
    have hlower : Text.lower "supports" = "supports" := by decide
    simp [blockRule, Heading.keyword, Heading.criterion, Heading.groupsRules, hlower]
  | keyframes vendor name =>
    have hvendor : vendor ≠ some "" := by
      rintro rfl
      cases h
    have hends := endsWith_lower (vendor.getD "")
    have hne : ∀ t ∈ groupKeywords, Text.lower (vendor.getD "" ++ "keyframes") ≠ t :=
      fun t ht => ne_of_endsWith hends
        ((by decide : ∀ t ∈ groupKeywords, ¬ "keyframes".toList <:+ t.toList) t ht)
    simp [blockRule, Heading.keyword, Heading.criterion, Heading.groupsRules, hends,
      vendor?_append hvendor, hne "charset" (by decide), hne "media" (by decide),
      hne "supports" (by decide)]
  | other name prelude =>
    simp only [Heading.isPrintable, Bool.and_eq_true, List.contains_iff_mem] at h
    obtain ⟨hgroup, hfont, hsuffix⟩ :=
      (by decide : ∀ k ∈ ruleBlockKeywords, k ∉ groupKeywords ∧ k ≠ "font-face" ∧
        ¬ "keyframes".toList <:+ k.toList) _ h.1.2
    have hends : ¬ (Text.lower name).endsWith "keyframes" = true := fun hends =>
      hsuffix (endsWith_iff.1 hends)
    have hne : ∀ t ∈ groupKeywords, Text.lower name ≠ t := fun t ht heq => hgroup (heq ▸ ht)
    simp [blockRule, Heading.keyword, Heading.criterion, Heading.groupsRules, hends, hfont, h.1.2,
      hne "charset" (by decide), hne "media" (by decide), hne "supports" (by decide)]

theorem blockRule_fontFace (source : List Char) (position : Position) (body : List Char) :
    blockRule source "font-face" "" position body =
      .node (.item (.fontFace (declarations body)) (some position)) := by
  have hlower : Text.lower "font-face" = "font-face" := by decide
  have hends : ¬ "font-face".endsWith "keyframes" = true := by
    rw [endsWith_iff]
    decide
  simp [blockRule, hlower, hends]

theorem blockRule_descriptors {name : String} (h : isDescriptorKeyword name = true)
    (prelude : String) (source : List Char) (position : Position) (body : List Char) :
    blockRule source name prelude position body =
      .node (.item (.descriptors name prelude (declarations body)) (some position)) := by
  simp only [isDescriptorKeyword, groupKeywords, Bool.and_eq_true, Bool.not_eq_true', bne_iff_ne,
    List.contains_eq_mem, decide_eq_false_iff_not, List.mem_cons, not_or] at h
  obtain ⟨⟨⟨hgroup, hends⟩, hfont⟩, hrules⟩ := h
  simp [blockRule, hgroup, hends, hfont, hrules]

/-- A descriptor block is no charset. -/
theorem ne_charset_of_isDescriptorKeyword {name : String} (h : isDescriptorKeyword name = true) :
    Text.lower name ≠ "charset" := by
  intro heq
  simp [isDescriptorKeyword, groupKeywords, heq] at h

/-- A heading is no charset. -/
theorem lower_keyword_ne_charset {heading : Heading} (h : heading.isPrintable = true) :
    Text.lower heading.keyword ≠ "charset" := by
  intro heq
  have hrule := blockRule_keyword h [] ⟨1, 1⟩ []
  rw [blockRule, if_pos heq] at hrule
  split at hrule <;> cases hrule

theorem statementRule_charset (text : String) (position : Position) :
    statementRule "charset" text position = .node (.item (.charset text) (some position)) := by
  have hlower : Text.lower "charset" = "charset" := by decide
  simp [statementRule, hlower]

theorem statementRule_statement {name : String}
    (h : groupKeywords.contains (Text.lower name) = false) (prelude : String) (position : Position) :
    statementRule name prelude position =
      .node (.item (.statement name prelude) (some position)) := by
  simp only [groupKeywords, List.contains_eq_mem, decide_eq_false_iff_not, List.mem_cons,
    not_or] at h
  simp [statementRule, h]

/-! ## Style rules -/

section Rules

variable {stops source : List Char}

/-- A style rule begins with a selector that may open a rule. -/
theorem nextRule_of_opensRule (hstops : AreEnds stops) {e : String} (he : Text.isEntry e = true)
    (hopens : opensRule e = true) {b : Char} (hb : isBreak b = true) (more : List Char) :
    ∃ position, nextRule stops source ⟨e.toList ++ b :: more, false⟩ =
      some (styleRule stops position ⟨e.toList ++ b :: more, false⟩) := by
  have hphrase := Text.isPhrase_of_isEntry he
  have hcalm := Text.calm_of_isPhrase hphrase
  obtain ⟨c, t, ht, hc, hspace⟩ := Text.exists_of_isPhrase hphrase (Text.ne_empty_of_isEntry he)
  rw [opensRule] at hopens
  rw [ht] at hopens hcalm ⊢
  obtain ⟨⟨token, rest⟩, hscan⟩ : ∃ scanned, scan (c :: (t ++ b :: more)) = some scanned :=
    Option.ne_none_iff_exists'.1 fun hnone => by cases Token.scan_eq_none_iff.1 hnone
  have hbegins := Token.begins_of_scan hscan
  have hnext := nextRule_of_scan source
    (hstops.not_contains (Token.ne_of_isCalm hc (by decide))) hscan
  cases token
  case space => exact absurd hbegins (Bool.eq_false_iff.1 hspace)
  case comment => exact absurd hbegins (Token.ne_of_isCalm hc (by decide))
  case cdo => exact absurd hbegins (Token.ne_of_isCalm hc (by decide))
  case semicolon => exact absurd hbegins (Token.ne_of_isCalm hc (by decide))
  case cdc =>
    obtain ⟨rfl, rest, hrest⟩ := hbegins
    obtain ⟨t', rfl, hrest'⟩ := Token.exists_eq_cons hb (by decide) hrest
    obtain ⟨t, rfl, -⟩ := Token.exists_eq_cons hb (by decide) hrest'.symm
    cases hopens
  case atKeyword =>
    obtain ⟨rfl, hname⟩ := hbegins
    rw [Token.startsName_append_of_isBreak (fun d hd => hcalm.chars d (List.mem_cons_of_mem _ hd))
      hb] at hname
    have hclosed : (!startsName t) = true := hopens
    rw [hname] at hclosed
    cases hclosed
  all_goals exact ⟨_, hnext⟩

/-- A style rule. -/
theorem nextRule_of_selectors (source : List Char) (hstops : AreEnds stops) {joint : String}
    {w gap : List Char} (hjoint : joint.toList = ',' :: w) (hw : ∀ c ∈ w, isSpace c = true)
    {selectors : List String} (hall : ∀ e ∈ selectors, Text.isEntry e = true)
    (hopens : selectors.head?.any opensRule = true) (hgap : ∀ c ∈ gap, c = ' ')
    {inner more : List Char} (hinner : ClosesOver inner ('\x7d' :: more)) :
    ∃ position, nextRule stops source ⟨(joint.intercalate selectors).toList ++
        (gap ++ '\x7b' :: (inner ++ '\x7d' :: more)), false⟩ =
      some (.node (.item (.style selectors (declarations (inner ++ '\x7d' :: more)))
        (some position)), ⟨more, false⟩) := by
  have hspaces := isSpace_of_eq_space hgap
  obtain ⟨b, more', hnext, hb⟩ :=
    exists_break hgap (rfl : isBreak '\x7b' = true) (inner ++ '\x7d' :: more)
  obtain ⟨e, entries, rfl⟩ : ∃ e entries, selectors = e :: entries :=
    List.exists_cons_of_ne_nil (by rintro rfl; cases hopens)
  have hne : e :: entries ≠ [] := List.cons_ne_nil _ _
  have hrule : ∃ position, nextRule stops source ⟨(joint.intercalate (e :: entries)).toList ++
      b :: more', false⟩ = some (styleRule stops position
        ⟨(joint.intercalate (e :: entries)).toList ++ b :: more', false⟩) := by
    obtain ⟨b', more'', htext, hb'⟩ := exists_intercalate_eq hjoint e entries b more' hb
    rw [htext]
    exact nextRule_of_opensRule hstops (hall e List.mem_cons_self) hopens hb' more''
  obtain ⟨position, hrule⟩ := hrule
  rw [← hnext] at hrule
  have hstop : skipUntil ('\x7b' :: stops) ((joint.intercalate (e :: entries)).toList ++
      (gap ++ '\x7b' :: (inner ++ '\x7d' :: more))) = '\x7b' :: (inner ++ '\x7d' :: more) := by
    have hskip : ∀ c ∈ '\x7b' :: stops, isStop c = true :=
      hstops.isStop ['\x7b'] (List.all_eq_true.1 rfl)
    rw [hnext, (passesOver_intercalate hjoint hw hall hb more').skip _ hskip, ← hnext,
      (Token.passesOver_spaces hspaces _).skip _ hskip]
    exact Token.skipUntil_of_stop rfl
  have hprelude : Text.trimChars (between ((joint.intercalate (e :: entries)).toList ++
      (gap ++ '\x7b' :: (inner ++ '\x7d' :: more))) ('\x7b' :: (inner ++ '\x7d' :: more))) =
        (joint.intercalate (e :: entries)).toList := by
    rw [← List.append_assoc, between_append]
    exact Text.trimChars_framed (w := []) (by simp) (trimmed_intercalate joint hne hall).2
      fun c hc => Text.isBlank_of_isSpace (hspaces c hc)
  have hsplit : SelectorText.split (joint.intercalate (e :: entries)).toList = e :: entries := by
    have h := SelectorText.split_intercalate hjoint hw (List.forall_mem_nil _) hne hall
    rwa [List.append_nil] at h
  refine ⟨position, hrule.trans ?_⟩
  have hsettled : ∀ text, (⟨text, false⟩ : Place).settled = text := fun _ => rfl
  simp only [styleRule, hsettled, hstop, hprelude, hsplit, Token.closeBlock_of_closesOver hinner]

end Rules

end Stylesheet

end CriticalCss
