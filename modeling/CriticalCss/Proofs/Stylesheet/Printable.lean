import CriticalCss.Proofs.Token.Skipping
import CriticalCss.Stylesheet.Printer
import CriticalCss.Stylesheet.Reader

/-!
# Style sheets that can be printed

Not every tree comes from a text: a selector with a brace in it, say, is read as something else.
`Stylesheet.isPrintable` tells which trees are printed faithfully.  It asks for calm texts without
spaces at their ends, for names that need no escapes, for steps directly inside animations and
nowhere else, and for no comments, which are never printed.

The rest of this module is about single texts: `trimChars_framed` and `collapse_framed` take away
the white space around them, and `split_intercalate` takes a list of them apart.
-/

namespace CriticalCss

open Token (isCalm isSpace nested mentionsUrl isName startsName)

/-! ## Printable texts -/

/-- The characters outside strings and round brackets.  The text begins in a string or not, and
inside so many brackets. -/
def Token.outside (quoted : Bool) (depth : Nat) : List Char → List Char
  | [] => []
  | c :: cs =>
    if quoted then outside (c != '"') depth cs
    else if c = '"' then outside true depth cs
    else if c = '(' then outside false (depth + 1) cs
    else if c = ')' then outside false (depth - 1) cs
    else if depth = 0 then c :: outside false 0 cs
    else outside false depth cs

namespace Text

/-- A calm text without spaces at its ends. -/
def isPhrase (s : String) : Bool :=
  s.toList.all isCalm && nested false 0 s.toList && !mentionsUrl s.toList &&
    s.toList.head? != some ' ' && s.toList.getLast? != some ' '

/-- An entry of a list of selectors or values: a phrase without commas of its own and without
runs of spaces. -/
def isEntry (s : String) : Bool :=
  isPhrase s && s != "" && !contains s.toList [' ', ' '] &&
    !(Token.outside false 0 s.toList).contains ','

end Text

/-- A declaration with a name and a value. -/
def Declaration.isPrintable (d : Declaration) : Bool :=
  isName d.property.toList && Text.isPhrase d.value && d.value != ""

namespace Stylesheet

/-- Whether a style rule may begin with a selector: it begins with no keyword and no closing mark of
a comment. -/
def opensRule (selector : String) : Bool :=
  match selector.toList with
  | '@' :: rest => !startsName rest
  | '-' :: '-' :: '>' :: _ => false
  | _ => true

/-- The keywords that stand for a kind of rule, with a block or without one. -/
def groupKeywords : List String := ["charset", "media", "supports"]

/-- Whether a keyword with a block stands for a block of declarations. -/
def isDescriptorKeyword (name : String) : Bool :=
  !groupKeywords.contains (Text.lower name) && !(Text.lower name).endsWith "keyframes" &&
    Text.lower name != "font-face" && !ruleBlockKeywords.contains (Text.lower name)

end Stylesheet

open Stylesheet (opensRule groupKeywords isDescriptorKeyword ruleBlockKeywords)

/-- Whether an item is a step of an animation. -/
def Item.isStep : Item → Bool
  | .keyframe .. => true
  | _ => false

/-- An item that is printed faithfully. -/
def Item.isPrintable : Item → Bool
  | .style selectors declarations =>
    selectors.all Text.isEntry && selectors.head?.any opensRule &&
      declarations.all Declaration.isPrintable
  | .keyframe values declarations =>
    values.all Text.isEntry && !values.isEmpty && declarations.all Declaration.isPrintable
  | .fontFace declarations => declarations.all Declaration.isPrintable
  | .charset text => Text.isPhrase text
  | .comment _ => false
  | .statement name prelude =>
    isName name.toList && !groupKeywords.contains (Text.lower name) && Text.isPhrase prelude
  | .descriptors name prelude declarations =>
    isName name.toList && isDescriptorKeyword name && Text.isPhrase prelude &&
      declarations.all Declaration.isPrintable

/-- A heading that is printed faithfully. -/
def Heading.isPrintable : Heading → Bool
  | .media condition => Text.isPhrase condition
  | .supports condition => Text.isPhrase condition
  | .keyframes none name => Text.isPhrase name
  | .keyframes (some vendor) name =>
    vendor != "" && isName (vendor ++ "keyframes").toList && Text.isPhrase name
  | .other name prelude =>
    isName name.toList && ruleBlockKeywords.contains (Text.lower name) && Text.isPhrase prelude

mutual

/-- A node that is printed faithfully directly inside an animation, or elsewhere. -/
def Node.isPrintable (inAnimation : Bool) : Node → Bool
  | .item i _ => i.isStep == inAnimation && i.isPrintable
  | .block heading rules _ =>
    !inAnimation && heading.isPrintable && Node.arePrintable (!heading.groupsRules) rules

/-- Nodes that are printed faithfully. -/
def Node.arePrintable (inAnimation : Bool) : List Node → Bool
  | [] => true
  | n :: ns => n.isPrintable inAnimation && Node.arePrintable inAnimation ns

end

/-- A style sheet that is printed faithfully. -/
def Stylesheet.isPrintable (sheet : Stylesheet) : Bool :=
  Node.arePrintable false sheet

theorem Node.arePrintable_iff {inAnimation : Bool} {ns : List Node} :
    Node.arePrintable inAnimation ns = true ↔ ∀ n ∈ ns, n.isPrintable inAnimation = true := by
  induction ns with
  | nil => simp [arePrintable]
  | cons n ns ih => simp [arePrintable, ih]

/-! ## White space around a text -/

namespace Text

theorem isBlank_of_isSpace {c : Char} (hc : isSpace c = true) : isBlank c = true := by
  simp only [isSpace, Token.isNewline, Bool.or_eq_true, beq_iff_eq] at hc
  rcases hc with (rfl | rfl) | (rfl | rfl) | rfl <;> decide

/-- Of the calm characters only the space is blank. -/
theorem eq_space_of_isBlank {c : Char} (hc : isCalm c = true) (hblank : isBlank c = true) :
    c = ' ' := by
  have h := Token.forall_calm (p := fun c => !isBlank c || c == ' ') (by decide) hc
  simpa [hblank] using h

/-- A text without blanks at its ends. -/
structure Trimmed (t : List Char) : Prop where
  head : ∀ c ∈ t.head?, isBlank c = false
  last : ∀ c ∈ t.getLast?, isBlank c = false

/-- What stands between two texts without blanks at their ends does not matter. -/
theorem Trimmed.append {t u : List Char} (ht : Trimmed t) (hu : Trimmed u) (htne : t ≠ [])
    (hune : u ≠ []) (between : List Char) : Trimmed (t ++ (between ++ u)) where
  head c hc := by
    obtain ⟨d, t', rfl⟩ := List.exists_cons_of_ne_nil htne
    exact ht.head c hc
  last c hc := by
    have hlast : (t ++ (between ++ u)).getLast? = u.getLast? := by
      rw [← List.append_assoc, List.getLast?_append, Option.or_of_isSome]
      exact List.getLast?_isSome.2 hune
    exact hu.last c (hlast ▸ hc)

theorem dropBlanksRight_append {t w : List Char} (ht : Trimmed t)
    (hw : ∀ c ∈ w, isBlank c = true) : dropBlanksRight (t ++ w) = t := by
  rw [dropBlanksRight, List.reverse_append, List.dropWhile_append_of_pos fun c hc =>
    hw c (List.mem_reverse.1 hc)]
  cases hrev : t.reverse with
  | nil => rw [List.reverse_eq_nil_iff.1 hrev]; rfl
  | cons c u =>
    have hlast : t.getLast? = some c := by rw [← List.head?_reverse, hrev]; rfl
    have hc : ¬ isBlank c = true := by rw [ht.last c hlast]; decide
    rw [List.dropWhile_cons_of_neg hc, ← hrev, List.reverse_reverse]

/-- Trimming takes away what stands around a text. -/
theorem trimChars_framed {w t w' : List Char} (hw : ∀ c ∈ w, isBlank c = true) (ht : Trimmed t)
    (hw' : ∀ c ∈ w', isBlank c = true) : trimChars (w ++ (t ++ w')) = t := by
  rw [trimChars, List.dropWhile_append_of_pos hw]
  cases t with
  | nil =>
    rw [List.nil_append, ← List.append_nil w', List.dropWhile_append_of_pos hw']
    rfl
  | cons c t =>
    have hc : ¬ isBlank c = true := by rw [ht.head c rfl]; decide
    rw [List.cons_append, List.dropWhile_cons_of_neg hc]
    exact dropBlanksRight_append ht hw'

/-! ## Entries of lists -/

theorem wordChars_of_blank {c : Char} (hc : isBlank c = true) (cs : List Char) :
    wordChars (c :: cs) = wordChars cs :=
  if_pos hc

theorem wordChars_of_not_blank {c : Char} (hc : isBlank c = false) (cs : List Char) :
    wordChars (c :: cs) =
      match cs, wordChars cs with
      | d :: _, w :: ws => if isBlank d then [c] :: w :: ws else (c :: w) :: ws
      | _, ws => [c] :: ws :=
  if_neg (Bool.eq_false_iff.1 hc)

theorem wordChars_append_of_blank {w : List Char} (hw : ∀ c ∈ w, isBlank c = true)
    (t : List Char) : wordChars (w ++ t) = wordChars t := by
  induction w with
  | nil => rfl
  | cons c w ih =>
    rw [List.cons_append, wordChars_of_blank (hw c List.mem_cons_self)]
    exact ih fun d hd => hw d (List.mem_cons_of_mem _ hd)

/-- A text whose blanks are single spaces inside it. -/
structure Tidy (t : List Char) : Prop extends Trimmed t where
  spaces : ∀ c ∈ t, isBlank c = true → c = ' '
  single : contains t [' ', ' '] = false

theorem single_of_cons {c : Char} {t : List Char} (h : contains (c :: t) [' ', ' '] = false) :
    contains t [' ', ' '] = false := by
  rw [contains, Bool.or_eq_false_iff] at h
  exact h.2

/-- The words of a tidy text stand in it with one space between them. -/
theorem exists_wordChars_eq {w : List Char} (hw : ∀ c ∈ w, isBlank c = true) :
    ∀ t, t ≠ [] → Tidy t → ∃ word words, wordChars (t ++ w) = word :: words ∧
      [' '].intercalate (word :: words) = t
  | [], hne, _ => absurd rfl hne
  | [c], _, ht => by
    have hblank : wordChars w = [] := by
      rw [← List.append_nil w, wordChars_append_of_blank hw]
      rfl
    refine ⟨[c], [], ?_, rfl⟩
    rw [List.singleton_append, wordChars_of_not_blank (ht.head c rfl), hblank]
    cases w <;> rfl
  | c :: d :: t, _, ht => by
    have hc := ht.head c rfl
    have hspaces : ∀ e ∈ d :: t, isBlank e = true → e = ' ' := fun e he =>
      ht.spaces e (List.mem_cons_of_mem _ he)
    have hsingle := single_of_cons ht.single
    by_cases hd : isBlank d = true
    · have hspace := hspaces d List.mem_cons_self hd
      subst hspace
      cases t with
      | nil =>
        have := ht.last ' ' rfl
        rw [hd] at this
        cases this
      | cons e t =>
        have he : isBlank e = false := by
          refine Bool.eq_false_iff.2 fun he => ?_
          have hspace := hspaces e (by simp) he
          subst hspace
          simp [contains] at hsingle
        obtain ⟨word, words, hwords, hjoin⟩ := exists_wordChars_eq hw (e :: t) (by simp)
          { head := fun x hx => by cases hx; exact he
            last := fun x hx => ht.last x (by simpa using hx)
            spaces := fun x hx => hspaces x (List.mem_cons_of_mem _ hx)
            single := single_of_cons hsingle }
        refine ⟨[c], word :: words, ?_, ?_⟩
        · rw [List.cons_append, List.cons_append, wordChars_of_not_blank hc,
            wordChars_of_blank hd, hwords]
          exact if_pos hd
        · rw [List.intercalate_cons_cons, hjoin]
          rfl
    · obtain ⟨word, words, hwords, hjoin⟩ := exists_wordChars_eq hw (d :: t) (by simp)
        { head := fun x hx => by cases hx; exact Bool.eq_false_iff.2 hd
          last := fun x hx => ht.last x (by simpa using hx)
          spaces := hspaces
          single := hsingle }
      refine ⟨c :: word, words, ?_, ?_⟩
      · rw [List.cons_append, wordChars_of_not_blank hc, hwords]
        exact if_neg hd
      · rw [List.intercalate_cons_cons_left, hjoin]

/-- Collapsing takes away what stands around a tidy text. -/
theorem collapse_framed {w t w' : List Char} (hw : ∀ c ∈ w, isBlank c = true) (ht : Tidy t)
    (hne : t ≠ []) (hw' : ∀ c ∈ w', isBlank c = true) : collapse (w ++ (t ++ w')) = t := by
  obtain ⟨word, words, hwords, hjoin⟩ := exists_wordChars_eq hw' t hne ht
  rw [collapse, wordChars_append_of_blank hw, hwords, hjoin]

/-! ## Phrases and entries -/

theorem isPhrase_iff {s : String} : isPhrase s = true ↔
    Token.Calm 0 s.toList ∧ s.toList.head? ≠ some ' ' ∧ s.toList.getLast? ≠ some ' ' := by
  simp only [isPhrase, Bool.and_eq_true, Bool.not_eq_true', bne_iff_ne, List.all_eq_true]
  constructor
  · rintro ⟨⟨⟨⟨hchar, hnested⟩, hurl⟩, hhead⟩, hlast⟩
    exact ⟨⟨hchar, hnested, hurl⟩, hhead, hlast⟩
  · rintro ⟨⟨hchar, hnested, hurl⟩, hhead, hlast⟩
    exact ⟨⟨⟨⟨hchar, hnested⟩, hurl⟩, hhead⟩, hlast⟩

theorem calm_of_isPhrase {s : String} (h : isPhrase s = true) : Token.Calm 0 s.toList :=
  (isPhrase_iff.1 h).1

/-- A phrase has no blanks at its ends. -/
theorem trimmed_of_isPhrase {s : String} (h : isPhrase s = true) : Trimmed s.toList := by
  obtain ⟨hcalm, hhead, hlast⟩ := isPhrase_iff.1 h
  constructor
  · intro c hc
    refine Bool.eq_false_iff.2 fun hblank => hhead ?_
    have hspace := eq_space_of_isBlank (hcalm.chars c (List.mem_of_mem_head? hc)) hblank
    rw [← hspace]
    exact hc
  · intro c hc
    refine Bool.eq_false_iff.2 fun hblank => hlast ?_
    have hspace := eq_space_of_isBlank (hcalm.chars c (List.mem_of_getLast? hc)) hblank
    rw [← hspace]
    exact hc

/-- How a phrase begins. -/
theorem exists_of_isPhrase {s : String} (h : isPhrase s = true) (hne : s ≠ "") :
    ∃ c t, s.toList = c :: t ∧ isCalm c = true ∧ isSpace c = false := by
  obtain ⟨c, t, ht⟩ := List.exists_cons_of_ne_nil fun hnil => hne (String.toList_eq_nil_iff.1 hnil)
  have hhead : s.toList.head? = some c := by rw [ht]; rfl
  refine ⟨c, t, ht, (calm_of_isPhrase h).chars c (List.mem_of_mem_head? hhead), ?_⟩
  refine Bool.eq_false_iff.2 fun hspace => ?_
  have hblank := (trimmed_of_isPhrase h).head c hhead
  rw [isBlank_of_isSpace hspace] at hblank
  cases hblank

theorem isPhrase_of_isEntry {s : String} (h : isEntry s = true) : isPhrase s = true := by
  simp only [isEntry, Bool.and_eq_true] at h
  exact h.1.1.1

theorem ne_empty_of_isEntry {s : String} (h : isEntry s = true) : s ≠ "" := by
  simp only [isEntry, Bool.and_eq_true, bne_iff_ne] at h
  exact h.1.1.2

theorem toList_ne_nil_of_isEntry {s : String} (h : isEntry s = true) : s.toList ≠ [] :=
  fun hnil => ne_empty_of_isEntry h (String.toList_eq_nil_iff.1 hnil)

/-- An entry has single spaces only. -/
theorem tidy_of_isEntry {s : String} (h : isEntry s = true) : Tidy s.toList := by
  have hphrase := isPhrase_of_isEntry h
  simp only [isEntry, Bool.and_eq_true, Bool.not_eq_true'] at h
  exact { trimmed_of_isPhrase hphrase with
    spaces := fun c hc => eq_space_of_isBlank ((calm_of_isPhrase hphrase).chars c hc)
    single := h.1.2 }

end Text

namespace SelectorText

open Token (outside)

/-- The mode in which a text that is quoted or not begins. -/
def modeOf (quoted : Bool) : Mode :=
  if quoted then .quoted '"' else .plain

/-- Splitting goes on after a character of a text without commas of its own, in the mode in which
the text goes on. -/
def GoesOn (quoted : Bool) (depth : Nat) (c : Char) (t : List Char) : Prop :=
  ∃ quoted' depth', nested quoted' depth' t = true ∧ ',' ∉ outside quoted' depth' t ∧
    ∀ cs, pieces (modeOf quoted) depth (c :: cs) =
      consHead c (pieces (modeOf quoted') depth' cs)

section GoesOn

variable {depth : Nat} {c : Char} {t : List Char}

/-- A character of a string. -/
theorem goesOn_quoted (hc : isCalm c = true) (hnested : nested true depth (c :: t) = true)
    (hcomma : ',' ∉ outside true depth (c :: t)) : GoesOn true depth c t := by
  have hpiece : ∀ cs, pieces (modeOf true) depth (c :: cs) =
      consHead c (pieces (afterQuoted '"' c) depth cs) := fun _ => rfl
  rw [nested, if_pos rfl] at hnested
  rw [outside, if_pos rfl] at hcomma
  by_cases hquote : c = '"'
  · subst hquote
    rw [if_pos rfl] at hnested
    exact ⟨false, depth, hnested, hcomma, hpiece⟩
  · rw [if_neg hquote, Bool.and_eq_true] at hnested
    rw [bne_iff_ne.2 hquote] at hcomma
    have hafter : afterQuoted '"' c = modeOf true := by
      rw [afterQuoted, if_neg (Token.ne_backslash_of_isCalm hc).1, if_neg hquote]
      rfl
    exact ⟨true, depth, hnested.2, hcomma, hafter ▸ hpiece⟩

/-- A character outside strings. -/
theorem goesOn_unquoted (hc : isCalm c = true) (hnested : nested false depth (c :: t) = true)
    (hcomma : ',' ∉ outside false depth (c :: t)) : GoesOn false depth c t := by
  have hpiece : ∀ cs, ¬ (c = ',' ∧ depth = 0) → pieces (modeOf false) depth (c :: cs) =
      consHead c (pieces (afterPlain c) (depthAfter depth c) cs) := fun _ h => if_neg h
  rw [nested, if_neg Bool.false_ne_true] at hnested
  rw [outside, if_neg Bool.false_ne_true] at hcomma
  by_cases hquote : c = '"'
  · subst hquote
    rw [if_pos rfl] at hnested hcomma
    exact ⟨true, depth, hnested, hcomma, fun cs => hpiece cs fun h => absurd h.1 (by decide)⟩
  rw [if_neg hquote] at hnested hcomma
  by_cases hopen : c = '('
  · subst hopen
    rw [if_pos rfl] at hnested hcomma
    exact ⟨false, depth + 1, hnested, hcomma, fun cs => hpiece cs fun h => absurd h.1 (by decide)⟩
  rw [if_neg hopen] at hnested hcomma
  by_cases hclose : c = ')'
  · subst hclose
    rw [if_pos rfl, Bool.and_eq_true] at hnested
    rw [if_pos rfl] at hcomma
    exact ⟨false, depth - 1, hnested.2, hcomma,
      fun cs => hpiece cs fun h => absurd h.1 (by decide)⟩
  rw [if_neg hclose] at hnested hcomma
  have hne : ∀ d, isCalm d = false → c ≠ d := fun d hd => Token.ne_of_isCalm hc hd
  have hafter : afterPlain c = modeOf false := by
    simp [afterPlain, hquote, hne '\'' (by decide), modeOf]
  have hdepth : depthAfter depth c = depth := by
    simp [depthAfter, hopen, hclose, hne '[' (by decide), hne ']' (by decide)]
  rw [hafter, hdepth] at hpiece
  by_cases hzero : depth = 0
  · subst hzero
    rw [if_pos rfl, List.mem_cons, not_or] at hcomma
    exact ⟨false, 0, hnested, hcomma.2, fun cs => hpiece cs fun h => hcomma.1 h.1.symm⟩
  · rw [if_neg hzero] at hcomma
    exact ⟨false, depth, hnested, hcomma, fun cs => hpiece cs fun h => hzero h.2⟩

end GoesOn

/-- A text without commas of its own stands in one piece with what comes up to the next comma. -/
theorem pieces_append {t rest piece : List Char} {more : List (List Char)}
    (hrest : pieces .plain 0 rest = piece :: more) (quoted : Bool) (depth : Nat)
    (hchar : ∀ c ∈ t, isCalm c = true) (hnested : nested quoted depth t = true)
    (hcomma : ',' ∉ outside quoted depth t) :
    pieces (modeOf quoted) depth (t ++ rest) = (t ++ piece) :: more := by
  induction t generalizing quoted depth with
  | nil =>
    simp only [nested, Bool.and_eq_true, Bool.not_eq_true', beq_iff_eq] at hnested
    obtain ⟨rfl, rfl⟩ := hnested
    exact hrest
  | cons c t ih =>
    have hc := hchar c List.mem_cons_self
    have hstep : GoesOn quoted depth c t := by
      cases quoted with
      | true => exact goesOn_quoted hc hnested hcomma
      | false => exact goesOn_unquoted hc hnested hcomma
    obtain ⟨quoted', depth', hnested', hcomma', hpiece⟩ := hstep
    rw [List.cons_append, hpiece, ih quoted' depth'
      (fun d hd => hchar d (List.mem_cons_of_mem _ hd)) hnested' hcomma']
    rfl

/-- White space stands in one piece with what comes up to the next comma. -/
theorem pieces_append_of_space {w rest piece : List Char} {more : List (List Char)}
    (hw : ∀ c ∈ w, isSpace c = true) (hrest : pieces .plain 0 rest = piece :: more) :
    pieces .plain 0 (w ++ rest) = (w ++ piece) :: more := by
  induction w with
  | nil => exact hrest
  | cons c w ih =>
    have hc := hw c List.mem_cons_self
    have hne : ∀ d : Char, isSpace d = false → c ≠ d := fun d hd =>
      ne_of_apply_ne isSpace (by rw [hc, hd]; decide)
    have hafter : afterPlain c = .plain := by
      simp [afterPlain, hne '"' rfl, hne '\'' rfl]
    have hdepth : depthAfter 0 c = 0 := by
      simp [depthAfter, hne '(' rfl, hne '[' rfl, hne ')' rfl, hne ']' rfl]
    have hpiece : pieces .plain 0 (c :: w ++ rest) =
        if c = ',' ∧ (0 : Nat) = 0 then [] :: pieces .plain 0 (w ++ rest)
        else consHead c (pieces (afterPlain c) (depthAfter 0 c) (w ++ rest)) := rfl
    rw [hpiece, if_neg fun h => hne ',' rfl h.1, hafter, hdepth,
      ih fun d hd => hw d (List.mem_cons_of_mem _ hd)]
    rfl

/-- An entry stands in one piece with what comes up to the next comma. -/
theorem pieces_entry {e : String} (he : Text.isEntry e = true) {rest piece : List Char}
    {more : List (List Char)} (hrest : pieces .plain 0 rest = piece :: more) :
    pieces .plain 0 (e.toList ++ rest) = (e.toList ++ piece) :: more := by
  have hcalm := Text.calm_of_isPhrase (Text.isPhrase_of_isEntry he)
  simp only [Text.isEntry, Bool.and_eq_true, Bool.not_eq_true', List.contains_eq_mem,
    decide_eq_false_iff_not] at he
  exact pieces_append hrest false 0 hcalm.chars hcalm.nested he.2

/-- The pieces of a joined list are its entries, up to white space around them. -/
theorem map_collapse_pieces {joint : String} {w : List Char} (hjoint : joint.toList = ',' :: w)
    (hw : ∀ c ∈ w, isSpace c = true) {gap : List Char} (hgap : ∀ c ∈ gap, isSpace c = true)
    {entries : List String} (hne : entries ≠ []) (hall : ∀ e ∈ entries, Text.isEntry e = true)
    {lead : List Char} (hlead : ∀ c ∈ lead, isSpace c = true) :
    (pieces .plain 0 (lead ++ ((joint.intercalate entries).toList ++ gap))).map Text.collapse =
      entries.map (·.toList) := by
  have hblank : ∀ {w : List Char}, (∀ c ∈ w, isSpace c = true) →
      ∀ c ∈ w, Text.isBlank c = true := fun hw c hc => Text.isBlank_of_isSpace (hw c hc)
  induction entries generalizing lead with
  | nil => exact absurd rfl hne
  | cons e entries ih =>
    have he := hall e List.mem_cons_self
    have hcollapse : ∀ {w'}, (∀ c ∈ w', Text.isBlank c = true) →
        Text.collapse (lead ++ (e.toList ++ w')) = e.toList := fun hw' =>
      Text.collapse_framed (hblank hlead) (Text.tidy_of_isEntry he)
        (Text.toList_ne_nil_of_isEntry he) hw'
    cases entries with
    | nil =>
      have hend : pieces .plain 0 gap = [gap] := by
        have h := pieces_append_of_space hgap (rfl : pieces .plain 0 [] = [[]])
        rwa [List.append_nil] at h
      rw [String.intercalate_singleton,
        pieces_append_of_space hlead (pieces_entry he hend), List.map_singleton,
        hcollapse (hblank hgap)]
      rfl
    | cons e' entries =>
      have hcomma : pieces .plain 0 (',' :: (w ++ ((joint.intercalate (e' :: entries)).toList ++
          gap))) = [] :: pieces .plain 0 (w ++ ((joint.intercalate (e' :: entries)).toList ++
          gap)) := rfl
      have htext : lead ++ ((joint.intercalate (e :: e' :: entries)).toList ++ gap) =
          lead ++ (e.toList ++ (',' :: (w ++ ((joint.intercalate (e' :: entries)).toList ++
            gap)))) := by
        rw [String.intercalate_cons_cons]
        simp [hjoint]
      rw [htext, pieces_append_of_space hlead (pieces_entry he hcomma), List.map_cons,
        hcollapse (List.forall_mem_nil _),
        ih (List.cons_ne_nil _ _) (fun e he => hall e (List.mem_cons_of_mem _ he)) hw]
      rfl

/-- Splitting takes a joined list apart. -/
theorem split_intercalate {joint : String} {w : List Char} (hjoint : joint.toList = ',' :: w)
    (hw : ∀ c ∈ w, isSpace c = true) {gap : List Char} (hgap : ∀ c ∈ gap, isSpace c = true)
    {entries : List String} (hne : entries ≠ []) (hall : ∀ e ∈ entries, Text.isEntry e = true) :
    split ((joint.intercalate entries).toList ++ gap) = entries := by
  have hpieces := map_collapse_pieces hjoint hw hgap hne hall (List.forall_mem_nil _)
  rw [List.nil_append] at hpieces
  have hfilter : (entries.map (·.toList)).filter (· ≠ []) = entries.map (·.toList) := by
    refine List.filter_eq_self.2 fun t ht => ?_
    obtain ⟨e, he, rfl⟩ := List.mem_map.1 ht
    exact decide_eq_true (Text.toList_ne_nil_of_isEntry (hall e he))
  rw [split, hpieces, hfilter, List.map_map]
  refine (List.map_congr_left fun e _ => ?_).trans (List.map_id _)
  exact String.ofList_toList

end SelectorText

end CriticalCss
