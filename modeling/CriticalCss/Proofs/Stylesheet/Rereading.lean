import CriticalCss.Proofs.Stylesheet.Portions
import CriticalCss.Proofs.Stylesheet.Recasing

/-!
# Reading a style sheet after a change of case

After a change of the case of letters a style sheet is read in the same steps, and what each step
finds is the same up to case.  Texts are the same where nothing was changed in the portions that are
kept.

* `declarations_apply` and `steps_apply` are the blocks of declarations and the animations.
* `Found.Alike` relates what is found at a place before and after the change; `nextRule_apply` is
  one step, one case for each kind of rule, and `nextRule_apply_of_node` and its siblings say what
  the step is for each outcome.
* `rulesFrom_apply` and `firstFault?_apply` are the whole run.
-/

namespace CriticalCss

open Token (closeBlock skipUntil skipBlanks scan between isStop)

/-! ## What is the same of a token -/

namespace Token

/-- The name of an identifier. -/
def ident? : Token → Option String
  | .ident name => some name
  | _ => none

theorem ident?_of_outline {t t' : Token} (h : t'.outline = t.outline) :
    t'.ident?.map Text.lower = t.ident?.map Text.lower := by
  have hident : ∀ t : Token, t.outline.ident? = t.ident?.map Text.lower := fun t => by
    cases t <;> rfl
  rw [← hident, h, hident]

theorem name_of_ident? {t : Token} {n : String} (h : t.ident? = some n) : t.name = n := by
  cases t <;> cases h
  rfl

/-- What a rule is, with its name in lower case. -/
def Lead.lower : Lead → Lead
  | .comment text => .comment (Text.lower text)
  | .keyword name => .keyword (Text.lower name)
  | .filler => .filler
  | .selector => .selector

theorem lead_of_outline {t t' : Token} (h : t'.outline = t.outline) :
    t'.lead.lower = t.lead.lower := by
  have hlead : ∀ t : Token, t.outline.lead = t.lead.lower := fun t => by cases t <;> rfl
  rw [← hlead, h, hlead]

theorem Lead.alike_of_lower {l l' : Lead} : l'.lower = l.lower →
    match l with
    | .filler => l' = .filler
    | .comment text => ∃ text', l' = .comment text' ∧ Text.lower text' = Text.lower text
    | .keyword name => ∃ name', l' = .keyword name' ∧ Text.lower name' = Text.lower name
    | .selector => l' = .selector := by
  cases l <;> cases l' <;> simp [lower]

theorem name_of_comment {t : Token} {text : String} (h : t.lead = .comment text) :
    t.name = text := by
  cases t <;> cases h
  rfl

theorem eq_colon_iff_of_outline {t t' : Token} (h : t'.outline = t.outline) :
    t' = .colon ↔ t = .colon := by
  have hcolon : ∀ t : Token, t.outline = .colon ↔ t = .colon := fun t => by
    cases t <;> simp [outline]
  rw [← hcolon, h, hcolon]

end Token

/-- The texts of the portions that are kept are the same to the function after the change. -/
def Recasing.KeepsAll (r : Recasing) (f : String → String) (qs : List Portion) : Prop :=
  ∀ q ∈ qs, q.role = .kept → r.Keeps f q.low q.high

namespace Stylesheet

variable (r : Recasing) {f : String → String}

/-! ## Declarations -/

theorem declarationAt?_eq_bind (start stop : List Char) :
    declarationAt? start stop =
      (scan start).bind fun first => first.1.ident?.bind fun property =>
        (scan (skipBlanks first.2)).bind fun second =>
          if second.1 = .colon then
            if rawText (skipBlanks second.2) stop = "" ∧ !property.startsWith "--" then none
            else some ⟨property, rawText (skipBlanks second.2) stop⟩
          else none := by
  unfold declarationAt?
  cases scan start with
  | none => rfl
  | some first =>
    obtain ⟨t, rest⟩ := first
    cases t with
    | ident property =>
      dsimp only [Option.bind_some, Token.ident?]
      cases scan (skipBlanks rest) with
      | none => rfl
      | some second =>
        obtain ⟨t, rest⟩ := second
        cases t <;> rfl
    | _ => rfl

theorem map_toLower_eq_iff {w : List Char} (hw : ∀ c ∈ w, c.isAlpha = false) (v : List Char) :
    v.map Char.toLower = w ↔ v = w := by
  induction w generalizing v with
  | nil => exact List.map_eq_nil_iff
  | cons d w ih =>
    cases v with
    | nil => exact Iff.rfl
    | cons c v =>
      rw [List.map_cons, List.cons.injEq, List.cons.injEq, ih fun c hc => hw c (.tail d hc),
        toLower_eq_iff (hw d List.mem_cons_self)]

theorem eq_empty_iff_of_lower {s t : String} (h : Text.lower s = Text.lower t) :
    s = "" ↔ t = "" := by
  have hlower : ∀ s : String, Text.lower s = "" ↔ s = "" := fun s => by
    rw [Text.lower, String.ofList_eq_empty_iff, List.map_eq_nil_iff, String.toList_eq_nil_iff]
  rw [← hlower, h, hlower]

theorem startsWith_of_lower {s t : String} (h : Text.lower s = Text.lower t) :
    s.startsWith "--" = t.startsWith "--" := by
  have hlower : ∀ s : String, (Text.lower s).startsWith "--" = s.startsWith "--" := by
    intro s
    have htake := map_toLower_eq_iff (w := ['-', '-']) (by simp) (s.toList.take 2)
    rw [Bool.eq_iff_iff, String.startsWith_string_iff, String.startsWith_string_iff,
      List.prefix_iff_eq_take, List.prefix_iff_eq_take, Text.lower, String.toList_ofList,
      String.toList_ofList, ← List.map_take]
    exact eq_comm.trans (htake.trans eq_comm)
  rw [← hlower, h, hlower]

theorem isStop_of_mem_ends : ∀ c ∈ [';', '}'], isStop c = true := by simp [isStop]

theorem isStop_of_mem_braces : ∀ c ∈ ['{', '}'], isStop c = true := by simp [isStop]

/-- A stop mark is a token of its own. -/
theorem ident?_of_isStop {c : Char} (hc : isStop c = true) {cs rest : List Char} {t : Token}
    (h : scan (c :: cs) = some (t, rest)) : t.ident? = none := by
  simp only [isStop, List.contains_cons, List.contains_nil, Bool.or_false, Bool.or_eq_true,
    beq_iff_eq] at hc
  rcases hc with rfl | rfl | rfl <;> cases h <;> rfl

/-- A declaration ends after the name it begins with. -/
theorem skipUntil_length_le_of_ident {stops start rest : List Char} {t : Token}
    (hstops : ∀ c ∈ stops, isStop c = true) (h : scan start = some (t, rest)) {property : String}
    (ht : t.ident? = some property) : (skipUntil stops start).length ≤ rest.length := by
  have hhead : start.head?.any stops.contains = false := by
    cases start with
    | nil => rfl
    | cons c cs =>
      rw [List.head?_cons, Option.any_some, List.contains_eq_mem, decide_eq_false_iff_not]
      intro hc
      rw [ident?_of_isStop (hstops c hc) h] at ht
      cases ht
  have hskip := (Token.skipUntil_suffix stops (Token.closeBlocks t.opens?.toList rest)).length_le
  have hclose := (Token.closeBlocks_suffix t.opens?.toList rest).length_le
  rw [Token.skipUntil_of_scan h hhead]
  omega

/-- The name and the value of a declaration stand in the portion that it is read from. -/
theorem declaration_within {start rest value : List Char} {t mark : Token} {property : String}
    (hscan : scan start = some (t, rest)) (hproperty : t.ident? = some property)
    (hcolon : scan (skipBlanks rest) = some (mark, value)) :
    (skipUntil [';', '}'] start).length ≤ rest.length ∧
      (skipBlanks value).length ≤ start.length := by
  have hname := skipUntil_length_le_of_ident isStop_of_mem_ends hscan hproperty
  have hfirst := Token.scan_length_lt hscan
  have hsecond := Token.scan_length_lt hcolon
  have hblanks := (Token.skipBlanks_suffix rest).length_le
  have hblanks' := (Token.skipBlanks_suffix value).length_le
  omega

theorem declarationAt?_apply (start : List Char) {stop : List Char}
    (hstop : skipUntil [';', '}'] start = stop) :
    (declarationAt? (r.apply start) (r.apply stop)).isSome = (declarationAt? start stop).isSome ∧
      (r.Keeps f stop.length start.length →
        (declarationAt? (r.apply start) (r.apply stop)).map (Declaration.recast f) =
          (declarationAt? start stop).map (Declaration.recast f)) := by
  rw [declarationAt?_eq_bind, declarationAt?_eq_bind]
  cases hscan : scan start with
  | none =>
    rw [Token.scan_apply_of_none r hscan, Option.bind_none, Option.bind_none]
    exact ⟨rfl, fun _ => rfl⟩
  | some first =>
    obtain ⟨t, rest⟩ := first
    obtain ⟨t', hscan', houtline, hname⟩ := Token.exists_scan_apply r hscan
    have hident := Token.ident?_of_outline houtline
    rw [hscan']
    dsimp only [Option.bind_some]
    cases hproperty : t.ident? with
    | none =>
      rw [hproperty, Option.map_none, Option.map_eq_none_iff] at hident
      rw [hident, Option.bind_none, Option.bind_none]
      exact ⟨rfl, fun _ => rfl⟩
    | some property =>
      rw [hproperty, Option.map_some] at hident
      obtain ⟨property', hproperty', hlower⟩ := Option.map_eq_some_iff.1 hident
      rw [hproperty', Token.skipBlanks_apply]
      dsimp only [Option.bind_some]
      cases hcolon : scan (skipBlanks rest) with
      | none =>
        rw [Token.scan_apply_of_none r hcolon, Option.bind_none, Option.bind_none]
        exact ⟨rfl, fun _ => rfl⟩
      | some second =>
        obtain ⟨mark, value⟩ := second
        obtain ⟨mark', hcolon', hmark, -⟩ := Token.exists_scan_apply r hcolon
        have hempty := eq_empty_iff_of_lower (lower_rawText_apply r (skipBlanks value) stop)
        rw [hcolon']
        dsimp only [Option.bind_some]
        rw [Token.skipBlanks_apply, startsWith_of_lower hlower]
        simp only [Token.eq_colon_iff_of_outline hmark, hempty]
        split
        · split
          · exact ⟨rfl, fun _ => rfl⟩
          · refine ⟨rfl, fun hkeeps => congrArg some ?_⟩
            obtain ⟨hlow, hhigh⟩ := declaration_within hscan hproperty hcolon
            rw [hstop] at hlow
            have hvalue := rawText_apply r (hkeeps.mono (Nat.le_refl _) hhigh)
            have hsame : f property' = f property := by
              refine (hkeeps.mono hlow (Nat.le_refl _)).name hlower fun hspares => ?_
              rw [← Token.name_of_ident? hproperty', hname hspares, Token.name_of_ident? hproperty]
            rw [Declaration.recast, Declaration.recast, hvalue, hsame]
        · exact ⟨rfl, fun _ => rfl⟩

theorem head?_apply_eq_none_iff (cs : List Char) : (r.apply cs).head? = none ↔ cs.head? = none := by
  cases cs <;> simp

/-- Reading one declaration after the change. -/
theorem nextDeclaration_apply (cs : List Char) :
    match nextDeclaration cs with
    | none => nextDeclaration (r.apply cs) = none
    | some (d, rest) => ∃ d', nextDeclaration (r.apply cs) = some (d', r.apply rest) ∧
        d'.isSome = d.isSome ∧ (r.Keeps f rest.length cs.length →
          d'.map (Declaration.recast f) = d.map (Declaration.recast f)) := by
  have hskip := Token.skipUntil_apply r isStop_of_mem_ends (skipBlanks cs)
  obtain ⟨hsome, hsame⟩ := declarationAt?_apply r (f := f) (skipBlanks cs) rfl
  have hblanks := (Token.skipBlanks_suffix cs).length_le
  rw [nextDeclaration_eq_ite, nextDeclaration_eq_ite, Token.skipBlanks_apply, hskip]
  simp only [head?_apply_eq_none_iff,
    Token.head?_apply_eq_some_iff r (show '}'.isAlpha = false by decide),
    Token.head?_apply_eq_some_iff r (show ';'.isAlpha = false by decide)]
  by_cases hend : (skipBlanks cs).head? = none ∨ (skipBlanks cs).head? = some '}'
  · simp only [if_pos hend]
  · simp only [if_neg hend]
    refine ⟨_, congrArg some (Prod.ext rfl ?_), hsome, fun hkeeps => hsame ?_⟩
    · dsimp only
      split
      · exact Token.apply_tail r _
      · rfl
    · refine hkeeps.mono ?_ hblanks
      split
      · rw [List.length_tail]
        exact Nat.sub_le _ _
      · exact Nat.le_refl _

/-- The declarations of a block after the change. -/
theorem declarations_apply (cs : List Char) (h : r.KeepsAll f (declarationPortions cs)) :
    (declarations (r.apply cs)).map (Declaration.recast f) =
      (declarations cs).map (Declaration.recast f) := by
  induction cs using declarations_induction with
  | ends cs hnext =>
    have hnone := nextDeclaration_apply r (f := f) cs
    rw [hnext] at hnone
    rw [declarations_of_none hnone, declarations_of_none hnext]
  | goesOn cs d rest hnext ih =>
    rw [declarationPortions_eq, hnext] at h
    obtain ⟨hfirst, hrest⟩ := List.forall_mem_cons.1 h
    have hsome := nextDeclaration_apply r (f := f) cs
    rw [hnext] at hsome
    obtain ⟨d', hnext', hisSome, hsame⟩ := hsome
    rw [declarations_of_some hnext', declarations_of_some hnext, List.map_append, List.map_append,
      ih hrest]
    congr 1
    cases d with
    | none =>
      cases d' with
      | none => rfl
      | some d' => cases hisSome
    | some d =>
      have hkept := hsame (hfirst rfl)
      cases d' with
      | none => cases hisSome
      | some d' => exact congrArg Option.toList hkept

/-! ## Animation steps -/

/-- Reading one step after the change. -/
theorem nextStep_apply (f : String → String) (mark : Option String → Option String)
    (source cs : List Char) :
    match nextStep source cs with
    | none => nextStep (r.apply source) (r.apply cs) = none
    | some (n, rest) => ∃ n', nextStep (r.apply source) (r.apply cs) = some (n', r.apply rest) ∧
        (r.Keeps f (skipUntil ['{', '}'] (skipBlanks cs)).length cs.length →
          r.KeepsAll f (declarationPortions (skipUntil ['{', '}'] (skipBlanks cs)).tail) →
          n'.recast f mark = n.recast f mark) := by
  have hskip := Token.skipUntil_apply r isStop_of_mem_braces (skipBlanks cs)
  have hblanks := (Token.skipBlanks_suffix cs).length_le
  rw [nextStep_eq_ite, nextStep_eq_ite]
  dsimp only
  rw [Token.skipBlanks_apply, hskip]
  simp only [Token.head?_apply_eq_some_iff r (show '{'.isAlpha = false by decide)]
  by_cases hopens : (skipUntil ['{', '}'] (skipBlanks cs)).head? = some '{'
  · simp only [if_pos hopens]
    refine ⟨_, congrArg some (Prod.ext rfl ?_), fun hkeeps hinside => ?_⟩
    · dsimp only
      rw [Token.apply_tail, Token.closeBlock_apply]
    · have hvalues := (hkeeps.mono (Nat.le_refl _) hblanks).between
        (fun v => (SelectorText.split v).map f) fun hf _ _ hvw => map_split hf hvw
      rw [Node.recast, Node.recast, Item.recast, Item.recast, hvalues, Token.apply_tail,
        declarations_apply r _ hinside, locate_apply]
  · simp only [if_neg hopens]

/-- The steps of an animation after the change. -/
theorem steps_apply {mark : Option String → Option String} (source cs : List Char)
    (h : r.KeepsAll f (stepPortions source cs)) :
    Node.recastAll f mark (steps (r.apply source) (r.apply cs)) =
      Node.recastAll f mark (steps source cs) := by
  induction cs using steps_induction source with
  | ends cs hnext =>
    have hnone := nextStep_apply r f mark source cs
    rw [hnext] at hnone
    rw [steps_of_none hnone, steps_of_none hnext]
  | goesOn cs n rest hnext ih =>
    rw [stepPortions_eq, hnext] at h
    obtain ⟨hfirst, hrest⟩ := List.forall_mem_cons.1 h
    obtain ⟨hinside, hrest⟩ := List.forall_mem_append.1 hrest
    have hsome := nextStep_apply r f mark source cs
    rw [hnext] at hsome
    obtain ⟨n', hnext', hsame⟩ := hsome
    rw [steps_cons hnext', steps_cons hnext, Node.recastAll, Node.recastAll, ih hrest,
      hsame (hfirst rfl) hinside]

/-! ## Rules -/

/-- The place after the change. -/
def Place.recast (p : Place) : Place :=
  ⟨r.apply p.text, p.insideBlock⟩

@[simp]
theorem Place.recast_text (p : Place) : (p.recast r).text = r.apply p.text := rfl

theorem Place.settled_recast (p : Place) : (p.recast r).settled = r.apply p.settled := by
  obtain ⟨text, insideBlock⟩ := p
  cases insideBlock with
  | true => exact Token.closeBlock_apply r .curly text
  | false => rfl

/-- What is found before and after the change.  Nodes and headings agree but for vendor marks, as
far as the texts that are kept are the same. -/
def Found.Alike (f : String → String) (same : Prop) : Found → Found → Prop
  | .nothing, .nothing => True
  | .fault _, .fault _ => True
  | .node n, .node n' => same → n'.recast f (fun _ => none) = n.recast f fun _ => none
  | .group h p body, .group h' p' body' =>
    (same → h'.recast f (fun _ => none) = h.recast f fun _ => none) ∧ p' = p ∧
      body' = r.apply body
  | _, _ => False

variable {keyword keyword' prelude prelude' : String} {same : Prop}

theorem statementRule_apply (hkeyword : Text.lower keyword' = Text.lower keyword)
    (hprelude : same → f prelude' = f prelude) (position : Position) :
    Found.Alike r f same (statementRule keyword prelude position)
      (statementRule keyword' prelude' position) := by
  unfold statementRule
  dsimp only
  rw [hkeyword]
  by_cases hcharset : Text.lower keyword = "charset"
  · simp only [if_pos hcharset]
    intro hsame
    simp [Node.recast, Item.recast, hprelude hsame]
  by_cases hneeds : Text.lower keyword = "media" ∨ Text.lower keyword = "supports"
  · simp only [if_neg hcharset, if_pos hneeds]
    exact trivial
  · simp only [if_neg hcharset, if_neg hneeds]
    intro hsame
    simp [Node.recast, Item.recast, hprelude hsame, hkeyword]

theorem blockRule_apply (hkeyword : Text.lower keyword' = Text.lower keyword)
    (hprelude : same → f prelude' = f prelude) (source : List Char) (position : Position)
    (body : List Char) (hbody : same → r.KeepsAll f (blockPortions source keyword body)) :
    Found.Alike r f same (blockRule source keyword prelude position body)
      (blockRule (r.apply source) keyword' prelude' position (r.apply body)) := by
  unfold blockPortions at hbody
  unfold blockRule
  dsimp only at hbody ⊢
  rw [hkeyword]
  by_cases hcharset : Text.lower keyword = "charset"
  · simp only [if_pos hcharset]
    intro hsame
    simp [Node.recast, Item.recast, hprelude hsame]
  by_cases hmedia : Text.lower keyword = "media"
  · simp only [if_neg hcharset, if_pos hmedia]
    exact ⟨fun hsame => congrArg Heading.media (hprelude hsame), rfl, rfl⟩
  by_cases hsupports : Text.lower keyword = "supports"
  · simp only [if_neg hcharset, if_neg hmedia, if_pos hsupports]
    exact ⟨fun hsame => congrArg Heading.supports (hprelude hsame), rfl, rfl⟩
  have hothers : ¬(Text.lower keyword = "charset" ∨ Text.lower keyword = "media" ∨
      Text.lower keyword = "supports") := by
    simp [hcharset, hmedia, hsupports]
  simp only [if_neg hothers] at hbody
  simp only [if_neg hcharset, if_neg hmedia, if_neg hsupports]
  by_cases hanimation : (Text.lower keyword).endsWith "keyframes" = true
  · simp only [if_pos hanimation] at hbody ⊢
    intro hsame
    simp [Node.recast, Heading.recast, hprelude hsame, steps_apply r source body (hbody hsame)]
  by_cases hfont : Text.lower keyword = "font-face"
  · simp only [if_neg hanimation, if_pos hfont] at hbody ⊢
    intro hsame
    simp [Node.recast, Item.recast, declarations_apply r body (hbody hsame)]
  by_cases hrules : Text.lower keyword ∈ ruleBlockKeywords
  · simp only [if_neg hanimation, if_neg hfont, if_pos hrules]
    refine ⟨fun hsame => ?_, rfl, rfl⟩
    rw [Heading.recast, Heading.recast, hkeyword, hprelude hsame]
  · simp only [if_neg hanimation, if_neg hfont, if_neg hrules] at hbody ⊢
    intro hsame
    simp [Node.recast, Item.recast, hkeyword, hprelude hsame,
      declarations_apply r body (hbody hsame)]

variable {stops : List Char}

theorem skipUntil_atRule (hstops : AreEnds stops) (cs : List Char) :
    skipUntil ('{' :: ';' :: stops) (r.apply cs) = r.apply (skipUntil ('{' :: ';' :: stops) cs) :=
  Token.skipUntil_apply r (hstops.isStop ['{', ';'] (by simp [isStop])) cs

theorem skipUntil_styleRule (hstops : AreEnds stops) (cs : List Char) :
    skipUntil ('{' :: stops) (r.apply cs) = r.apply (skipUntil ('{' :: stops) cs) :=
  Token.skipUntil_apply r (hstops.isStop ['{'] (by simp [isStop])) cs

theorem atRule_place_apply (hstops : AreEnds stops)
    (hkeyword : Text.lower keyword' = Text.lower keyword) (source : List Char)
    (position : Position) (cs : List Char) :
    (atRule stops (r.apply source) keyword' position (r.apply cs)).2 =
      (atRule stops source keyword position cs).2.recast r := by
  rw [atRule_eq_ite, atRule_eq_ite]
  dsimp only
  rw [skipUntil_atRule r hstops]
  simp only [Token.head?_apply_eq_some_iff r (show '{'.isAlpha = false by decide),
    Token.head?_apply_eq_some_iff r (show ';'.isAlpha = false by decide), Token.apply_tail]
  by_cases hopens : (skipUntil ('{' :: ';' :: stops) cs).head? = some '{'
  · simp only [if_pos hopens]
    rw [hkeyword, Token.closeBlock_apply]
    split <;> rfl
  · simp only [if_neg hopens]
    split <;> rfl

theorem atRule_found_apply (hstops : AreEnds stops)
    (hkeyword : Text.lower keyword' = Text.lower keyword) (source : List Char)
    (position : Position) (cs : List Char)
    (hprelude : same → r.Keeps f (skipUntil ('{' :: ';' :: stops) cs).length cs.length)
    (hbody : same → (skipUntil ('{' :: ';' :: stops) cs).head? = some '{' →
      r.KeepsAll f (blockPortions source keyword (skipUntil ('{' :: ';' :: stops) cs).tail)) :
    Found.Alike r f same (atRule stops source keyword position cs).1
      (atRule stops (r.apply source) keyword' position (r.apply cs)).1 := by
  have hraw (hsame : same) := rawText_apply r (hprelude hsame)
  rw [atRule_eq_ite, atRule_eq_ite]
  dsimp only
  rw [skipUntil_atRule r hstops]
  simp only [Token.head?_apply_eq_some_iff r (show '{'.isAlpha = false by decide), Token.apply_tail]
  by_cases hopens : (skipUntil ('{' :: ';' :: stops) cs).head? = some '{'
  · simp only [if_pos hopens]
    exact blockRule_apply r hkeyword hraw source position _ fun hsame => hbody hsame hopens
  · simp only [if_neg hopens]
    exact statementRule_apply r hkeyword hraw position

theorem styleRule_place_apply (hstops : AreEnds stops) (position : Position) (p : Place) :
    (styleRule stops position (p.recast r)).2 = (styleRule stops position p).2.recast r := by
  rw [styleRule_eq_ite, styleRule_eq_ite]
  dsimp only
  rw [Place.settled_recast, skipUntil_styleRule r hstops]
  simp only [Token.head?_apply_eq_some_iff r (show '{'.isAlpha = false by decide),
    Token.apply_tail, Token.closeBlock_apply]
  split <;> rfl

theorem split_eq_nil_iff {v w : List Char} (h : v.map Char.toLower = w.map Char.toLower) :
    SelectorText.split v = [] ↔ SelectorText.split w = [] := by
  rw [← List.map_eq_nil_iff (f := Text.lower), map_lower_split h, List.map_eq_nil_iff]

theorem styleRule_found_apply (hstops : AreEnds stops) (position : Position) (p : Place)
    (hprelude : same → r.Keeps f (skipUntil ('{' :: stops) p.settled).length p.text.length)
    (hbody : same → r.KeepsAll f (declarationPortions (skipUntil ('{' :: stops) p.settled).tail)) :
    Found.Alike r f same (styleRule stops position p).1
      (styleRule stops position (p.recast r)).1 := by
  rw [styleRule_eq_ite, styleRule_eq_ite]
  dsimp only
  rw [Place.settled_recast, skipUntil_styleRule r hstops, Place.recast_text]
  simp only [Token.head?_apply_eq_some_iff r (show '{'.isAlpha = false by decide),
    Token.apply_tail]
  by_cases hopens : (skipUntil ('{' :: stops) p.settled).head? = some '{'
  · simp only [if_pos hopens]
    have hnone := split_eq_nil_iff (map_toLower_trimChars
      (r.map_toLower_between_apply p.text (skipUntil ('{' :: stops) p.settled)))
    by_cases hempty : SelectorText.split
        (Text.trimChars (between p.text (skipUntil ('{' :: stops) p.settled))) = []
    · rw [if_pos hempty, if_pos (hnone.2 hempty)]
      exact trivial
    · rw [if_neg hempty, if_neg fun h => hempty (hnone.1 h)]
      intro hsame
      have hselectors := (hprelude hsame).between
        (fun v => (SelectorText.split (Text.trimChars v)).map f)
        fun hf _ _ hvw => map_split hf (map_toLower_trimChars hvw)
      rw [Node.recast, Node.recast, Item.recast, Item.recast, hselectors,
        declarations_apply r _ (hbody hsame)]
  · simp only [if_neg hopens]
    exact trivial

/-- Reading one rule after the change. -/
theorem nextRule_apply (hstops : AreEnds stops) (source : List Char) (p : Place) :
    match nextRule stops source p with
    | none => nextRule stops (r.apply source) (p.recast r) = none
    | some (found, next) => ∃ found',
        nextRule stops (r.apply source) (p.recast r) = some (found', next.recast r) ∧
          Found.Alike r f (r.KeepsAll f (rulePortions stops source p)) found found' := by
  have hends : (r.apply p.settled).head?.any stops.contains =
      p.settled.head?.any stops.contains :=
    Token.head?_any_apply r (hstops.isStop [] nofun) p.settled
  rw [nextRule_eq_ite, nextRule_eq_ite, Place.settled_recast, hends, Place.recast_text,
    locate_apply]
  by_cases hend : p.settled.head?.any stops.contains = true
  · simp only [if_pos hend]
  simp only [if_neg hend]
  cases hscan : scan p.settled with
  | none => simp only [Token.scan_apply_of_none r hscan, Option.map_none]
  | some first =>
    obtain ⟨t, rest⟩ := first
    obtain ⟨t', hscan', houtline, hname⟩ := Token.exists_scan_apply r hscan
    have halike := Token.Lead.alike_of_lower (Token.lead_of_outline houtline)
    simp only [hscan', Option.map_some]
    unfold rulePortions
    simp only [hscan]
    cases hlead : t.lead with
    | filler =>
      rw [hlead] at halike
      rw [halike]
      exact ⟨_, rfl, trivial⟩
    | comment text =>
      rw [hlead] at halike
      obtain ⟨text', hlead', hlower⟩ := halike
      rw [hlead']
      refine ⟨_, rfl, fun hsame => ?_⟩
      have htext : f text' = f text := by
        refine (hsame _ (.tail _ (.head _)) rfl).name hlower fun hspares => ?_
        rw [← Token.name_of_comment hlead', hname hspares, Token.name_of_comment hlead]
      rw [Node.recast, Node.recast, Item.recast, Item.recast, htext]
    | keyword name =>
      rw [hlead] at halike
      obtain ⟨name', hlead', hlower⟩ := halike
      rw [hlead']
      dsimp only
      refine ⟨_, congrArg some (Prod.ext rfl (atRule_place_apply r hstops hlower source _ rest)),
        atRule_found_apply r hstops hlower source _ rest (fun hsame => ?_) fun hsame hopens => ?_⟩
      · exact hsame _ (.tail _ (.tail _ (.head _))) rfl
      · have hblock := (List.forall_mem_cons.1 (List.forall_mem_cons.1
          (List.forall_mem_cons.1 hsame).2).2).2
        rwa [if_pos hopens] at hblock
    | selector =>
      rw [hlead] at halike
      rw [halike]
      refine ⟨_, congrArg some (Prod.ext rfl (styleRule_place_apply r hstops _ p)),
        styleRule_found_apply r hstops _ p (fun hsame => ?_) fun hsame => ?_⟩
      · exact hsame _ (.head _) rfl
      · exact (List.forall_mem_cons.1 hsame).2

section Inversion

variable {source : List Char} {p next : Place}

theorem nextRule_apply_of_none (hstops : AreEnds stops) (h : nextRule stops source p = none) :
    nextRule stops (r.apply source) (p.recast r) = none := by
  have hrule := nextRule_apply r (f := id) hstops source p
  rwa [h] at hrule

theorem exists_nextRule_apply (f : String → String) (hstops : AreEnds stops) {found : Found}
    (h : nextRule stops source p = some (found, next)) :
    ∃ found', nextRule stops (r.apply source) (p.recast r) = some (found', next.recast r) ∧
      Found.Alike r f (r.KeepsAll f (rulePortions stops source p)) found found' := by
  have hrule := nextRule_apply r (f := f) hstops source p
  rwa [h] at hrule

theorem nextRule_apply_of_nothing (hstops : AreEnds stops)
    (h : nextRule stops source p = some (.nothing, next)) :
    nextRule stops (r.apply source) (p.recast r) = some (.nothing, next.recast r) := by
  obtain ⟨found', hnext, halike⟩ := exists_nextRule_apply r id hstops h
  cases found' with
  | nothing => exact hnext
  | _ => exact halike.elim

theorem nextRule_apply_of_fault (hstops : AreEnds stops) {e : ParseError}
    (h : nextRule stops source p = some (.fault e, next)) :
    ∃ e', nextRule stops (r.apply source) (p.recast r) = some (.fault e', next.recast r) := by
  obtain ⟨found', hnext, halike⟩ := exists_nextRule_apply r id hstops h
  cases found' with
  | fault e' => exact ⟨e', hnext⟩
  | _ => exact halike.elim

theorem nextRule_apply_of_node (f : String → String) (hstops : AreEnds stops) {n : Node}
    (h : nextRule stops source p = some (.node n, next)) :
    ∃ n', nextRule stops (r.apply source) (p.recast r) = some (.node n', next.recast r) ∧
      (r.KeepsAll f (rulePortions stops source p) →
        n'.recast f (fun _ => none) = n.recast f fun _ => none) := by
  obtain ⟨found', hnext, halike⟩ := exists_nextRule_apply r f hstops h
  cases found' with
  | node n' => exact ⟨n', hnext, halike⟩
  | _ => exact halike.elim

theorem nextRule_apply_of_group (f : String → String) (hstops : AreEnds stops) {heading : Heading}
    {position : Position} {body : List Char}
    (h : nextRule stops source p = some (.group heading position body, next)) :
    ∃ heading', nextRule stops (r.apply source) (p.recast r) =
        some (.group heading' position (r.apply body), next.recast r) ∧
      (r.KeepsAll f (rulePortions stops source p) →
        heading'.recast f (fun _ => none) = heading.recast f fun _ => none) := by
  obtain ⟨found', hnext, halike⟩ := exists_nextRule_apply r f hstops h
  cases found' with
  | group heading' position' body' =>
    obtain ⟨hheading, rfl, rfl⟩ := halike
    exact ⟨heading', hnext, hheading⟩
  | _ => exact halike.elim

end Inversion

/-- The rules after the change agree with the rules before it but for vendor marks. -/
theorem rulesFrom_apply (hstops : AreEnds stops) (source : List Char) (p : Place)
    (h : r.KeepsAll f (portionsFrom stops source p)) :
    Node.recastAll f (fun _ => none) (rulesFrom stops (r.apply source) (p.recast r)) =
      Node.recastAll f (fun _ => none) (rulesFrom stops source p) := by
  induction stops, p using rules_induction source with
  | ends stops p hnext =>
    rw [rulesFrom_of_none (nextRule_apply_of_none r hstops hnext), rulesFrom_of_none hnext]
  | fault stops p e next hnext ih =>
    rw [portionsFrom_eq, hnext] at h
    obtain ⟨e', hnext'⟩ := nextRule_apply_of_fault r hstops hnext
    rw [rulesFrom_of_fault hnext', rulesFrom_of_fault hnext]
    exact ih hstops (List.forall_mem_cons.1 h).2
  | nothing stops p next hnext ih =>
    rw [portionsFrom_eq, hnext] at h
    rw [rulesFrom_of_nothing (nextRule_apply_of_nothing r hstops hnext),
      rulesFrom_of_nothing hnext]
    exact ih hstops (List.forall_mem_append.1 h).2
  | node stops p n next hnext ih =>
    rw [portionsFrom_eq, hnext] at h
    obtain ⟨hown, hrest⟩ := List.forall_mem_append.1 h
    obtain ⟨n', hnext', hnode⟩ := nextRule_apply_of_node r f hstops hnext
    rw [rulesFrom_of_node hnext', rulesFrom_of_node hnext, Node.recastAll, Node.recastAll,
      hnode hown, ih hstops hrest]
  | group stops p heading position body next hnext ihbody ih =>
    rw [portionsFrom_eq, hnext] at h
    obtain ⟨hown, hrest⟩ := List.forall_mem_append.1 h
    obtain ⟨hinside, hrest⟩ := List.forall_mem_append.1 hrest
    obtain ⟨heading', hnext', hheading⟩ := nextRule_apply_of_group r f hstops hnext
    have hbody := ihbody (by simp [AreEnds]) hinside
    rw [Place.recast] at hbody
    rw [rulesFrom_of_group hnext', rulesFrom_of_group hnext, Node.recastAll, Node.recastAll,
      Node.recast, Node.recast, hheading hown, ih hstops hrest, hbody]

theorem Found.Alike.not_fault {found found' : Found} (h : Found.Alike r f same found found')
    (hfault : ∀ e, found ≠ .fault e) (e : ParseError) : found' ≠ .fault e := by
  rintro rfl
  cases found with
  | fault e' => exact hfault e' rfl
  | _ => exact h.elim

/-- Where a rule is no fault, whether some rule is malformed is told by the rules behind it. -/
theorem isSome_firstFault?_apply_of_next (hstops : AreEnds stops) {source : List Char}
    {p next : Place} {found : Found} (hnext : nextRule stops source p = some (found, next))
    (hfault : ∀ e, found ≠ .fault e)
    (hmore : (firstFault? stops (r.apply source) (next.recast r)).isSome =
      (firstFault? stops source next).isSome) :
    (firstFault? stops (r.apply source) (p.recast r)).isSome =
      (firstFault? stops source p).isSome := by
  obtain ⟨found', hnext', halike⟩ := exists_nextRule_apply r id hstops hnext
  rw [firstFault?_of_next hnext' (halike.not_fault r hfault), firstFault?_of_next hnext hfault, hmore]

/-- Whether some rule is malformed is the same after the change. -/
theorem firstFault?_apply (hstops : AreEnds stops) (source : List Char) (p : Place) :
    (firstFault? stops (r.apply source) (p.recast r)).isSome =
      (firstFault? stops source p).isSome := by
  induction stops, p using rules_induction source with
  | ends stops p hnext =>
    rw [firstFault?_of_none (nextRule_apply_of_none r hstops hnext), firstFault?_of_none hnext]
  | fault stops p e next hnext =>
    obtain ⟨e', hnext'⟩ := nextRule_apply_of_fault r hstops hnext
    rw [firstFault?_of_fault hnext', firstFault?_of_fault hnext]
    rfl
  | nothing stops p next hnext ih =>
    exact isSome_firstFault?_apply_of_next r hstops hnext nofun (ih hstops)
  | node stops p n next hnext ih =>
    exact isSome_firstFault?_apply_of_next r hstops hnext nofun (ih hstops)
  | group stops p heading position body next hnext _ ih =>
    exact isSome_firstFault?_apply_of_next r hstops hnext nofun (ih hstops)

end Stylesheet

end CriticalCss
