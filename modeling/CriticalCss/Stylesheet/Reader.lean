import CriticalCss.Stylesheet.Error
import CriticalCss.Stylesheet.SelectorText
import CriticalCss.Token.Block

/-!
# Reading style sheets

A style sheet is read rule by rule.  `nextRule` reads one rule and returns the place after it, which
is strictly further on (`nextRule_progress`); `nextDeclaration` and `nextStep` do the same for the
declarations of a block and the steps of an animation.  A rule that is malformed is skipped; `read`
fails only when no rule is left and some rule was malformed, with the first fault.

* `readsRule_of_nextRule` lists what a rule can be and where it ends.  What each rule preserves is a
  case analysis on it.
* `declarations_induction`, `steps_induction` and `rules_induction` go along the rounds of the three
  loops.

Places are counted in UTF-16 code units within a line, both numbers from one.
-/

namespace CriticalCss

open Token (closeBlock skipUntil skipBlanks scan between)

namespace Position

/-- The place after some text that begins at a place. -/
def after (p : Position) : List Char → Position
  | [] => p
  | '\r' :: '\n' :: cs => after ⟨p.line + 1, 1⟩ cs
  | c :: cs =>
    if Token.isNewline c then after ⟨p.line + 1, 1⟩ cs
    else after ⟨p.line, p.column + Text.units16 c⟩ cs

/-- The place after one character that is not the first half of a line end. -/
theorem after_cons (p : Position) {c : Char} {cs : List Char}
    (h : ¬(c = '\r' ∧ cs.head? = some '\n')) :
    after p (c :: cs) =
      after (if Token.isNewline c then ⟨p.line + 1, 1⟩ else ⟨p.line, p.column + Text.units16 c⟩)
        cs := by
  rw [after.eq_def]
  split
  · next heq => cases heq
  · next rest heq =>
    cases heq
    exact absurd ⟨rfl, rfl⟩ h
  · next heq =>
    cases heq
    split <;> rfl

/-- Induction on a text, line ends of two characters being taken whole. -/
@[elab_as_elim]
theorem after_induction {motive : Position → List Char → Prop} (nil : ∀ p, motive p [])
    (pair : ∀ p cs, motive ⟨p.line + 1, 1⟩ cs → motive p ('\r' :: '\n' :: cs))
    (single : ∀ p c cs, ¬(c = '\r' ∧ cs.head? = some '\n') →
      motive (if Token.isNewline c then ⟨p.line + 1, 1⟩ else ⟨p.line, p.column + Text.units16 c⟩)
        cs → motive p (c :: cs))
    (p : Position) (cs : List Char) : motive p cs := by
  have hother {c : Char} {cs : List Char} (h : ∀ rest, c = '\r' → cs = '\n' :: rest → False) :
      ¬(c = '\r' ∧ cs.head? = some '\n') := by
    rintro ⟨hc, hhead⟩
    obtain ⟨rest, hcs⟩ := List.head?_eq_some_iff.1 hhead
    exact h rest hc hcs
  refine after.induct motive nil pair ?_ ?_ p cs
  · intro p c cs hpair hnewline ih
    exact single p c cs (hother hpair) (by rw [if_pos hnewline]; exact ih)
  · intro p c cs hpair hnewline ih
    exact single p c cs (hother hpair) (by rw [if_neg hnewline]; exact ih)

/-- The place where a later part of a source text begins. -/
def locate (source rest : List Char) : Position :=
  after ⟨1, 1⟩ (between source rest)

end Position

namespace Stylesheet

/-- The text between two places without white space at its ends. -/
def rawText (start rest : List Char) : String :=
  String.ofList (Text.trimChars (between start rest))

/-! ## Declarations -/

/-- The declaration at the start of a text that ends where `stop` begins. -/
def declarationAt? (start stop : List Char) : Option Declaration :=
  match scan start with
  | some (.ident property, rest) =>
    match scan (skipBlanks rest) with
    | some (.colon, rest) =>
      let value := rawText (skipBlanks rest) stop
      if value = "" ∧ !property.startsWith "--" then none else some ⟨property, value⟩
    | _ => none
  | _ => none

/-- Reads one declaration of a block: what it is, if it is one, and the text after it. -/
def nextDeclaration (cs : List Char) : Option (Option Declaration × List Char) :=
  match skipBlanks cs with
  | [] => none
  | '}' :: _ => none
  | c :: rest =>
    let stop := skipUntil [';', '}'] (c :: rest)
    some (declarationAt? (c :: rest) stop, if stop.head? = some ';' then stop.tail else stop)

theorem nextDeclaration_eq_ite (cs : List Char) :
    nextDeclaration cs =
      if (skipBlanks cs).head? = none ∨ (skipBlanks cs).head? = some '}' then none
      else
        let stop := skipUntil [';', '}'] (skipBlanks cs)
        some (declarationAt? (skipBlanks cs) stop,
          if stop.head? = some ';' then stop.tail else stop) := by
  unfold nextDeclaration
  split
  · next heq => rw [heq]; rfl
  · next heq => rw [heq]; rfl
  · next c rest hbrace heq =>
    have hother : ¬((c :: rest).head? = none ∨ (c :: rest).head? = some '}') := by
      rintro (h | h)
      · cases h
      · exact hbrace (Option.some.inj h)
    rw [heq, if_neg hother]

/-- Every declaration takes at least one character, at least its semicolon. -/
theorem nextDeclaration_progress {cs rest : List Char} {d : Option Declaration}
    (h : nextDeclaration cs = some (d, rest)) : rest.length < cs.length := by
  have hblanks := (Token.skipBlanks_suffix cs).length_le
  rw [nextDeclaration_eq_ite] at h
  split at h
  · cases h
  · next hstarts =>
    cases h
    have hne : skipBlanks cs ≠ [] := fun hnil => hstarts (.inl (by rw [hnil]; rfl))
    by_cases hends : (skipBlanks cs).head? = some ';'
    · have hpos := List.length_pos_iff.2 hne
      rw [Token.skipUntil_of_stop (by rw [hends]; rfl), if_pos hends, List.length_tail]
      omega
    · have hstop : (skipBlanks cs).head?.any [';', '}'].contains = false := by
        cases hhead : (skipBlanks cs).head? with
        | none => rfl
        | some c =>
          rw [hhead] at hstarts hends
          simp only [Option.some.injEq] at hstarts hends
          simp [hends, (not_or.1 hstarts).2]
      have hlt := Token.skipUntil_length_lt hne hstop
      split
      · rw [List.length_tail]
        omega
      · omega

/-- The declarations of the block whose inside begins here. -/
def declarations (cs : List Char) : List Declaration :=
  match _h : nextDeclaration cs with
  | none => []
  | some (d, rest) => d.toList ++ declarations rest
termination_by cs.length
decreasing_by exact nextDeclaration_progress _h

theorem declarations_of_none {cs : List Char} (h : nextDeclaration cs = none) :
    declarations cs = [] := by
  rw [declarations]
  split
  · rfl
  · next hsome =>
    rw [h] at hsome
    cases hsome

theorem declarations_of_some {cs rest : List Char} {d : Option Declaration}
    (h : nextDeclaration cs = some (d, rest)) :
    declarations cs = d.toList ++ declarations rest := by
  rw [declarations]
  split
  · next hnone =>
    rw [h] at hnone
    cases hnone
  · next hsome =>
    rw [h] at hsome
    cases hsome
    rfl

/-- Induction along the declarations of a block. -/
@[elab_as_elim]
theorem declarations_induction {motive : List Char → Prop}
    (ends : ∀ cs, nextDeclaration cs = none → motive cs)
    (goesOn : ∀ cs d rest, nextDeclaration cs = some (d, rest) → motive rest → motive cs)
    (cs : List Char) : motive cs :=
  declarations.induct motive ends goesOn cs

/-! ## Animation steps -/

/-- Reads one step of an animation and the text after it. -/
def nextStep (source cs : List Char) : Option (Node × List Char) :=
  match skipBlanks cs with
  | [] => none
  | '}' :: _ => none
  | c :: rest =>
    let start := c :: rest
    match skipUntil ['{', '}'] start with
    | '{' :: body =>
      let values := SelectorText.split (between start ('{' :: body))
      let position := Position.locate source start
      some (.item (.keyframe values (declarations body)) (some position), closeBlock .curly body)
    | _ => none

theorem nextStep_eq_ite (source cs : List Char) :
    nextStep source cs =
      let start := skipBlanks cs
      let stop := skipUntil ['{', '}'] start
      if stop.head? = some '{' then
        some (.item (.keyframe (SelectorText.split (between start stop)) (declarations stop.tail))
          (some (Position.locate source start)), closeBlock .curly stop.tail)
      else none := by
  unfold nextStep
  split
  · next heq =>
    dsimp only
    rw [heq, Token.skipUntil_empty]
    rfl
  · next rest heq =>
    dsimp only
    rw [heq, Token.skipUntil_of_stop rfl]
    rfl
  · next c rest _ heq =>
    rw [heq]
    dsimp only
    by_cases hopens : (skipUntil ['{', '}'] (c :: rest)).head? = some '{'
    · obtain ⟨body, hstop⟩ := List.head?_eq_some_iff.1 hopens
      rw [if_pos hopens, hstop]
      rfl
    · rw [if_neg hopens]
      split
      · next hstop => exact absurd (by rw [hstop]; rfl) hopens
      · rfl

/-- The text after a step, and the inside of the block of the step. -/
theorem exists_nextStep {source cs rest : List Char} {n : Node}
    (h : nextStep source cs = some (n, rest)) :
    ∃ body, skipUntil ['{', '}'] (skipBlanks cs) = '{' :: body ∧ rest = closeBlock .curly body := by
  rw [nextStep_eq_ite] at h
  dsimp only at h
  split at h
  · next hopens =>
    obtain ⟨body, hbody⟩ := List.head?_eq_some_iff.1 hopens
    cases h
    exact ⟨body, hbody, by rw [hbody, List.tail_cons]⟩
  · cases h

/-- Every step takes at least the brace that opens its block. -/
theorem nextStep_progress {source cs rest : List Char} {n : Node}
    (h : nextStep source cs = some (n, rest)) : rest.length < cs.length := by
  obtain ⟨body, hbody, rfl⟩ := exists_nextStep h
  have hblanks := (Token.skipBlanks_suffix cs).length_le
  have hskip := (Token.skipUntil_suffix ['{', '}'] (skipBlanks cs)).length_le
  have hclose := (Token.closeBlock_suffix .curly body).length_le
  rw [hbody, List.length_cons] at hskip
  omega

/-- The steps of the animation whose inside begins here. -/
def steps (source cs : List Char) : List Node :=
  match _h : nextStep source cs with
  | none => []
  | some (n, rest) => n :: steps source rest
termination_by cs.length
decreasing_by exact nextStep_progress _h

theorem steps_of_none {source cs : List Char} (h : nextStep source cs = none) :
    steps source cs = [] := by
  rw [steps]
  split
  · rfl
  · next hsome =>
    rw [h] at hsome
    cases hsome

theorem steps_cons {source cs rest : List Char} {n : Node}
    (h : nextStep source cs = some (n, rest)) : steps source cs = n :: steps source rest := by
  rw [steps]
  split
  · next hnone =>
    rw [h] at hnone
    cases hnone
  · next hsome =>
    rw [h] at hsome
    cases hsome
    rfl

/-- Induction along the steps of an animation. -/
@[elab_as_elim]
theorem steps_induction (source : List Char) {motive : List Char → Prop}
    (ends : ∀ cs, nextStep source cs = none → motive cs)
    (goesOn : ∀ cs n rest, nextStep source cs = some (n, rest) → motive rest → motive cs)
    (cs : List Char) : motive cs :=
  steps.induct source motive ends goesOn cs

/-! ## Rules -/

/-- At-rules without a kind of their own whose block holds rules. -/
def ruleBlockKeywords : List String :=
  ["document", "-moz-document", "layer", "container", "scope", "starting-style"]

/-- Where reading goes on: the text, and whether it begins inside a block that nobody reads.  Such a
block belongs to the rule that follows it immediately. -/
structure Place where
  text : List Char
  insideBlock : Bool

/-- The text after the block nobody reads. -/
def Place.settled (p : Place) : List Char :=
  if p.insideBlock then closeBlock .curly p.text else p.text

/-- What stands at a place. -/
inductive Found where
  | nothing
  | fault (error : ParseError)
  | node (node : Node)
  /-- A block of rules, whose inside begins at `body`. -/
  | group (heading : Heading) (position : Position) (body : List Char)

/-- The vendor mark of an animation keyword: what stands before `keyframes`. -/
def vendor? (keyword : String) : Option String :=
  if keyword.endsWith "keyframes" ∧ keyword ≠ "keyframes" then
    some (String.ofList (keyword.toList.take (keyword.length - "keyframes".length)))
  else none

/-- An at-rule that ends without a block. -/
def statementRule (keyword prelude : String) (position : Position) : Found :=
  let name := Text.lower keyword
  if name = "charset" then .node (.item (.charset prelude) (some position))
  else if name = "media" ∨ name = "supports" then .fault ⟨.noBlockAfter keyword prelude, position⟩
  else .node (.item (.statement keyword prelude) (some position))

/-- An at-rule with a block whose inside begins at `body`. -/
def blockRule (source : List Char) (keyword prelude : String) (position : Position)
    (body : List Char) : Found :=
  let name := Text.lower keyword
  if name = "charset" then .node (.item (.charset prelude) (some position))
  else if name = "media" then .group (.media prelude) position body
  else if name = "supports" then .group (.supports prelude) position body
  else if name.endsWith "keyframes" then
    .node (.block (.keyframes (vendor? keyword) prelude) (steps source body) (some position))
  else if name = "font-face" then .node (.item (.fontFace (declarations body)) (some position))
  else if name ∈ ruleBlockKeywords then .group (.other keyword prelude) position body
  else .node (.item (.descriptors keyword prelude (declarations body)) (some position))

/-- Reads an at-rule after its keyword. -/
def atRule (stops source : List Char) (keyword : String) (position : Position) (cs : List Char) :
    Found × Place :=
  let stop := skipUntil ('{' :: ';' :: stops) cs
  let prelude := rawText cs stop
  match stop with
  | '{' :: body =>
    (blockRule source keyword prelude position body,
      if Text.lower keyword = "charset" then ⟨body, true⟩ else ⟨closeBlock .curly body, false⟩)
  | ';' :: rest => (statementRule keyword prelude position, ⟨rest, false⟩)
  | rest => (statementRule keyword prelude position, ⟨rest, false⟩)

/-- Reads a style rule. -/
def styleRule (stops : List Char) (position : Position) (p : Place) : Found × Place :=
  let stop := skipUntil ('{' :: stops) p.settled
  let prelude := Text.trimChars (between p.text stop)
  match stop with
  | '{' :: body =>
    let found : Found :=
      match SelectorText.split prelude with
      | [] => .fault ⟨.noSelector, position⟩
      | selectors => .node (.item (.style selectors (declarations body)) (some position))
    (found, ⟨closeBlock .curly body, false⟩)
  | rest => (.fault ⟨.noBlock (String.ofList prelude), position⟩, ⟨rest, false⟩)

/-- Reads what stands at a place and the place after it; nothing is left at the end of the text and
before a stop character. -/
def nextRule (stops source : List Char) (p : Place) : Option (Found × Place) :=
  let start := p.settled
  if start.head?.any stops.contains then none
  else
    let position := Position.locate source p.text
    match scan start with
    | none => none
    | some (.space _, rest) => some (.nothing, ⟨rest, false⟩)
    | some (.cdo, rest) => some (.nothing, ⟨rest, false⟩)
    | some (.cdc, rest) => some (.nothing, ⟨rest, false⟩)
    | some (.semicolon, rest) => some (.nothing, ⟨rest, false⟩)
    | some (.comment text, rest) =>
      some (.node (.item (.comment text) (some position)), ⟨rest, false⟩)
    | some (.atKeyword keyword, rest) => some (atRule stops source keyword position rest)
    | some _ => some (styleRule stops position p)

end Stylesheet

namespace Token

/-- What a rule that begins with a token is. -/
inductive Lead where
  /-- No rule. -/
  | filler
  | comment (text : String)
  /-- An at-rule. -/
  | keyword (name : String)
  /-- A style rule. -/
  | selector

/-- What a rule that begins with this token is. -/
def lead : Token → Lead
  | .space _ => .filler
  | .cdo => .filler
  | .cdc => .filler
  | .semicolon => .filler
  | .comment text => .comment text
  | .atKeyword name => .keyword name
  | _ => .selector

/-- A token that begins no style rule is not a bracket. -/
theorem plain_of_lead {t : Token} (h : t.lead ≠ .selector) : t.opens? = none ∧ t.closes? = none := by
  cases t with
  | space => exact ⟨rfl, rfl⟩
  | cdo => exact ⟨rfl, rfl⟩
  | cdc => exact ⟨rfl, rfl⟩
  | semicolon => exact ⟨rfl, rfl⟩
  | comment => exact ⟨rfl, rfl⟩
  | atKeyword => exact ⟨rfl, rfl⟩
  | _ => exact absurd rfl h

end Token

namespace Stylesheet

theorem atRule_eq_ite (stops source : List Char) (keyword : String) (position : Position)
    (cs : List Char) :
    atRule stops source keyword position cs =
      let stop := skipUntil ('{' :: ';' :: stops) cs
      if stop.head? = some '{' then
        (blockRule source keyword (rawText cs stop) position stop.tail,
          if Text.lower keyword = "charset" then ⟨stop.tail, true⟩
          else ⟨closeBlock .curly stop.tail, false⟩)
      else
        (statementRule keyword (rawText cs stop) position,
          ⟨if stop.head? = some ';' then stop.tail else stop, false⟩) := by
  unfold atRule
  dsimp only
  by_cases hopens : (skipUntil ('{' :: ';' :: stops) cs).head? = some '{'
  · obtain ⟨body, hstop⟩ := List.head?_eq_some_iff.1 hopens
    rw [if_pos hopens, hstop]
    rfl
  · rw [if_neg hopens]
    split
    · next hstop => exact absurd (by rw [hstop]; rfl) hopens
    · next rest hstop =>
      rw [hstop]
      rfl
    · next hsemicolon =>
      rw [if_neg]
      intro hends
      obtain ⟨rest, hstop⟩ := List.head?_eq_some_iff.1 hends
      exact hsemicolon rest hstop

theorem styleRule_eq_ite (stops : List Char) (position : Position) (p : Place) :
    styleRule stops position p =
      let stop := skipUntil ('{' :: stops) p.settled
      let prelude := Text.trimChars (between p.text stop)
      if stop.head? = some '{' then
        (if SelectorText.split prelude = [] then .fault ⟨.noSelector, position⟩
          else .node (.item (.style (SelectorText.split prelude) (declarations stop.tail))
            (some position)), ⟨closeBlock .curly stop.tail, false⟩)
      else (.fault ⟨.noBlock (String.ofList prelude), position⟩, ⟨stop, false⟩) := by
  unfold styleRule
  dsimp only
  by_cases hopens : (skipUntil ('{' :: stops) p.settled).head? = some '{'
  · obtain ⟨body, hstop⟩ := List.head?_eq_some_iff.1 hopens
    rw [if_pos hopens, hstop, List.tail_cons]
    cases SelectorText.split (Text.trimChars (between p.text ('{' :: body))) <;> rfl
  · rw [if_neg hopens]
    split
    · next hstop => exact absurd (by rw [hstop]; rfl) hopens
    · rfl

/-- What stands at a place is told by the first token there. -/
theorem nextRule_eq_ite (stops source : List Char) (p : Place) :
    nextRule stops source p =
      if p.settled.head?.any stops.contains then none
      else
        let position := Position.locate source p.text
        (scan p.settled).map fun found =>
          match found.1.lead with
          | .filler => (.nothing, ⟨found.2, false⟩)
          | .comment text => (.node (.item (.comment text) (some position)), ⟨found.2, false⟩)
          | .keyword name => atRule stops source name position found.2
          | .selector => styleRule stops position p := by
  unfold nextRule
  dsimp only
  split
  · rfl
  · cases hscan : scan p.settled with
    | none => rfl
    | some found =>
      obtain ⟨t, rest⟩ := found
      cases t <;> rfl

/-- What a rule can be, by the first token at its place, and the place after it. -/
inductive ReadsRule (stops source : List Char) (p : Place) : Found → Place → Prop where
  | filler {t : Token} {rest : List Char} (starts : scan p.settled = some (t, rest))
    (leads : t.lead = .filler) : ReadsRule stops source p .nothing ⟨rest, false⟩
  | comment {t : Token} {text : String} {rest : List Char}
    (starts : scan p.settled = some (t, rest)) (leads : t.lead = .comment text) :
    ReadsRule stops source p
      (.node (.item (.comment text) (some (Position.locate source p.text)))) ⟨rest, false⟩
  | block {t : Token} {keyword : String} {rest body : List Char}
    (starts : scan p.settled = some (t, rest)) (leads : t.lead = .keyword keyword)
    (opens : skipUntil ('{' :: ';' :: stops) rest = '{' :: body) :
    ReadsRule stops source p
      (blockRule source keyword (rawText rest ('{' :: body)) (Position.locate source p.text) body)
      (if Text.lower keyword = "charset" then ⟨body, true⟩ else ⟨closeBlock .curly body, false⟩)
  | statement {t : Token} {keyword : String} {rest stop : List Char}
    (starts : scan p.settled = some (t, rest)) (leads : t.lead = .keyword keyword)
    (reaches : skipUntil ('{' :: ';' :: stops) rest = stop) (ends : stop.head? ≠ some '{') :
    ReadsRule stops source p
      (statementRule keyword (rawText rest stop) (Position.locate source p.text))
      ⟨if stop.head? = some ';' then stop.tail else stop, false⟩
  | style {t : Token} {rest body : List Char} (selectors : List String)
    (starts : scan p.settled = some (t, rest)) (leads : t.lead = .selector)
    (opens : skipUntil ('{' :: stops) p.settled = '{' :: body) :
    ReadsRule stops source p
      (.node (.item (.style selectors (declarations body))
        (some (Position.locate source p.text)))) ⟨closeBlock .curly body, false⟩
  | noSelector {t : Token} {rest body : List Char} (e : ParseError)
    (starts : scan p.settled = some (t, rest)) (leads : t.lead = .selector)
    (opens : skipUntil ('{' :: stops) p.settled = '{' :: body) :
    ReadsRule stops source p (.fault e) ⟨closeBlock .curly body, false⟩
  | noBlock {t : Token} {rest stop : List Char} (e : ParseError)
    (starts : scan p.settled = some (t, rest)) (leads : t.lead = .selector)
    (reaches : skipUntil ('{' :: stops) p.settled = stop) (ends : stop.head? ≠ some '{') :
    ReadsRule stops source p (.fault e) ⟨stop, false⟩

section Readings

variable {stops source : List Char} {p next : Place} {found : Found}

theorem head?_of_nextRule (h : nextRule stops source p = some (found, next)) :
    p.settled.head?.any stops.contains = false := by
  rw [nextRule_eq_ite] at h
  split at h
  · cases h
  · next hstop => exact Bool.eq_false_iff.2 hstop

theorem readsRule_of_nextRule (h : nextRule stops source p = some (found, next)) :
    ReadsRule stops source p found next := by
  rw [nextRule_eq_ite] at h
  split at h
  · cases h
  obtain ⟨⟨t, rest⟩, hscan, hfound⟩ := Option.map_eq_some_iff.1 h
  cases hlead : t.lead with
  | filler =>
    simp only [hlead] at hfound
    cases hfound
    exact .filler hscan hlead
  | comment text =>
    simp only [hlead] at hfound
    cases hfound
    exact .comment hscan hlead
  | keyword name =>
    simp only [hlead] at hfound
    rw [atRule_eq_ite] at hfound
    dsimp only at hfound
    split at hfound
    · next hopens =>
      obtain ⟨body, hbody⟩ := List.head?_eq_some_iff.1 hopens
      rw [hbody, List.tail_cons] at hfound
      cases hfound
      exact .block hscan hlead hbody
    · next hends =>
      cases hfound
      exact .statement hscan hlead rfl hends
  | selector =>
    simp only [hlead] at hfound
    rw [styleRule_eq_ite] at hfound
    dsimp only at hfound
    split at hfound
    · next hopens =>
      obtain ⟨body, hbody⟩ := List.head?_eq_some_iff.1 hopens
      rw [hbody, List.tail_cons] at hfound
      split at hfound
      · cases hfound
        exact .noSelector _ hscan hlead hbody
      · cases hfound
        exact .style _ hscan hlead hbody
    · next hends =>
      cases hfound
      exact .noBlock _ hscan hlead rfl hends

end Readings

theorem Place.settled_suffix (p : Place) : p.settled <:+ p.text := by
  unfold settled
  split
  · exact Token.closeBlock_suffix .curly p.text
  · exact List.suffix_refl p.text

/-- Less is left behind a block that has been skipped to. -/
theorem closeBlock_length_lt {marks cs body : List Char} (h : skipUntil marks cs = '{' :: body) :
    (closeBlock .curly body).length < cs.length := by
  have hskip := (Token.skipUntil_suffix marks cs).length_le
  have hclose := (Token.closeBlock_suffix .curly body).length_le
  rw [h, List.length_cons] at hskip
  omega

/-- Skipping to a block that is not there moves on, as no brace opens one here. -/
theorem skipUntil_length_lt_of_noBlock {stops cs : List Char} (hne : cs ≠ [])
    (hstop : cs.head?.any stops.contains = false)
    (ends : (skipUntil ('{' :: stops) cs).head? ≠ some '{') :
    (skipUntil ('{' :: stops) cs).length < cs.length := by
  refine Token.skipUntil_length_lt hne ?_
  cases hhead : cs.head? with
  | none => rfl
  | some c =>
    have hc : c ≠ '{' := by
      rintro rfl
      exact ends (by rw [Token.skipUntil_of_stop (by rw [hhead]; rfl), hhead])
    rw [hhead, Option.any_some] at hstop
    rw [Option.any_some, List.contains_cons, hstop, Bool.or_false, beq_eq_false_iff_ne]
    exact hc

/-- Every rule takes at least one character. -/
theorem nextRule_progress {stops source : List Char} {p next : Place} {f : Found}
    (h : nextRule stops source p = some (f, next)) : next.text.length < p.text.length := by
  have hsettled := p.settled_suffix.length_le
  cases readsRule_of_nextRule h with
  | filler starts _ => exact Nat.lt_of_lt_of_le (Token.scan_length_lt starts) hsettled
  | comment starts _ => exact Nat.lt_of_lt_of_le (Token.scan_length_lt starts) hsettled
  | @block t keyword rest body starts _ opens =>
    have hrest := Token.scan_length_lt starts
    have hskip := (Token.skipUntil_suffix ('{' :: ';' :: stops) rest).length_le
    have hclose := closeBlock_length_lt opens
    rw [opens, List.length_cons] at hskip
    split
    · dsimp only
      omega
    · dsimp only
      omega
  | @statement t keyword rest stop starts _ reaches _ =>
    have hrest := Token.scan_length_lt starts
    have hskip := (Token.skipUntil_suffix ('{' :: ';' :: stops) rest).length_le
    have htail := (List.tail_suffix stop).length_le
    rw [reaches] at hskip
    dsimp only
    split <;> omega
  | style _ _ _ opens => exact Nat.lt_of_lt_of_le (closeBlock_length_lt opens) hsettled
  | noSelector _ _ _ opens => exact Nat.lt_of_lt_of_le (closeBlock_length_lt opens) hsettled
  | noBlock _ starts _ reaches ends =>
    have hne : p.settled ≠ [] := by
      intro hnil
      rw [hnil] at starts
      cases starts
    rw [← reaches] at ends ⊢
    exact Nat.lt_of_lt_of_le (skipUntil_length_lt_of_noBlock hne (head?_of_nextRule h) ends) hsettled

theorem blockRule_group {source body inner : List Char} {keyword prelude : String}
    {position pos : Position} {heading : Heading}
    (h : .group heading pos inner = blockRule source keyword prelude position body) :
    inner = body ∧ Text.lower keyword ≠ "charset" := by
  unfold blockRule at h
  dsimp only at h
  by_cases hcharset : Text.lower keyword = "charset"
  · rw [if_pos hcharset] at h
    cases h
  · rw [if_neg hcharset] at h
    repeat' split at h
    all_goals cases h
    all_goals exact ⟨rfl, hcharset⟩

theorem group_ne_statementRule {keyword prelude : String} {position pos : Position}
    {heading : Heading} {inner : List Char} :
    .group heading pos inner ≠ statementRule keyword prelude position := by
  unfold statementRule
  dsimp only
  repeat' split
  all_goals nofun

/-- A block of rules stands in the text of its place, and reading goes on where it ends. -/
theorem nextRule_group {stops source body : List Char} {p next : Place} {heading : Heading}
    {position : Position} (h : nextRule stops source p = some (.group heading position body, next)) :
    '{' :: body <:+ p.text ∧ next.text = closeBlock .curly body := by
  generalize hfound : Found.group heading position body = found at h
  cases readsRule_of_nextRule h with
  | block starts _ opens =>
    obtain ⟨rfl, hcharset⟩ := blockRule_group hfound
    rw [if_neg hcharset, ← opens]
    exact ⟨((Token.skipUntil_suffix _ _).trans (Token.scan_suffix starts)).trans p.settled_suffix,
      rfl⟩
  | statement => exact absurd hfound group_ne_statementRule
  | _ => cases hfound

/-- The inside of a block of rules is shorter than the text the block stands in. -/
theorem nextRule_group_lt {stops source body : List Char} {p next : Place} {heading : Heading}
    {position : Position} (h : nextRule stops source p = some (.group heading position body, next)) :
    body.length < p.text.length :=
  (nextRule_group h).1.length_le

/-- The rules from a place on. -/
def rulesFrom (stops source : List Char) (p : Place) : List Node :=
  match _h : nextRule stops source p with
  | none => []
  | some (.node n, next) => n :: rulesFrom stops source next
  | some (.group heading position body, next) =>
    .block heading (rulesFrom ['}'] source ⟨body, false⟩) (some position) ::
      rulesFrom stops source next
  | some (.nothing, next) => rulesFrom stops source next
  | some (.fault _, next) => rulesFrom stops source next
termination_by p.text.length
decreasing_by
  · exact nextRule_progress _h
  · exact nextRule_group_lt _h
  · exact nextRule_progress _h
  · exact nextRule_progress _h
  · exact nextRule_progress _h

section Rounds

variable {stops source : List Char} {p next : Place}

theorem rulesFrom_of_none (h : nextRule stops source p = none) : rulesFrom stops source p = [] := by
  rw [rulesFrom]
  split <;> simp_all

theorem rulesFrom_of_nothing (h : nextRule stops source p = some (.nothing, next)) :
    rulesFrom stops source p = rulesFrom stops source next := by
  rw [rulesFrom]
  split <;> simp_all

theorem rulesFrom_of_fault {e : ParseError} (h : nextRule stops source p = some (.fault e, next)) :
    rulesFrom stops source p = rulesFrom stops source next := by
  rw [rulesFrom]
  split <;> simp_all

theorem rulesFrom_of_node {n : Node} (h : nextRule stops source p = some (.node n, next)) :
    rulesFrom stops source p = n :: rulesFrom stops source next := by
  rw [rulesFrom]
  split <;> simp_all

theorem rulesFrom_of_group {heading : Heading} {position : Position} {body : List Char}
    (h : nextRule stops source p = some (.group heading position body, next)) :
    rulesFrom stops source p =
      .block heading (rulesFrom ['}'] source ⟨body, false⟩) (some position) ::
        rulesFrom stops source next := by
  rw [rulesFrom]
  split <;> simp_all

end Rounds

/-- Induction along the rules from a place on, into blocks of rules and behind them. -/
@[elab_as_elim]
theorem rules_induction (source : List Char) {motive : List Char → Place → Prop}
    (ends : ∀ stops p, nextRule stops source p = none → motive stops p)
    (nothing : ∀ stops p next, nextRule stops source p = some (.nothing, next) →
      motive stops next → motive stops p)
    (fault : ∀ stops p e next, nextRule stops source p = some (.fault e, next) →
      motive stops next → motive stops p)
    (node : ∀ stops p n next, nextRule stops source p = some (.node n, next) →
      motive stops next → motive stops p)
    (group : ∀ stops p heading position body next,
      nextRule stops source p = some (.group heading position body, next) →
        motive ['}'] ⟨body, false⟩ → motive stops next → motive stops p)
    (stops : List Char) (p : Place) : motive stops p :=
  rulesFrom.induct source motive ends node group nothing fault stops p

/-- The first fault from a place on, blocks of rules left aside. -/
def firstFault? (stops source : List Char) (p : Place) : Option ParseError :=
  match _h : nextRule stops source p with
  | none => none
  | some (.fault e, _) => some e
  | some (_, next) => firstFault? stops source next
termination_by p.text.length
decreasing_by exact nextRule_progress _h

theorem firstFault?_of_none {stops source : List Char} {p : Place}
    (h : nextRule stops source p = none) : firstFault? stops source p = none := by
  rw [firstFault?]
  split <;> simp_all

theorem firstFault?_of_fault {stops source : List Char} {p next : Place} {e : ParseError}
    (h : nextRule stops source p = some (.fault e, next)) :
    firstFault? stops source p = some e := by
  rw [firstFault?]
  split <;> simp_all

theorem firstFault?_of_next {stops source : List Char} {p next : Place} {found : Found}
    (h : nextRule stops source p = some (found, next)) (hfault : ∀ e, found ≠ .fault e) :
    firstFault? stops source p = firstFault? stops source next := by
  rw [firstFault?]
  split
  · next hnone =>
    rw [h] at hnone
    cases hnone
  · next e _ hsome =>
    rw [h] at hsome
    cases hsome
    exact absurd rfl (hfault e)
  · next hsome =>
    rw [h] at hsome
    cases hsome
    rfl

/-- Reads a style sheet. -/
def read (css : String) : Except ParseError Stylesheet :=
  let source := css.toList
  match rulesFrom [] source ⟨source, false⟩, firstFault? [] source ⟨source, false⟩ with
  | [], some e => .error e
  | rules, _ => .ok rules

end Stylesheet

end CriticalCss
