import CriticalCss.Proofs.Stylesheet.Rereading
import CriticalCss.Proofs.Token.Clean

/-!
# Reading moves on

Rules, declarations and animation steps are read in loops that go on until nothing is found.  Every
round of such a loop ends further on in the text, also where a rule is malformed or a block is left
unread, so each loop ends after finitely many rounds.

* `nextDeclaration_suffix`, `nextStep_suffix` and `nextRule_round` are the steps of the loops;
  `Found.StandsAt` lists what a step of reading rules can find.  `MovesOn` is what the steps have in
  common.
* `Loop` is a run of a loop, and `exists_loop` finds one where every step makes the text shorter.
  `rulesFrom_of_loop`, `declarations_of_loop` and `steps_of_loop` say what a run gives.
-/

namespace CriticalCss

open Token (closeBlock skipUntil skipBlanks)

namespace Token

/-! ## Skipping -/

/-- The text after the character that skipping stops at. -/
theorem tail_skipUntil_suffix (stops cs : List Char) : (skipUntil stops cs).tail <:+ cs :=
  (List.tail_suffix _).trans (skipUntil_suffix stops cs)

end Token

namespace Stylesheet

open Token (closeBlock_suffix skipUntil_suffix skipBlanks_suffix tail_skipUntil_suffix)

/-! ## Steps -/

theorem nextDeclaration_suffix {cs rest : List Char} {d : Option Declaration}
    (h : nextDeclaration cs = some (d, rest)) : rest <:+ cs := by
  rw [nextDeclaration_eq_ite] at h
  split at h
  · cases h
  · cases h
    split
    · exact (tail_skipUntil_suffix _ _).trans (skipBlanks_suffix cs)
    · exact (skipUntil_suffix _ _).trans (skipBlanks_suffix cs)

/-- What is behind a block that has been skipped to. -/
theorem closeBlock_suffix_of_opens {marks cs body : List Char}
    (h : skipUntil marks cs = '{' :: body) : closeBlock .curly body <:+ cs := by
  have htail := tail_skipUntil_suffix marks cs
  rw [h, List.tail_cons] at htail
  exact (closeBlock_suffix .curly body).trans htail

theorem nextStep_suffix {source cs rest : List Char} {n : Node}
    (h : nextStep source cs = some (n, rest)) : rest <:+ cs := by
  obtain ⟨body, hbody, rfl⟩ := exists_nextStep h
  exact (closeBlock_suffix_of_opens hbody).trans (skipBlanks_suffix cs)

/-! ## What a round finds -/

/-- What a round of reading rules can find at a place, with the place where the next one begins. -/
inductive Found.StandsAt (source : List Char) (p next : Place) : Found → Prop
  | nothing : StandsAt source p next .nothing
  | fault (e : ParseError) : StandsAt source p next (.fault e)
  | item (i : Item) :
    StandsAt source p next (.node (.item i (some (Position.locate source p.text))))
  | animation {heading : Heading} {body : List Char} (inside : '{' :: body <:+ p.text)
    (goesOn : next.text = closeBlock .curly body) :
    StandsAt source p next
      (.node (.block heading (steps source body) (some (Position.locate source p.text))))
  | group {heading : Heading} {body : List Char} (inside : '{' :: body <:+ p.text)
    (goesOn : next.text = closeBlock .curly body) :
    StandsAt source p next (.group heading (Position.locate source p.text) body)

section Standing

variable {stops source body : List Char} {p next : Place} {found : Found}

theorem blockRule_standsAt (keyword prelude : String) (inside : '{' :: body <:+ p.text)
    (goesOn : Text.lower keyword ≠ "charset" → next.text = closeBlock .curly body) :
    (blockRule source keyword prelude (Position.locate source p.text) body).StandsAt
      source p next := by
  unfold blockRule
  dsimp only
  split
  · exact .item _
  · next hcharset =>
    have goesOn := goesOn hcharset
    split
    · exact .group inside goesOn
    split
    · exact .group inside goesOn
    split
    · exact .animation inside goesOn
    split
    · exact .item _
    split
    · exact .group inside goesOn
    · exact .item _

theorem statementRule_standsAt (keyword prelude : String) :
    (statementRule keyword prelude (Position.locate source p.text)).StandsAt source p next := by
  unfold statementRule
  dsimp only
  split
  · exact .item _
  split
  · exact .fault _
  · exact .item _

/-- What is known of a round of reading rules. -/
structure Round (source : List Char) (p : Place) (found : Found) (next : Place) : Prop where
  stands : found.StandsAt source p next
  suffix : next.text <:+ p.text
  /-- Where the next round begins inside of a block, it is at the beginning of the block. -/
  inside : next.insideBlock = true → '{' :: next.text <:+ p.text

theorem nextRule_round (h : nextRule stops source p = some (found, next)) :
    Round source p found next := by
  have hsettled := p.settled_suffix
  cases readsRule_of_nextRule h with
  | filler starts _ => exact ⟨.nothing, (Token.scan_suffix starts).trans hsettled, nofun⟩
  | comment starts _ => exact ⟨.item _, (Token.scan_suffix starts).trans hsettled, nofun⟩
  | @block t keyword rest body starts _ opens =>
    have hstop := ((skipUntil_suffix ('{' :: ';' :: stops) rest).trans
      (Token.scan_suffix starts)).trans hsettled
    rw [opens] at hstop
    have hbody : body <:+ p.text := (List.suffix_cons '{' body).trans hstop
    refine ⟨blockRule_standsAt keyword _ hstop fun hcharset => by rw [if_neg hcharset], ?_, ?_⟩
    · split
      · exact hbody
      · exact (closeBlock_suffix .curly body).trans hbody
    · split
      · exact fun _ => hstop
      · exact nofun
  | @statement t keyword rest stop starts _ reaches _ =>
    have hstop := ((skipUntil_suffix ('{' :: ';' :: stops) rest).trans
      (Token.scan_suffix starts)).trans hsettled
    rw [reaches] at hstop
    refine ⟨statementRule_standsAt keyword _, ?_, nofun⟩
    dsimp only
    split
    · exact (List.tail_suffix stop).trans hstop
    · exact hstop
  | style _ _ _ opens => exact ⟨.item _, (closeBlock_suffix_of_opens opens).trans hsettled, nofun⟩
  | noSelector e _ _ opens =>
    exact ⟨.fault e, (closeBlock_suffix_of_opens opens).trans hsettled, nofun⟩
  | noBlock e _ _ reaches _ =>
    rw [← reaches]
    exact ⟨.fault e, (skipUntil_suffix _ _).trans hsettled, nofun⟩

end Standing

/-! ## Moving on -/

/-- The number of bytes of a text. -/
def byteSize (cs : List Char) : Nat :=
  (String.ofList cs).utf8ByteSize

/-- Reading gets from a place to a later one of the same text, over one byte at least. -/
structure MovesOn (start rest : List Char) : Prop where
  suffix : rest <:+ start
  bytes : byteSize rest < byteSize start

theorem MovesOn.of_length_lt {start rest : List Char} (h : rest <:+ start)
    (hlt : rest.length < start.length) : MovesOn start rest := by
  refine ⟨h, ?_⟩
  obtain ⟨passed, rfl⟩ := h
  have hpassed : (String.ofList passed).utf8ByteSize ≠ 0 := by
    rw [Ne, String.utf8ByteSize_eq_zero_iff, String.ofList_eq_empty_iff]
    rintro rfl
    exact Nat.lt_irrefl _ hlt
  rw [byteSize, byteSize, String.ofList_append, String.utf8ByteSize_append]
  omega

theorem nextRule_movesOn {stops source : List Char} {p next : Place} {found : Found}
    (h : nextRule stops source p = some (found, next)) : MovesOn p.text next.text :=
  .of_length_lt (nextRule_round h).suffix (nextRule_progress h)

/-- A block of rules is read from a later place on, and what follows the block from a place behind
all of it. -/
theorem group_movesOn {stops source body : List Char} {p next : Place} {heading : Heading}
    {position : Position} (h : nextRule stops source p = some (.group heading position body, next)) :
    MovesOn p.text body ∧ next.text <:+ body := by
  cases (nextRule_round h).stands with
  | group inside goesOn =>
    refine ⟨.of_length_lt ((List.suffix_cons '{' body).trans inside) inside.length_le, ?_⟩
    rw [goesOn]
    exact closeBlock_suffix .curly body

theorem nextDeclaration_movesOn {cs rest : List Char} {d : Option Declaration}
    (h : nextDeclaration cs = some (d, rest)) : MovesOn cs rest :=
  .of_length_lt (nextDeclaration_suffix h) (nextDeclaration_progress h)

theorem nextStep_movesOn {source cs rest : List Char} {n : Node}
    (h : nextStep source cs = some (n, rest)) : MovesOn cs rest :=
  .of_length_lt (nextStep_suffix h) (nextStep_progress h)

/-! ## Loops -/

/-- A run of a loop that goes on as long as its step finds something: what each round finds, and where
the next one begins. -/
inductive Loop {S A : Type} (step : S → Option (A × S)) : S → List (A × S) → Prop
  | ends {s : S} (h : step s = none) : Loop step s []
  | goesOn {s next : S} {a : A} {rounds : List (A × S)} (h : step s = some (a, next))
    (more : Loop step next rounds) : Loop step s ((a, next) :: rounds)

/-- A loop ends if every round makes something smaller; there are no more rounds than its size. -/
theorem exists_loop {S A : Type} {step : S → Option (A × S)} (size : S → Nat)
    (hstep : ∀ {s next a}, step s = some (a, next) → size next < size s) (s : S) :
    ∃ rounds, Loop step s rounds ∧ rounds.length ≤ size s := by
  induction hsize : size s using Nat.strongRecOn generalizing s with
  | _ n ih =>
    subst hsize
    cases hround : step s with
    | none => exact ⟨[], .ends hround, Nat.zero_le _⟩
    | some found =>
      obtain ⟨a, next⟩ := found
      have hlt := hstep hround
      obtain ⟨rounds, hrun, hle⟩ := ih (size next) hlt next rfl
      refine ⟨(a, next) :: rounds, .goesOn hround hrun, ?_⟩
      rw [List.length_cons]
      omega

/-- The nodes that a round gives; those of a block of rules are read in a loop of their own. -/
def Found.nodes (source : List Char) : Found → List Node
  | .nothing => []
  | .fault _ => []
  | .node n => [n]
  | .group heading position body =>
    [.block heading (rulesFrom ['}'] source ⟨body, false⟩) (some position)]

/-- The fault of a malformed rule. -/
def Found.fault? : Found → Option ParseError
  | .fault e => some e
  | _ => none

/-- What reading comes to: a fault counts only where no rule is left. -/
def outcome : List Node → Option ParseError → Except ParseError Stylesheet
  | [], some e => .error e
  | rules, _ => .ok rules

theorem read_eq_outcome (css : String) :
    read css = outcome (rulesFrom [] css.toList ⟨css.toList, false⟩)
      (firstFault? [] css.toList ⟨css.toList, false⟩) := by
  unfold read
  dsimp only
  cases rulesFrom [] css.toList ⟨css.toList, false⟩ with
  | nil => cases firstFault? [] css.toList ⟨css.toList, false⟩ <;> rfl
  | cons n ns => rfl

section Runs

variable {stops source : List Char} {p : Place}

theorem rulesFrom_of_loop {rounds : List (Found × Place)}
    (h : Loop (nextRule stops source) p rounds) :
    rulesFrom stops source p = rounds.flatMap (·.1.nodes source) := by
  induction h with
  | ends hround => exact rulesFrom_of_none hround
  | @goesOn p next found rounds hround more ih =>
    rw [List.flatMap_cons, ← ih]
    cases found with
    | nothing => exact rulesFrom_of_nothing hround
    | fault e => exact rulesFrom_of_fault hround
    | node n => exact rulesFrom_of_node hround
    | group heading position body => exact rulesFrom_of_group hround

theorem firstFault?_of_loop {rounds : List (Found × Place)}
    (h : Loop (nextRule stops source) p rounds) :
    firstFault? stops source p = rounds.findSome? (·.1.fault?) := by
  induction h with
  | ends hround => exact firstFault?_of_none hround
  | @goesOn p next found rounds hround more ih =>
    rw [List.findSome?_cons]
    cases found with
    | fault e => exact firstFault?_of_fault hround
    | nothing => exact (firstFault?_of_next hround nofun).trans ih
    | node n => exact (firstFault?_of_next hround nofun).trans ih
    | group heading position body => exact (firstFault?_of_next hround nofun).trans ih

theorem declarations_of_loop {cs : List Char} {rounds : List (Option Declaration × List Char)}
    (h : Loop nextDeclaration cs rounds) : declarations cs = rounds.flatMap (·.1.toList) := by
  induction h with
  | ends hround => exact declarations_of_none hround
  | goesOn hround more ih => rw [declarations_of_some hround, ih, List.flatMap_cons]

theorem steps_of_loop {cs : List Char} {rounds : List (Node × List Char)}
    (h : Loop (nextStep source) cs rounds) : steps source cs = rounds.map (·.1) := by
  induction h with
  | ends hround => exact steps_of_none hround
  | goesOn hround more ih => rw [steps_cons hround, ih, List.map_cons]

end Runs

/-- Every round of the three loops of the reader either ends its loop or moves on in the text, over at
least one byte; a block of rules is read from a later place on as well.  So from every place each loop
ends after at most as many rounds as there are bytes left, and what it reads is what its rounds give.
A style sheet is read in such a run. -/
theorem loops_moveOn :
    (∀ stops source p found next, nextRule stops source p = some (found, next) →
        MovesOn p.text next.text ∧ ∀ heading position body,
          found = .group heading position body → MovesOn p.text body ∧ next.text <:+ body) ∧
      (∀ cs d rest, nextDeclaration cs = some (d, rest) → MovesOn cs rest) ∧
      (∀ source cs n rest, nextStep source cs = some (n, rest) → MovesOn cs rest) ∧
      (∀ stops source p, ∃ rounds, Loop (nextRule stops source) p rounds ∧
        rounds.length ≤ byteSize p.text ∧
        rulesFrom stops source p = rounds.flatMap (·.1.nodes source)) ∧
      (∀ cs, ∃ rounds, Loop nextDeclaration cs rounds ∧ rounds.length ≤ byteSize cs ∧
        declarations cs = rounds.flatMap (·.1.toList)) ∧
      (∀ source cs, ∃ rounds, Loop (nextStep source) cs rounds ∧ rounds.length ≤ byteSize cs ∧
        steps source cs = rounds.map (·.1)) ∧
      ∀ css : String, ∃ rounds, Loop (nextRule [] css.toList) ⟨css.toList, false⟩ rounds ∧
        rounds.length ≤ css.utf8ByteSize ∧
        read css =
          outcome (rounds.flatMap (·.1.nodes css.toList)) (rounds.findSome? (·.1.fault?)) := by
  have hrules (stops source p) : ∃ rounds, Loop (nextRule stops source) p rounds ∧
      rounds.length ≤ byteSize p.text :=
    exists_loop (fun p => byteSize p.text) (fun h => (nextRule_movesOn h).bytes) p
  refine ⟨?rule, fun _ _ _ => nextDeclaration_movesOn, fun _ _ _ _ => nextStep_movesOn, ?rules,
    ?declarations, ?steps, ?read⟩
  case rule =>
    intro stops source p found next h
    refine ⟨nextRule_movesOn h, ?_⟩
    rintro heading position body rfl
    exact group_movesOn h
  case rules =>
    intro stops source p
    obtain ⟨rounds, hrun, hle⟩ := hrules stops source p
    exact ⟨rounds, hrun, hle, rulesFrom_of_loop hrun⟩
  case declarations =>
    intro cs
    obtain ⟨rounds, hrun, hle⟩ := exists_loop byteSize (fun h => (nextDeclaration_movesOn h).bytes) cs
    exact ⟨rounds, hrun, hle, declarations_of_loop hrun⟩
  case steps =>
    intro source cs
    have hstep {cs rest : List Char} {n : Node} (h : nextStep source cs = some (n, rest)) :
        byteSize rest < byteSize cs :=
      (nextStep_movesOn h).bytes
    obtain ⟨rounds, hrun, hle⟩ := exists_loop byteSize hstep cs
    exact ⟨rounds, hrun, hle, steps_of_loop hrun⟩
  case read =>
    intro css
    obtain ⟨rounds, hrun, hle⟩ := hrules [] css.toList ⟨css.toList, false⟩
    rw [byteSize, String.ofList_toList] at hle
    refine ⟨rounds, hrun, hle, ?_⟩
    rw [read_eq_outcome, rulesFrom_of_loop hrun, firstFault?_of_loop hrun]

/-- An at-rule that lacks its block, and a style rule that is not closed. -/
def brokenText : List Char :=
  "@supports é;q\x7b]".toList

theorem loops_moveOn_brokenText :
    (∃ found next, nextRule [] brokenText ⟨brokenText, false⟩ = some (found, next) ∧
        found.fault? = some ⟨.noBlockAfter "supports" "é", ⟨1, 1⟩⟩ ∧
        MovesOn brokenText next.text) ∧
      nextDeclaration ":;é;a:1".toList = some (none, "é;a:1".toList) ∧
      MovesOn ":;é;a:1".toList "é;a:1".toList ∧
      nextStep [] "to\x7b(".toList =
        some (.item (.keyframe ["to"] []) (some ⟨1, 1⟩), []) ∧
      MovesOn "to\x7b(".toList [] := by
  obtain ⟨hrule, hdeclaration, hstep, -⟩ := loops_moveOn
  have hfault : (nextRule [] brokenText ⟨brokenText, false⟩).bind (·.1.fault?) =
      some ⟨.noBlockAfter "supports" "é", ⟨1, 1⟩⟩ := by
    decide +kernel
  have hdeclared : nextDeclaration ":;é;a:1".toList = some (none, "é;a:1".toList) := by
    decide +kernel
  have hstepped : nextStep [] "to\x7b(".toList =
      some (.item (.keyframe ["to"] []) (some ⟨1, 1⟩), []) := by
    decide +kernel
  obtain ⟨⟨found, next⟩, hround, hfound⟩ := Option.bind_eq_some_iff.1 hfault
  exact ⟨⟨found, next, hround, hfound, (hrule _ _ _ _ _ hround).1⟩, hdeclared,
    hdeclaration _ _ _ hdeclared, hstepped, hstep _ _ _ _ hstepped⟩

end Stylesheet

end CriticalCss
