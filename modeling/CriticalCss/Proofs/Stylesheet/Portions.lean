import CriticalCss.Proofs.Stylesheet.Rules
import CriticalCss.Proofs.Token.Closing

/-!
# What is made of the portions of a style sheet

`portionsFrom` takes a style sheet apart: into the keywords of its at-rules at every depth, the
portions whose text its tree keeps, and those that nobody reads, such as a declaration, a step or a
rule that is malformed.

* `nextRule_floor` is the invariant: reading never leaves the block it began in.  Like the portions of
  one rule in `rulePortions_falls` it is a case analysis on what the rule can be.
* `portionsFrom_falls` is the result: the portions lie one after another, so that no two of them
  overlap.
-/

namespace CriticalCss

open Token (closeBlock skipUntil skipBlanks scan between)

/-! ## Portions -/

/-- What is made of a portion of a style sheet. -/
inductive Role where
  /-- It is the keyword of an at-rule. -/
  | keyword
  /-- The tree keeps its text. -/
  | kept
  /-- Nobody reads it. -/
  | unread
deriving DecidableEq

/-- A portion of a text, from one place up to another.  A place is the number of characters after
it. -/
structure Portion where
  role : Role
  low : Nat
  high : Nat

namespace Portion

/-- The portion between two places. -/
def between (role : Role) (start rest : List Char) : Portion :=
  ⟨role, rest.length, start.length⟩

/-- The portions lie one after another between two places. -/
def Falls (high : Nat) : List Portion → Nat → Prop
  | [], low => low ≤ high
  | q :: qs, low => q.high ≤ high ∧ q.low ≤ q.high ∧ Falls q.low qs low

theorem Falls.of_le {high high' low : Nat} {qs : List Portion} (h : Falls high qs low)
    (hle : high ≤ high') : Falls high' qs low := by
  cases qs with
  | nil => exact Nat.le_trans h hle
  | cons q qs => exact ⟨Nat.le_trans h.1 hle, h.2⟩

theorem Falls.cons {start rest : List Char} {high middle low : Nat} {qs : List Portion}
    (h : Falls middle qs low) (role : Role) (hmiddle : middle ≤ rest.length)
    (hrest : rest.length ≤ start.length) (hhigh : start.length ≤ high) :
    Falls high (between role start rest :: qs) low :=
  ⟨hhigh, hrest, h.of_le hmiddle⟩

theorem Falls.append {high middle low : Nat} {qs qs' : List Portion} (h : Falls high qs middle)
    (h' : Falls middle qs' low) : Falls high (qs ++ qs') low := by
  induction qs generalizing high with
  | nil => exact h'.of_le h
  | cons q qs ih =>
    obtain ⟨hhigh, hq, hqs⟩ := h
    exact ⟨hhigh, hq, ih hqs⟩

theorem Falls.high_le {high low : Nat} {qs : List Portion} (h : Falls high qs low) {q : Portion}
    (hq : q ∈ qs) : q.high ≤ high := by
  induction qs generalizing high with
  | nil => cases hq
  | cons first qs ih =>
    obtain ⟨hhigh, hfirst, hqs⟩ := h
    rcases List.mem_cons.1 hq with rfl | hq
    · exact hhigh
    · have := ih hqs hq
      omega

/-- Portions with different roles do not overlap. -/
theorem Falls.apart {high low : Nat} {qs : List Portion} (h : Falls high qs low) {q q' : Portion}
    (hq : q ∈ qs) (hq' : q' ∈ qs) (hrole : q.role ≠ q'.role) :
    q.high ≤ q'.low ∨ q'.high ≤ q.low := by
  induction qs generalizing high with
  | nil => cases hq
  | cons first qs ih =>
    obtain ⟨-, -, hqs⟩ := h
    rcases List.mem_cons.1 hq with rfl | hlater
    · rcases List.mem_cons.1 hq' with rfl | hlater'
      · exact absurd rfl hrole
      · exact .inr (hqs.high_le hlater')
    · rcases List.mem_cons.1 hq' with rfl | hlater'
      · exact .inl (hqs.high_le hlater)
      · exact ih hqs hlater hlater'

end Portion

namespace Stylesheet

/-- The portions of a block of declarations. -/
def declarationPortions (cs : List Char) : List Portion :=
  match _h : nextDeclaration cs with
  | none => []
  | some (d, rest) =>
    .between (if d.isSome then .kept else .unread) cs rest :: declarationPortions rest
termination_by cs.length
decreasing_by exact nextDeclaration_progress _h

theorem declarationPortions_eq (cs : List Char) :
    declarationPortions cs =
      match nextDeclaration cs with
      | none => []
      | some (d, rest) =>
        .between (if d.isSome then .kept else .unread) cs rest :: declarationPortions rest := by
  rw [declarationPortions]
  split <;> simp_all

/-- The portions of an animation.  What stands after a malformed step is not read. -/
def stepPortions (source cs : List Char) : List Portion :=
  match _h : nextStep source cs with
  | none => [.between .unread cs (closeBlock .curly cs)]
  | some (_, rest) =>
    let stop := skipUntil ['{', '}'] (skipBlanks cs)
    .between .kept cs stop :: (declarationPortions stop.tail ++ stepPortions source rest)
termination_by cs.length
decreasing_by exact nextStep_progress _h

theorem stepPortions_eq (source cs : List Char) :
    stepPortions source cs =
      match nextStep source cs with
      | none => [.between .unread cs (closeBlock .curly cs)]
      | some (_, rest) =>
        let stop := skipUntil ['{', '}'] (skipBlanks cs)
        .between .kept cs stop :: (declarationPortions stop.tail ++ stepPortions source rest) := by
  rw [stepPortions]
  split <;> simp_all

/-- The portions of the block of an at-rule; blocks of rules are left aside. -/
def blockPortions (source : List Char) (keyword : String) (body : List Char) : List Portion :=
  let name := Text.lower keyword
  if name = "charset" ∨ name = "media" ∨ name = "supports" then []
  else if name.endsWith "keyframes" then stepPortions source body
  else if name = "font-face" then declarationPortions body
  else if name ∈ ruleBlockKeywords then []
  else declarationPortions body

/-- The portions of the rule at a place; blocks of rules are left aside. -/
def rulePortions (stops source : List Char) (p : Place) : List Portion :=
  match scan p.settled with
  | none => []
  | some (t, rest) =>
    match t.lead with
    | .filler => [.between .unread p.text p.settled]
    | .comment _ => [.between .unread p.text p.settled, .between .kept p.settled rest]
    | .keyword name =>
      let stop := skipUntil ('{' :: ';' :: stops) rest
      .between .unread p.text p.settled :: .between .keyword p.settled rest ::
        .between .kept rest stop ::
          if stop.head? = some '{' then blockPortions source name stop.tail else []
    | .selector =>
      let stop := skipUntil ('{' :: stops) p.settled
      .between .kept p.text stop :: declarationPortions stop.tail

/-- The portions of the rules from a place on, at every depth. -/
def portionsFrom (stops source : List Char) (p : Place) : List Portion :=
  match _h : nextRule stops source p with
  | none => [.between .unread p.text p.settled]
  | some (.fault _, next) => .between .unread p.text next.text :: portionsFrom stops source next
  | some (.nothing, next) => rulePortions stops source p ++ portionsFrom stops source next
  | some (.node _, next) => rulePortions stops source p ++ portionsFrom stops source next
  | some (.group _ _ body, next) =>
    rulePortions stops source p ++
      (portionsFrom ['}'] source ⟨body, false⟩ ++ portionsFrom stops source next)
termination_by p.text.length
decreasing_by
  · exact nextRule_progress _h
  · exact nextRule_progress _h
  · exact nextRule_progress _h
  · exact nextRule_group_lt _h
  · exact nextRule_progress _h

theorem portionsFrom_eq (stops source : List Char) (p : Place) :
    portionsFrom stops source p =
      match nextRule stops source p with
      | none => [.between .unread p.text p.settled]
      | some (.fault _, next) => .between .unread p.text next.text :: portionsFrom stops source next
      | some (.nothing, next) => rulePortions stops source p ++ portionsFrom stops source next
      | some (.node _, next) => rulePortions stops source p ++ portionsFrom stops source next
      | some (.group _ _ body, next) =>
        rulePortions stops source p ++
          (portionsFrom ['}'] source ⟨body, false⟩ ++ portionsFrom stops source next) := by
  rw [portionsFrom]
  split <;> simp_all

/-! ## The portions lie one after another -/

theorem closeBlock_nextDeclaration {cs rest : List Char} {d : Option Declaration}
    (h : nextDeclaration cs = some (d, rest)) : closeBlock .curly rest = closeBlock .curly cs := by
  rw [nextDeclaration_eq_ite] at h
  split at h
  · cases h
  · dsimp only at h
    have hstop : closeBlock .curly (skipUntil [';', '}'] (skipBlanks cs)) =
        closeBlock .curly cs := by
      rw [Token.closeBlock_skipUntil (by decide), Token.closeBlock_skipBlanks]
    cases h
    split
    · next hends =>
      obtain ⟨rest, hrest⟩ := List.head?_eq_some_iff.1 hends
      rw [hrest, Token.closeBlock_semicolon] at hstop
      rw [hrest, List.tail_cons, hstop]
    · exact hstop

theorem closeBlock_nextStep {source cs rest : List Char} {n : Node}
    (h : nextStep source cs = some (n, rest)) : closeBlock .curly rest = closeBlock .curly cs := by
  obtain ⟨body, hbody, rfl⟩ := exists_nextStep h
  rw [← Token.closeBlock_opening, ← hbody, Token.closeBlock_skipUntil (by decide),
    Token.closeBlock_skipBlanks]

theorem declarationPortions_falls (cs : List Char) :
    Portion.Falls cs.length (declarationPortions cs) (closeBlock .curly cs).length := by
  induction cs using declarations_induction with
  | ends cs h =>
    rw [declarationPortions_eq, h]
    exact (Token.closeBlock_suffix .curly cs).length_le
  | goesOn cs d rest h ih =>
    rw [closeBlock_nextDeclaration h] at ih
    rw [declarationPortions_eq, h]
    exact ih.cons _ (Nat.le_refl _) (Nat.le_of_lt (nextDeclaration_progress h)) (Nat.le_refl _)

theorem stepPortions_falls (source cs : List Char) :
    Portion.Falls cs.length (stepPortions source cs) (closeBlock .curly cs).length := by
  induction cs using steps_induction source with
  | ends cs h =>
    rw [stepPortions_eq, h]
    exact ⟨Nat.le_refl _, (Token.closeBlock_suffix .curly cs).length_le, Nat.le_refl _⟩
  | goesOn cs n rest h ih =>
    obtain ⟨body, hbody, rfl⟩ := exists_nextStep h
    have hblanks := (Token.skipBlanks_suffix cs).length_le
    have hskip := (Token.skipUntil_suffix ['{', '}'] (skipBlanks cs)).length_le
    rw [closeBlock_nextStep h] at ih
    have hle : ('{' :: body).length ≤ cs.length := by
      rw [← hbody]
      exact Nat.le_trans hskip hblanks
    have hinside := (declarationPortions_falls body).append ih
    rw [stepPortions_eq, h]
    dsimp only
    rw [hbody, List.tail_cons]
    exact hinside.cons _ (Nat.le_succ _) hle (Nat.le_refl _)

/-- Where reading cannot get to from inside a block: the end of the block.  At the top level there
is no such place. -/
def floor (stops cs : List Char) : Nat :=
  if '}' ∈ stops then (closeBlock .curly cs).length else 0

theorem floor_le_length (stops cs : List Char) : floor stops cs ≤ cs.length := by
  unfold floor
  split
  · exact (Token.closeBlock_suffix .curly cs).length_le
  · exact Nat.zero_le _

/-- The floor is told by where the block ends. -/
theorem floor_congr (stops : List Char) {cs cs' : List Char}
    (h : '}' ∈ stops → closeBlock .curly cs = closeBlock .curly cs') :
    floor stops cs = floor stops cs' := by
  unfold floor
  split
  · next hstops => rw [h hstops]
  · rfl

theorem floor_skipUntil (stops : List Char) {marks : List Char} (hmarks : stops ⊆ marks)
    (cs : List Char) : floor stops (skipUntil marks cs) = floor stops cs :=
  floor_congr stops fun h => Token.closeBlock_skipUntil (hmarks h) cs

/-- Skipping to a block and over it. -/
theorem floor_block (stops : List Char) {marks cs body : List Char} (hmarks : stops ⊆ marks)
    (h : skipUntil marks cs = '{' :: body) :
    floor stops (closeBlock .curly body) = floor stops cs := by
  rw [← floor_skipUntil stops hmarks cs, h]
  exact floor_congr stops fun _ => (Token.closeBlock_opening body).symm

theorem floor_statement (stops : List Char) {marks cs : List Char} (hmarks : stops ⊆ marks) :
    floor stops (if (skipUntil marks cs).head? = some ';' then (skipUntil marks cs).tail
      else skipUntil marks cs) = floor stops cs := by
  rw [← floor_skipUntil stops hmarks cs]
  split
  · next hends =>
    obtain ⟨rest, hrest⟩ := List.head?_eq_some_iff.1 hends
    rw [hrest, List.tail_cons]
    exact floor_congr stops fun _ => (Token.closeBlock_semicolon rest).symm
  · rfl

/-- A token that is no bracket stands inside the block it is read in. -/
theorem floor_of_lead (stops : List Char) {cs rest : List Char} {t : Token}
    (hscan : scan cs = some (t, rest)) (h : t.lead ≠ .selector) : floor stops rest = floor stops cs :=
  floor_congr stops fun _ =>
    (Token.closeBlocks_of_plain hscan (Token.plain_of_lead h).1 (Token.plain_of_lead h).2 .curly
      []).symm

/-- A rule ends inside the block it stands in. -/
theorem nextRule_floor {stops source : List Char} {p next : Place} {found : Found}
    (h : nextRule stops source p = some (found, next)) :
    floor stops next.settled = floor stops p.settled := by
  have hstatement : stops ⊆ '{' :: ';' :: stops :=
    fun c hc => List.mem_cons_of_mem _ (List.mem_cons_of_mem _ hc)
  have hstyle : stops ⊆ '{' :: stops := fun c hc => List.mem_cons_of_mem _ hc
  cases readsRule_of_nextRule h with
  | filler starts leads => exact floor_of_lead stops starts (by rw [leads]; nofun)
  | comment starts leads => exact floor_of_lead stops starts (by rw [leads]; nofun)
  | block starts leads opens =>
    rw [← floor_of_lead stops starts (by rw [leads]; nofun)]
    split
    · exact floor_block stops hstatement opens
    · exact floor_block stops hstatement opens
  | statement starts leads reaches _ =>
    rw [← floor_of_lead stops starts (by rw [leads]; nofun), ← reaches]
    exact floor_statement stops hstatement
  | style _ _ _ opens => exact floor_block stops hstyle opens
  | noSelector _ _ _ opens => exact floor_block stops hstyle opens
  | noBlock _ _ _ reaches _ =>
    rw [← reaches]
    exact floor_skipUntil stops hstyle p.settled

/-- Where the portions of a rule end: at the inside of a block of rules, or else where reading goes
on. -/
def Found.inside (next : Place) : Found → List Char
  | .group _ _ body => body
  | _ => next.text

theorem blockPortions_falls (source : List Char) (keyword prelude : String) (position : Position)
    (body : List Char) :
    Portion.Falls body.length (blockPortions source keyword body)
      ((blockRule source keyword prelude position body).inside
        (if Text.lower keyword = "charset" then ⟨body, true⟩
          else ⟨closeBlock .curly body, false⟩)).length := by
  unfold blockRule blockPortions
  dsimp only
  by_cases hcharset : Text.lower keyword = "charset"
  · simp [hcharset, Found.inside, Portion.Falls]
  by_cases hmedia : Text.lower keyword = "media"
  · simp [hmedia, Found.inside, Portion.Falls]
  by_cases hsupports : Text.lower keyword = "supports"
  · simp [hsupports, Found.inside, Portion.Falls]
  simp only [if_neg hcharset, if_neg hmedia, if_neg hsupports,
    if_neg (show ¬(Text.lower keyword = "charset" ∨ Text.lower keyword = "media" ∨
      Text.lower keyword = "supports") by simp [hcharset, hmedia, hsupports])]
  split
  · exact stepPortions_falls source body
  split
  · exact declarationPortions_falls body
  split
  · exact Nat.le_refl _
  · exact declarationPortions_falls body

theorem inside_statementRule (keyword prelude : String) (position : Position) (next : Place) :
    (statementRule keyword prelude position).inside next = next.text := by
  unfold statementRule
  dsimp only
  repeat' split
  all_goals rfl

theorem rulePortions_falls {stops source : List Char} {p next : Place} {found : Found}
    (h : nextRule stops source p = some (found, next)) (hfault : ∀ e, found ≠ .fault e) :
    Portion.Falls p.text.length (rulePortions stops source p) (found.inside next).length := by
  have hsettled := p.settled_suffix.length_le
  unfold rulePortions
  cases readsRule_of_nextRule h with
  | filler starts leads =>
    simp only [starts, leads]
    exact ⟨Nat.le_refl _, hsettled, Nat.le_of_lt (Token.scan_length_lt starts)⟩
  | comment starts leads =>
    have hrest := Nat.le_of_lt (Token.scan_length_lt starts)
    simp only [starts, leads]
    exact ⟨Nat.le_refl _, hsettled, Nat.le_refl _, hrest, Nat.le_refl _⟩
  | @block t keyword rest body starts leads opens =>
    have hrest := Nat.le_of_lt (Token.scan_length_lt starts)
    have hstop := (Token.skipUntil_suffix ('{' :: ';' :: stops) rest).length_le
    simp only [starts, leads]
    refine ⟨Nat.le_refl _, hsettled, Nat.le_refl _, hrest, Nat.le_refl _, hstop, ?_⟩
    rw [opens, List.head?_cons, if_pos rfl, List.tail_cons]
    exact (blockPortions_falls source keyword _ _ body).of_le (Nat.le_succ _)
  | @statement t keyword rest stop starts leads reaches ends =>
    have hrest := Nat.le_of_lt (Token.scan_length_lt starts)
    have hstop := (Token.skipUntil_suffix ('{' :: ';' :: stops) rest).length_le
    simp only [starts, leads]
    refine ⟨Nat.le_refl _, hsettled, Nat.le_refl _, hrest, Nat.le_refl _, hstop, ?_⟩
    rw [reaches, if_neg ends, inside_statementRule]
    dsimp only
    split
    · exact (List.tail_suffix stop).length_le
    · exact Nat.le_refl _
  | @style t rest body selectors starts leads opens =>
    have hstop := (Token.skipUntil_suffix ('{' :: stops) p.settled).length_le
    simp only [starts, leads]
    refine ⟨Nat.le_refl _, Nat.le_trans hstop hsettled, ?_⟩
    rw [opens, List.tail_cons]
    exact (declarationPortions_falls body).of_le (Nat.le_succ _)
  | noSelector e => exact absurd rfl (hfault e)
  | noBlock e => exact absurd rfl (hfault e)

/-- The portions of a style sheet lie one after another. -/
theorem portionsFrom_falls (stops source : List Char) (p : Place) :
    Portion.Falls p.text.length (portionsFrom stops source p) (floor stops p.settled) := by
  induction stops, p using rules_induction source with
  | ends stops p h =>
    rw [portionsFrom_eq, h]
    exact ⟨Nat.le_refl _, p.settled_suffix.length_le, floor_le_length stops _⟩
  | fault stops p e next h ih =>
    rw [nextRule_floor h] at ih
    rw [portionsFrom_eq, h]
    exact ih.cons _ (Nat.le_refl _) (Nat.le_of_lt (nextRule_progress h)) (Nat.le_refl _)
  | nothing stops p next h ih =>
    rw [nextRule_floor h] at ih
    rw [portionsFrom_eq, h]
    exact (rulePortions_falls h nofun).append ih
  | node stops p n next h ih =>
    rw [nextRule_floor h] at ih
    rw [portionsFrom_eq, h]
    exact (rulePortions_falls h nofun).append ih
  | group stops p heading position body next h ihbody ih =>
    rw [nextRule_floor h] at ih
    have hbody : floor ['}'] (⟨body, false⟩ : Place).settled = next.text.length := by
      rw [(nextRule_group h).2]
      rfl
    rw [hbody] at ihbody
    rw [portionsFrom_eq, h]
    exact (rulePortions_falls h nofun).append (ihbody.append ih)

end Stylesheet

end CriticalCss
