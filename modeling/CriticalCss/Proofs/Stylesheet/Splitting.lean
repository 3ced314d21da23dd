import CriticalCss.Proofs.Stylesheet.Printable
import CriticalCss.Proofs.Token.Lexemes
import Mathlib.Data.List.DropRight

/-!
# Splitting and tokens

A list of selectors is split character by character, with a depth of brackets and the mode of a
string.  `SelectorText.cut` says what it should be split into: the text is cut at the comma tokens
outside brackets, and in each piece the white space tokens become single spaces.

* `Text.collapse_collapse` and `SelectorText.collapse_text`: white space tokens as well as single
  spaces are collapsed to single spaces.
* `SelectorText.pieces_append_of_depthOver?` and `SelectorText.pieces_quoted`: the splitter goes over
  a token that is no string, and over a string.
* `SelectorText.split_eq_cut_iff`: where no token but a string hides what the splitter counts, the
  text is split as it should be, up to white space inside tokens.
-/

namespace CriticalCss

/-! ## Words -/

namespace Text

/-- Texts with the same words that both begin with a blank or both do not. -/
structure Alike (t u : List Char) : Prop where
  head : t.head?.map isBlank = u.head?.map isBlank
  words : wordChars t = wordChars u

namespace Alike

variable {t u : List Char}

theorem cons (h : Alike t u) (c : Char) : Alike (c :: t) (c :: u) where
  head := rfl
  words := by
    by_cases hc : isBlank c = true
    · rw [wordChars_of_blank hc, wordChars_of_blank hc, h.words]
    · have hc := Bool.eq_false_iff.2 hc
      rw [wordChars_of_not_blank hc, wordChars_of_not_blank hc, h.words]
      have hhead := h.head
      cases t <;> cases u
      · rfl
      · cases hhead
      · cases hhead
      · cases wordChars _ with
        | nil => rfl
        | cons w ws =>
          dsimp only
          rw [Option.some.inj hhead]

theorem append (h : Alike t u) (v : List Char) : Alike (v ++ t) (v ++ u) := by
  induction v with
  | nil => exact h
  | cons c v ih => exact ih.cons c

/-- It does not matter which blanks stand before a text. -/
theorem blanks (h : Alike t u) {w w' : List Char} (hw : ∀ c ∈ w, isBlank c = true)
    (hw' : ∀ c ∈ w', isBlank c = true) (hne : w ≠ []) (hne' : w' ≠ []) :
    Alike (w ++ t) (w' ++ u) where
  head := by
    obtain ⟨c, v, rfl⟩ := List.exists_cons_of_ne_nil hne
    obtain ⟨c', v', rfl⟩ := List.exists_cons_of_ne_nil hne'
    simp [hw c List.mem_cons_self, hw' c' List.mem_cons_self]
  words := by rw [wordChars_append_of_blank hw, wordChars_append_of_blank hw', h.words]

end Alike

/-- Blanks at the end do not matter. -/
theorem wordChars_append_blanks (t : List Char) {w : List Char} (hw : ∀ c ∈ w, isBlank c = true) :
    wordChars (t ++ w) = wordChars t := by
  have hblank : wordChars w = [] := by
    rw [← List.append_nil w, wordChars_append_of_blank hw]
    rfl
  induction t with
  | nil => exact hblank
  | cons c t ih =>
    cases t with
    | nil =>
      by_cases hc : isBlank c = true
      · rw [List.singleton_append, wordChars_of_blank hc, wordChars_of_blank hc, hblank]
        rfl
      · have hc := Bool.eq_false_iff.2 hc
        rw [List.singleton_append, wordChars_of_not_blank hc, wordChars_of_not_blank hc, hblank]
        cases w <;> rfl
    | cons d t =>
      have halike : Alike (d :: t ++ w) (d :: t) := ⟨rfl, ih⟩
      exact (halike.cons c).words

/-- A text without blanks. -/
structure IsWord (w : List Char) : Prop where
  ne_nil : w ≠ []
  chars : ∀ c ∈ w, isBlank c = false

theorem isWord_of_mem_wordChars {t w : List Char} (h : w ∈ wordChars t) : IsWord w := by
  induction t generalizing w with
  | nil => cases h
  | cons c t ih =>
    by_cases hc : isBlank c = true
    · rw [wordChars_of_blank hc] at h
      exact ih h
    · have hc := Bool.eq_false_iff.2 hc
      have hsingle : IsWord [c] := ⟨List.cons_ne_nil _ _, by simpa using hc⟩
      rw [wordChars_of_not_blank hc] at h
      split at h
      · next d t w' ws hwords =>
        have hw' : IsWord w' := ih (hwords ▸ List.mem_cons_self)
        have hws : ∀ v ∈ ws, IsWord v := fun v hv => ih (hwords ▸ List.mem_cons_of_mem _ hv)
        split at h
        · simp only [List.mem_cons] at h
          rcases h with rfl | rfl | h
          · exact hsingle
          · exact hw'
          · exact hws w h
        · rcases List.mem_cons.1 h with rfl | h
          · exact ⟨List.cons_ne_nil _ _, List.forall_mem_cons.2 ⟨hc, hw'.chars⟩⟩
          · exact hws w h
      · rcases List.mem_cons.1 h with rfl | h
        · exact hsingle
        · exact ih h

/-- A word ends at a blank. -/
theorem wordChars_word_append {w rest : List Char} (hw : IsWord w)
    (hrest : ∀ c ∈ rest.head?, isBlank c = true) : wordChars (w ++ rest) = w :: wordChars rest := by
  obtain ⟨hne, hchars⟩ := hw
  induction w with
  | nil => exact absurd rfl hne
  | cons c w ih =>
    rw [List.cons_append, wordChars_of_not_blank (hchars c List.mem_cons_self)]
    cases w with
    | nil =>
      cases rest with
      | nil => rfl
      | cons d rest =>
        have hd := hrest d rfl
        rw [List.nil_append]
        cases wordChars (d :: rest) with
        | nil => rfl
        | cons v vs => exact if_pos hd
    | cons d w =>
      have hd : ¬ isBlank d = true := by
        rw [hchars d (by simp)]
        decide
      rw [ih (List.cons_ne_nil _ _) fun e he => hchars e (List.mem_cons_of_mem _ he)]
      exact if_neg hd

/-- Words that are joined by single spaces stand apart again. -/
theorem wordChars_intercalate {ws : List (List Char)} (hws : ∀ w ∈ ws, IsWord w) :
    wordChars ([' '].intercalate ws) = ws := by
  induction ws with
  | nil => rfl
  | cons w ws ih =>
    have hw := hws w List.mem_cons_self
    have hws' : ∀ v ∈ ws, IsWord v := fun v hv => hws v (List.mem_cons_of_mem _ hv)
    cases ws with
    | nil =>
      have hword : wordChars (w ++ []) = [w] := wordChars_word_append hw nofun
      rw [List.append_nil] at hword
      rw [List.intercalate_singleton, hword]
    | cons v ws =>
      rw [List.intercalate_cons_cons, List.append_assoc, wordChars_word_append hw (by simp; decide),
        List.singleton_append, wordChars_of_blank (by decide), ih hws']

theorem collapse_collapse (t : List Char) : collapse (collapse t) = collapse t := by
  rw [collapse, collapse, wordChars_intercalate fun w => isWord_of_mem_wordChars]

end Text

/-! ## Cutting at comma tokens -/

/-- The brackets that are open after a token, innermost first.  A closing bracket of another kind than
the innermost one is an ordinary token. -/
def Token.bracketsAfter (stack : List Bracket) (t : Token) : List Bracket :=
  match t.opens?, stack with
  | some b, _ => b :: stack
  | none, [] => []
  | none, top :: below => if t.closes? = some top then below else top :: below

/-- A token of a text with the brackets that are open before it. -/
structure Standing where
  stack : List Bracket
  lexeme : Lexeme

namespace Lexeme

/-- White space. -/
def isSpace (l : Lexeme) : Bool :=
  match l.token with
  | .space _ => true
  | _ => false

/-- The text of a token, or one space for white space. -/
def spaced (l : Lexeme) : List Char :=
  if l.isSpace then [' '] else l.text

/-- The tokens with the brackets that are open before them. -/
def standing (stack : List Bracket) : List Lexeme → List Standing
  | [] => []
  | l :: ls => ⟨stack, l⟩ :: standing (l.token.bracketsAfter stack) ls

end Lexeme

namespace Standing

/-- A comma outside brackets. -/
def separates (s : Standing) : Bool :=
  s.stack.isEmpty && s.lexeme.token == .comma

/-- The text of a piece. -/
def text (piece : List Standing) : List Char :=
  piece.flatMap (·.lexeme.text)

/-- The text of a piece without the white space at its ends, with one space for other white space. -/
def spacedText (piece : List Standing) : List Char :=
  ((piece.dropWhile (·.lexeme.isSpace)).rdropWhile (·.lexeme.isSpace)).flatMap (·.lexeme.spaced)

end Standing

namespace SelectorText

open Token (lexemes scan)
open Lexeme (standing)

/-- The entries of a list of selectors or values, by its tokens: the pieces between the commas outside
brackets. -/
def cut (text : List Char) : List String :=
  ((((standing [] (lexemes text)).splitOnP Standing.separates).map Standing.spacedText).filter
    (· ≠ [])).map String.ofList

/-- The depth of brackets that the splitter counts. -/
def depthIn (stack : List Bracket) : Nat :=
  stack.countP (· ≠ .curly)

/-- The depth after a text in which the splitter meets no quote, and no comma outside brackets. -/
def depthOver? (depth : Nat) : List Char → Option Nat
  | [] => some depth
  | c :: cs =>
    if c = '"' ∨ c = '\'' ∨ c = ',' ∧ depth = 0 then none else depthOver? (depthAfter depth c) cs

/-- A string. -/
def isString : Token → Bool
  | .string _ => true
  | _ => false

/-- A token that the splitter takes as what it is: it is a comma that separates pieces, or a string, or
its characters open and close the brackets that it opens and closes itself. -/
def inStep (s : Standing) : Bool :=
  s.separates || isString s.lexeme.token ||
    depthOver? (depthIn s.stack) s.lexeme.text ==
      some (depthIn (s.lexeme.token.bracketsAfter s.stack))

/-! ## Going over a token -/

section Pieces

theorem consHead_ne_nil (c : Char) (ps : List (List Char)) : consHead c ps ≠ [] := by
  cases ps <;> exact List.cons_ne_nil _ _

theorem pieces_ne_nil (mode : Mode) (depth : Nat) (cs : List Char) : pieces mode depth cs ≠ [] := by
  cases cs with
  | nil => exact List.cons_ne_nil _ _
  | cons c cs =>
    cases mode with
    | plain =>
      rw [pieces]
      split
      · exact List.cons_ne_nil _ _
      · exact consHead_ne_nil _ _
    | quoted quote => exact consHead_ne_nil _ _
    | escaped quote => exact consHead_ne_nil _ _

theorem consHead_eq_modifyHead {ps : List (List Char)} (hps : ps ≠ []) (c : Char) :
    consHead c ps = ps.modifyHead ([c] ++ ·) := by
  cases ps with
  | nil => exact absurd rfl hps
  | cons p ps => rfl

theorem modifyHead_append (ps : List (List Char)) (u v : List Char) :
    (ps.modifyHead (u ++ ·)).modifyHead (v ++ ·) = ps.modifyHead (v ++ u ++ ·) := by
  cases ps with
  | nil => rfl
  | cons p ps => exact congrArg (· :: ps) (List.append_assoc v u p).symm

theorem consHead_modifyHead {ps : List (List Char)} (hps : ps ≠ []) (c : Char) (u : List Char) :
    consHead c (ps.modifyHead (u ++ ·)) = ps.modifyHead (c :: u ++ ·) := by
  cases ps with
  | nil => exact absurd rfl hps
  | cons p ps => rfl

variable {depth : Nat} {u rest : List Char}

/-- Characters that neither end a piece nor begin a string stay in the piece. -/
theorem pieces_append_of_depthOver? {depth' : Nat} (h : depthOver? depth u = some depth')
    (rest : List Char) :
    pieces .plain depth (u ++ rest) = (pieces .plain depth' rest).modifyHead (u ++ ·) := by
  induction u generalizing depth with
  | nil =>
    cases h
    exact (congrFun List.modifyHead_id _).symm
  | cons c u ih =>
    rw [depthOver?] at h
    split at h
    · cases h
    · next hc =>
      rw [not_or, not_or] at hc
      have hplain : afterPlain c = .plain := if_neg (not_or.2 ⟨hc.1, hc.2.1⟩)
      have hstep : pieces .plain depth (c :: (u ++ rest)) =
          consHead c (pieces (afterPlain c) (depthAfter depth c) (u ++ rest)) := if_neg hc.2.2
      rw [List.cons_append, hstep, hplain, ih h, consHead_modifyHead (pieces_ne_nil _ _ _)]

section Quoted

variable {quote : Char} (depth : Nat)

/-- Characters of a string other than its quote and the backslash stay in the piece. -/
theorem pieces_quoted_append {u : List Char} (hu : ∀ c ∈ u, c ≠ quote ∧ c ≠ '\\')
    (cs : List Char) : pieces (.quoted quote) depth (u ++ cs) =
      (pieces (.quoted quote) depth cs).modifyHead (u ++ ·) := by
  induction u with
  | nil => exact (congrFun List.modifyHead_id _).symm
  | cons c u ih =>
    obtain ⟨hc, hu⟩ := List.forall_mem_cons.1 hu
    have hafter : afterQuoted quote c = .quoted quote := by
      rw [afterQuoted, if_neg hc.2, if_neg hc.1]
    have hstep : pieces (.quoted quote) depth (c :: (u ++ cs)) =
        consHead c (pieces (afterQuoted quote c) depth (u ++ cs)) := rfl
    rw [List.cons_append, hstep, hafter, ih hu, consHead_modifyHead (pieces_ne_nil _ _ _)]

/-- After a backslash the splitter passes one character, and the others that belong to the escape are
characters of the string like any other. -/
theorem pieces_quoted_escape {w : List Char} (hw : ∀ c ∈ w, c ≠ quote ∧ c ≠ '\\') (d : Char)
    (cs : List Char) : pieces (.quoted quote) depth ('\\' :: d :: (w ++ cs)) =
      (pieces (.quoted quote) depth cs).modifyHead ('\\' :: d :: w ++ ·) := by
  have hstep : pieces (.quoted quote) depth ('\\' :: d :: (w ++ cs)) =
      consHead '\\' (consHead d (pieces (.quoted quote) depth (w ++ cs))) := rfl
  have hne := pieces_ne_nil (.quoted quote) depth cs
  rw [hstep, pieces_quoted_append depth hw, consHead_modifyHead hne, consHead_modifyHead hne]

theorem ne_of_isSpace (hquote : quote = '"' ∨ quote = '\'') {c : Char}
    (hc : Token.isSpace c = true) : c ≠ quote ∧ c ≠ '\\' := by
  constructor
  · rintro rfl
    rcases hquote with rfl | rfl <;> cases hc
  · rintro rfl
    cases hc

theorem ne_of_hexDigit? (hquote : quote = '"' ∨ quote = '\'') {c : Char}
    (hc : (Text.hexDigit? c).isSome = true) : c ≠ quote ∧ c ≠ '\\' := by
  constructor
  · rintro rfl
    rcases hquote with rfl | rfl <;> cases hc
  · rintro rfl
    cases hc

/-- A string up to its end stays in the piece. -/
theorem pieces_quoted (hquote : quote = '"' ∨ quote = '\'') {cs : List Char}
    (h : (Token.takeString quote cs).2 = (.closed, rest)) :
    ∃ u, cs = u ++ rest ∧
      pieces (.quoted quote) depth cs = (pieces .plain depth rest).modifyHead (u ++ ·) := by
  have hback : quote ≠ '\\' := by rcases hquote with rfl | rfl <;> decide
  induction cs using Token.takeString_induction quote with
  | nil =>
    rw [Token.takeString_nil] at h
    cases h
    exact ⟨[], rfl, rfl⟩
  | close cs =>
    rw [Token.takeString_quote] at h
    cases h
    have hafter : afterQuoted quote quote = .plain := by
      rw [afterQuoted, if_neg hback, if_pos rfl]
    have hstep : pieces (.quoted quote) depth (quote :: rest) =
        consHead quote (pieces (afterQuoted quote quote) depth rest) := rfl
    refine ⟨[quote], rfl, ?_⟩
    rw [hstep, hafter, consHead_eq_modifyHead (pieces_ne_nil _ _ _)]
  | newline c cs hne hline =>
    rw [Token.takeString_newline hne hline] at h
    cases h
  | backslash hne =>
    rw [Token.takeString_backslash hne] at h
    cases h
    exact ⟨['\\'], rfl, rfl⟩
  | continued d ds hne hline ih =>
    rw [Token.takeString_continued hne hline] at h
    obtain ⟨w, hw, hspace⟩ := Token.exists_dropNewline d ds
    obtain ⟨u, hu, hpieces⟩ := ih h
    refine ⟨'\\' :: d :: w ++ u, ?_, ?_⟩
    · rw [List.append_assoc, ← hu, List.cons_append, List.cons_append, ← hw]
    · rw [← modifyHead_append, ← hpieces,
        ← pieces_quoted_escape depth fun c hc => ne_of_isSpace hquote (hspace c hc), ← hw]
  | escape d ds hne hline ih =>
    rw [Token.takeString_escape hne hline] at h
    obtain ⟨w, hw, hescape⟩ := Token.exists_takeEscape d ds
    obtain ⟨u, hu, hpieces⟩ := ih h
    have hinside : ∀ c ∈ w, c ≠ quote ∧ c ≠ '\\' := fun c hc =>
      (hescape c hc).elim (ne_of_hexDigit? hquote) (ne_of_isSpace hquote)
    refine ⟨'\\' :: d :: w ++ u, ?_, ?_⟩
    · rw [List.append_assoc, ← hu, List.cons_append, List.cons_append, ← hw]
    · rw [← modifyHead_append, ← hpieces, ← pieces_quoted_escape depth hinside, ← hw]
  | char c cs hc hline hback ih =>
    rw [Token.takeString_char hc hline hback] at h
    obtain ⟨u, hu, hpieces⟩ := ih h
    refine ⟨c :: u, congrArg (c :: ·) hu, ?_⟩
    have hafter : afterQuoted quote c = .quoted quote := by
      rw [afterQuoted, if_neg hback, if_neg hc]
    have hstep : pieces (.quoted quote) depth (c :: cs) =
        consHead c (pieces (afterQuoted quote c) depth cs) := rfl
    rw [hstep, hafter, hpieces, consHead_modifyHead (pieces_ne_nil _ _ _)]

end Quoted

end Pieces

/-! ## Cutting at commas -/

section Cut

variable {stack : List Bracket} {t : Token} {cs rest : List Char}

/-- The splitter goes over a token in step that separates nothing. -/
theorem pieces_of_scan (hscan : scan cs = some (t, rest))
    (hseparates : Standing.separates ⟨stack, t, Token.between cs rest⟩ = false)
    (hstep : inStep ⟨stack, t, Token.between cs rest⟩ = true) :
    pieces .plain (depthIn stack) cs =
      (pieces .plain (depthIn (t.bracketsAfter stack)) rest).modifyHead
        (Token.between cs rest ++ ·) := by
  rw [inStep, hseparates, Bool.false_or, Bool.or_eq_true, beq_iff_eq] at hstep
  rcases hstep with hstring | hdepth
  · obtain ⟨v, rfl⟩ : ∃ v, t = .string v := by
      cases t <;> first | exact ⟨_, rfl⟩ | cases hstring
    obtain ⟨quote, tail, hquote, rfl, hclosed⟩ := Token.standsIn_of_scan hscan
    obtain ⟨u, rfl, hpieces⟩ := pieces_quoted (depthIn stack) hquote hclosed
    have hbrackets : Token.bracketsAfter stack (.string v) = stack := by cases stack <;> rfl
    have htext : Token.between (quote :: (u ++ rest)) rest = quote :: u :=
      List.append_cancel_right (Token.between_append_suffix (Token.scan_suffix hscan))
    have hfirst : pieces .plain (depthIn stack) (quote :: (u ++ rest)) =
        consHead quote (pieces (.quoted quote) (depthIn stack) (u ++ rest)) := by
      rcases hquote with rfl | rfl <;> rfl
    rw [hbrackets, htext, hfirst, hpieces, consHead_modifyHead (pieces_ne_nil _ _ _)]
  · have hpieces := pieces_append_of_depthOver? hdepth rest
    rwa [Token.between_append_suffix (Token.scan_suffix hscan)] at hpieces

/-- Where all tokens are in step, the pieces are those between the commas outside brackets. -/
theorem pieces_eq_map_splitOnP (stack : List Bracket) (cs : List Char)
    (h : ∀ s ∈ standing stack (lexemes cs), inStep s = true) :
    pieces .plain (depthIn stack) cs =
      ((standing stack (lexemes cs)).splitOnP Standing.separates).map Standing.text := by
  induction cs using Token.scan_induction generalizing stack with
  | nil =>
    rw [Token.lexemes_nil]
    rfl
  | token cs t rest hscan ih =>
    rw [Token.lexemes_of_scan hscan, standing, List.forall_mem_cons] at h
    rw [Token.lexemes_of_scan hscan, standing, List.splitOnP_cons_eq_if_modifyHead]
    have hrest := ih rest (Nat.le_refl _) _ h.2
    split
    · next hseparates =>
      simp only [Standing.separates, Bool.and_eq_true, List.isEmpty_iff, beq_iff_eq] at hseparates
      obtain ⟨rfl, rfl⟩ := hseparates
      obtain rfl : cs = ',' :: rest := Token.standsIn_of_scan hscan
      exact congrArg ([] :: ·) hrest
    · next hseparates =>
      rw [pieces_of_scan hscan (Bool.eq_false_iff.2 hseparates) h.1, hrest]
      cases List.splitOnP _ _ <;> rfl

end Cut

/-! ## White space in a piece -/

/-- White space tokens are read from white space. -/
theorem isBlank_of_mem_lexemes {text : List Char} {l : Lexeme} (hl : l ∈ lexemes text)
    (hspace : l.isSpace = true) : l.text ≠ [] ∧ ∀ c ∈ l.text, Text.isBlank c = true := by
  induction text using Token.scan_induction with
  | nil =>
    rw [Token.lexemes_nil] at hl
    cases hl
  | token cs t rest hscan ih =>
    rw [Token.lexemes_of_scan hscan] at hl
    rcases List.mem_cons.1 hl with rfl | hl
    · obtain ⟨v, rfl⟩ : ∃ v, t = .space v := by
        cases t <;> first | exact ⟨_, rfl⟩ | cases hspace
      obtain ⟨w, hne, hw, rfl⟩ := Token.standsIn_of_scan hscan
      have htext : Token.between (w ++ rest) rest = w :=
        List.append_cancel_right (Token.between_append_suffix (Token.scan_suffix hscan))
      dsimp only
      rw [htext]
      exact ⟨hne, fun c hc => Text.isBlank_of_isSpace (hw c hc)⟩
    · exact ih rest (Nat.le_refl _) hl

theorem lexeme_mem_of_mem_standing {s : Standing} {stack : List Bracket} {ls : List Lexeme}
    (hs : s ∈ standing stack ls) : s.lexeme ∈ ls := by
  induction ls generalizing stack with
  | nil => cases hs
  | cons l ls ih =>
    rcases List.mem_cons.1 hs with rfl | hs
    · exact List.mem_cons_self
    · exact List.mem_cons_of_mem _ (ih hs)

/-- Space tokens as they are written and single spaces stand between the same words. -/
theorem alike_text {piece : List Standing}
    (h : ∀ s ∈ piece, s.lexeme.isSpace = true →
      s.lexeme.text ≠ [] ∧ ∀ c ∈ s.lexeme.text, Text.isBlank c = true) :
    Text.Alike (Standing.text piece) (piece.flatMap (·.lexeme.spaced)) := by
  induction piece with
  | nil => exact ⟨rfl, rfl⟩
  | cons s piece ih =>
    rw [List.forall_mem_cons] at h
    have hpiece := ih h.2
    rw [Standing.text, List.flatMap_cons, List.flatMap_cons, Lexeme.spaced]
    split
    · next hspace =>
      obtain ⟨hne, hblank⟩ := h.1 hspace
      exact hpiece.blanks hblank (List.forall_mem_singleton.2 rfl) hne (List.cons_ne_nil _ _)
    · exact hpiece.append _

/-- Spaces for white space tokens are blank. -/
theorem isBlank_of_mem_spaced {piece : List Standing}
    (h : ∀ s ∈ piece, s.lexeme.isSpace = true) :
    ∀ c ∈ piece.flatMap (·.lexeme.spaced), Text.isBlank c = true := by
  intro c hc
  obtain ⟨s, hs, hc⟩ := List.mem_flatMap.1 hc
  rw [Lexeme.spaced, if_pos (h s hs), List.mem_singleton] at hc
  rw [hc]
  decide

/-- Collapsing white space takes the white space tokens away that do not count. -/
theorem collapse_text {piece : List Standing}
    (h : ∀ s ∈ piece, s.lexeme.isSpace = true →
      s.lexeme.text ≠ [] ∧ ∀ c ∈ s.lexeme.text, Text.isBlank c = true) :
    Text.collapse (Standing.text piece) = Text.collapse (Standing.spacedText piece) := by
  let inner := piece.dropWhile (·.lexeme.isSpace)
  have hfirst : piece = piece.takeWhile (·.lexeme.isSpace) ++ inner :=
    List.takeWhile_append_dropWhile.symm
  have hlast : inner =
      inner.rdropWhile (·.lexeme.isSpace) ++ inner.rtakeWhile (·.lexeme.isSpace) :=
    List.rdropWhile_append_rtakeWhile.symm
  rw [Text.collapse, (alike_text h).words, Text.collapse, Standing.spacedText]
  refine congrArg _ ?_
  calc Text.wordChars (piece.flatMap (·.lexeme.spaced))
      = Text.wordChars (inner.flatMap (·.lexeme.spaced)) := by
        rw [hfirst, List.flatMap_append, Text.wordChars_append_of_blank]
        exact isBlank_of_mem_spaced fun s hs =>
          List.mem_takeWhile_imp (p := fun s : Standing => s.lexeme.isSpace) hs
    _ = Text.wordChars ((inner.rdropWhile (·.lexeme.isSpace)).flatMap (·.lexeme.spaced)) := by
        conv_lhs => rw [hlast, List.flatMap_append]
        exact Text.wordChars_append_blanks _ <| isBlank_of_mem_spaced fun s hs =>
          List.mem_rtakeWhile_imp (p := fun s : Standing => s.lexeme.isSpace) hs

/-! ## Splitting -/

/-- The tokens of a piece are tokens of the text. -/
theorem mem_of_mem_splitOnP {α : Type} {p : α → Bool} {l piece : List α} {a : α}
    (hpiece : piece ∈ l.splitOnP p) (ha : a ∈ piece) : a ∈ l := by
  induction l generalizing piece with
  | nil =>
    rw [List.splitOnP_nil, List.mem_singleton] at hpiece
    exact absurd (hpiece ▸ ha) List.not_mem_nil
  | cons b l ih =>
    rw [List.splitOnP_cons_eq_if_modifyHead] at hpiece
    split at hpiece
    · rcases List.mem_cons.1 hpiece with rfl | hpiece
      · cases ha
      · exact List.mem_cons_of_mem _ (ih hpiece ha)
    · obtain ⟨first, more, hsplit⟩ := List.exists_cons_of_ne_nil (List.splitOnP_ne_nil p l)
      rw [hsplit] at hpiece
      rcases List.mem_cons.1 hpiece with rfl | hpiece
      · rcases List.mem_cons.1 ha with rfl | ha
        · exact List.mem_cons_self
        · exact List.mem_cons_of_mem _ (ih (hsplit ▸ List.mem_cons_self) ha)
      · exact List.mem_cons_of_mem _ (ih (hsplit ▸ List.mem_cons_of_mem _ hpiece) ha)

/-- Where all tokens are in step, splitting collapses the white space of the pieces. -/
theorem split_eq {text : List Char}
    (h : ∀ s ∈ standing [] (lexemes text), inStep s = true) :
    split text =
      (((((standing [] (lexemes text)).splitOnP Standing.separates).map Standing.spacedText).map
        Text.collapse).filter (· ≠ [])).map String.ofList := by
  have hpieces := pieces_eq_map_splitOnP [] text h
  rw [depthIn, List.countP_nil] at hpieces
  rw [split, hpieces, List.map_map, List.map_map]
  refine congrArg (fun ps => (List.filter _ ps).map String.ofList) ?_
  refine List.map_congr_left fun piece hpiece => collapse_text fun s hs hspace => ?_
  have hmem := lexeme_mem_of_mem_standing (mem_of_mem_splitOnP hpiece hs)
  exact isBlank_of_mem_lexemes hmem hspace

/-- Splitting is cutting at the comma tokens outside brackets, as long as no token but a string shows
the splitter quotes, commas outside brackets, or brackets that are not its own.  White space inside
strings and other tokens then has to be single spaces. -/
theorem split_eq_cut_iff {text : List Char}
    (h : ∀ s ∈ standing [] (lexemes text), inStep s = true) :
    split text = cut text ↔ ∀ e ∈ cut text, Text.collapse e.toList = e.toList := by
  rw [split_eq h]
  constructor
  · intro heq e he
    rw [← heq] at he
    obtain ⟨t, ht, rfl⟩ := List.mem_map.1 he
    obtain ⟨piece, -, rfl⟩ := List.mem_map.1 (List.mem_filter.1 ht).1
    rw [String.toList_ofList, Text.collapse_collapse]
  · intro hcollapse
    rw [cut]
    refine congrArg (fun ps => (List.filter _ ps).map String.ofList) ?_
    refine (List.map_congr_left fun t ht => ?_).trans (List.map_id _)
    by_cases hne : t = []
    · rw [hne]
      rfl
    · have hmem : String.ofList t ∈ cut text :=
        List.mem_map_of_mem (List.mem_filter.2 ⟨ht, decide_eq_true hne⟩)
      have hself := hcollapse _ hmem
      rwa [String.toList_ofList] at hself

/-- Selectors with brackets in brackets, commas in strings, and white space around tokens. -/
def nestedList : List Char :=
  ".a\\:b ,:is(nav , [title=\"x, (y\"])\n> p/* and */,, \tb".toList

theorem split_eq_cut_iff_nestedList :
    (∀ s ∈ standing [] (lexemes nestedList), inStep s = true) ∧
      (∀ e ∈ cut nestedList, Text.collapse e.toList = e.toList) ∧
      split nestedList = cut nestedList ∧
      cut nestedList = [".a\\:b", ":is(nav , [title=\"x, (y\"]) > p/* and */", "b"] := by
  have hstep : ∀ s ∈ standing [] (lexemes nestedList), inStep s = true := by decide +kernel
  have hcollapse : ∀ e ∈ cut nestedList, Text.collapse e.toList = e.toList := by decide +kernel
  exact ⟨hstep, hcollapse, (split_eq_cut_iff hstep).2 hcollapse, by decide +kernel⟩

/-- A class name with an escaped comma is split at the comma. -/
theorem split_escapedComma :
    split ".a\\,b".toList = [".a\\", "b"] ∧ cut ".a\\,b".toList = [".a\\,b"] := by
  decide +kernel

end SelectorText

end CriticalCss
