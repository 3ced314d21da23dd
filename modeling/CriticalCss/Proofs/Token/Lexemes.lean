import CriticalCss.Proofs.Token.Forming
import CriticalCss.Token.Block
import Mathlib.Data.List.TakeWhile

/-!
# Tokens with their text

A token does not tell how it is written: names and strings stand with their escapes resolved.  A
`Lexeme` is a token together with the part of the text that it is read from.

* `flatMap_text_lexemes`: the lexemes of a text make up the text.
* `standsIn_of_scan` tells from a token what it is written with.
* `exists_takeEscape` tells what an escape is written with.
-/

namespace CriticalCss

/-- A token with the characters it is written with. -/
structure Lexeme where
  token : Token
  text : List Char
deriving DecidableEq

namespace Token

/-- The part before a suffix. -/
theorem between_append_suffix {start rest : List Char} (h : rest <:+ start) :
    between start rest ++ rest = start := by
  obtain ⟨front, rfl⟩ := h
  simp [between]

/-- The tokens of a text, each with its part of the text. -/
def lexemes (cs : List Char) : List Lexeme :=
  match _h : scan cs with
  | none => []
  | some (t, rest) => ⟨t, between cs rest⟩ :: lexemes rest
termination_by cs.length
decreasing_by exact scan_length_lt _h

theorem lexemes_nil : lexemes [] = [] := by
  rw [lexemes]
  rfl

theorem lexemes_of_scan {cs rest : List Char} {t : Token} (h : scan cs = some (t, rest)) :
    lexemes cs = ⟨t, between cs rest⟩ :: lexemes rest := by
  rw [lexemes]
  split
  · next hscan =>
    rw [h] at hscan
    cases hscan
  · next hscan =>
    rw [h] at hscan
    cases hscan
    rfl

theorem flatMap_text_lexemes (cs : List Char) : (lexemes cs).flatMap (·.text) = cs := by
  induction cs using scan_induction with
  | nil =>
    rw [lexemes_nil]
    rfl
  | token cs t rest hscan ih =>
    rw [lexemes_of_scan hscan, List.flatMap_cons, ih rest (Nat.le_refl _)]
    exact between_append_suffix (scan_suffix hscan)

theorem map_token_lexemes (cs : List Char) : (lexemes cs).map (·.token) = scanAll cs := by
  induction cs using scan_induction with
  | nil =>
    rw [lexemes_nil, scanAll_nil]
    rfl
  | token cs t rest hscan ih =>
    rw [lexemes_of_scan hscan, scanAll_of_scan hscan, List.map_cons, ih rest (Nat.le_refl _)]

/-! ## What a token is read from -/

/-- What is known of a text that begins with a token, and of what follows the token. -/
def StandsIn (cs rest : List Char) : Token → Prop
  | .space _ => ∃ w, w ≠ [] ∧ (∀ c ∈ w, isSpace c = true) ∧ cs = w ++ rest
  | .string _ => ∃ quote tail, (quote = '"' ∨ quote = '\'') ∧ cs = quote :: tail ∧
      (takeString quote tail).2 = (.closed, rest)
  | .ident name => name.toList = (takeName cs).1
  | .function name => name.toList = (takeName cs).1
  | .comment _ => cs.head? = some '/'
  | .colon => cs = ':' :: rest
  | .comma => cs = ',' :: rest
  | _ => True

theorem standsIn_of_scan {cs rest : List Char} {t : Token} (h : scan cs = some (t, rest)) :
    StandsIn cs rest t := by
  have hname {name after : List Char} (taken : takeName cs = (name, after)) :
      (String.ofList name).toList = (takeName cs).1 := by
    rw [taken, String.toList_ofList]
  cases scanned_of_scan h with
  | @space c tail space =>
    refine ⟨c :: tail.takeWhile isSpace, List.cons_ne_nil _ _, ?_, ?_⟩
    · exact List.forall_mem_cons.2 ⟨space, fun d hd => List.mem_takeWhile_imp hd⟩
    · rw [List.cons_append, List.takeWhile_append_dropWhile]
  | string quotes taken => exact ⟨_, _, quotes, rfl, congrArg Prod.snd taken⟩
  | mark mem text =>
    have hmarks : ∀ m ∈ marks, cs = m.1 ++ rest → StandsIn cs rest m.2 := by
      simp +contextual [marks, StandsIn]
    exact hmarks _ mem text
  | comment => exact rfl
  | ident starts taken => exact hname taken
  | function starts taken => exact hname taken
  | _ => exact trivial

/-! ## What an escape is read from -/

/-- After the first character of a line end there is nothing more of it, or one more character. -/
theorem exists_dropNewline (c : Char) (cs : List Char) :
    ∃ w, cs = w ++ dropNewline (c :: cs) ∧ ∀ d ∈ w, isSpace d = true := by
  unfold dropNewline
  split
  · next heq =>
    cases heq
    exact ⟨['\n'], rfl, List.forall_mem_singleton.2 rfl⟩
  · next heq =>
    cases heq
    exact ⟨[], rfl, nofun⟩
  · next heq => cases heq

theorem exists_dropSpace (cs : List Char) :
    ∃ w, cs = w ++ dropSpace cs ∧ ∀ c ∈ w, isSpace c = true := by
  cases cs with
  | nil => exact ⟨[], rfl, nofun⟩
  | cons c cs =>
    rw [dropSpace]
    split
    · next hc =>
      obtain ⟨w, hw, hspace⟩ := exists_dropNewline c cs
      refine ⟨c :: w, congrArg (c :: ·) hw, List.forall_mem_cons.2 ⟨?_, hspace⟩⟩
      rw [isSpace, hc, Bool.or_true]
    split
    · next hc => exact ⟨[c], rfl, by simpa using hc⟩
    · exact ⟨[], rfl, nofun⟩

/-- After its first character an escape is digits and white space. -/
theorem exists_takeEscape (d : Char) (ds : List Char) :
    ∃ u, ds = u ++ (takeEscape (d :: ds)).2 ∧
      ∀ c ∈ u, (Text.hexDigit? c).isSome = true ∨ isSpace c = true := by
  unfold takeEscape
  rw [List.takeWhile_map]
  cases hdigits : ((d :: ds).take 6).takeWhile (Option.isSome ∘ Text.hexDigit?) with
  | nil => exact ⟨[], rfl, nofun⟩
  | cons e es =>
    -- the digits are the first characters
    have hprefix : e :: es <+: d :: ds :=
      hdigits ▸ (List.takeWhile_prefix _).trans (List.take_prefix _ _)
    obtain ⟨rest, hrest⟩ := hprefix
    obtain ⟨rfl, rfl⟩ := List.cons.inj hrest
    have hdrop : (e :: (es ++ rest)).drop ((e :: es).map Text.hexDigit?).length = rest := by
      simp
    have hes : ∀ c ∈ e :: es, (Option.isSome ∘ Text.hexDigit?) c = true := fun c hc =>
      List.mem_takeWhile_imp (hdigits ▸ hc)
    obtain ⟨w, hw, hspace⟩ := exists_dropSpace rest
    refine ⟨es ++ w, ?_, fun c hc => ?_⟩
    · change es ++ rest = es ++ w ++
        dropSpace ((e :: (es ++ rest)).drop ((e :: es).map Text.hexDigit?).length)
      rw [hdrop, List.append_assoc, ← hw]
    · rcases List.mem_append.1 hc with hc | hc
      · exact .inl (hes c (List.mem_cons_of_mem _ hc))
      · exact .inr (hspace c hc)

end Token

end CriticalCss
