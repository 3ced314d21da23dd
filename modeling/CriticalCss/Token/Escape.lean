import CriticalCss.Text.Letter

/-!
# Character classes and escapes of style sheet text

An escape is a backslash followed by up to six hexadecimal digits and one optional white space
character, or by any other character, which then stands for itself.  `takeEscape` reads what
follows the backslash.  `takeName` reads the characters of a name.  Neither ever returns more
text than it was given.
-/

namespace CriticalCss.Token

/-- The characters that end a line. -/
def isNewline (c : Char) : Bool :=
  c == '\n' || c == '\r' || c == '\x0c'

/-- White space of the syntax. -/
def isSpace (c : Char) : Bool :=
  c == ' ' || c == '\t' || isNewline c

/-- A decimal digit. -/
def isDigit (c : Char) : Bool :=
  '0' ≤ c && c ≤ '9'

/-- Letters, the underscore, the zero character and everything outside ASCII. -/
def isNameStart (c : Char) : Bool :=
  c.isAlpha || c == '_' || c.toNat == 0 || 0x80 ≤ c.toNat

/-- The characters of a name. -/
def isNameChar (c : Char) : Bool :=
  isNameStart c || isDigit c || c == '-'

/-- Whether a line ends here. -/
def atNewline : List Char → Bool
  | [] => false
  | c :: _ => isNewline c

/-- Whether a name begins here. -/
def startsName : List Char → Bool
  | [] => false
  | '-' :: c :: _ => isNameStart c || c == '-' || c == '\\'
  | '\\' :: cs => !atNewline cs
  | c :: _ => isNameStart c

/-- Drops one line end; a carriage return and the line feed after it are one. -/
def dropNewline : List Char → List Char
  | '\r' :: '\n' :: cs => cs
  | _ :: cs => cs
  | [] => []

/-- Drops one white space character, if there is one. -/
def dropSpace : List Char → List Char
  | [] => []
  | c :: cs => if isNewline c then dropNewline (c :: cs) else if isSpace c then cs else c :: cs

/-- The zero character stands for the replacement character. -/
def visible (c : Char) : Char :=
  if c.toNat = 0 then '\uFFFD' else c

/-- The character an escape stands for, and the text after it. -/
def takeEscape (cs : List Char) : Char × List Char :=
  match (cs.take 6).map Text.hexDigit? |>.takeWhile Option.isSome with
  | [] =>
    match cs with
    | [] => ('\uFFFD', [])
    | c :: rest => (visible c, rest)
  | digits =>
    let n := Text.ofDigits 16 (digits.filterMap id)
    (if n = 0 then '\uFFFD' else Text.scalarOr n, dropSpace (cs.drop digits.length))

/-! ## What is left is a suffix -/

theorem dropNewline_suffix (cs : List Char) : dropNewline cs <:+ cs := by
  unfold dropNewline
  split
  · exact (List.suffix_cons _ _).trans (List.suffix_cons _ _)
  · exact List.suffix_cons _ _
  · exact List.suffix_rfl

theorem dropSpace_suffix (cs : List Char) : dropSpace cs <:+ cs := by
  unfold dropSpace
  split
  · exact List.suffix_rfl
  · split
    · exact dropNewline_suffix _
    · split
      · exact List.suffix_cons _ _
      · exact List.suffix_rfl

theorem takeEscape_suffix (cs : List Char) : (takeEscape cs).2 <:+ cs := by
  unfold takeEscape
  split
  · split
    · exact List.suffix_rfl
    · exact List.suffix_cons _ _
  · exact (dropSpace_suffix _).trans (List.drop_suffix _ _)

/-! ## Names -/

/-- The characters of a name with its escapes resolved, and the text after it. -/
def takeName : List Char → List Char × List Char
  | [] => ([], [])
  | c :: cs =>
    if isNameChar c then
      let (name, rest) := takeName cs
      (visible c :: name, rest)
    else if c == '\\' && !atNewline cs then
      let e := takeEscape cs
      let (name, rest) := takeName e.2
      (e.1 :: name, rest)
    else ([], c :: cs)
termination_by cs => cs.length
decreasing_by
  · simp
  · have := (takeEscape_suffix cs).length_le
    simp; omega

theorem takeName_nil : takeName [] = ([], []) := by
  rw [takeName]

theorem takeName_cons {c : Char} (hc : isNameChar c = true) (cs : List Char) :
    takeName (c :: cs) = (visible c :: (takeName cs).1, (takeName cs).2) := by
  rw [takeName, if_pos hc]

theorem takeName_escape {cs : List Char} (hline : atNewline cs = false) :
    takeName ('\\' :: cs) =
      ((takeEscape cs).1 :: (takeName (takeEscape cs).2).1, (takeName (takeEscape cs).2).2) := by
  rw [takeName, if_neg (by decide), if_pos (by rw [hline]; rfl)]

theorem takeName_stop {c : Char} {cs : List Char} (hc : isNameChar c = false)
    (hback : c = '\\' → atNewline cs = true) : takeName (c :: cs) = ([], c :: cs) := by
  rw [takeName, if_neg (by simp [hc]), if_neg (by simpa using hback)]

/-- What holds of every text that a name is read from: the name goes on with a character or with an
escape, or it stops. -/
@[elab_as_elim]
theorem takeName_induction {motive : List Char → Prop} (nil : motive [])
    (char : ∀ c cs, isNameChar c = true → motive cs → motive (c :: cs))
    (escape : ∀ cs, atNewline cs = false → motive (takeEscape cs).2 → motive ('\\' :: cs))
    (stop : ∀ c cs, isNameChar c = false → (c = '\\' → atNewline cs = true) → motive (c :: cs)) :
    ∀ cs, motive cs
  | [] => nil
  | c :: cs => by
    by_cases hc : isNameChar c = true
    · exact char c cs hc (takeName_induction nil char escape stop cs)
    by_cases hback : c = '\\' ∧ atNewline cs = false
    · obtain ⟨rfl, hline⟩ := hback
      exact escape cs hline (takeName_induction nil char escape stop (takeEscape cs).2)
    · exact stop c cs (Bool.eq_false_iff.2 hc) fun heq => by simpa [heq] using hback
termination_by cs => cs.length
decreasing_by
  · simp
  · have := (takeEscape_suffix cs).length_le
    simp; omega

theorem takeName_suffix (cs : List Char) : (takeName cs).2 <:+ cs := by
  induction cs using takeName_induction with
  | nil => simp only [takeName_nil, List.suffix_rfl]
  | char c cs hc ih =>
    rw [takeName_cons hc]
    exact ih.trans (List.suffix_cons c cs)
  | escape cs hline ih =>
    rw [takeName_escape hline]
    exact (ih.trans (takeEscape_suffix cs)).trans (List.suffix_cons _ cs)
  | stop c cs hc hback => simp only [takeName_stop hc hback, List.suffix_rfl]

/-- A name takes at least one character wherever one begins. -/
theorem takeName_length_lt {cs : List Char} (h : startsName cs = true) :
    (takeName cs).2.length < cs.length := by
  induction cs using takeName_induction with
  | nil => cases h
  | char c cs hc =>
    rw [takeName_cons hc]
    exact Nat.lt_succ_of_le (takeName_suffix cs).length_le
  | escape cs hline =>
    rw [takeName_escape hline]
    exact Nat.lt_succ_of_le ((takeName_suffix _).trans (takeEscape_suffix cs)).length_le
  | stop c cs hc hback =>
    have hstart : isNameStart c = false ∧ c ≠ '-' := by
      simp only [isNameChar, Bool.or_eq_false_iff, beq_eq_false_iff_ne] at hc
      exact ⟨hc.1.1, hc.2⟩
    unfold startsName at h
    split at h
    · next heq => cases heq
    · next heq => exact absurd (List.cons.inj heq).1 hstart.2
    · next heq =>
      obtain ⟨hc, hcs⟩ := List.cons.inj heq
      rw [← hcs, hback hc] at h
      cases h
    · next heq =>
      rw [← (List.cons.inj heq).1, hstart.1] at h
      cases h

end CriticalCss.Token
