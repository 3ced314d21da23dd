import CriticalCss.Token.Block

/-!
# Texts that hold whole tokens

A calm text is made of printable ASCII characters, its strings are closed and its round brackets
balance.  Whatever follows it, if this begins with a mark that is no part of a longer token, the
tokens of the calm text are the same.

* `Leaves` says that a reader stops within the calm text; there is one lemma for each reader.
* `Nests` says how one token changes the number of open brackets.
* `stepsOver_scan` is the step: the first token of a calm text leaves a calm text.
-/

namespace CriticalCss.Token

/-! ## Calm texts -/

/-- The characters of calm texts: printable ASCII, without the marks that end declarations, the
curly and square brackets, the single quote, the backslash, and the marks that begin comments. -/
def isCalm (c : Char) : Bool :=
  0x20 ≤ c.toNat && c.toNat ≤ 0x7e &&
    !([';', '\x7b', '\x7d', '[', ']', '\'', '\\', '/', '<'].contains c)

/-- Whether strings are closed and round brackets balance, with none inside a string.  The text
begins in a string or not, and inside so many brackets. -/
def nested (quoted : Bool) (depth : Nat) : List Char → Bool
  | [] => !quoted && depth == 0
  | c :: cs =>
    if quoted then
      if c = '"' then nested false depth cs else c != '(' && c != ')' && nested true depth cs
    else if c = '"' then nested true depth cs
    else if c = '(' then nested false (depth + 1) cs
    else if c = ')' then depth != 0 && nested false (depth - 1) cs
    else nested false depth cs

/-- Whether an address without quotes begins somewhere. -/
def mentionsUrl (t : List Char) : Bool :=
  Text.contains (t.map Char.toLower) ['u', 'r', 'l', '(']

/-- A text of whole tokens that begins inside so many brackets. -/
structure Calm (depth : Nat) (t : List Char) : Prop where
  chars : ∀ c ∈ t, isCalm c = true
  nested : nested false depth t = true
  noUrl : mentionsUrl t = false

/-- The marks that end a token before them and are no part of a longer one. -/
def isBreak (c : Char) : Bool :=
  [' ', '\n', ',', ';', '\x7b', '\x7d'].contains c

/-- Characters that neither quote nor bracket. -/
def isQuiet (c : Char) : Bool :=
  c != '"' && c != '(' && c != ')'

/-- A property of calm characters can be checked one by one. -/
theorem forall_calm {p : Char → Bool}
    (h : ∀ n < 127, isCalm (Char.ofNat n) = true → p (Char.ofNat n) = true) {c : Char}
    (hc : isCalm c = true) : p c = true := by
  have hlt : c.toNat < 127 := by
    simp only [isCalm, Bool.and_eq_true, decide_eq_true_eq] at hc
    omega
  have hofNat : Char.ofNat c.toNat = c := Char.ofNat_toNat c
  have hn := h c.toNat hlt
  rw [hofNat] at hn
  exact hn hc

theorem ne_of_isCalm {c d : Char} (hc : isCalm c = true) (hd : isCalm d = false) : c ≠ d :=
  ne_of_apply_ne isCalm (by rw [hc, hd]; decide)

theorem eq_space_of_isCalm {c : Char} (hc : isCalm c = true) (hspace : isSpace c = true) :
    c = ' ' := by
  have h := forall_calm (p := fun c => !isSpace c || c == ' ') (by decide) hc
  simpa [hspace] using h

/-- What the characters of names are not. -/
theorem quiet_of_nameChar {c : Char} (h : isNameChar c = true) : isQuiet c = true := by
  have hne : ∀ d : Char, isNameChar d = false → c ≠ d := fun d hd =>
    ne_of_apply_ne isNameChar (by rw [h, hd]; decide)
  simp [isQuiet, hne '"' (by decide), hne '(' (by decide), hne ')' (by decide)]

theorem quiet_of_digit {c : Char} (h : isDigit c = true) : isQuiet c = true :=
  quiet_of_nameChar (by rw [isNameChar, h, Bool.or_true, Bool.true_or])

/-- What holds for the breaks one by one holds for all of them. -/
theorem forall_break {p : Char → Bool} (h : [' ', '\n', ',', ';', '\x7b', '\x7d'].all p = true)
    {b : Char} (hb : isBreak b = true) : p b = true := by
  rw [isBreak, List.contains_iff_mem] at hb
  exact List.all_eq_true.1 h b hb

theorem nested_append_of_quiet {v : List Char} (hv : ∀ c ∈ v, isQuiet c = true) (depth : Nat)
    (u : List Char) : nested false depth (v ++ u) = nested false depth u := by
  induction v with
  | nil => rfl
  | cons c v ih =>
    have hc := hv c List.mem_cons_self
    simp only [isQuiet, Bool.and_eq_true, bne_iff_ne, ne_eq] at hc
    rw [List.cons_append, nested]
    simp only [Bool.false_eq_true, if_false, if_neg hc.1.1, if_neg hc.1.2, if_neg hc.2]
    exact ih fun c' hc' => hv c' (List.mem_cons_of_mem _ hc')

theorem mentionsUrl_of_append {v u : List Char} (h : mentionsUrl (v ++ u) = false) :
    mentionsUrl u = false := by
  induction v with
  | nil => exact h
  | cons c v ih =>
    rw [mentionsUrl, List.cons_append, List.map_cons, Text.contains, Bool.or_eq_false_iff] at h
    exact ih h.2

/-- A later part of a calm text is calm. -/
theorem Calm.of_append {depth depth' : Nat} {v u : List Char} (h : Calm depth (v ++ u))
    (hnested : Token.nested false depth' u = true) : Calm depth' u where
  chars c hc := h.chars c (List.mem_append_right v hc)
  nested := hnested
  noUrl := mentionsUrl_of_append h.noUrl

/-! ## Readers stop within a calm text -/

/-- What is left of a text that ends with `tail` is a later part of it that ends with `tail`, and in
between stands nothing that quotes or brackets. -/
def Leaves (tail cs rest : List Char) : Prop :=
  ∃ v u, cs = v ++ (u ++ tail) ∧ rest = u ++ tail ∧ ∀ c ∈ v, isQuiet c = true

section Leaves

variable {tail cs rest rest' : List Char}

theorem Leaves.refl (u tail : List Char) : Leaves tail (u ++ tail) (u ++ tail) :=
  ⟨[], u, rfl, rfl, List.forall_mem_nil _⟩

theorem Leaves.trans (h : Leaves tail cs rest) (h' : Leaves tail rest rest') :
    Leaves tail cs rest' := by
  obtain ⟨v, u, rfl, rfl, hv⟩ := h
  obtain ⟨v', u', hrest, rfl, hv'⟩ := h'
  refine ⟨v ++ v', u', ?_, rfl, ?_⟩
  · rw [hrest, List.append_assoc]
  · intro c hc
    rcases List.mem_append.1 hc with hc | hc
    · exact hv c hc
    · exact hv' c hc

theorem Leaves.cons {c : Char} (hc : isQuiet c = true) (h : Leaves tail cs rest) :
    Leaves tail (c :: cs) rest := by
  obtain ⟨v, u, rfl, rfl, hv⟩ := h
  refine ⟨c :: v, u, rfl, rfl, ?_⟩
  intro c' hc'
  rcases List.mem_cons.1 hc' with rfl | hc'
  · exact hc
  · exact hv c' hc'

/-- What is left stands before the tail, too. -/
theorem Leaves.exists_eq (h : Leaves tail cs rest) : ∃ u, rest = u ++ tail := by
  obtain ⟨_, u, -, hu, -⟩ := h
  exact ⟨u, hu⟩

/-- The text before the tail falls into two parts. -/
theorem Leaves.exists_append {t : List Char} (h : Leaves tail (t ++ tail) rest) :
    ∃ v u, t = v ++ u ∧ rest = u ++ tail ∧ ∀ c ∈ v, isQuiet c = true := by
  obtain ⟨v, u, hcs, hrest, hv⟩ := h
  rw [← List.append_assoc] at hcs
  exact ⟨v, u, List.append_cancel_right hcs, hrest, hv⟩

end Leaves

variable {t more : List Char} {b : Char}

/-- A character that is no break is in the text before the break. -/
theorem exists_eq_cons (hb : isBreak b = true) {c : Char} (hc : isBreak c = false) {cs : List Char}
    (h : t ++ b :: more = c :: cs) : ∃ t', t = c :: t' ∧ cs = t' ++ b :: more := by
  cases t with
  | nil =>
    rw [List.nil_append, List.cons.injEq] at h
    rw [h.1, hc] at hb
    cases hb
  | cons d t' =>
    rw [List.cons_append, List.cons.injEq] at h
    obtain ⟨rfl, rfl⟩ := h
    exact ⟨t', rfl, rfl⟩

/-- A name ends before what is no part of it. -/
theorem takeName_append {v rest : List Char}
    (hv : ∀ c ∈ v, isNameChar c = true ∧ c.toNat ≠ 0)
    (hrest : ∀ c ∈ rest.head?, isNameChar c = false ∧ c ≠ '\\') :
    takeName (v ++ rest) = (v, rest) := by
  induction v with
  | nil =>
    cases rest with
    | nil => rw [List.nil_append, takeName]
    | cons c rest =>
      obtain ⟨hc, hne⟩ := hrest c rfl
      rw [List.nil_append, takeName]
      simp [hc, hne]
  | cons c v ih =>
    obtain ⟨hc, hzero⟩ := hv c List.mem_cons_self
    have hvisible : visible c = c := if_neg hzero
    rw [List.cons_append, takeName, if_pos hc, ih fun c' hc' => hv c' (List.mem_cons_of_mem _ hc'),
      hvisible]

/-- A break is no part of a name. -/
theorem not_nameChar_of_isBreak (hb : isBreak b = true) : isNameChar b = false ∧ b ≠ '\\' := by
  have h := forall_break (p := fun b => !isNameChar b && b != '\\') (by decide) hb
  simpa using h

/-- A calm character is no backslash and not the zero character. -/
theorem ne_backslash_of_isCalm {c : Char} (hc : isCalm c = true) : c ≠ '\\' ∧ c.toNat ≠ 0 := by
  have h := forall_calm (p := fun c => c != '\\' && c.toNat != 0) (by decide) hc
  simpa using h

variable (more)

/-- A name in a calm text. -/
theorem takeName_of_isCalm (ht : ∀ c ∈ t, isCalm c = true) (hb : isBreak b = true) :
    ∃ v u, t = v ++ u ∧ takeName (t ++ b :: more) = (v, u ++ b :: more) ∧
      ∀ c ∈ v, isNameChar c = true := by
  induction t with
  | nil =>
    refine ⟨[], [], rfl, ?_, List.forall_mem_nil _⟩
    refine takeName_append (List.forall_mem_nil _) ?_
    intro c hc
    cases hc
    exact not_nameChar_of_isBreak hb
  | cons c t ih =>
    obtain ⟨hne, hzero⟩ := ne_backslash_of_isCalm (ht c List.mem_cons_self)
    by_cases hc : isNameChar c = true
    · obtain ⟨v, u, rfl, hname, hv⟩ := ih fun c' hc' => ht c' (List.mem_cons_of_mem _ hc')
      have hvisible : visible c = c := if_neg hzero
      refine ⟨c :: v, u, rfl, ?_, ?_⟩
      · rw [List.cons_append, takeName, if_pos hc, hname, hvisible]
      · intro c' hc'
        rcases List.mem_cons.1 hc' with rfl | hc'
        · exact hc
        · exact hv c' hc'
    · refine ⟨[], c :: t, rfl, ?_, List.forall_mem_nil _⟩
      rw [List.cons_append, takeName]
      simp [hc, hne]

theorem takeName_leaves (ht : ∀ c ∈ t, isCalm c = true) (hb : isBreak b = true) :
    Leaves (b :: more) (t ++ b :: more) (takeName (t ++ b :: more)).2 := by
  obtain ⟨v, u, rfl, hname, hv⟩ := takeName_of_isCalm more ht hb
  rw [hname, List.append_assoc]
  exact ⟨v, u, rfl, rfl, fun c hc => quiet_of_nameChar (hv c hc)⟩

theorem takeDigits_leaves (t : List Char) (hb : isBreak b = true) :
    Leaves (b :: more) (t ++ b :: more) (takeDigits (t ++ b :: more)).2 := by
  have hdigit : ∀ c, Text.digit? c = none ∨ isDigit c = true := by
    intro c
    by_cases hc : '0' ≤ c ∧ c ≤ '9'
    · exact .inr (by simpa [isDigit] using hc)
    · exact .inl (if_neg hc)
  induction t with
  | nil =>
    have hnone : Text.digit? b = none := by
      have h := forall_break (p := fun b => Text.digit? b == none) (by decide) hb
      simpa using h
    rw [List.nil_append, takeDigits, hnone]
    exact .refl [] _
  | cons c t ih =>
    rw [List.cons_append, takeDigits]
    cases hc : Text.digit? c with
    | none => exact .refl (c :: t) _
    | some d =>
      have hd : isDigit c = true := by
        rcases hdigit c with hnone | hd
        · rw [hc] at hnone
          cases hnone
        · exact hd
      exact .cons (quiet_of_digit hd) ih

theorem takeSign_leaves (t : List Char) (hb : isBreak b = true) :
    Leaves (b :: more) (t ++ b :: more) (takeSign (t ++ b :: more)).2.2 := by
  generalize hcs : t ++ b :: more = cs
  unfold takeSign
  split
  · obtain ⟨t', rfl, rfl⟩ := exists_eq_cons hb (by decide) hcs
    exact .cons (by decide) (.refl t' _)
  · obtain ⟨t', rfl, rfl⟩ := exists_eq_cons hb (by decide) hcs
    exact .cons (by decide) (.refl t' _)
  · rw [← hcs]
    exact .refl t _

theorem takeFraction_leaves (t : List Char) (hb : isBreak b = true) :
    Leaves (b :: more) (t ++ b :: more) (takeFraction (t ++ b :: more)).2 := by
  generalize hcs : t ++ b :: more = cs
  unfold takeFraction
  split
  · next c cs' =>
    obtain ⟨t', rfl, hcs'⟩ := exists_eq_cons hb (by decide) hcs
    rw [hcs']
    split
    · exact .cons (by decide) (takeDigits_leaves more t' hb)
    · exact .refl ('.' :: t') _
  · rw [← hcs]
    exact .refl t _

theorem takeExponent_leaves (t : List Char) (hb : isBreak b = true) :
    Leaves (b :: more) (t ++ b :: more) (takeExponent (t ++ b :: more)).2 := by
  cases t with
  | nil =>
    have h := forall_break (p := fun b => !(b == 'e' || b == 'E')) (by decide) hb
    rw [Bool.not_eq_true'] at h
    simp only [List.nil_append, takeExponent, h, Bool.false_eq_true, if_false]
    exact .refl [] _
  | cons e t =>
    rw [List.cons_append, takeExponent]
    split
    · next he =>
      have hquiet : isQuiet e = true := by
        rcases (by simpa using he : e = 'e' ∨ e = 'E') with rfl | rfl <;> decide
      obtain ⟨u, hu⟩ := (takeSign_leaves more t hb).exists_eq
      have hdigits := takeDigits_leaves more u hb
      rw [← hu] at hdigits
      simp only
      split
      · exact .refl (e :: t) _
      · next hds =>
        rw [hds] at hdigits
        exact .cons hquiet ((takeSign_leaves more t hb).trans hdigits)
    · exact .refl (e :: t) _

theorem takeNumeral_leaves (t : List Char) (hb : isBreak b = true) :
    Leaves (b :: more) (t ++ b :: more) (takeNumeral (t ++ b :: more)).2 := by
  have hsign := takeSign_leaves more t hb
  obtain ⟨u₁, h₁⟩ := hsign.exists_eq
  have hwhole := takeDigits_leaves more u₁ hb
  rw [← h₁] at hwhole
  obtain ⟨u₂, h₂⟩ := hwhole.exists_eq
  have hfraction := takeFraction_leaves more u₂ hb
  rw [← h₂] at hfraction
  obtain ⟨u₃, h₃⟩ := hfraction.exists_eq
  have hexponent := takeExponent_leaves more u₃ hb
  rw [← h₃] at hexponent
  exact ((hsign.trans hwhole).trans hfraction).trans hexponent

/-! ## The first token of a calm text -/

/-- How a token changes the number of round brackets that are open. -/
inductive Nests (depth : Nat) (token : Token) : Nat → Prop where
  | same (opens : token.opens? = none) (closes : token.closes? = none) : Nests depth token depth
  | deeper (opens : token.opens? = some .round) (closes : token.closes? = none) :
    Nests depth token (depth + 1)
  | back {depth' : Nat} (opens : token.opens? = none) (closes : token.closes? = some .round)
    (outer : depth = depth' + 1) : Nests depth token depth'

/-- A token was read at the start of a calm text, and what is left of the text is calm. -/
def StepsOver (depth : Nat) (t tail : List Char) (scanned : Option (Token × List Char)) : Prop :=
  ∃ token u depth', scanned = some (token, u ++ tail) ∧ u.length < t.length ∧ Calm depth' u ∧
    Nests depth token depth'

/-- Readers that stop within the text step over a token that is no bracket. -/
theorem stepsOver_of_leaves {depth : Nat} {tail rest : List Char} {token : Token}
    (h : Calm depth t) (hleaves : Leaves tail (t ++ tail) rest)
    (hlt : rest.length < (t ++ tail).length) (hopens : token.opens? = none)
    (hcloses : token.closes? = none) : StepsOver depth t tail (some (token, rest)) := by
  obtain ⟨v, u, rfl, rfl, hv⟩ := hleaves.exists_append
  have hnested := h.nested
  rw [nested_append_of_quiet hv] at hnested
  refine ⟨token, u, depth, rfl, ?_, h.of_append hnested, .same hopens hcloses⟩
  simpa using hlt

theorem scanHash_spec (ht : ∀ c ∈ t, isCalm c = true) (hb : isBreak b = true) :
    Leaves (b :: more) (t ++ b :: more) (scanHash (t ++ b :: more)).2 ∧
      (scanHash (t ++ b :: more)).1.opens? = none ∧
      (scanHash (t ++ b :: more)).1.closes? = none := by
  have hname := takeName_leaves more ht hb
  have hrefl := Leaves.refl t (b :: more)
  unfold scanHash
  simp only
  split
  · exact ⟨hname, rfl, rfl⟩
  · split
    · split
      · exact ⟨hname, rfl, rfl⟩
      · exact ⟨hrefl, rfl, rfl⟩
    · exact ⟨hrefl, rfl, rfl⟩

theorem scanNumber_spec (ht : ∀ c ∈ t, isCalm c = true) (hb : isBreak b = true) :
    Leaves (b :: more) (t ++ b :: more) (scanNumber (t ++ b :: more)).2 ∧
      (scanNumber (t ++ b :: more)).1.opens? = none ∧
      (scanNumber (t ++ b :: more)).1.closes? = none := by
  have hnumeral := takeNumeral_leaves more t hb
  obtain ⟨v, u, hsplit, hrest, -⟩ := hnumeral.exists_append
  unfold scanNumber
  simp only
  split
  · next after hafter =>
    obtain ⟨u', rfl, rfl⟩ := exists_eq_cons hb (by decide) (hrest.symm.trans hafter)
    refine ⟨hnumeral.trans ?_, rfl, rfl⟩
    rw [hafter]
    exact .cons (by decide) (.refl u' _)
  · split
    · refine ⟨hnumeral.trans ?_, rfl, rfl⟩
      rw [hrest]
      exact takeName_leaves more (fun c hc => ht c (hsplit ▸ List.mem_append_right v hc)) hb
    · exact ⟨hnumeral, rfl, rfl⟩

variable {more}

/-- Marks that are no breaks stand before the break. -/
theorem leaves_of_marks (marks : List Char) {cs : List Char} (hb : isBreak b = true)
    (hmarks : marks.all (fun c => isQuiet c && !isBreak c) = true)
    (h : t ++ b :: more = marks ++ cs) : Leaves (b :: more) (t ++ b :: more) cs := by
  induction marks generalizing t with
  | nil =>
    have hcs : cs = t ++ b :: more := h.symm
    rw [hcs]
    exact .refl t _
  | cons c marks ih =>
    simp only [List.all_cons, Bool.and_eq_true, Bool.not_eq_true'] at hmarks
    obtain ⟨t', rfl, ht'⟩ := exists_eq_cons hb hmarks.1.2 h
    exact .cons hmarks.1.1 (ih hmarks.2 ht'.symm)

/-- The marks of a calm text: round brackets, and marks that are no bracket. -/
theorem stepsOver_of_scanMark {depth : Nat} {c : Char} (h : Calm depth (c :: t))
    (hb : isBreak b = true) {marked : Token × List Char}
    (hmark : scanMark (c :: t ++ b :: more) = some marked) :
    StepsOver depth (c :: t) (b :: more) (some marked) := by
  have hchar := h.chars c List.mem_cons_self
  have hnested := h.nested
  obtain ⟨token, rest⟩ := marked
  obtain ⟨chars, hmem, hcs⟩ := exists_mark_of_scanMark hmark
  -- a mark is made of quiet characters and no bracket, or it is a single character
  have hcases : ∀ m ∈ marks,
      (m.1.all (fun c => isQuiet c && !isBreak c) = true ∧ m.2.opens? = none ∧
        m.2.closes? = none) ∨ m.1.head?.any (fun c => !isCalm c) = true ∨
        m = (['('], .opening .round) ∨ m = ([')'], .closing .round) ∨ m = ([','], .comma) := by
    decide
  rcases hcases _ hmem with ⟨hall, hopens, hcloses⟩ | hd | hd | hd | hd
  · exact stepsOver_of_leaves h (leaves_of_marks chars hb hall hcs) (Scanned.mark hmem hcs).length_lt
      hopens hcloses
  · cases chars with
    | nil => cases hd
    | cons d chars =>
      rw [← (List.cons.inj hcs).1, List.head?_cons, Option.any_some, hchar] at hd
      cases hd
  · cases hd
    obtain ⟨rfl, rfl⟩ := List.cons.inj hcs
    exact ⟨_, t, depth + 1, rfl, Nat.lt_succ_self _, h.of_append (v := ['(']) hnested,
      .deeper rfl rfl⟩
  · cases hd
    obtain ⟨rfl, rfl⟩ := List.cons.inj hcs
    have hinner : depth ≠ 0 ∧ nested false (depth - 1) t = true := by
      simpa [nested] using hnested
    exact ⟨_, t, depth - 1, rfl, Nat.lt_succ_self _, h.of_append (v := [')']) hinner.2,
      .back rfl rfl (Nat.sub_add_cancel (Nat.pos_of_ne_zero hinner.1)).symm⟩
  · cases hd
    obtain ⟨rfl, rfl⟩ := List.cons.inj hcs
    exact ⟨_, t, depth, rfl, Nat.lt_succ_self _, h.of_append (v := [',']) hnested, .same rfl rfl⟩

/-- What follows the name of a text that mentions no address is no address. -/
theorem not_sameLetters_url {v u : List Char} (h : mentionsUrl (v ++ '(' :: u) = false) :
    Text.sameLetters (String.ofList v) "url" = false := by
  refine Bool.eq_false_iff.2 fun hsame => ?_
  have hlower : v.map Char.toLower = ['u', 'r', 'l'] := by
    have heq := congrArg String.toList (beq_iff_eq.1 hsame)
    simpa [Text.lower] using heq
  rw [mentionsUrl, List.map_append, hlower, List.map_cons] at h
  simp [Text.contains] at h

/-- A name in a calm text, with the bracket after it if there is one. -/
theorem stepsOver_of_scanName {depth : Nat} (h : Calm depth t) (hb : isBreak b = true)
    (hname : startsName (t ++ b :: more) = true) :
    StepsOver depth t (b :: more) (some (scanName (t ++ b :: more))) := by
  obtain ⟨v, u, rfl, htake, hv⟩ := takeName_of_isCalm more h.chars hb
  have hquiet : ∀ c ∈ v, isQuiet c = true := fun c hc => quiet_of_nameChar (hv c hc)
  have hnested := h.nested
  rw [nested_append_of_quiet hquiet] at hnested
  have hlt := takeName_length_lt hname
  unfold scanName
  simp only [htake]
  rw [htake] at hlt
  split
  · next inner hinner =>
    obtain ⟨u', rfl, rfl⟩ := exists_eq_cons hb (by decide) hinner
    have hurl := not_sameLetters_url h.noUrl
    rw [hurl]
    refine ⟨_, u', depth + 1, rfl, ?_, ?_, .deeper rfl rfl⟩
    · rw [List.length_append, List.length_cons]
      omega
    · rw [← List.singleton_append, ← List.append_assoc] at h
      exact h.of_append hnested
  · refine ⟨_, u, depth, rfl, ?_, h.of_append hnested, .same rfl rfl⟩
    simpa using hlt

/-- A string in a calm text ends within it. -/
theorem takeString_of_nested {depth : Nat} (ht : ∀ c ∈ t, isCalm c = true)
    (hnested : nested true depth t = true) (tail : List Char) :
    ∃ s u, t = s ++ '"' :: u ∧ takeString '"' (t ++ tail) = (s, .closed, u ++ tail) ∧
      nested false depth u = true := by
  induction t with
  | nil => cases hnested
  | cons c t ih =>
    rw [nested, if_pos rfl] at hnested
    by_cases hc : c = '"'
    · subst hc
      rw [if_pos rfl] at hnested
      refine ⟨[], t, rfl, ?_, hnested⟩
      unfold takeString
      exact if_pos rfl
    · rw [if_neg hc, Bool.and_eq_true] at hnested
      obtain ⟨s, u, rfl, hstring, hu⟩ :=
        ih (fun c' hc' => ht c' (List.mem_cons_of_mem _ hc')) hnested.2
      have hchar := ht c List.mem_cons_self
      have hnewline : isNewline c = false := by
        have h := forall_calm (p := fun c => !isNewline c) (by decide) hchar
        simpa using h
      obtain ⟨hback, hzero⟩ := ne_backslash_of_isCalm hchar
      have hvisible : visible c = c := if_neg hzero
      refine ⟨c :: s, u, rfl, ?_, hu⟩
      unfold takeString
      simp only [List.cons_append, if_neg hc, hnewline, Bool.false_eq_true, if_false, if_neg hback,
        hstring, hvisible]

/-- A string in a calm text, after its opening quote. -/
theorem stepsOver_of_scanString {depth : Nat} (h : Calm depth ('"' :: t)) (tail : List Char) :
    StepsOver depth ('"' :: t) tail (some (scanString '"' (t ++ tail))) := by
  have ht : ∀ c ∈ t, isCalm c = true := fun c hc => h.chars c (List.mem_cons_of_mem _ hc)
  obtain ⟨s, u, rfl, hstring, hu⟩ := takeString_of_nested ht h.nested tail
  unfold scanString
  simp only [hstring]
  refine ⟨_, u, depth, rfl, ?_, ?_, .same rfl rfl⟩
  · rw [List.length_cons, List.length_append, List.length_cons]
    omega
  · have hsplit : '"' :: (s ++ '"' :: u) = ('"' :: (s ++ ['"'])) ++ u := by simp
    rw [hsplit] at h
    exact h.of_append hu

/-- The step: the first token of a calm text leaves a calm text. -/
theorem stepsOver_scan (more : List Char) {depth : Nat} {c : Char} (h : Calm depth (c :: t))
    (hspace : c ≠ ' ') (hb : isBreak b = true) :
    StepsOver depth (c :: t) (b :: more) (scan (c :: t ++ b :: more)) := by
  have hchar := h.chars c List.mem_cons_self
  have htail : ∀ d ∈ t, isCalm d = true := fun d hd => h.chars d (List.mem_cons_of_mem _ hd)
  have hnospace : isSpace c = false :=
    Bool.eq_false_iff.2 fun hc => hspace (eq_space_of_isCalm hchar hc)
  have hmore : ∀ {rest : List Char} {token : Token}, isQuiet c = true →
      Leaves (b :: more) (t ++ b :: more) rest → token.opens? = none → token.closes? = none →
      StepsOver depth (c :: t) (b :: more) (some (token, rest)) := by
    intro rest token hc hleaves hopens hcloses
    refine stepsOver_of_leaves h (.cons hc hleaves) ?_ hopens hcloses
    obtain ⟨v, u, rfl, rfl, -⟩ := hleaves.exists_append
    simp only [List.cons_append, List.length_cons, List.length_append]
    omega
  rw [List.cons_append, scan, hnospace, if_neg (by decide)]
  by_cases hquote : c = '"' ∨ c = '\''
  · rw [if_pos hquote]
    rcases hquote with rfl | rfl
    · exact stepsOver_of_scanString h _
    · exact absurd hchar (by decide)
  rw [if_neg hquote]
  by_cases hhash : c = '#'
  · subst hhash
    obtain ⟨hleaves, hopens, hcloses⟩ := scanHash_spec more htail hb
    rw [if_pos rfl]
    exact hmore (by decide) hleaves hopens hcloses
  rw [if_neg hhash]
  by_cases hnumber : startsNumber (c :: (t ++ b :: more)) = true
  · rw [if_pos hnumber]
    obtain ⟨hleaves, hopens, hcloses⟩ := scanNumber_spec more h.chars hb
    exact stepsOver_of_leaves h hleaves (scanned_scanNumber hnumber).length_lt hopens hcloses
  rw [if_neg hnumber]
  cases hmark : scanMark (c :: (t ++ b :: more)) with
  | some marked => exact stepsOver_of_scanMark h hb hmark
  | none =>
    have hcomment : ¬ (c = '/' ∧ (t ++ b :: more).head? = some '*') := by
      rintro ⟨rfl, -⟩
      exact absurd hchar (by decide)
    have hquiet : isQuiet c = true := by
      have hround : c ≠ '(' ∧ c ≠ ')' := by
        constructor <;> (rintro rfl; cases hmark)
      simp [isQuiet, hround, (not_or.1 hquote).1]
    simp only [if_neg hcomment]
    by_cases hat : c = '@' ∧ startsName (t ++ b :: more) = true
    · rw [if_pos hat]
      exact hmore hquiet (takeName_leaves more htail hb) rfl rfl
    rw [if_neg hat]
    by_cases hname : startsName (c :: (t ++ b :: more)) = true
    · rw [if_pos hname]
      exact stepsOver_of_scanName h hb hname
    · rw [if_neg hname]
      exact hmore hquiet (.refl t _) rfl rfl

end CriticalCss.Token
