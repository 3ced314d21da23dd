import CriticalCss.Proofs.Token.Calm

/-!
# Skipping over texts

`closeBlocks` and `skipUntil` go over a calm text, over white space and over marks that open and
close nothing, as if these were not there.

* `ClosesOver` says so for `closeBlocks`, and `PassesOver` for both.
* `passesOver_calm` is the case of a calm text, by induction on its tokens.
-/

namespace CriticalCss.Token

/-! ## One token -/

section Step

variable {cs rest : List Char} {token : Token}

/-- A token that neither opens nor closes a block. -/
theorem closeBlocks_of_plain (h : scan cs = some (token, rest)) (hopens : token.opens? = none)
    (hcloses : token.closes? = none) (top : Bracket) (below : List Bracket) :
    closeBlocks (top :: below) cs = closeBlocks (top :: below) rest := by
  rw [closeBlocks_of_scan h, hcloses, hopens, if_neg nofun]
  rfl

/-- A token that opens a block. -/
theorem closeBlocks_of_opens (h : scan cs = some (token, rest)) {b : Bracket}
    (hopens : token.opens? = some b) (hcloses : token.closes? = none) (top : Bracket)
    (below : List Bracket) :
    closeBlocks (top :: below) cs = closeBlocks (b :: top :: below) rest := by
  rw [closeBlocks_of_scan h, hcloses, hopens, if_neg nofun]
  rfl

/-- A token that closes the innermost block. -/
theorem closeBlocks_of_closes (h : scan cs = some (token, rest)) {top : Bracket}
    (hcloses : token.closes? = some top) (below : List Bracket) :
    closeBlocks (top :: below) cs = closeBlocks below rest := by
  rw [closeBlocks_of_scan h, if_pos hcloses]

end Step

/-! ## Texts -/

/-- The marks at which skipping may be asked to stop. -/
def isStop (c : Char) : Bool :=
  [';', '\x7b', '\x7d'].contains c

/-- Closing blocks goes over a text before another one. -/
def ClosesOver (x rest : List Char) : Prop :=
  ∀ top below, closeBlocks (top :: below) (x ++ rest) = closeBlocks (top :: below) rest

/-- Closing blocks and skipping go over a text before another one. -/
structure PassesOver (x rest : List Char) : Prop where
  close : ClosesOver x rest
  skip : ∀ stops : List Char, (∀ c ∈ stops, isStop c = true) →
    skipUntil stops (x ++ rest) = skipUntil stops rest

variable {x y rest : List Char} {c : Char}

theorem ClosesOver.nil (rest : List Char) : ClosesOver [] rest :=
  fun _ _ => rfl

theorem ClosesOver.append (hx : ClosesOver x (y ++ rest)) (hy : ClosesOver y rest) :
    ClosesOver (x ++ y) rest := by
  intro top below
  rw [List.append_assoc, hx, hy]

theorem PassesOver.nil (rest : List Char) : PassesOver [] rest :=
  ⟨.nil rest, fun _ _ => rfl⟩

theorem PassesOver.append (hx : PassesOver x (y ++ rest)) (hy : PassesOver y rest) :
    PassesOver (x ++ y) rest where
  close := hx.close.append hy.close
  skip stops hstops := by rw [List.append_assoc, hx.skip stops hstops, hy.skip stops hstops]

/-- A character that begins no stop is none of the given ones. -/
theorem head?_any_of_not_isStop {stops : List Char} (hstops : ∀ c ∈ stops, isStop c = true)
    (hc : isStop c = false) (cs : List Char) : (c :: cs).head?.any stops.contains = false := by
  rw [List.head?_cons, Option.any_some, List.contains_eq_mem, decide_eq_false_iff_not]
  intro hmem
  rw [hstops c hmem] at hc
  cases hc

/-- Both go over a token that is no bracket and begins with no stop. -/
theorem PassesOver.of_scan {token : Token} (h : scan (c :: x ++ rest) = some (token, rest))
    (hopens : token.opens? = none) (hcloses : token.closes? = none) (hc : isStop c = false) :
    PassesOver (c :: x) rest where
  close := closeBlocks_of_plain h hopens hcloses
  skip stops hstops := by
    rw [skipUntil_of_scan h (head?_any_of_not_isStop hstops hc _), hopens, Option.toList_none,
      closeBlocks_nil]

/-! ## White space -/

theorem scan_space (hc : isSpace c = true) (rest : List Char) :
    scan (c :: rest) = some (.space (String.ofList (c :: rest.takeWhile isSpace)),
      rest.dropWhile isSpace) := by
  rw [scan, if_pos hc, scanSpace, List.takeWhile_cons_of_pos hc, List.dropWhile_cons_of_pos hc]

/-- What goes over a run of white space goes over its first character alone. -/
theorem eq_of_dropWhile_isSpace {α : Type} {f : List Char → α}
    (hf : ∀ c rest, isSpace c = true → f (c :: rest) = f (rest.dropWhile isSpace))
    (hc : isSpace c = true) (rest : List Char) : f (c :: rest) = f rest := by
  rw [hf c rest hc]
  cases rest with
  | nil => rfl
  | cons d rest =>
    by_cases hd : isSpace d = true
    · rw [List.dropWhile_cons_of_pos hd, hf d rest hd]
    · rw [List.dropWhile_cons_of_neg hd]

/-- White space is no stop. -/
theorem not_isStop_of_space (hc : isSpace c = true) : isStop c = false := by
  simp only [isSpace, isNewline, Bool.or_eq_true, beq_iff_eq] at hc
  rcases hc with (rfl | rfl) | (rfl | rfl) | rfl <;> decide

theorem passesOver_space (hc : isSpace c = true) (rest : List Char) : PassesOver [c] rest where
  close top below := eq_of_dropWhile_isSpace
    (fun _ rest hc => closeBlocks_of_plain (scan_space hc rest) rfl rfl top below) hc rest
  skip stops hstops := by
    refine eq_of_dropWhile_isSpace (fun d rest hd => ?_) hc rest
    have hhead := head?_any_of_not_isStop hstops (not_isStop_of_space hd) rest
    rw [skipUntil_of_scan (scan_space hd rest) hhead]
    exact congrArg _ (closeBlocks_nil _)

/-- White space of any length. -/
theorem passesOver_spaces {w : List Char} (hw : ∀ c ∈ w, isSpace c = true) (rest : List Char) :
    PassesOver w rest := by
  induction w with
  | nil => exact .nil rest
  | cons c w ih =>
    have hspaces := ih fun d hd => hw d (List.mem_cons_of_mem _ hd)
    exact .append (x := [c]) (passesOver_space (hw c List.mem_cons_self) _) hspaces

/-! ## Marks and blocks -/

theorem passesOver_comma (rest : List Char) : PassesOver [','] rest :=
  .of_scan (x := []) rfl rfl rfl rfl

theorem passesOver_colon (rest : List Char) : PassesOver [':'] rest :=
  .of_scan (x := []) rfl rfl rfl rfl

theorem closesOver_semicolon (rest : List Char) : ClosesOver [';'] rest :=
  closeBlocks_of_plain rfl rfl rfl

/-- A block is gone over if what stands in it is. -/
theorem closesOver_block (hx : ClosesOver x ('\x7d' :: rest)) :
    ClosesOver ('\x7b' :: (x ++ ['\x7d'])) rest := by
  intro top below
  rw [List.cons_append, List.append_assoc, closeBlocks_of_opens rfl rfl rfl, List.singleton_append,
    hx, closeBlocks_of_closes rfl rfl]

/-- The end of a block whose inside was gone over. -/
theorem closeBlock_of_closesOver (hx : ClosesOver x ('\x7d' :: rest)) :
    closeBlock .curly (x ++ '\x7d' :: rest) = rest := by
  rw [closeBlock, hx, closeBlocks_of_closes rfl rfl, closeBlocks_nil]

/-! ## Calm texts -/

variable {t : List Char} {b : Char} {depth : Nat}

/-- Calm characters are no stops. -/
theorem not_isStop_of_isCalm (hc : isCalm c = true) : isStop c = false := by
  have h := forall_calm (p := fun c => !isStop c) (by decide) hc
  simpa using h

/-- Induction over the tokens of a calm text, and over the characters of its white space. -/
theorem Calm.inductionOn {motive : Nat → List Char → Prop} (nil : motive 0 [])
    (space : ∀ depth t, Calm depth t → motive depth t → motive depth (' ' :: t))
    (token : ∀ depth c t, Calm depth (c :: t) → c ≠ ' ' →
      (∀ depth' u, u.length < (c :: t).length → Calm depth' u → motive depth' u) →
      motive depth (c :: t))
    (depth : Nat) (t : List Char) (h : Calm depth t) : motive depth t := by
  match t, h with
  | [], h =>
    have hdepth : depth = 0 := by simpa [Token.nested] using h.nested
    rw [hdepth]
    exact nil
  | c :: t, h =>
    by_cases hspace : c = ' '
    · subst hspace
      have hrest := h.of_append (v := [' ']) h.nested
      exact space depth t hrest (inductionOn nil space token depth t hrest)
    · exact token depth c t h hspace fun depth' u hlt hu =>
        inductionOn nil space token depth' u hu
termination_by t.length
decreasing_by
  · exact Nat.lt_succ_self _
  · exact hlt

/-- Closing the round brackets that are open, and the blocks around them, goes over a calm text. -/
theorem closeBlocks_calm (more : List Char) (h : Calm depth t) (hb : isBreak b = true)
    (top : Bracket) (below : List Bracket) :
    closeBlocks (List.replicate depth .round ++ top :: below) (t ++ b :: more) =
      closeBlocks (top :: below) (b :: more) := by
  refine Calm.inductionOn (motive := fun depth t =>
    closeBlocks (List.replicate depth .round ++ top :: below) (t ++ b :: more) =
      closeBlocks (top :: below) (b :: more)) rfl ?_ ?_ depth t h
  · intro depth t _ ih
    rw [← ih]
    cases depth with
    | zero => exact (passesOver_space rfl _).close top below
    | succ depth => exact (passesOver_space rfl _).close .round _
  · intro depth c t h hspace ih
    obtain ⟨token, u, depth', hscan, hlt, hu, hnests⟩ := stepsOver_scan more h hspace hb
    rw [← ih depth' u hlt hu]
    obtain ⟨top', below', hstack⟩ : ∃ top' below', List.replicate depth Bracket.round ++
        top :: below = top' :: below' := List.exists_cons_of_ne_nil (by simp)
    cases hnests with
    | same hopens hcloses =>
      rw [hstack]
      exact closeBlocks_of_plain hscan hopens hcloses _ _
    | deeper hopens hcloses =>
      rw [hstack, closeBlocks_of_opens hscan hopens hcloses, ← hstack]
      rfl
    | back hopens hcloses houter =>
      rw [houter, List.replicate_succ, List.cons_append]
      exact closeBlocks_of_closes hscan hcloses _

/-- Skipping goes over a calm text, once the round brackets that are open are closed. -/
theorem skipUntil_calm (more : List Char) {stops : List Char}
    (hstops : ∀ c ∈ stops, isStop c = true) (h : Calm depth t) (hb : isBreak b = true) :
    skipUntil stops (closeBlocks (List.replicate depth .round) (t ++ b :: more)) =
      skipUntil stops (b :: more) := by
  refine Calm.inductionOn (motive := fun depth t =>
    skipUntil stops (closeBlocks (List.replicate depth .round) (t ++ b :: more)) =
      skipUntil stops (b :: more)) (congrArg _ (closeBlocks_nil _)) ?_ ?_ depth t h
  · intro depth t _ ih
    rw [← ih]
    cases depth with
    | zero =>
      rw [List.replicate_zero, closeBlocks_nil, closeBlocks_nil]
      exact (passesOver_space rfl _).skip stops hstops
    | succ depth => exact congrArg _ ((passesOver_space rfl _).close .round _)
  · intro depth c t h hspace ih
    obtain ⟨token, u, depth', hscan, hlt, hu, hnests⟩ := stepsOver_scan more h hspace hb
    rw [← ih depth' u hlt hu]
    have hhead := head?_any_of_not_isStop hstops
      (not_isStop_of_isCalm (h.chars c List.mem_cons_self)) (t ++ b :: more)
    cases hnests with
    | same hopens hcloses =>
      cases depth with
      | zero =>
        rw [List.replicate_zero, closeBlocks_nil, closeBlocks_nil]
        rw [List.cons_append] at hscan ⊢
        rw [skipUntil_of_scan hscan hhead, hopens, Option.toList_none, closeBlocks_nil]
      | succ depth => exact congrArg _ (closeBlocks_of_plain hscan hopens hcloses _ _)
    | deeper hopens hcloses =>
      cases depth with
      | zero =>
        rw [List.replicate_zero, closeBlocks_nil]
        rw [List.cons_append] at hscan ⊢
        rw [skipUntil_of_scan hscan hhead, hopens]
        rfl
      | succ depth => exact congrArg _ (closeBlocks_of_opens hscan hopens hcloses _ _)
    | back hopens hcloses houter =>
      rw [houter, List.replicate_succ]
      exact congrArg _ (closeBlocks_of_closes hscan hcloses _)

/-- Both go over a calm text. -/
theorem passesOver_calm (h : Calm 0 t) (hb : isBreak b = true) (more : List Char) :
    PassesOver t (b :: more) where
  close top below := closeBlocks_calm more h hb top below
  skip stops hstops := by
    have hskip := skipUntil_calm more hstops h hb
    rwa [List.replicate_zero, closeBlocks_nil] at hskip

/-! ## Names -/

/-- Whether a text is a name that needs no escapes. -/
def isName (v : List Char) : Bool :=
  startsName v && v.all fun c => isNameChar c && c.toNat != 0

/-- How names begin. -/
theorem exists_of_isName {v : List Char} (hv : isName v = true) :
    (∃ c w, v = c :: w ∧ isNameStart c = true) ∨
      ∃ c w, v = '-' :: c :: w ∧ (isNameStart c = true ∨ c = '-') := by
  rw [isName, Bool.and_eq_true] at hv
  obtain ⟨hstart, hchars⟩ := hv
  unfold startsName at hstart
  split at hstart
  · cases hstart
  · next c w =>
    refine .inr ⟨c, w, rfl, ?_⟩
    simp only [Bool.or_eq_true, beq_iff_eq] at hstart
    rcases hstart with hstart | rfl
    · exact hstart
    · simp [isNameChar, isNameStart, isDigit] at hchars
  · simp [isNameChar, isNameStart, isDigit] at hchars
  · next c w _ _ => exact .inl ⟨c, w, rfl, hstart⟩

theorem ne_of_isNameStart {d : Char} (hd : isNameStart d = false) (hc : isNameStart c = true) :
    c ≠ d :=
  ne_of_apply_ne isNameStart (by rw [hc, hd]; decide)

theorem not_isDigit_of_isNameStart (hc : isNameStart c = true) : isDigit c = false := by
  refine Bool.eq_false_iff.2 fun hdigit => ?_
  have hall : ∀ n < 0x3a, isDigit (Char.ofNat n) = true → isNameStart (Char.ofNat n) = false := by
    decide
  have hlt : c.toNat < 0x3a := by
    simp only [isDigit, Bool.and_eq_true, decide_eq_true_eq] at hdigit
    exact Nat.lt_succ_of_le hdigit.2
  have h := hall c.toNat hlt
  rw [Char.ofNat_toNat] at h
  rw [h hdigit] at hc
  cases hc

theorem startsName_cons (hminus : c ≠ '-') (hback : c ≠ '\\') (cs : List Char) :
    startsName (c :: cs) = isNameStart c := by
  unfold startsName
  split
  · next heq => cases heq
  · next heq => exact absurd (List.cons.inj heq).1 hminus
  · next heq => exact absurd (List.cons.inj heq).1 hback
  · next heq => rw [(List.cons.inj heq).1]

theorem startsName_of_isNameStart (hc : isNameStart c = true) (cs : List Char) :
    startsName (c :: cs) = true := by
  rw [startsName_cons (ne_of_isNameStart (by decide) hc) (ne_of_isNameStart (by decide) hc), hc]

/-- A name is not ended by what follows it. -/
theorem startsName_append {v : List Char} (hv : isName v = true) (rest : List Char) :
    startsName (v ++ rest) = true := by
  rcases exists_of_isName hv with ⟨c, w, rfl, hc⟩ | ⟨c, w, rfl, hc⟩
  · exact startsName_of_isNameStart hc _
  · rcases hc with hc | rfl
    · simp [startsName, hc]
    · rfl

/-- A break after a calm text begins no name and continues none. -/
theorem startsName_append_of_isBreak (ht : ∀ c ∈ t, isCalm c = true) (hb : isBreak b = true)
    (more : List Char) : startsName (t ++ b :: more) = startsName t := by
  have hbreak : isNameStart b = false ∧ b ≠ '-' ∧ b ≠ '\\' := by
    have h := forall_break (p := fun b => !isNameStart b && b != '-' && b != '\\') (by decide) hb
    simpa [and_assoc] using h
  cases t with
  | nil => exact (startsName_cons hbreak.2.1 hbreak.2.2 more).trans hbreak.1
  | cons c t =>
    have hback := (ne_backslash_of_isCalm (ht c List.mem_cons_self)).1
    by_cases hminus : c = '-'
    · subst hminus
      cases t with
      | nil =>
        have hnone : startsName ['-'] = false := rfl
        rw [List.singleton_append, startsName, hnone]
        simp [hbreak]
      | cons d t => rfl
    · rw [List.cons_append, startsName_cons hminus hback, startsName_cons hminus hback]

/-- The characters of a name. -/
theorem takeName_of_isName {v rest : List Char} (hv : isName v = true)
    (hrest : ∀ c ∈ rest.head?, isNameChar c = false ∧ c ≠ '\\') :
    takeName (v ++ rest) = (v, rest) := by
  rw [isName, Bool.and_eq_true] at hv
  refine takeName_append (fun c hc => ?_) hrest
  simpa using List.all_eq_true.1 hv.2 c hc

/-- Where a name begins and no other token does, the name is read. -/
theorem scan_of_startsName {cs : List Char} (hname : startsName (c :: cs) = true)
    (hc : [' ', '\t', '\n', '\r', '\x0c', '"', '\'', '#', '/', '@'].contains c = false)
    (hnumber : startsNumber (c :: cs) = false) (hmark : scanMark (c :: cs) = none) :
    scan (c :: cs) = some (scanName (c :: cs)) := by
  simp only [List.contains_cons, List.contains_nil, Bool.or_false, Bool.or_eq_false_iff,
    beq_eq_false_iff_ne, ne_eq] at hc
  rw [scan, hnumber, hmark]
  simp [isSpace, isNewline, hc, hname]

theorem not_startsNumber {cs rest : List Char} (hsign : (takeSign cs).2.2 = c :: rest)
    (hpoint : c ≠ '.') (hdigit : isDigit c = false) : startsNumber cs = false := by
  rw [startsNumber, hsign]
  split
  · next heq => cases heq; exact absurd rfl hpoint
  · next heq => cases heq; exact hdigit
  · rfl

theorem not_contains_of_isNameStart (hc : isNameStart c = true) {marks : List Char}
    (hmarks : marks.all (fun d => !isNameStart d) = true) : marks.contains c = false := by
  refine Bool.eq_false_iff.2 fun hmem => ?_
  have h := List.all_eq_true.1 hmarks c (List.contains_iff_mem.1 hmem)
  rw [hc] at h
  cases h

/-- Where a name stands, a name is scanned.  A bracket after it could make a closing mark of it. -/
theorem scan_of_isName {v rest : List Char} (hv : isName v = true) (hrest : '>' ∉ rest.head?) :
    scan (v ++ rest) = some (scanName (v ++ rest)) := by
  have hstarts := startsName_append hv rest
  rcases exists_of_isName hv with ⟨c, w, rfl, hc⟩ | ⟨c, w, rfl, hc⟩
  · have hne : ∀ d : Char, isNameStart d = false → c ≠ d := fun d hd => ne_of_isNameStart hd hc
    have hsign : (takeSign (c :: (w ++ rest))).2.2 = c :: (w ++ rest) := by
      unfold takeSign
      split
      · next heq => exact absurd (List.cons.inj heq).1 (hne _ (by decide))
      · next heq => exact absurd (List.cons.inj heq).1 (hne _ (by decide))
      · rfl
    have hmark : scanMark (c :: (w ++ rest)) = none := by
      have hmarks : ∀ m ∈ marks, m.1.head?.any isNameStart = false := by decide
      refine scanMark_eq_none fun m hm ds hds => ?_
      have hstart : isNameStart c = false := by simpa [hds] using hmarks m hm
      exact absurd rfl (hne c hstart)
    exact scan_of_startsName hstarts (not_contains_of_isNameStart hc (by decide))
      (not_startsNumber hsign (hne _ (by decide)) (not_isDigit_of_isNameStart hc)) hmark
  · have hpoint : c ≠ '.' ∧ isDigit c = false := by
      rcases hc with hc | rfl
      · exact ⟨ne_of_isNameStart (by decide) hc, not_isDigit_of_isNameStart hc⟩
      · decide
    have hmark : scanMark ('-' :: c :: (w ++ rest)) = none := by
      have hmarks : ∀ m ∈ marks, m.1.head? = some '-' → m.1 = ['-', '-', '>'] := by decide
      refine scanMark_eq_none fun m hm ds hds hprefix => ?_
      obtain rfl : ds = ['-', '>'] := by simpa [hds] using hmarks m hm (by rw [hds]; rfl)
      have hthird := (List.cons_prefix_cons.1 hprefix).2
      -- the third character is in the name or follows it, and neither can be a bracket
      cases w with
      | nil =>
        obtain ⟨more, hmore⟩ := hthird
        rw [List.nil_append] at hmore
        exact hrest (by rw [← hmore]; rfl)
      | cons e w =>
        rw [isName, Bool.and_eq_true] at hv
        have he := List.all_eq_true.1 hv.2 e (by simp)
        rw [← (List.cons_prefix_cons.1 hthird).1] at he
        exact absurd he (by decide)
    exact scan_of_startsName hstarts (by decide) (not_startsNumber rfl hpoint.1 hpoint.2) hmark

/-- Whether a name ends before a character, and is an identifier there. -/
def endsName (c : Char) : Bool :=
  !(isNameChar c || ['\\', '(', '>'].contains c)

/-- A name ends before a text, and is an identifier there. -/
def EndsName (cs : List Char) : Prop :=
  ∀ c ∈ cs.head?, endsName c = true

theorem EndsName.cons {c : Char} (hc : endsName c = true) (cs : List Char) :
    EndsName (c :: cs) := by
  intro d hd
  rw [← Option.some.inj hd]
  exact hc

theorem EndsName.ne {rest : List Char} (h : EndsName rest) :
    ∀ c ∈ rest.head?, isNameChar c = false ∧ c ≠ '\\' ∧ c ≠ '(' ∧ c ≠ '>' := by
  intro c hc
  have hends := h c hc
  simp only [endsName, Bool.not_eq_true', List.contains_cons, List.contains_nil, Bool.or_false,
    Bool.or_eq_false_iff, beq_eq_false_iff_ne, ne_eq] at hends
  exact hends

/-- What ends a name neither continues it nor opens an escape. -/
theorem EndsName.not_nameChar {rest : List Char} (h : EndsName rest) :
    ∀ c ∈ rest.head?, isNameChar c = false ∧ c ≠ '\\' :=
  fun c hc => ⟨(h.ne c hc).1, (h.ne c hc).2.1⟩

/-- A name is an identifier. -/
theorem scan_ident {v rest : List Char} (hv : isName v = true) (hrest : EndsName rest) :
    scan (v ++ rest) = some (.ident (String.ofList v), rest) := by
  have htake : takeName (v ++ rest) = (v, rest) := takeName_of_isName hv hrest.not_nameChar
  rw [scan_of_isName hv fun hmem => (hrest.ne _ hmem).2.2.2 rfl]
  unfold scanName
  simp only [htake]
  split
  · exact absurd rfl (hrest.ne '(' rfl).2.2.1
  · rfl

/-- A name after an at sign is a keyword. -/
theorem scan_atKeyword {v : List Char} (hv : isName v = true) {b : Char} (hb : isBreak b = true)
    (more : List Char) :
    scan ('@' :: (v ++ b :: more)) = some (.atKeyword (String.ofList v), b :: more) := by
  have htake : takeName (v ++ b :: more) = (v, b :: more) :=
    takeName_of_isName hv fun c hc => by cases hc; exact not_nameChar_of_isBreak hb
  have hnumber : startsNumber ('@' :: (v ++ b :: more)) = false := rfl
  have hmark : scanMark ('@' :: (v ++ b :: more)) = none := rfl
  rw [scan, hnumber, hmark, startsName_append hv, htake]
  rfl

/-- Both go over a name in front of a colon. -/
theorem passesOver_name {v : List Char} (hv : isName v = true) (more : List Char) :
    PassesOver v (':' :: more) := by
  have hcolon : EndsName (':' :: more) := .cons (by decide) more
  have hscan := scan_ident hv hcolon
  rcases exists_of_isName hv with ⟨c, w, rfl, hc⟩ | ⟨c, w, rfl, -⟩
  · exact .of_scan hscan rfl rfl (not_contains_of_isNameStart hc (by decide))
  · exact .of_scan hscan rfl rfl (by decide)

/-- Closing blocks goes over a keyword. -/
theorem closesOver_atKeyword {v : List Char} (hv : isName v = true) {b : Char}
    (hb : isBreak b = true) (more : List Char) : ClosesOver ('@' :: v) (b :: more) :=
  closeBlocks_of_plain (scan_atKeyword hv hb more) rfl rfl

/-! ## How some tokens begin -/

/-- What a text with a certain first token looks like.  Only the tokens that are not part of a rule,
a declaration or a step matter here. -/
def Begins (token : Token) (c : Char) (cs : List Char) : Prop :=
  match token with
  | .space _ => isSpace c = true
  | .comment _ => c = '/'
  | .cdo => c = '<'
  | .cdc => c = '-' ∧ ∃ rest, cs = '-' :: '>' :: rest
  | .semicolon => c = ';'
  | .atKeyword _ => c = '@' ∧ startsName cs = true
  | _ => True

theorem begins_of_scan {cs rest : List Char} {token : Token}
    (h : scan (c :: cs) = some (token, rest)) : Begins token c cs := by
  cases scanned_of_scan h with
  | space space => exact space
  | mark mem text =>
    have hmarks : ∀ m ∈ marks, c :: cs = m.1 ++ rest → Begins m.2 c cs := by
      simp +contextual [marks, Begins]
    exact hmarks _ mem text
  | comment => exact rfl
  | atKeyword starts => exact ⟨rfl, starts⟩
  | _ => exact trivial

end CriticalCss.Token
