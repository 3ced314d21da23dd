import CriticalCss.Proofs.Token.Recasing

/-!
# Tokens of texts that differ in the case of letters

When the case of some letters of a text is changed, its tokens stand at the same places and are of
the same kinds.

* `Token.outline` is what is the same of a token, and `Token.name` what may differ in case.
* `Token.Finds` says what is found after the change; `scanName_finds` and its siblings are the parts of
  `scan_apply`, and `exists_scan_apply` is one token.
* `closeBlocks_apply`, `skipUntil_apply` and `skipBlanks_apply` are the readers that go over tokens.
-/

namespace CriticalCss

namespace Token
variable (r : Recasing)
open Recasing

/-! ## What is the same of a token -/

/-- What is the same of a token when the case of letters changes: its kind, so far as a reader of
style sheets takes notice of it, and its name up to case. -/
def outline : Token → Token
  | .ident n => .ident (Text.lower n)
  | .atKeyword n => .atKeyword (Text.lower n)
  | .comment s => .comment (Text.lower s)
  | .function _ => .function ""
  | .space _ => .space ""
  | .opening b => .opening b
  | .closing b => .closing b
  | .colon => .colon
  | .semicolon => .semicolon
  | .cdo => .cdo
  | .cdc => .cdc
  | _ => .comma

/-- The text of a token that a style sheet keeps. -/
def name : Token → String
  | .ident n => n
  | .atKeyword n => n
  | .comment s => s
  | _ => ""

/-- What is found after the change: the token and what follows it.  The name is the same if nothing
was changed in the token. -/
structure Finds (cs : List Char) (found found' : Token × List Char) : Prop where
  rest : found'.2 = r.apply found.2
  outline : found'.1.outline = found.1.outline
  name : r.Spares found.2.length cs.length → found'.1.name = found.1.name

theorem Finds.of_length_le {r : Recasing} {cs ds : List Char} {found found' : Token × List Char}
    (h : Finds r cs found found') (hle : cs.length ≤ ds.length) : Finds r ds found found' :=
  ⟨h.rest, h.outline, fun hspares => h.name (hspares.mono (Nat.le_refl _) hle)⟩

theorem lower_ofList {v w : List Char} (h : v.map Char.toLower = w.map Char.toLower) :
    Text.lower (String.ofList v) = Text.lower (String.ofList w) := by
  rw [Text.lower, Text.lower, String.toList_ofList, String.toList_ofList, h]

theorem scanSpace_finds (cs : List Char) : Finds r cs (scanSpace cs) (scanSpace (r.apply cs)) where
  rest := apply_dropWhile r (isSpace_change r) cs
  outline := rfl
  name _ := rfl

theorem scanString_finds {quote : Char} (hquote : quote.isAlpha = false) (cs : List Char) :
    Finds r cs (scanString quote cs) (scanString quote (r.apply cs)) := by
  obtain ⟨hending, hrest⟩ := takeString_apply r hquote cs
  unfold scanString
  dsimp only
  rw [hending]
  cases (takeString quote cs).2.1 with
  | closed => exact ⟨hrest, rfl, fun _ => rfl⟩
  | broken => exact ⟨hrest, rfl, fun _ => rfl⟩

theorem scanHash_finds (cs : List Char) : Finds r cs (scanHash cs) (scanHash (r.apply cs)) := by
  obtain ⟨hrest, -, -⟩ := takeName_apply r cs
  unfold scanHash
  dsimp only
  rw [startsName_apply, hrest]
  split
  · exact ⟨rfl, rfl, fun _ => rfl⟩
  · cases cs with
    | nil => exact ⟨rfl, rfl, fun _ => rfl⟩
    | cons c cs =>
      rw [apply_cons]
      dsimp only
      rw [isDigit_change, r.beq_change (by decide)]
      split
      · exact ⟨rfl, rfl, fun _ => rfl⟩
      · exact ⟨rfl, rfl, fun _ => rfl⟩

theorem scanNumber_eq (cs : List Char) :
    scanNumber cs =
      if (takeNumeral cs).2.head? = some '%' then
        (.percentage (takeNumeral cs).1, (takeNumeral cs).2.tail)
      else if startsName (takeNumeral cs).2 then
        (.dimension (takeNumeral cs).1 (String.ofList (takeName (takeNumeral cs).2).1),
          (takeName (takeNumeral cs).2).2)
      else (.number (takeNumeral cs).1, (takeNumeral cs).2) := by
  unfold scanNumber
  dsimp only
  generalize (takeNumeral cs).2 = rest
  split
  · rfl
  · next h =>
    have hother : ¬rest.head? = some '%' := by
      intro hhead
      obtain ⟨after, rfl⟩ := List.head?_eq_some_iff.1 hhead
      exact h after rfl
    rw [if_neg hother]

theorem scanNumber_finds (cs : List Char) :
    Finds r cs (scanNumber cs) (scanNumber (r.apply cs)) := by
  rw [scanNumber_eq, scanNumber_eq, takeNumeral_apply, startsName_apply]
  simp only [head?_apply_eq_some_iff r (show '%'.isAlpha = false by decide)]
  split
  · exact ⟨apply_tail r _, rfl, fun _ => rfl⟩
  · split
    · exact ⟨(takeName_apply r _).1, rfl, fun _ => rfl⟩
    · exact ⟨rfl, rfl, fun _ => rfl⟩

theorem scanMark_apply_of_some {cs rest : List Char} {t : Token}
    (h : scanMark cs = some (t, rest)) : scanMark (r.apply cs) = some (t, r.apply rest) := by
  unfold scanMark at h
  split at h <;> cases h
  all_goals
    simp (disch := decide) only [apply_cons, r.change_of_not_isAlpha]
    rfl

theorem scanMark_apply (cs : List Char) :
    scanMark (r.apply cs) = (scanMark cs).map fun found => (found.1, r.apply found.2) := by
  cases h : scanMark cs with
  | some found => exact scanMark_apply_of_some r h
  | none =>
    cases h' : scanMark (r.apply cs) with
    | none => rfl
    | some found =>
      -- Changing the text back would find the mark as well.
      have hback := scanMark_apply_of_some (toward (r.apply cs) cs) h'
      rw [apply_toward (r.map_toLower_apply cs).symm, h] at hback
      cases hback

/-- An unquoted address is found at the same places. -/
theorem scanUrl?_finds (cs : List Char) :
    match scanUrl? cs with
    | none => scanUrl? (r.apply cs) = none
    | some found => ∃ found', scanUrl? (r.apply cs) = some found' ∧ Finds r cs found found' := by
  have hstart := apply_dropWhile r (isSpace_change r) cs
  unfold scanUrl?
  rw [hstart]
  cases cs.dropWhile isSpace with
  | nil => exact ⟨_, rfl, rfl, rfl, fun _ => rfl⟩
  | cons c rest =>
    obtain ⟨hgood, hrest⟩ := takeUrl_apply r (c :: rest)
    rw [apply_cons] at hgood hrest ⊢
    simp only [r.change_eq_iff (show '"'.isAlpha = false by decide),
      r.change_eq_iff (show '\''.isAlpha = false by decide),
      r.change_eq_iff (show ')'.isAlpha = false by decide)]
    by_cases hquote : c = '"' ∨ c = '\''
    · simp only [if_pos hquote]
    · simp only [if_neg hquote]
      by_cases hround : c = ')'
      · simp only [if_pos hround]
        exact ⟨_, rfl, rfl, rfl, fun _ => rfl⟩
      · simp only [if_neg hround]
        cases hurl : takeUrl (c :: rest) with
        | good value after =>
          rw [hurl] at hgood hrest
          cases hurl' : takeUrl (r.change rest.length c :: r.apply rest) with
          | good value' after' =>
            rw [hurl'] at hrest
            exact ⟨_, rfl, hrest, rfl, fun _ => rfl⟩
          | bad after' =>
            rw [hurl'] at hgood
            cases hgood
        | bad after =>
          rw [hurl] at hgood hrest
          cases hurl' : takeUrl (r.change rest.length c :: r.apply rest) with
          | good value' after' =>
            rw [hurl'] at hgood
            cases hgood
          | bad after' =>
            rw [hurl'] at hrest
            have hafter : after' = r.apply after := hrest
            subst hafter
            exact ⟨_, rfl, takeBadUrl_apply r after, rfl, fun _ => rfl⟩

theorem scanName_eq (cs : List Char) :
    scanName cs =
      if (takeName cs).2.head? = some '(' then
        if Text.sameLetters (String.ofList (takeName cs).1) "url" then
          (scanUrl? (takeName cs).2.tail).getD
            (.function (String.ofList (takeName cs).1), (takeName cs).2.tail)
        else (.function (String.ofList (takeName cs).1), (takeName cs).2.tail)
      else (.ident (String.ofList (takeName cs).1), (takeName cs).2) := by
  unfold scanName
  dsimp only
  split
  · next heq =>
    rw [heq]
    rfl
  · next h =>
    have hother : ¬(takeName cs).2.head? = some '(' := by
      intro hhead
      obtain ⟨after, hafter⟩ := List.head?_eq_some_iff.1 hhead
      exact h after hafter
    rw [if_neg hother]

theorem scanName_finds (cs : List Char) : Finds r cs (scanName cs) (scanName (r.apply cs)) := by
  obtain ⟨hrest, hname, hsame⟩ := takeName_apply r cs
  have hlower := lower_ofList hname
  have hurl : Text.sameLetters (String.ofList (takeName (r.apply cs)).1) "url" =
      Text.sameLetters (String.ofList (takeName cs).1) "url" := by
    rw [Text.sameLetters, hlower, Text.sameLetters]
  rw [scanName_eq, scanName_eq, hrest, hurl, apply_tail]
  simp only [head?_apply_eq_some_iff r (show '('.isAlpha = false by decide)]
  split
  · split
    · have hfinds := scanUrl?_finds r (takeName cs).2.tail
      cases hfound : scanUrl? (takeName cs).2.tail with
      | none =>
        rw [hfound] at hfinds
        rw [hfinds]
        exact ⟨rfl, rfl, fun _ => rfl⟩
      | some found =>
        rw [hfound] at hfinds
        obtain ⟨found', hfound', hfinds⟩ := hfinds
        rw [hfound']
        have hle : (takeName cs).2.tail.length ≤ cs.length :=
          ((List.tail_suffix _).trans (takeName_suffix cs)).length_le
        exact hfinds.of_length_le hle
    · exact ⟨rfl, rfl, fun _ => rfl⟩
  · refine ⟨rfl, congrArg Token.ident hlower, fun hspares => congrArg String.ofList (hsame hspares)⟩

/-- After the change a token is found at the same place. -/
theorem scan_apply (cs : List Char) :
    match scan cs with
    | none => scan (r.apply cs) = none
    | some found => ∃ found', scan (r.apply cs) = some found' ∧ Finds r cs found found' := by
  cases cs with
  | nil => rfl
  | cons c rest =>
    have hspace := scanSpace_finds r (c :: rest)
    have hnumber := scanNumber_finds r (c :: rest)
    have hname := scanName_finds r (c :: rest)
    have hmark := scanMark_apply r (c :: rest)
    have hstarts := startsName_apply r (c :: rest)
    have hstartsNumber := startsNumber_apply r (c :: rest)
    rw [apply_cons] at hspace hnumber hname hmark hstarts hstartsNumber ⊢
    unfold scan
    simp only [isSpace_change, hmark, hstarts, hstartsNumber, startsName_apply,
      r.change_eq_iff (show '"'.isAlpha = false by decide),
      r.change_eq_iff (show '\''.isAlpha = false by decide),
      r.change_eq_iff (show '#'.isAlpha = false by decide),
      r.change_eq_iff (show '/'.isAlpha = false by decide),
      r.change_eq_iff (show '@'.isAlpha = false by decide),
      head?_apply_eq_some_iff r (show '*'.isAlpha = false by decide), apply_tail]
    by_cases h : isSpace c = true
    · simp only [if_pos h]
      exact ⟨_, rfl, hspace⟩
    simp only [if_neg h]
    by_cases h : c = '"' ∨ c = '\''
    · simp only [if_pos h]
      have hc : c.isAlpha = false := by rcases h with rfl | rfl <;> decide
      rw [r.change_of_not_isAlpha hc]
      exact ⟨_, rfl, (scanString_finds r hc rest).of_length_le (Nat.le_succ _)⟩
    simp only [if_neg h]
    by_cases h : c = '#'
    · simp only [if_pos h]
      exact ⟨_, rfl, (scanHash_finds r rest).of_length_le (Nat.le_succ _)⟩
    simp only [if_neg h]
    by_cases h : startsNumber (c :: rest) = true
    · simp only [if_pos h]
      exact ⟨_, rfl, hnumber⟩
    simp only [if_neg h]
    cases scanMark (c :: rest) with
    | some found => exact ⟨_, rfl, rfl, rfl, fun _ => rfl⟩
    | none =>
      simp only [Option.map_none]
      by_cases h : c = '/' ∧ rest.head? = some '*'
      · simp only [if_pos h]
        obtain ⟨hrest, htext, hsame⟩ := takeComment_apply r rest.tail
        refine ⟨_, rfl, hrest, congrArg Token.comment (lower_ofList htext), fun hspares => ?_⟩
        refine congrArg String.ofList (hsame (hspares.mono (Nat.le_refl _) ?_))
        rw [List.length_tail, List.length_cons]
        omega
      simp only [if_neg h]
      by_cases h : c = '@' ∧ startsName rest = true
      · simp only [if_pos h]
        obtain ⟨hrest, hkeyword, hsame⟩ := takeName_apply r rest
        refine ⟨_, rfl, hrest, congrArg Token.atKeyword (lower_ofList hkeyword), fun hspares => ?_⟩
        exact congrArg String.ofList (hsame (hspares.mono (Nat.le_refl _) (Nat.le_succ _)))
      simp only [if_neg h]
      by_cases h : startsName (c :: rest) = true
      · simp only [if_pos h]
        exact ⟨_, rfl, hname⟩
      simp only [if_neg h]
      exact ⟨_, rfl, rfl, rfl, fun _ => rfl⟩

/-- A token and the same token after the change. -/
theorem exists_scan_apply {cs rest : List Char} {t : Token} (h : scan cs = some (t, rest)) :
    ∃ t', scan (r.apply cs) = some (t', r.apply rest) ∧ t'.outline = t.outline ∧
      (r.Spares rest.length cs.length → t'.name = t.name) := by
  have hfinds := scan_apply r cs
  rw [h] at hfinds
  obtain ⟨⟨t', rest'⟩, hscan, hfinds⟩ := hfinds
  have hrest : rest' = r.apply rest := hfinds.rest
  subst hrest
  exact ⟨t', hscan, hfinds.outline, hfinds.name⟩

theorem scan_apply_of_none {cs : List Char} (h : scan cs = none) : scan (r.apply cs) = none := by
  rw [scan_eq_none_iff.1 h]
  rfl

theorem opens?_of_outline {t t' : Token} (h : t'.outline = t.outline) : t'.opens? = t.opens? := by
  have hopens : ∀ t : Token, t.opens? = t.outline.opens? := fun t => by cases t <;> rfl
  rw [hopens, h, ← hopens]

theorem closes?_of_outline {t t' : Token} (h : t'.outline = t.outline) :
    t'.closes? = t.closes? := by
  have hcloses : ∀ t : Token, t.closes? = t.outline.closes? := fun t => by cases t <;> rfl
  rw [hcloses, h, ← hcloses]

/-! ## Going over tokens -/

theorem closeBlocks_apply (stack : List Bracket) (cs : List Char) :
    closeBlocks stack (r.apply cs) = r.apply (closeBlocks stack cs) := by
  induction cs using scan_induction generalizing stack with
  | nil => rw [apply_nil, closeBlocks_empty, apply_nil]
  | token cs t rest hscan ih =>
    cases stack with
    | nil => rw [closeBlocks_nil, closeBlocks_nil]
    | cons top below =>
      obtain ⟨t', hscan', houtline, -⟩ := exists_scan_apply r hscan
      have hgoesOn := ih rest (Nat.le_refl _)
      rw [closeBlocks_of_scan hscan, closeBlocks_of_scan hscan', opens?_of_outline houtline,
        closes?_of_outline houtline]
      split
      · exact hgoesOn _
      · exact hgoesOn _

theorem closeBlock_apply (b : Bracket) (cs : List Char) :
    closeBlock b (r.apply cs) = r.apply (closeBlock b cs) :=
  closeBlocks_apply r [b] cs

/-- The same texts begin with one of some marks. -/
theorem head?_any_apply {stops : List Char} (hstops : ∀ c ∈ stops, isStop c = true)
    (cs : List Char) : (r.apply cs).head?.any stops.contains = cs.head?.any stops.contains := by
  have hletter : ∀ d ∈ stops, d.isAlpha = false := by
    intro d hd
    have hstop := hstops d hd
    simp only [isStop, List.contains_cons, List.contains_nil, Bool.or_false, Bool.or_eq_true,
      beq_iff_eq] at hstop
    rcases hstop with rfl | rfl | rfl <;> decide
  cases cs with
  | nil => rfl
  | cons c cs =>
    rw [apply_cons, List.head?_cons, List.head?_cons, Option.any_some, Option.any_some,
      Bool.eq_iff_iff, List.contains_iff_mem, List.contains_iff_mem]
    constructor
    · intro hmem
      exact ((r.change_eq_iff (hletter _ hmem) cs.length c).1 rfl) ▸ hmem
    · intro hmem
      rwa [r.change_of_not_isAlpha (hletter c hmem)]

/-- Skipping stops at the same place, if it is to stop at marks. -/
theorem skipUntil_apply {stops : List Char} (hstops : ∀ c ∈ stops, isStop c = true)
    (cs : List Char) : skipUntil stops (r.apply cs) = r.apply (skipUntil stops cs) := by
  have hhead := head?_any_apply r hstops
  induction cs using scan_induction with
  | nil => rw [apply_nil, skipUntil_empty, apply_nil]
  | token cs t rest hscan ih =>
    obtain ⟨t', hscan', houtline, -⟩ := exists_scan_apply r hscan
    cases hstop : cs.head?.any stops.contains with
    | true => rw [skipUntil_of_stop hstop, skipUntil_of_stop ((hhead cs).trans hstop)]
    | false =>
      rw [skipUntil_of_scan hscan hstop, skipUntil_of_scan hscan' ((hhead cs).trans hstop),
        opens?_of_outline houtline, closeBlocks_apply]
      exact ih _ (closeBlocks_suffix t.opens?.toList rest).length_le

theorem isBlank_of_outline {t t' : Token} (h : t'.outline = t.outline) : t'.isBlank = t.isBlank := by
  have hblank : ∀ t : Token, t.isBlank = t.outline.isBlank := fun t => by cases t <;> rfl
  rw [hblank, h, ← hblank]

theorem skipBlanks_apply (cs : List Char) : skipBlanks (r.apply cs) = r.apply (skipBlanks cs) := by
  induction cs using scan_induction with
  | nil => rw [apply_nil, skipBlanks_empty, apply_nil]
  | token cs t rest hscan ih =>
    obtain ⟨t', hscan', houtline, -⟩ := exists_scan_apply r hscan
    rw [skipBlanks_of_scan hscan, skipBlanks_of_scan hscan', isBlank_of_outline houtline]
    split
    · exact ih rest (Nat.le_refl _)
    · rfl

end Token

end CriticalCss
