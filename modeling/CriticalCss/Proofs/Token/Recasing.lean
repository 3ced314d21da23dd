import CriticalCss.Proofs.Token.Clean

/-!
# Changing the case of letters

A text in which the case of some letters is changed has its names, strings, comments, addresses and
numbers at the same places.  Names and comments differ in the case of letters at most, and where
nothing was changed they are the same.

* A `Recasing` changes the case of letters place by place, where a place is the number of characters
  after it, so that `Recasing.apply` does the same to every end of a text.
* `Recasing.toward` makes one text of another one.
* The lemmas of the form `take_apply` say what each reader finds after the change and where it goes
  on.
-/

namespace CriticalCss

/-- A change of the case of letters in a text.  A place is the number of characters after it. -/
structure Recasing where
  change : Nat → Char → Char
  toLower_change : ∀ n c, (change n c).toLower = c.toLower

namespace Recasing

variable (r : Recasing)

/-- The text after the change. -/
def apply : List Char → List Char
  | [] => []
  | c :: cs => r.change cs.length c :: apply cs

/-- Nothing is changed from one place up to another. -/
def Spares (low high : Nat) : Prop :=
  ∀ n, low ≤ n → n < high → ∀ c, r.change n c = c

variable {r}

theorem Spares.mono {low high low' high' : Nat} (h : r.Spares low high) (hlow : low ≤ low')
    (hhigh : high' ≤ high) : r.Spares low' high' :=
  fun n hn hn' => h n (Nat.le_trans hlow hn) (Nat.lt_of_lt_of_le hn' hhigh)

variable (r)

@[simp]
theorem apply_nil : r.apply [] = [] := rfl

@[simp]
theorem apply_cons (c : Char) (cs : List Char) :
    r.apply (c :: cs) = r.change cs.length c :: r.apply cs := rfl

@[simp]
theorem length_apply (cs : List Char) : (r.apply cs).length = cs.length := by
  induction cs with
  | nil => rfl
  | cons c cs ih => rw [apply_cons, List.length_cons, ih, List.length_cons]

theorem map_toLower_apply (cs : List Char) :
    (r.apply cs).map Char.toLower = cs.map Char.toLower := by
  induction cs with
  | nil => rfl
  | cons c cs ih => rw [apply_cons, List.map_cons, ih, r.toLower_change, List.map_cons]

@[simp]
theorem isAlpha_change (n : Nat) (c : Char) : (r.change n c).isAlpha = c.isAlpha := by
  rw [← Text.isAlpha_toLower, r.toLower_change, Text.isAlpha_toLower]

theorem change_of_not_isAlpha {c : Char} (h : c.isAlpha = false) (n : Nat) : r.change n c = c := by
  have h' : (r.change n c).isAlpha = false := by rw [r.isAlpha_change, h]
  rw [← Text.toLower_of_not_isAlpha h', r.toLower_change, Text.toLower_of_not_isAlpha h]

/-- What is the same for all letters is the same after the change. -/
theorem eq_change {α : Type} [DecidableEq α] (f : Char → α) (v : α)
    (hf : (Text.letters.all fun c => decide (f c = v)) = true) (n : Nat) (c : Char) :
    f (r.change n c) = f c := by
  by_cases hc : c.isAlpha = true
  · have hall := Text.forall_letter (fun c => f c = v) hf
    rw [hall c hc, hall _ ((r.isAlpha_change n c).trans hc)]
  · rw [r.change_of_not_isAlpha (Bool.eq_false_iff.2 hc)]

/-- A character that is no letter is found at the same places. -/
theorem change_eq_iff {d : Char} (hd : d.isAlpha = false) (n : Nat) (c : Char) :
    r.change n c = d ↔ c = d := by
  constructor
  · intro h
    have hc : c.isAlpha = false := by rw [← r.isAlpha_change n c, h, hd]
    rw [← h, r.change_of_not_isAlpha hc]
  · rintro rfl
    exact r.change_of_not_isAlpha hd n

theorem beq_change {d : Char} (hd : d.isAlpha = false) (n : Nat) (c : Char) :
    (r.change n c == d) = (c == d) := by
  rw [Bool.eq_iff_iff, beq_iff_eq, beq_iff_eq]
  exact r.change_eq_iff hd n c

/-- The change that makes one text of another one, as far as they are the same up to case. -/
def toward : List Char → List Char → Recasing
  | c :: cs, c' :: cs' =>
    let below := toward cs cs'
    ⟨fun n d => if n = cs.length ∧ d = c ∧ c'.toLower = c.toLower then c' else below.change n d,
      fun n d => by
        split
        · next h => rw [h.2.1, h.2.2]
        · exact below.toLower_change n d⟩
  | _, _ => ⟨fun _ d => d, fun _ _ => rfl⟩

theorem change_toward_of_le {cs cs' : List Char} {n : Nat} (hn : cs.length ≤ n) (d : Char) :
    (toward cs cs').change n d = d := by
  induction cs generalizing cs' with
  | nil => rfl
  | cons c cs ih =>
    cases cs' with
    | nil => rfl
    | cons c' cs' =>
      rw [List.length_cons] at hn
      show (if n = cs.length ∧ d = c ∧ c'.toLower = c.toLower then c' else _) = d
      rw [if_neg (by omega)]
      exact ih (by omega)

theorem apply_toward {cs cs' : List Char} (h : cs'.map Char.toLower = cs.map Char.toLower) :
    (toward cs cs').apply cs = cs' := by
  induction cs generalizing cs' with
  | nil => exact (List.map_eq_nil_iff.1 h).symm
  | cons c cs ih =>
    cases cs' with
    | nil => cases h
    | cons c' cs' =>
      obtain ⟨hc, hcs⟩ := List.cons.inj h
      have hbelow : ∀ v : List Char, v.length ≤ cs.length →
          (toward (c :: cs) (c' :: cs')).apply v = (toward cs cs').apply v := by
        intro v hv
        induction v with
        | nil => rfl
        | cons d v ihv =>
          rw [List.length_cons] at hv
          rw [apply_cons, apply_cons, ihv (by omega)]
          show (if v.length = cs.length ∧ _ then c' else _) :: _ = _
          rw [if_neg (by omega)]
      rw [apply_cons, hbelow cs (Nat.le_refl _), ih hcs]
      show (if cs.length = cs.length ∧ c = c ∧ _ then c' else _) :: cs' = _
      rw [if_pos ⟨rfl, rfl, hc⟩]

end Recasing

namespace Token

variable (r : Recasing)

open Recasing

/-! ## Classes of characters -/

@[simp]
theorem isNewline_change (n : Nat) (c : Char) : isNewline (r.change n c) = isNewline c :=
  r.eq_change isNewline false (by rfl) n c

@[simp]
theorem isSpace_change (n : Nat) (c : Char) : isSpace (r.change n c) = isSpace c :=
  r.eq_change isSpace false (by rfl) n c

@[simp]
theorem isNameStart_change (n : Nat) (c : Char) : isNameStart (r.change n c) = isNameStart c :=
  r.eq_change isNameStart true (by rfl) n c

@[simp]
theorem isDigit_change (n : Nat) (c : Char) : isDigit (r.change n c) = isDigit c :=
  r.eq_change isDigit false (by rfl) n c

@[simp]
theorem isNameChar_change (n : Nat) (c : Char) : isNameChar (r.change n c) = isNameChar c :=
  r.eq_change isNameChar true (by rfl) n c

@[simp]
theorem spoilsUrl_change (n : Nat) (c : Char) : spoilsUrl (r.change n c) = spoilsUrl c :=
  r.eq_change spoilsUrl false (by rfl) n c

@[simp]
theorem digit?_change (n : Nat) (c : Char) : Text.digit? (r.change n c) = Text.digit? c :=
  r.eq_change Text.digit? none (by rfl) n c

theorem hexDigit?_change (n : Nat) (c : Char) : Text.hexDigit? (r.change n c) = Text.hexDigit? c := by
  by_cases hc : c.isAlpha = true
  · have hlower := Text.forall_letter (fun d => Text.hexDigit? d.toLower = Text.hexDigit? d)
      (by rfl)
    rw [← hlower c hc, ← r.toLower_change n, hlower _ ((r.isAlpha_change n c).trans hc)]
  · rw [r.change_of_not_isAlpha (Bool.eq_false_iff.2 hc)]

theorem toLower_visible_change (n : Nat) (c : Char) :
    (visible (r.change n c)).toLower = (visible c).toLower := by
  by_cases hc : c.isAlpha = true
  · have hvisible := Text.forall_letter (fun d => visible d = d) (by rfl)
    rw [hvisible c hc, hvisible _ ((r.isAlpha_change n c).trans hc), r.toLower_change]
  · rw [r.change_of_not_isAlpha (Bool.eq_false_iff.2 hc)]

/-! ## White space and escapes -/

theorem apply_dropWhile {p : Char → Bool} (hp : ∀ n c, p (r.change n c) = p c) (cs : List Char) :
    (r.apply cs).dropWhile p = r.apply (cs.dropWhile p) := by
  induction cs with
  | nil => rfl
  | cons c cs ih =>
    cases hc : p c with
    | true => rw [apply_cons, List.dropWhile_cons_of_pos (by rw [hp, hc]), ih,
        List.dropWhile_cons_of_pos hc]
    | false =>
      rw [List.dropWhile_cons_of_neg (by simp [hc]), apply_cons,
        List.dropWhile_cons_of_neg (by simp [hp, hc])]

theorem apply_drop (k : Nat) (cs : List Char) : (r.apply cs).drop k = r.apply (cs.drop k) := by
  induction cs generalizing k with
  | nil => rw [apply_nil, List.drop_nil, apply_nil]
  | cons c cs ih =>
    cases k with
    | zero => rfl
    | succ k => exact ih k

theorem atNewline_apply (cs : List Char) : atNewline (r.apply cs) = atNewline cs := by
  cases cs with
  | nil => rfl
  | cons c cs => exact isNewline_change r _ c

/-- A character that is no letter is found at the start of the same texts. -/
theorem head?_apply_eq_some_iff {d : Char} (hd : d.isAlpha = false) (cs : List Char) :
    (r.apply cs).head? = some d ↔ cs.head? = some d := by
  cases cs with
  | nil => exact Iff.rfl
  | cons c cs =>
    rw [apply_cons, List.head?_cons, List.head?_cons, Option.some_inj, Option.some_inj]
    exact r.change_eq_iff hd _ c

theorem dropNewline_cons_cons (c d : Char) (cs : List Char) :
    dropNewline (c :: d :: cs) = if c = '\r' ∧ d = '\n' then cs else d :: cs := by
  by_cases h : c = '\r' ∧ d = '\n'
  · obtain ⟨rfl, rfl⟩ := h
    rfl
  · rw [if_neg h]
    unfold dropNewline
    split
    · next heq =>
      cases heq
      exact absurd ⟨rfl, rfl⟩ h
    · next heq =>
      cases heq
      rfl
    · next heq => cases heq

theorem apply_dropNewline (cs : List Char) : dropNewline (r.apply cs) = r.apply (dropNewline cs) := by
  match cs with
  | [] => rfl
  | [c] =>
    have hone : ∀ d, dropNewline [d] = [] := fun d => by unfold dropNewline; split <;> simp_all
    rw [apply_cons, apply_nil, hone, hone, apply_nil]
  | c :: d :: cs =>
    rw [apply_cons, apply_cons, dropNewline_cons_cons, dropNewline_cons_cons]
    simp only [r.change_eq_iff (show '\r'.isAlpha = false by decide),
      r.change_eq_iff (show '\n'.isAlpha = false by decide)]
    split <;> rfl

theorem apply_dropSpace (cs : List Char) : dropSpace (r.apply cs) = r.apply (dropSpace cs) := by
  cases cs with
  | nil => rfl
  | cons c cs =>
    have hnewline := apply_dropNewline r (c :: cs)
    rw [apply_cons] at hnewline ⊢
    rw [dropSpace, dropSpace, isNewline_change, isSpace_change, hnewline]
    split
    · rfl
    · split <;> rfl

/-- The character of an escape may differ in case. -/
theorem takeEscape_apply (cs : List Char) :
    (takeEscape (r.apply cs)).2 = r.apply (takeEscape cs).2 ∧
      (takeEscape (r.apply cs)).1.toLower = (takeEscape cs).1.toLower ∧
      (r.Spares (takeEscape cs).2.length cs.length →
        (takeEscape (r.apply cs)).1 = (takeEscape cs).1) := by
  have hdigits : ((r.apply cs).take 6).map Text.hexDigit? = (cs.take 6).map Text.hexDigit? := by
    rw [List.map_take, List.map_take]
    refine congrArg _ ?_
    induction cs with
    | nil => rfl
    | cons c cs ih => rw [apply_cons, List.map_cons, List.map_cons, hexDigit?_change, ih]
  unfold takeEscape
  rw [hdigits]
  split
  · cases cs with
    | nil => exact ⟨rfl, rfl, fun _ => rfl⟩
    | cons c cs =>
      refine ⟨rfl, toLower_visible_change r _ c, fun hspares => ?_⟩
      exact congrArg visible (hspares cs.length (Nat.le_refl _) (Nat.lt_succ_self _) c)
  · refine ⟨?_, rfl, fun _ => rfl⟩
    rw [apply_drop, apply_dropSpace]

/-! ## Names -/

theorem startsName_cons_cons (c d : Char) (cs : List Char) :
    startsName (c :: d :: cs) =
      if c = '-' then isNameStart d || d == '-' || d == '\\'
      else if c = '\\' then !isNewline d else isNameStart c := by
  by_cases hminus : c = '-'
  · rw [if_pos hminus, hminus]
    rfl
  · by_cases hback : c = '\\'
    · rw [if_neg hminus, if_pos hback, hback]
      rfl
    · rw [if_neg hminus, if_neg hback, startsName_cons hminus hback]

theorem startsName_apply (cs : List Char) : startsName (r.apply cs) = startsName cs := by
  match cs with
  | [] => rfl
  | [c] =>
    have hone : ∀ d, startsName [d] = (isNameStart d || d == '\\') := by
      intro d
      unfold startsName
      split <;> simp_all [isNameStart, atNewline]
    rw [apply_cons, apply_nil, hone, hone, isNameStart_change, r.beq_change (by decide)]
  | c :: d :: cs =>
    rw [apply_cons, apply_cons, startsName_cons_cons, startsName_cons_cons, isNameStart_change,
      isNameStart_change, isNewline_change, r.beq_change (by decide), r.beq_change (by decide)]
    simp only [r.change_eq_iff (show '\\'.isAlpha = false by decide),
      r.change_eq_iff (show '-'.isAlpha = false by decide)]

/-- The characters of a name may differ in case. -/
theorem takeName_apply (cs : List Char) :
    (takeName (r.apply cs)).2 = r.apply (takeName cs).2 ∧
      (takeName (r.apply cs)).1.map Char.toLower = (takeName cs).1.map Char.toLower ∧
      (r.Spares (takeName cs).2.length cs.length →
        (takeName (r.apply cs)).1 = (takeName cs).1) := by
  induction cs using takeName_induction with
  | nil =>
    rw [apply_nil, takeName_nil]
    exact ⟨rfl, rfl, fun _ => rfl⟩
  | char c cs hc ih =>
    obtain ⟨hrest, hname, hsame⟩ := ih
    have hle := (takeName_suffix cs).length_le
    rw [apply_cons, takeName_cons hc, takeName_cons ((isNameChar_change r _ c).trans hc)]
    refine ⟨hrest, ?_, fun hspares => ?_⟩
    · rw [List.map_cons, hname, toLower_visible_change, List.map_cons]
    · dsimp only at hspares ⊢
      rw [hsame (hspares.mono (Nat.le_refl _) (Nat.le_succ _)),
        hspares cs.length hle (Nat.lt_succ_self _)]
  | escape cs hline ih =>
    obtain ⟨hrest, hname, hsame⟩ := ih
    obtain ⟨hescaped, hchar, hexact⟩ := takeEscape_apply r cs
    have hle := (takeName_suffix (takeEscape cs).2).length_le
    have hle' := (takeEscape_suffix cs).length_le
    rw [apply_cons, r.change_of_not_isAlpha (by decide), takeName_escape hline,
      takeName_escape ((atNewline_apply r cs).trans hline), hescaped]
    refine ⟨hrest, ?_, fun hspares => ?_⟩
    · rw [List.map_cons, hname, hchar, List.map_cons]
    · rw [List.length_cons] at hspares
      rw [hsame (hspares.mono (Nat.le_refl _) (by omega)),
        hexact (hspares.mono hle (Nat.le_succ _))]
  | stop c cs hc hback =>
    have hback' : r.change cs.length c = '\\' → atNewline (r.apply cs) = true := by
      rw [atNewline_apply, r.change_eq_iff (by decide)]
      exact hback
    rw [apply_cons, takeName_stop hc hback,
      takeName_stop ((isNameChar_change r _ c).trans hc) hback']
    exact ⟨rfl, rfl, fun _ => rfl⟩

/-! ## Strings, comments and addresses -/

theorem takeString_apply {quote : Char} (hquote : quote.isAlpha = false) (cs : List Char) :
    (takeString quote (r.apply cs)).2.1 = (takeString quote cs).2.1 ∧
      (takeString quote (r.apply cs)).2.2 = r.apply (takeString quote cs).2.2 := by
  have hback : '\\'.isAlpha = false := by decide
  induction cs using takeString_induction quote with
  | nil =>
    rw [apply_nil, takeString_nil]
    exact ⟨rfl, rfl⟩
  | close cs =>
    rw [apply_cons, r.change_of_not_isAlpha hquote, takeString_quote, takeString_quote]
    exact ⟨rfl, rfl⟩
  | newline c cs hc hline =>
    have hc' : r.change cs.length c ≠ quote := by rwa [Ne, r.change_eq_iff hquote]
    rw [apply_cons, takeString_newline hc hline,
      takeString_newline hc' ((isNewline_change r _ c).trans hline)]
    exact ⟨rfl, rfl⟩
  | backslash hc =>
    rw [apply_cons, apply_nil, r.change_of_not_isAlpha hback, takeString_backslash hc]
    exact ⟨rfl, rfl⟩
  | continued d cs hc hline ih =>
    rw [← apply_dropNewline, apply_cons] at ih
    rw [apply_cons, apply_cons, r.change_of_not_isAlpha hback, takeString_continued hc hline,
      takeString_continued hc ((isNewline_change r _ d).trans hline)]
    exact ih
  | escape d cs hc hline ih =>
    have hescaped := (takeEscape_apply r (d :: cs)).1
    rw [apply_cons] at hescaped
    rw [apply_cons, apply_cons, r.change_of_not_isAlpha hback, takeString_escape hc hline,
      takeString_escape hc ((isNewline_change r _ d).trans hline), hescaped]
    exact ih
  | char c cs hc hline hc' ih =>
    have hother : r.change cs.length c ≠ quote := by rwa [Ne, r.change_eq_iff hquote]
    have hother' : r.change cs.length c ≠ '\\' := by rwa [Ne, r.change_eq_iff hback]
    rw [apply_cons, takeString_char hc hline hc',
      takeString_char hother ((isNewline_change r _ c).trans hline) hother']
    exact ih

/-- The text of a comment may differ in case. -/
theorem takeComment_apply (cs : List Char) :
    (takeComment (r.apply cs)).2 = r.apply (takeComment cs).2 ∧
      (takeComment (r.apply cs)).1.map Char.toLower = (takeComment cs).1.map Char.toLower ∧
      (r.Spares (takeComment cs).2.length cs.length →
        (takeComment (r.apply cs)).1 = (takeComment cs).1) := by
  induction cs using takeComment_induction with
  | nil => exact ⟨rfl, rfl, fun _ => rfl⟩
  | close cs =>
    rw [apply_cons, apply_cons, r.change_of_not_isAlpha (by decide),
      r.change_of_not_isAlpha (by decide)]
    exact ⟨rfl, rfl, fun _ => rfl⟩
  | char c cs hc ih =>
    obtain ⟨hrest, htext, hsame⟩ := ih
    have hle := (takeComment_suffix cs).length_le
    have hc' : r.change cs.length c = '*' → (r.apply cs).head? ≠ some '/' := by
      rw [r.change_eq_iff (by decide), Ne, head?_apply_eq_some_iff r (by decide)]
      exact hc
    rw [apply_cons, takeComment_char hc, takeComment_char hc']
    refine ⟨hrest, ?_, fun hspares => ?_⟩
    · rw [List.map_cons, htext, r.toLower_change, List.map_cons]
    · rw [hsame (hspares.mono (Nat.le_refl _) (Nat.le_succ _)),
        hspares cs.length hle (Nat.lt_succ_self _)]

theorem takeBadUrl_apply (cs : List Char) :
    (takeBadUrl (r.apply cs)).2 = r.apply (takeBadUrl cs).2 := by
  have hround : ')'.isAlpha = false := by decide
  have hback : '\\'.isAlpha = false := by decide
  induction cs using takeBadUrl_induction with
  | nil => rfl
  | close cs =>
    rw [apply_cons, r.change_of_not_isAlpha hround, takeBadUrl_close, takeBadUrl_close]
  | escaped d cs hd ih =>
    have hd' : r.change cs.length d = ')' ∨ r.change cs.length d = '\\' := by
      rwa [r.change_eq_iff hround, r.change_eq_iff hback]
    rw [apply_cons, apply_cons, r.change_of_not_isAlpha hback, takeBadUrl_escaped hd,
      takeBadUrl_escaped hd']
    exact ih
  | char c cs hc hc' ih =>
    have hother : r.change cs.length c ≠ ')' := by rwa [Ne, r.change_eq_iff hround]
    have hother' : r.change cs.length c = '\\' →
        ∀ d ∈ (r.apply cs).head?, ¬(d = ')' ∨ d = '\\') := by
      rw [r.change_eq_iff hback]
      intro heq
      cases cs with
      | nil => nofun
      | cons d cs =>
        intro d' hd'
        obtain rfl : r.change cs.length d = d' := Option.some.inj hd'
        rw [r.change_eq_iff hround, r.change_eq_iff hback]
        exact hc' heq d rfl
    rw [apply_cons, takeBadUrl_char hc hc', takeBadUrl_char hother hother']
    exact ih

/-- Whether an unquoted address is good. -/
def UrlBody.isGood : UrlBody → Bool
  | .good _ _ => true
  | .bad _ => false

theorem UrlBody.isGood_push (c : Char) (u : UrlBody) : (u.push c).isGood = u.isGood := by
  cases u <;> rfl

theorem takeUrlEnd_apply (cs : List Char) :
    (takeUrlEnd (r.apply cs)).isGood = (takeUrlEnd cs).isGood ∧
      (takeUrlEnd (r.apply cs)).rest = r.apply (takeUrlEnd cs).rest := by
  have hround : ')'.isAlpha = false := by decide
  induction cs with
  | nil => exact ⟨rfl, rfl⟩
  | cons c cs ih =>
    rw [apply_cons, takeUrlEnd, takeUrlEnd, isSpace_change]
    simp only [r.change_eq_iff hround]
    split
    · exact ⟨rfl, rfl⟩
    · split
      · exact ih
      · exact ⟨rfl, rfl⟩

theorem takeUrl_apply (cs : List Char) :
    (takeUrl (r.apply cs)).isGood = (takeUrl cs).isGood ∧
      (takeUrl (r.apply cs)).rest = r.apply (takeUrl cs).rest := by
  have hround : ')'.isAlpha = false := by decide
  have hback : '\\'.isAlpha = false := by decide
  induction cs using takeUrl_induction with
  | nil =>
    rw [apply_nil, takeUrl_nil]
    exact ⟨rfl, rfl⟩
  | space c cs hspace =>
    rw [apply_cons, takeUrl_space hspace, takeUrl_space ((isSpace_change r _ c).trans hspace),
      ← apply_cons]
    exact takeUrlEnd_apply r (c :: cs)
  | close cs =>
    rw [apply_cons, r.change_of_not_isAlpha hround, takeUrl_close, takeUrl_close]
    exact ⟨rfl, rfl⟩
  | spoiled c cs hspace hc hspoils =>
    have hc' : r.change cs.length c ≠ ')' := by rwa [Ne, r.change_eq_iff hround]
    rw [apply_cons, takeUrl_spoiled hspace hc hspoils,
      takeUrl_spoiled ((isSpace_change r _ c).trans hspace) hc'
        ((spoilsUrl_change r _ c).trans hspoils)]
    exact ⟨rfl, rfl⟩
  | newline cs hline =>
    rw [apply_cons, r.change_of_not_isAlpha hback, takeUrl_newline hline,
      takeUrl_newline ((atNewline_apply r cs).trans hline)]
    exact ⟨rfl, rfl⟩
  | escape cs hline ih =>
    rw [apply_cons, r.change_of_not_isAlpha hback, takeUrl_escape hline,
      takeUrl_escape ((atNewline_apply r cs).trans hline), (takeEscape_apply r cs).1,
      UrlBody.isGood_push, UrlBody.isGood_push, UrlBody.rest_push, UrlBody.rest_push]
    exact ih
  | char c cs hspace hc hspoils hc' ih =>
    have hother : r.change cs.length c ≠ ')' := by rwa [Ne, r.change_eq_iff hround]
    have hother' : r.change cs.length c ≠ '\\' := by rwa [Ne, r.change_eq_iff hback]
    rw [apply_cons, takeUrl_char hspace hc hspoils hc',
      takeUrl_char ((isSpace_change r _ c).trans hspace) hother
        ((spoilsUrl_change r _ c).trans hspoils) hother',
      UrlBody.isGood_push, UrlBody.isGood_push, UrlBody.rest_push, UrlBody.rest_push]
    exact ih

/-! ## Numbers -/

theorem takeDigits_apply (cs : List Char) :
    takeDigits (r.apply cs) = ((takeDigits cs).1, r.apply (takeDigits cs).2) := by
  induction cs with
  | nil => rfl
  | cons c cs ih =>
    rw [apply_cons, takeDigits, takeDigits, digit?_change, ih]
    cases Text.digit? c <;> rfl

theorem takeSign_cons (c : Char) (cs : List Char) :
    takeSign (c :: cs) = if c = '+' then (true, false, cs) else if c = '-' then (true, true, cs)
      else (false, false, c :: cs) := by
  by_cases hplus : c = '+'
  · rw [if_pos hplus, hplus]
    rfl
  · by_cases hminus : c = '-'
    · rw [if_neg hplus, if_pos hminus, hminus]
      rfl
    · rw [if_neg hplus, if_neg hminus]
      unfold takeSign
      split
      · next heq => exact absurd (List.cons.inj heq).1 hplus
      · next heq => exact absurd (List.cons.inj heq).1 hminus
      · rfl

theorem takeSign_apply (cs : List Char) :
    takeSign (r.apply cs) = ((takeSign cs).1, (takeSign cs).2.1, r.apply (takeSign cs).2.2) := by
  cases cs with
  | nil => rfl
  | cons c cs =>
    rw [apply_cons, takeSign_cons, takeSign_cons]
    simp only [r.change_eq_iff (show '+'.isAlpha = false by decide),
      r.change_eq_iff (show '-'.isAlpha = false by decide)]
    split
    · rfl
    · split <;> rfl

/-- Whether a point and a digit stand at the start of a text. -/
def atFraction : List Char → Bool
  | c :: d :: _ => c = '.' && isDigit d
  | _ => false

theorem atFraction_apply (cs : List Char) : atFraction (r.apply cs) = atFraction cs := by
  match cs with
  | [] => rfl
  | [c] => rfl
  | c :: d :: cs =>
    rw [apply_cons, apply_cons, atFraction, atFraction, isDigit_change]
    simp only [r.change_eq_iff (show '.'.isAlpha = false by decide)]

theorem atFraction_of_ne {c : Char} (hc : c ≠ '.') (cs : List Char) : atFraction (c :: cs) = false := by
  cases cs with
  | nil => rfl
  | cons d cs => rw [atFraction, decide_eq_false hc, Bool.false_and]

theorem takeFraction_eq (cs : List Char) :
    takeFraction cs = if atFraction cs then takeDigits cs.tail else ([], cs) := by
  unfold takeFraction
  split
  · next c cs =>
    rw [atFraction, List.tail_cons, decide_eq_true rfl, Bool.true_and]
  · next h =>
    have hnone : atFraction cs = false := by
      match cs with
      | [] => rfl
      | [c] => rfl
      | c :: d :: rest =>
        exact atFraction_of_ne (fun hc => h d rest (by rw [hc])) (d :: rest)
    rw [hnone]
    rfl

theorem startsNumber_eq (cs : List Char) :
    startsNumber cs =
      (atFraction (takeSign cs).2.2 || (takeSign cs).2.2.head?.any isDigit) := by
  unfold startsNumber
  split
  · next c rest heq =>
    have hpoint : isDigit '.' = false := rfl
    rw [heq, List.head?_cons, Option.any_some, hpoint, Bool.or_false]
    rfl
  · next c rest h heq =>
    rw [heq, List.head?_cons, Option.any_some]
    cases rest with
    | nil => rfl
    | cons d rest =>
      have hc : c ≠ '.' := fun hc => h d rest hc rfl
      rw [atFraction_of_ne hc, Bool.false_or]
  · next heq =>
    rw [heq]
    rfl

theorem startsNumber_apply (cs : List Char) : startsNumber (r.apply cs) = startsNumber cs := by
  have hhead : ∀ cs, (r.apply cs).head?.any isDigit = cs.head?.any isDigit := by
    intro cs
    cases cs with
    | nil => rfl
    | cons c cs => exact isDigit_change r _ c
  rw [startsNumber_eq, takeSign_apply, atFraction_apply, hhead, ← startsNumber_eq]

theorem apply_tail (cs : List Char) : (r.apply cs).tail = r.apply cs.tail := by
  cases cs <;> rfl

theorem takeFraction_apply (cs : List Char) :
    takeFraction (r.apply cs) = ((takeFraction cs).1, r.apply (takeFraction cs).2) := by
  rw [takeFraction_eq, takeFraction_eq, atFraction_apply, apply_tail, takeDigits_apply]
  split <;> rfl

theorem takeExponent_apply (cs : List Char) :
    takeExponent (r.apply cs) = ((takeExponent cs).1, r.apply (takeExponent cs).2) := by
  cases cs with
  | nil => rfl
  | cons e rest =>
    have hmark : (r.change rest.length e == 'e' || r.change rest.length e == 'E') =
        (e == 'e' || e == 'E') := by
      by_cases he : e.isAlpha = true
      · have hlower := Text.forall_letter
          (fun d => (d == 'e' || d == 'E') = (d.toLower == 'e')) (by rfl)
        rw [hlower e he, hlower _ ((r.isAlpha_change _ e).trans he), r.toLower_change]
      · rw [r.change_of_not_isAlpha (Bool.eq_false_iff.2 he)]
    rw [apply_cons, takeExponent, takeExponent, hmark]
    split
    · rw [takeSign_apply]
      dsimp only
      rw [takeDigits_apply]
      cases takeDigits (takeSign rest).2.2 with
      | mk digits after => cases digits <;> rfl
    · rfl

theorem takeNumeral_apply (cs : List Char) :
    takeNumeral (r.apply cs) = ((takeNumeral cs).1, r.apply (takeNumeral cs).2) := by
  simp only [takeNumeral, takeSign_apply, takeDigits_apply, takeFraction_apply, takeExponent_apply]

end Token

end CriticalCss
