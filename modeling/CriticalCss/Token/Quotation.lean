import CriticalCss.Token.Escape

/-!
# Strings, comments and unquoted addresses

Each function here reads one construct after its opening characters and returns its value and the
text after it.  An unquoted address that holds a quote, a round bracket or a control character is
bad; it then extends to the next closing bracket that is not escaped.
-/

namespace CriticalCss.Token

/-- How a string ends: at its quote or the end of the text, or before a line end. -/
inductive StringEnd where
  | closed
  | broken
deriving DecidableEq

/-- Reads a string up to the given quote. -/
def takeString (quote : Char) : List Char → List Char × StringEnd × List Char
  | [] => ([], .closed, [])
  | c :: cs =>
    if c = quote then ([], .closed, cs)
    else if isNewline c then ([], .broken, c :: cs)
    else if c = '\\' then
      match cs with
      | [] => ([], .closed, [])
      | d :: rest =>
        if isNewline d then takeString quote (dropNewline (d :: rest))
        else
          let e := takeEscape (d :: rest)
          let r := takeString quote e.2
          (e.1 :: r.1, r.2)
    else
      let r := takeString quote cs
      (visible c :: r.1, r.2)
termination_by cs => cs.length
decreasing_by
  · have := (dropNewline_suffix (d :: rest)).length_le; simp only [List.length_cons] at *; omega
  · have := (takeEscape_suffix (d :: rest)).length_le; simp only [List.length_cons] at *; omega
  · simp

section Strings

variable {quote c d : Char}

theorem takeString_nil (quote : Char) : takeString quote [] = ([], .closed, []) := by
  rw [takeString]

theorem takeString_quote (quote : Char) (cs : List Char) :
    takeString quote (quote :: cs) = ([], .closed, cs) := by
  rw [takeString.eq_def]
  exact if_pos rfl

theorem takeString_newline (hquote : c ≠ quote) (hline : isNewline c = true) (cs : List Char) :
    takeString quote (c :: cs) = ([], .broken, c :: cs) := by
  rw [takeString.eq_def]
  exact (if_neg hquote).trans (if_pos hline)

theorem takeString_backslash (hquote : '\\' ≠ quote) :
    takeString quote ['\\'] = ([], .closed, []) := by
  rw [takeString.eq_def]
  exact if_neg hquote

/-- A line end after a backslash is left out. -/
theorem takeString_continued (hquote : '\\' ≠ quote) (hline : isNewline d = true)
    (cs : List Char) :
    takeString quote ('\\' :: d :: cs) = takeString quote (dropNewline (d :: cs)) := by
  rw [takeString.eq_def]
  exact (if_neg hquote).trans (if_pos hline)

theorem takeString_escape (hquote : '\\' ≠ quote) (hline : isNewline d = false)
    (cs : List Char) :
    takeString quote ('\\' :: d :: cs) =
      ((takeEscape (d :: cs)).1 :: (takeString quote (takeEscape (d :: cs)).2).1,
        (takeString quote (takeEscape (d :: cs)).2).2) := by
  rw [takeString.eq_def]
  exact (if_neg hquote).trans (if_neg (Bool.eq_false_iff.1 hline))

theorem takeString_char (hquote : c ≠ quote) (hline : isNewline c = false) (hback : c ≠ '\\')
    (cs : List Char) :
    takeString quote (c :: cs) =
      (visible c :: (takeString quote cs).1, (takeString quote cs).2) := by
  rw [takeString.eq_def]
  exact (if_neg hquote).trans ((if_neg (Bool.eq_false_iff.1 hline)).trans (if_neg hback))

/-- What holds of every text that a string is read from. -/
@[elab_as_elim]
theorem takeString_induction (quote : Char) {motive : List Char → Prop} (nil : motive [])
    (close : ∀ cs, motive (quote :: cs))
    (newline : ∀ c cs, c ≠ quote → isNewline c = true → motive (c :: cs))
    (backslash : '\\' ≠ quote → motive ['\\'])
    (continued : ∀ d cs, '\\' ≠ quote → isNewline d = true → motive (dropNewline (d :: cs)) →
      motive ('\\' :: d :: cs))
    (escape : ∀ d cs, '\\' ≠ quote → isNewline d = false → motive (takeEscape (d :: cs)).2 →
      motive ('\\' :: d :: cs))
    (char : ∀ c cs, c ≠ quote → isNewline c = false → c ≠ '\\' → motive cs → motive (c :: cs))
    (cs : List Char) : motive cs := by
  induction hlength : cs.length using Nat.strongRecOn generalizing cs with
  | _ length ih =>
    subst hlength
    replace ih : ∀ ds, ds.length < cs.length → motive ds := fun ds hlt => ih _ hlt ds rfl
    cases cs with
    | nil => exact nil
    | cons c cs =>
      by_cases hquote : c = quote
      · exact hquote ▸ close cs
      by_cases hline : isNewline c = true
      · exact newline c cs hquote hline
      by_cases hback : c = '\\'
      · subst hback
        cases cs with
        | nil => exact backslash hquote
        | cons d cs =>
          by_cases hline : isNewline d = true
          · have hle := (dropNewline_suffix (d :: cs)).length_le
            exact continued d cs hquote hline (ih _ (Nat.lt_succ_of_le hle))
          · have hle := (takeEscape_suffix (d :: cs)).length_le
            exact escape d cs hquote (Bool.eq_false_iff.2 hline) (ih _ (Nat.lt_succ_of_le hle))
      · exact char c cs hquote (Bool.eq_false_iff.2 hline) hback (ih cs (Nat.lt_succ_self _))

end Strings

theorem takeString_suffix (quote : Char) (cs : List Char) : (takeString quote cs).2.2 <:+ cs := by
  induction cs using takeString_induction quote with
  | nil => simp only [takeString_nil, List.suffix_rfl]
  | close cs =>
    rw [takeString_quote]
    exact List.suffix_cons _ _
  | newline c cs hquote hline => simp only [takeString_newline hquote hline, List.suffix_rfl]
  | backslash hquote =>
    rw [takeString_backslash hquote]
    exact List.nil_suffix
  | continued d cs hquote hline ih =>
    rw [takeString_continued hquote hline]
    exact (ih.trans (dropNewline_suffix _)).trans (List.suffix_cons _ _)
  | escape d cs hquote hline ih =>
    rw [takeString_escape hquote hline]
    exact (ih.trans (takeEscape_suffix _)).trans (List.suffix_cons _ _)
  | char c cs hquote hline hback ih =>
    rw [takeString_char hquote hline hback]
    exact ih.trans (List.suffix_cons c cs)

/-- Reads a comment after its opening: the text up to the closing mark or the end. -/
def takeComment : List Char → List Char × List Char
  | [] => ([], [])
  | '*' :: '/' :: cs => ([], cs)
  | c :: cs => (c :: (takeComment cs).1, (takeComment cs).2)

theorem takeComment_char {c : Char} {cs : List Char} (h : c = '*' → cs.head? ≠ some '/') :
    takeComment (c :: cs) = (c :: (takeComment cs).1, (takeComment cs).2) := by
  rw [takeComment]
  rintro rest hc rfl
  exact h hc rfl

/-- What holds of every text that a comment is read from. -/
@[elab_as_elim]
theorem takeComment_induction {motive : List Char → Prop} (nil : motive [])
    (close : ∀ cs, motive ('*' :: '/' :: cs))
    (char : ∀ c cs, (c = '*' → cs.head? ≠ some '/') → motive cs → motive (c :: cs))
    (cs : List Char) : motive cs := by
  induction cs with
  | nil => exact nil
  | cons c cs ih =>
    by_cases hclose : c = '*' ∧ cs.head? = some '/'
    · obtain ⟨rfl, hhead⟩ := hclose
      obtain ⟨rest, rfl⟩ := List.head?_eq_some_iff.1 hhead
      exact close rest
    · exact char c cs (fun hc hhead => hclose ⟨hc, hhead⟩) ih

theorem takeComment_suffix (cs : List Char) : (takeComment cs).2 <:+ cs := by
  induction cs using takeComment_induction with
  | nil => exact List.suffix_rfl
  | close cs => exact (List.suffix_cons _ _).trans (List.suffix_cons _ _)
  | char c cs hc ih =>
    rw [takeComment_char hc]
    exact ih.trans (List.suffix_cons c cs)

/-- The text of a bad address up to a closing bracket that is not escaped. -/
def takeBadUrl : List Char → List Char × List Char
  | [] => ([], [])
  | c :: cs =>
    if c = ')' then ([], cs)
    else if c = '\\' then
      match cs with
      | d :: rest =>
        if d = ')' ∨ d = '\\' then (c :: d :: (takeBadUrl rest).1, (takeBadUrl rest).2)
        else (c :: (takeBadUrl (d :: rest)).1, (takeBadUrl (d :: rest)).2)
      | [] => ([c], [])
    else (c :: (takeBadUrl cs).1, (takeBadUrl cs).2)

theorem takeBadUrl_close (cs : List Char) : takeBadUrl (')' :: cs) = ([], cs) := by
  rw [takeBadUrl.eq_def]
  exact if_pos rfl

theorem takeBadUrl_escaped {d : Char} (hd : d = ')' ∨ d = '\\') (cs : List Char) :
    takeBadUrl ('\\' :: d :: cs) = ('\\' :: d :: (takeBadUrl cs).1, (takeBadUrl cs).2) := by
  rw [takeBadUrl.eq_def]
  exact if_pos hd

theorem takeBadUrl_char {c : Char} {cs : List Char} (hc : c ≠ ')')
    (hback : c = '\\' → ∀ d ∈ cs.head?, ¬(d = ')' ∨ d = '\\')) :
    takeBadUrl (c :: cs) = (c :: (takeBadUrl cs).1, (takeBadUrl cs).2) := by
  rw [takeBadUrl.eq_def]
  dsimp only
  rw [if_neg hc]
  by_cases heq : c = '\\'
  · rw [if_pos heq]
    cases cs with
    | nil => rfl
    | cons d cs => exact if_neg (hback heq d rfl)
  · rw [if_neg heq]

/-- What holds of every text that a bad address is read from. -/
@[elab_as_elim]
theorem takeBadUrl_induction {motive : List Char → Prop} (nil : motive [])
    (close : ∀ cs, motive (')' :: cs))
    (escaped : ∀ d cs, (d = ')' ∨ d = '\\') → motive cs → motive ('\\' :: d :: cs))
    (char : ∀ c cs, c ≠ ')' → (c = '\\' → ∀ d ∈ cs.head?, ¬(d = ')' ∨ d = '\\')) →
      motive cs → motive (c :: cs)) : ∀ cs, motive cs
  | [] => nil
  | c :: cs => by
    by_cases hc : c = ')'
    · exact hc ▸ close cs
    by_cases hescaped : c = '\\' ∧ ∃ d ∈ cs.head?, d = ')' ∨ d = '\\'
    · obtain ⟨rfl, d, hhead, hd⟩ := hescaped
      obtain ⟨rest, rfl⟩ := List.head?_eq_some_iff.1 hhead
      exact escaped d rest hd (takeBadUrl_induction nil close escaped char rest)
    · exact char c cs hc (fun hback d hhead hd => hescaped ⟨hback, d, hhead, hd⟩)
        (takeBadUrl_induction nil close escaped char cs)
termination_by cs => cs.length

theorem takeBadUrl_suffix (cs : List Char) : (takeBadUrl cs).2 <:+ cs := by
  induction cs using takeBadUrl_induction with
  | nil => exact List.suffix_rfl
  | close cs =>
    rw [takeBadUrl_close]
    exact List.suffix_cons _ _
  | escaped d cs hd ih =>
    rw [takeBadUrl_escaped hd]
    exact (ih.trans (List.suffix_cons _ _)).trans (List.suffix_cons _ _)
  | char c cs hc hback ih =>
    rw [takeBadUrl_char hc hback]
    exact ih.trans (List.suffix_cons c cs)

/-- Characters that spoil an unquoted address. -/
def spoilsUrl (c : Char) : Bool :=
  let n := c.toNat
  (0x01 ≤ n && n ≤ 0x08) || n == 0x0b || (0x0e ≤ n && n ≤ 0x1f) || n == 0x7f ||
    c == '"' || c == '\'' || c == '('

/-- What stands in an unquoted address: its value and the text after it, or the text from which on
it is bad. -/
inductive UrlBody where
  | good (value : List Char) (rest : List Char)
  | bad (rest : List Char)

namespace UrlBody

/-- The text that is left. -/
def rest : UrlBody → List Char
  | .good _ r => r
  | .bad r => r

/-- Puts a character before the value. -/
def push (c : Char) : UrlBody → UrlBody
  | .good v r => .good (c :: v) r
  | .bad r => .bad r

@[simp]
theorem rest_push (c : Char) (u : UrlBody) : (u.push c).rest = u.rest := by
  cases u <;> rfl

end UrlBody

/-- Only white space may stand between an address and its closing bracket. -/
def takeUrlEnd : List Char → UrlBody
  | [] => .good [] []
  | c :: cs =>
    if c = ')' then .good [] cs
    else if isSpace c then takeUrlEnd cs
    else .bad cs

/-- Reads an unquoted address from its first character on. -/
def takeUrl : List Char → UrlBody
  | [] => .good [] []
  | c :: cs =>
    if isSpace c then takeUrlEnd (c :: cs)
    else if c = ')' then .good [] cs
    else if spoilsUrl c then .bad cs
    else if c = '\\' then
      if atNewline cs then .bad cs
      else
        let e := takeEscape cs
        (takeUrl e.2).push e.1
    else (takeUrl cs).push (visible c)
termination_by cs => cs.length
decreasing_by
  · have := (takeEscape_suffix cs).length_le
    simp; omega
  · simp

theorem takeUrlEnd_suffix (cs : List Char) : (takeUrlEnd cs).rest <:+ cs := by
  induction cs with
  | nil => exact List.suffix_rfl
  | cons c cs ih =>
    rw [takeUrlEnd]
    split
    · exact List.suffix_cons _ _
    · split
      · exact ih.trans (List.suffix_cons c cs)
      · exact List.suffix_cons _ _

section Addresses

variable {c : Char}

theorem takeUrl_nil : takeUrl [] = .good [] [] := by
  rw [takeUrl]

theorem takeUrl_space (hspace : isSpace c = true) (cs : List Char) :
    takeUrl (c :: cs) = takeUrlEnd (c :: cs) := by
  rw [takeUrl, if_pos hspace]

theorem takeUrl_close (cs : List Char) : takeUrl (')' :: cs) = .good [] cs := by
  rw [takeUrl, if_neg (by decide), if_pos rfl]

theorem takeUrl_spoiled (hspace : isSpace c = false) (hc : c ≠ ')') (hspoils : spoilsUrl c = true)
    (cs : List Char) : takeUrl (c :: cs) = .bad cs := by
  rw [takeUrl, if_neg (by simp [hspace]), if_neg hc, if_pos hspoils]

theorem takeUrl_newline {cs : List Char} (hline : atNewline cs = true) :
    takeUrl ('\\' :: cs) = .bad cs := by
  rw [takeUrl, if_neg (by decide), if_neg (by decide), if_neg (by decide), if_pos rfl, if_pos hline]

theorem takeUrl_escape {cs : List Char} (hline : atNewline cs = false) :
    takeUrl ('\\' :: cs) = (takeUrl (takeEscape cs).2).push (takeEscape cs).1 := by
  rw [takeUrl, if_neg (by decide), if_neg (by decide), if_neg (by decide), if_pos rfl,
    if_neg (by simp [hline])]

theorem takeUrl_char (hspace : isSpace c = false) (hc : c ≠ ')') (hspoils : spoilsUrl c = false)
    (hback : c ≠ '\\') (cs : List Char) : takeUrl (c :: cs) = (takeUrl cs).push (visible c) := by
  rw [takeUrl, if_neg (by simp [hspace]), if_neg hc, if_neg (by simp [hspoils]), if_neg hback]

/-- What holds of every text that an address is read from. -/
@[elab_as_elim]
theorem takeUrl_induction {motive : List Char → Prop} (nil : motive [])
    (space : ∀ c cs, isSpace c = true → motive (c :: cs)) (close : ∀ cs, motive (')' :: cs))
    (spoiled : ∀ c cs, isSpace c = false → c ≠ ')' → spoilsUrl c = true → motive (c :: cs))
    (newline : ∀ cs, atNewline cs = true → motive ('\\' :: cs))
    (escape : ∀ cs, atNewline cs = false → motive (takeEscape cs).2 → motive ('\\' :: cs))
    (char : ∀ c cs, isSpace c = false → c ≠ ')' → spoilsUrl c = false → c ≠ '\\' → motive cs →
      motive (c :: cs)) : ∀ cs, motive cs
  | [] => nil
  | c :: cs => by
    by_cases hspace : isSpace c = true
    · exact space c cs hspace
    replace hspace := Bool.eq_false_iff.2 hspace
    by_cases hc : c = ')'
    · exact hc ▸ close cs
    by_cases hspoils : spoilsUrl c = true
    · exact spoiled c cs hspace hc hspoils
    replace hspoils := Bool.eq_false_iff.2 hspoils
    by_cases hback : c = '\\'
    · subst hback
      by_cases hline : atNewline cs = true
      · exact newline cs hline
      · exact escape cs (Bool.eq_false_iff.2 hline)
          (takeUrl_induction nil space close spoiled newline escape char (takeEscape cs).2)
    · exact char c cs hspace hc hspoils hback
        (takeUrl_induction nil space close spoiled newline escape char cs)
termination_by cs => cs.length
decreasing_by
  · have := (takeEscape_suffix cs).length_le
    simp; omega
  · simp

end Addresses

theorem takeUrl_suffix (cs : List Char) : (takeUrl cs).rest <:+ cs := by
  induction cs using takeUrl_induction with
  | nil => simp only [takeUrl_nil, UrlBody.rest, List.suffix_rfl]
  | space c cs hspace =>
    rw [takeUrl_space hspace]
    exact takeUrlEnd_suffix (c :: cs)
  | close cs =>
    rw [takeUrl_close]
    exact List.suffix_cons _ _
  | spoiled c cs hspace hc hspoils =>
    rw [takeUrl_spoiled hspace hc hspoils]
    exact List.suffix_cons _ _
  | newline cs hline =>
    rw [takeUrl_newline hline]
    exact List.suffix_cons _ _
  | escape cs hline ih =>
    rw [takeUrl_escape hline, UrlBody.rest_push]
    exact (ih.trans (takeEscape_suffix cs)).trans (List.suffix_cons _ _)
  | char c cs hspace hc hspoils hback ih =>
    rw [takeUrl_char hspace hc hspoils hback, UrlBody.rest_push]
    exact ih.trans (List.suffix_cons c cs)

end CriticalCss.Token
