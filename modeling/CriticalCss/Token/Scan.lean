import CriticalCss.Token.Number
import CriticalCss.Token.Quotation

/-!
# Reading one token

`scan` reads the token at the start of a text, and returns it with the text after it.  It fails
only on the empty text, and every token takes at least one character (`scan_length_lt`).
-/

namespace CriticalCss.Token

/-- An unquoted address after its opening bracket, unless a quote follows. -/
def scanUrl? (cs : List Char) : Option (Token × List Char) :=
  match cs.dropWhile isSpace with
  | [] => some (.url "", [])
  | c :: rest =>
    if c = '"' ∨ c = '\'' then none
    else if c = ')' then some (.url "", rest)
    else
      match takeUrl (c :: rest) with
      | .good value after => some (.url (String.ofList value), after)
      | .bad from' =>
        let tail := takeBadUrl from'
        let head := (c :: rest).take ((c :: rest).length - from'.length)
        some (.badUrl (String.ofList (head ++ tail.1)), tail.2)

/-- A name, a function name with its opening bracket, or an unquoted address. -/
def scanName (cs : List Char) : Token × List Char :=
  let (chars, rest) := takeName cs
  let name := String.ofList chars
  match rest with
  | '(' :: inner =>
    if Text.sameLetters name "url" then (scanUrl? inner).getD (.function name, inner)
    else (.function name, inner)
  | _ => (.ident name, rest)

/-- A number with the percent sign or the unit that follows it. -/
def scanNumber (cs : List Char) : Token × List Char :=
  let (n, rest) := takeNumeral cs
  match rest with
  | '%' :: after => (.percentage n, after)
  | _ =>
    if startsName rest then
      (.dimension n (String.ofList (takeName rest).1), (takeName rest).2)
    else (.number n, rest)

/-- A string after its opening quote. -/
def scanString (quote : Char) (cs : List Char) : Token × List Char :=
  let (value, ending, rest) := takeString quote cs
  match ending with
  | .closed => (.string (String.ofList value), rest)
  | .broken => (.badString (String.ofList value), rest)

/-- A run of white space. -/
def scanSpace (cs : List Char) : Token × List Char :=
  (.space (String.ofList (cs.takeWhile isSpace)), cs.dropWhile isSpace)

/-- What follows a number sign. -/
def scanHash (cs : List Char) : Token × List Char :=
  let (name, rest) := takeName cs
  if startsName cs then (.idHash (String.ofList name), rest)
  else
    match cs with
    | c :: _ => if isDigit c || c == '-' then (.hash (String.ofList name), rest) else (.delim '#', cs)
    | [] => (.delim '#', cs)

/-- The tokens of one to four fixed characters. -/
def scanMark : List Char → Option (Token × List Char)
  | '$' :: '=' :: cs => some (.endMatch, cs)
  | '*' :: '=' :: cs => some (.substringMatch, cs)
  | '^' :: '=' :: cs => some (.startMatch, cs)
  | '|' :: '=' :: cs => some (.dashMatch, cs)
  | '~' :: '=' :: cs => some (.includeMatch, cs)
  | '-' :: '-' :: '>' :: cs => some (.cdc, cs)
  | '<' :: '!' :: '-' :: '-' :: cs => some (.cdo, cs)
  | '(' :: cs => some (.opening .round, cs)
  | ')' :: cs => some (.closing .round, cs)
  | '[' :: cs => some (.opening .square, cs)
  | ']' :: cs => some (.closing .square, cs)
  | '{' :: cs => some (.opening .curly, cs)
  | '}' :: cs => some (.closing .curly, cs)
  | ',' :: cs => some (.comma, cs)
  | ':' :: cs => some (.colon, cs)
  | ';' :: cs => some (.semicolon, cs)
  | _ => none

/-- The token at the start of a text, and the text after it. -/
def scan (cs : List Char) : Option (Token × List Char) :=
  match cs with
  | [] => none
  | c :: rest =>
    if isSpace c then some (scanSpace cs)
    else if c = '"' ∨ c = '\'' then some (scanString c rest)
    else if c = '#' then some (scanHash rest)
    else if startsNumber cs then some (scanNumber cs)
    else
      match scanMark cs with
      | some marked => some marked
      | none =>
        if c = '/' ∧ rest.head? = some '*' then
          let (text, after) := takeComment rest.tail
          some (.comment (String.ofList text), after)
        else if c = '@' ∧ startsName rest then
          some (.atKeyword (String.ofList (takeName rest).1), (takeName rest).2)
        else if startsName cs then some (scanName cs)
        else some (.delim c, rest)

/-! ## What a token is read from -/

/-- The tokens of fixed characters, with these. -/
def marks : List (List Char × Token) :=
  [(['$', '='], .endMatch), (['*', '='], .substringMatch), (['^', '='], .startMatch),
    (['|', '='], .dashMatch), (['~', '='], .includeMatch), (['-', '-', '>'], .cdc),
    (['<', '!', '-', '-'], .cdo), (['('], .opening .round), ([')'], .closing .round),
    (['['], .opening .square), ([']'], .closing .square), (['\x7b'], .opening .curly),
    (['\x7d'], .closing .curly), ([','], .comma), ([':'], .colon), ([';'], .semicolon)]

/-- A token with the text it is read from, the text it is read in and what is left of it.  The rules are
named for the kinds of tokens. -/
inductive Scanned : List Char → Token → List Char → Prop where
  | space {c : Char} {cs : List Char} (space : isSpace c = true) :
    Scanned (c :: cs) (.space (String.ofList (c :: cs.takeWhile isSpace))) (cs.dropWhile isSpace)
  | string {quote : Char} {cs value rest : List Char} (quotes : quote = '"' ∨ quote = '\'')
    (taken : takeString quote cs = (value, .closed, rest)) :
    Scanned (quote :: cs) (.string (String.ofList value)) rest
  | badString {quote : Char} {cs value rest : List Char} (quotes : quote = '"' ∨ quote = '\'')
    (taken : takeString quote cs = (value, .broken, rest)) :
    Scanned (quote :: cs) (.badString (String.ofList value)) rest
  | idHash {cs name rest : List Char} (starts : startsName cs = true)
    (taken : takeName cs = (name, rest)) : Scanned ('#' :: cs) (.idHash (String.ofList name)) rest
  | hash {cs name rest : List Char} (taken : takeName cs = (name, rest)) :
    Scanned ('#' :: cs) (.hash (String.ofList name)) rest
  | percentage {cs rest : List Char} {n : Numeral} (starts : startsNumber cs = true)
    (taken : takeNumeral cs = (n, '%' :: rest)) : Scanned cs (.percentage n) rest
  | dimension {cs after unit rest : List Char} {n : Numeral} (starts : startsNumber cs = true)
    (taken : takeNumeral cs = (n, after)) (takenUnit : takeName after = (unit, rest)) :
    Scanned cs (.dimension n (String.ofList unit)) rest
  | number {cs rest : List Char} {n : Numeral} (starts : startsNumber cs = true)
    (taken : takeNumeral cs = (n, rest)) : Scanned cs (.number n) rest
  | mark {cs chars rest : List Char} {t : Token} (mem : (chars, t) ∈ marks)
    (text : cs = chars ++ rest) : Scanned cs t rest
  | comment {cs text rest : List Char} (taken : takeComment cs = (text, rest)) :
    Scanned ('/' :: '*' :: cs) (.comment (String.ofList text)) rest
  | atKeyword {cs name rest : List Char} (starts : startsName cs = true)
    (taken : takeName cs = (name, rest)) : Scanned ('@' :: cs) (.atKeyword (String.ofList name)) rest
  | ident {cs name rest : List Char} (starts : startsName cs = true)
    (taken : takeName cs = (name, rest)) (other : rest.head? ≠ some '(') :
    Scanned cs (.ident (String.ofList name)) rest
  | function {cs name rest : List Char} (starts : startsName cs = true)
    (taken : takeName cs = (name, '(' :: rest)) : Scanned cs (.function (String.ofList name)) rest
  | url {cs name inner value rest : List Char} (starts : startsName cs = true)
    (taken : takeName cs = (name, '(' :: inner))
    (takenUrl : takeUrl (inner.dropWhile isSpace) = .good value rest) :
    Scanned cs (.url (String.ofList value)) rest
  | badUrl {cs name inner after text rest : List Char} {value : String}
    (starts : startsName cs = true) (taken : takeName cs = (name, '(' :: inner))
    (spoiled : takeUrl (inner.dropWhile isSpace) = .bad after)
    (takenUrl : takeBadUrl after = (text, rest)) : Scanned cs (.badUrl value) rest
  | delim {c : Char} {cs : List Char} : Scanned (c :: cs) (.delim c) cs

section Scanned

variable {cs rest : List Char} {t : Token}

theorem scanned_scanString {quote : Char} (quotes : quote = '"' ∨ quote = '\'') (cs : List Char) :
    Scanned (quote :: cs) (scanString quote cs).1 (scanString quote cs).2 := by
  rw [scanString]
  cases htaken : takeString quote cs with
  | mk value found =>
    obtain ⟨ending, rest⟩ := found
    cases ending with
    | closed => exact .string quotes htaken
    | broken => exact .badString quotes htaken

theorem scanned_scanHash (cs : List Char) :
    Scanned ('#' :: cs) (scanHash cs).1 (scanHash cs).2 := by
  unfold scanHash
  dsimp only
  by_cases hstarts : startsName cs = true
  · rw [if_pos hstarts]
    exact .idHash hstarts rfl
  rw [if_neg hstarts]
  cases cs with
  | nil => exact .delim
  | cons c cs =>
    dsimp only
    split
    · exact .hash rfl
    · exact .delim

theorem scanned_scanNumber (hstarts : startsNumber cs = true) :
    Scanned cs (scanNumber cs).1 (scanNumber cs).2 := by
  unfold scanNumber
  dsimp only
  split
  · next after heq => exact .percentage hstarts (Prod.ext rfl heq)
  · split
    · exact .dimension hstarts rfl rfl
    · exact .number hstarts rfl

theorem exists_mark_of_scanMark (h : scanMark cs = some (t, rest)) :
    ∃ chars, (chars, t) ∈ marks ∧ cs = chars ++ rest := by
  unfold scanMark at h
  split at h <;> cases h
  all_goals simp [marks]

/-- There is no mark where none that begins with the first character goes on. -/
theorem scanMark_eq_none {c : Char} (h : ∀ m ∈ marks, ∀ ds, m.1 = c :: ds → ¬ds <+: cs) :
    scanMark (c :: cs) = none := by
  cases hmark : scanMark (c :: cs) with
  | none => rfl
  | some found =>
    obtain ⟨t, rest⟩ := found
    obtain ⟨chars, hmem, htext⟩ := exists_mark_of_scanMark hmark
    have hne : ∀ m ∈ marks, m.1 ≠ [] := by decide
    cases chars with
    | nil => exact absurd rfl (hne _ hmem)
    | cons d ds =>
      obtain ⟨rfl, hds⟩ := List.cons.inj htext
      exact absurd ⟨rest, hds.symm⟩ (h _ hmem ds rfl)

/-- An unquoted address ends where its value ends, or where the bad address ends. -/
theorem scanUrl?_cases (h : scanUrl? cs = some (t, rest)) :
    (∃ value, t = .url (String.ofList value) ∧ takeUrl (cs.dropWhile isSpace) = .good value rest) ∨
      ∃ value after, t = .badUrl value ∧ takeUrl (cs.dropWhile isSpace) = .bad after ∧
        (takeBadUrl after).2 = rest := by
  unfold scanUrl? at h
  split at h
  · next heq =>
    cases h
    exact .inl ⟨[], rfl, by rw [heq, takeUrl_nil]⟩
  · next c tail heq =>
    rw [heq]
    by_cases hquote : c = '"' ∨ c = '\''
    · rw [if_pos hquote] at h
      cases h
    rw [if_neg hquote] at h
    by_cases hround : c = ')'
    · subst hround
      cases h
      exact .inl ⟨[], rfl, takeUrl_close _⟩
    rw [if_neg hround] at h
    cases hurl : takeUrl (c :: tail) with
    | good value after =>
      rw [hurl] at h
      cases h
      exact .inl ⟨value, rfl, rfl⟩
    | bad after =>
      rw [hurl] at h
      cases h
      exact .inr ⟨_, after, rfl, rfl, rfl⟩

theorem scanName_of_bracket {name inner : List Char} (h : takeName cs = (name, '(' :: inner)) :
    scanName cs =
      if Text.sameLetters (String.ofList name) "url" then
        (scanUrl? inner).getD (.function (String.ofList name), inner)
      else (.function (String.ofList name), inner) := by
  rw [scanName, h]
  rfl

theorem scanName_of_ne {name : List Char} (h : takeName cs = (name, rest))
    (hother : rest.head? ≠ some '(') : scanName cs = (.ident (String.ofList name), rest) := by
  rw [scanName, h]
  dsimp only
  split
  · exact absurd rfl hother
  · rfl

theorem scanned_scanName (hstarts : startsName cs = true) :
    Scanned cs (scanName cs).1 (scanName cs).2 := by
  cases htaken : takeName cs with
  | mk name rest =>
    by_cases hround : rest.head? = some '('
    · obtain ⟨inner, rfl⟩ := List.head?_eq_some_iff.1 hround
      rw [scanName_of_bracket htaken]
      split
      · cases hurl : scanUrl? inner with
        | none => exact .function hstarts htaken
        | some found =>
          rw [Option.getD_some]
          rcases scanUrl?_cases hurl with ⟨value, heq, hgood⟩ | ⟨value, after, heq, hbad, hrest⟩
          · rw [heq]
            exact .url hstarts htaken hgood
          · rw [heq]
            exact .badUrl hstarts htaken hbad (Prod.ext rfl hrest)
      · exact .function hstarts htaken
    · rw [scanName_of_ne htaken hround]
      exact .ident hstarts htaken hround

/-- Every token is read in one of these ways. -/
theorem scanned_of_scan (h : scan cs = some (t, rest)) : Scanned cs t rest := by
  have hfound {found : Token × List Char} (hscanned : Scanned cs found.1 found.2)
      (hsome : some found = some (t, rest)) : Scanned cs t rest := by
    cases hsome
    exact hscanned
  cases cs with
  | nil => cases h
  | cons c tail =>
    rw [scan] at h
    by_cases hspace : isSpace c = true
    · rw [if_pos hspace, scanSpace, List.takeWhile_cons_of_pos hspace,
        List.dropWhile_cons_of_pos hspace] at h
      exact hfound (.space hspace) h
    rw [if_neg hspace] at h
    by_cases hquote : c = '"' ∨ c = '\''
    · rw [if_pos hquote] at h
      exact hfound (scanned_scanString hquote tail) h
    rw [if_neg hquote] at h
    by_cases hhash : c = '#'
    · subst hhash
      rw [if_pos rfl] at h
      exact hfound (scanned_scanHash tail) h
    rw [if_neg hhash] at h
    by_cases hnumber : startsNumber (c :: tail) = true
    · rw [if_pos hnumber] at h
      exact hfound (scanned_scanNumber hnumber) h
    rw [if_neg hnumber] at h
    cases hmark : scanMark (c :: tail) with
    | some found =>
      rw [hmark] at h
      cases h
      obtain ⟨chars, hmem, htext⟩ := exists_mark_of_scanMark hmark
      exact .mark hmem htext
    | none =>
      rw [hmark] at h
      dsimp only at h
      by_cases hcomment : c = '/' ∧ tail.head? = some '*'
      · obtain ⟨rfl, hstar⟩ := hcomment
        obtain ⟨inner, rfl⟩ := List.head?_eq_some_iff.1 hstar
        rw [if_pos ⟨rfl, hstar⟩] at h
        exact hfound (.comment rfl) h
      rw [if_neg hcomment] at h
      by_cases hat : c = '@' ∧ startsName tail = true
      · obtain ⟨rfl, hstarts⟩ := hat
        rw [if_pos ⟨rfl, hstarts⟩] at h
        exact hfound (.atKeyword hstarts rfl) h
      rw [if_neg hat] at h
      by_cases hstarts : startsName (c :: tail) = true
      · rw [if_pos hstarts] at h
        exact hfound (scanned_scanName hstarts) h
      · rw [if_neg hstarts] at h
        exact hfound .delim h

/-- A shorter later part of a text stands behind its first character. -/
theorem exists_cons_of_suffix (h : rest <:+ cs) (hlt : rest.length < cs.length) :
    ∃ c tail, cs = c :: tail ∧ rest <:+ tail := by
  obtain ⟨front, rfl⟩ := h
  cases front with
  | nil => exact absurd hlt (Nat.lt_irrefl _)
  | cons c front => exact ⟨c, front ++ rest, rfl, List.suffix_append _ _⟩

theorem takeName_eq_suffix {name : List Char} (h : takeName cs = (name, rest)) : rest <:+ cs := by
  have hsuffix := takeName_suffix cs
  rwa [h] at hsuffix

/-- Every token takes the first character, and what is left is a later part of the text. -/
theorem Scanned.exists_cons (h : Scanned cs t rest) : ∃ c tail, cs = c :: tail ∧ rest <:+ tail := by
  have hnumeral {n : Numeral} {after : List Char} (starts : startsNumber cs = true)
      (taken : takeNumeral cs = (n, after)) : ∃ c tail, cs = c :: tail ∧ after <:+ tail := by
    have hsuffix := takeNumeral_suffix cs
    have hlt := takeNumeral_length_lt starts
    rw [taken] at hsuffix hlt
    exact exists_cons_of_suffix hsuffix hlt
  have hname {name after : List Char} (starts : startsName cs = true)
      (taken : takeName cs = (name, after)) : ∃ c tail, cs = c :: tail ∧ after <:+ tail := by
    have hlt := takeName_length_lt starts
    rw [taken] at hlt
    exact exists_cons_of_suffix (takeName_eq_suffix taken) hlt
  have hlonger {after : List Char} (hrest : rest <:+ after)
      (hafter : ∃ c tail, cs = c :: tail ∧ after <:+ tail) :
      ∃ c tail, cs = c :: tail ∧ rest <:+ tail := by
    obtain ⟨c, tail, hcs, htail⟩ := hafter
    exact ⟨c, tail, hcs, hrest.trans htail⟩
  cases h with
  | space => exact ⟨_, _, rfl, List.dropWhile_suffix isSpace⟩
  | @string quote tail _ _ quotes taken =>
    have hsuffix := takeString_suffix quote tail
    rw [taken] at hsuffix
    exact ⟨_, _, rfl, hsuffix⟩
  | @badString quote tail _ _ quotes taken =>
    have hsuffix := takeString_suffix quote tail
    rw [taken] at hsuffix
    exact ⟨_, _, rfl, hsuffix⟩
  | idHash starts taken => exact ⟨_, _, rfl, takeName_eq_suffix taken⟩
  | hash taken => exact ⟨_, _, rfl, takeName_eq_suffix taken⟩
  | percentage starts taken => exact hlonger (List.suffix_cons _ _) (hnumeral starts taken)
  | dimension starts taken takenUnit =>
    exact hlonger (takeName_eq_suffix takenUnit) (hnumeral starts taken)
  | number starts taken => exact hnumeral starts taken
  | @mark _ chars _ _ mem text =>
    subst text
    have hne : ∀ m ∈ marks, m.1 ≠ [] := by decide
    cases chars with
    | nil => exact absurd rfl (hne _ mem)
    | cons c chars => exact ⟨c, chars ++ rest, rfl, List.suffix_append _ _⟩
  | @comment tail _ _ taken =>
    have hsuffix := takeComment_suffix tail
    rw [taken] at hsuffix
    exact ⟨_, _, rfl, hsuffix.trans (List.suffix_cons _ _)⟩
  | atKeyword starts taken => exact ⟨_, _, rfl, takeName_eq_suffix taken⟩
  | ident starts taken => exact hname starts taken
  | function starts taken => exact hlonger (List.suffix_cons _ _) (hname starts taken)
  | @url _ _ inner _ _ starts taken takenUrl =>
    have hsuffix := takeUrl_suffix (inner.dropWhile isSpace)
    rw [takenUrl] at hsuffix
    have hinner := hsuffix.trans (List.dropWhile_suffix isSpace)
    exact hlonger (hinner.trans (List.suffix_cons _ _)) (hname starts taken)
  | @badUrl _ _ inner after _ _ _ starts taken spoiled takenUrl =>
    have hsuffix := takeUrl_suffix (inner.dropWhile isSpace)
    have hbad := takeBadUrl_suffix after
    rw [spoiled] at hsuffix
    rw [takenUrl] at hbad
    have hinner := (hbad.trans hsuffix).trans (List.dropWhile_suffix isSpace)
    exact hlonger (hinner.trans (List.suffix_cons _ _)) (hname starts taken)
  | delim => exact ⟨_, _, rfl, List.suffix_rfl⟩

theorem Scanned.suffix (h : Scanned cs t rest) : rest <:+ cs := by
  obtain ⟨c, tail, rfl, hrest⟩ := h.exists_cons
  exact hrest.trans (List.suffix_cons c tail)

theorem Scanned.length_lt (h : Scanned cs t rest) : rest.length < cs.length := by
  obtain ⟨c, tail, rfl, hrest⟩ := h.exists_cons
  exact Nat.lt_succ_of_le hrest.length_le

/-- What is left after a token is a suffix of the text. -/
theorem scan_suffix (h : scan cs = some (t, rest)) : rest <:+ cs :=
  (scanned_of_scan h).suffix

/-- Every token takes at least one character. -/
theorem scan_length_lt (h : scan cs = some (t, rest)) : rest.length < cs.length :=
  (scanned_of_scan h).length_lt

/-- Only the empty text has no token. -/
theorem scan_eq_none_iff : scan cs = none ↔ cs = [] := by
  constructor
  · intro h
    unfold scan at h
    split at h
    · rfl
    · simp only [] at h
      repeat' split at h
      all_goals simp at h
  · rintro rfl
    rfl

end Scanned

/-- What holds of every text that is read token by token: each token leads on to what is left after it, or
to a place still further on. -/
@[elab_as_elim]
theorem scan_induction {motive : List Char → Prop} (nil : motive [])
    (token : ∀ cs t rest, scan cs = some (t, rest) →
      (∀ ds : List Char, ds.length ≤ rest.length → motive ds) → motive cs)
    (cs : List Char) : motive cs := by
  induction hlength : cs.length using Nat.strongRecOn generalizing cs with
  | _ length ih =>
    subst hlength
    cases hscan : scan cs with
    | none =>
      rw [scan_eq_none_iff.1 hscan]
      exact nil
    | some found =>
      obtain ⟨t, rest⟩ := found
      refine token cs t rest hscan fun ds hds => ih _ ?_ ds rfl
      exact Nat.lt_of_le_of_lt hds (scan_length_lt hscan)

end CriticalCss.Token
