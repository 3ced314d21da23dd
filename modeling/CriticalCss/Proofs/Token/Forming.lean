import CriticalCss.Proofs.Token.Clean
import CriticalCss.Selector.Attribute

/-!
# Texts that become components

`Component.Forms` says that a text in front of another one becomes certain components, whatever
stands before it.  Texts that follow one another can then be treated one by one.

* `Forms.append`, `Forms.token` and `Forms.block` put texts together.
* `scan_idHash` up to `scan_dimension` scan one token each; what must not follow it is a hypothesis.
* `ofText_eq_of_forms` is the whole of a text.
-/

namespace CriticalCss

namespace Token

/-- A token that is a component by itself. -/
def standsAlone : Token → Bool
  | .comment _ => false
  | t => t.opens?.isNone && t.closes?.isNone

end Token

namespace Nesting

theorem add_of_standsAlone {t : Token} (h : t.standsAlone = true) (n : Nesting) :
    n.add t = n.push t := by
  unfold Nesting.add
  split
  · simp [Token.standsAlone] at h
  · simp only [Token.standsAlone, Bool.and_eq_true, Option.isNone_iff_eq_none] at h
    rw [h.1, h.2]
    split
    · next hopens => cases hopens
    · split
      · split
        · next hcloses => cases hcloses.1
        · rfl
      · rfl

theorem add_of_opens {t : Token} {b : Bracket} (h : t.opens? = some b) (n : Nesting) :
    n.add t = ⟨[], (t, n.inner) :: n.outer⟩ := by
  unfold Nesting.add
  split
  · cases h
  · rw [h]
    rfl

theorem add_closing {opening : Token} {b : Bracket} (h : opening.opens? = some b)
    (inner before : List Component) (outer : List (Token × List Component)) :
    Nesting.add ⟨inner, (opening, before) :: outer⟩ (.closing b) =
      ⟨.block opening inner.reverse :: before, outer⟩ := by
  have hmatch : (Token.closing b).closes? = opening.opens? := h.symm
  unfold Nesting.add
  rw [if_neg (by nofun)]
  exact if_pos ⟨rfl, hmatch⟩

end Nesting

namespace Component

/-- A text in front of another one becomes some components. -/
def Forms (x : List Char) (cs : List Component) (rest : List Char) : Prop :=
  ∃ ts, Token.scanAll (x ++ rest) = ts ++ Token.scanAll rest ∧
    ∀ n : Nesting, ts.foldl Nesting.add n = { n with inner := cs.reverse ++ n.inner }

variable {x y rest : List Char} {cs ds : List Component} {t : Token}

theorem Forms.nil (rest : List Char) : Forms [] [] rest :=
  ⟨[], rfl, fun _ => rfl⟩

theorem Forms.append (hx : Forms x cs (y ++ rest)) (hy : Forms y ds rest) :
    Forms (x ++ y) (cs ++ ds) rest := by
  obtain ⟨ts, hscan, hfold⟩ := hx
  obtain ⟨us, hscan', hfold'⟩ := hy
  refine ⟨ts ++ us, by rw [List.append_assoc, hscan, hscan', List.append_assoc], fun n => ?_⟩
  rw [List.foldl_append, hfold, hfold', List.reverse_append, List.append_assoc]

theorem Forms.token (hscan : Token.scan (x ++ rest) = some (t, rest))
    (halone : t.standsAlone = true) : Forms x [.token t] rest := by
  refine ⟨[t], Token.scanAll_of_scan hscan, fun n => ?_⟩
  rw [List.foldl_cons, List.foldl_nil, Nesting.add_of_standsAlone halone]
  rfl

/-- A text between an opening token and its closing bracket. -/
theorem Forms.block {z : List Char} {b : Bracket}
    (hopen : Token.scan (x ++ (y ++ (z ++ rest))) = some (t, y ++ (z ++ rest)))
    (hopens : t.opens? = some b) (hinside : Forms y cs (z ++ rest))
    (hclose : Token.scan (z ++ rest) = some (.closing b, rest)) :
    Forms (x ++ (y ++ z)) [.block t cs] rest := by
  obtain ⟨ts, hscan, hfold⟩ := hinside
  refine ⟨t :: (ts ++ [.closing b]), ?_, fun n => ?_⟩
  · rw [List.append_assoc, List.append_assoc, Token.scanAll_of_scan hopen, hscan,
      Token.scanAll_of_scan hclose, List.cons_append, List.append_assoc, List.singleton_append]
  · rw [List.foldl_cons, List.foldl_append, Nesting.add_of_opens hopens, hfold, List.foldl_cons,
      List.foldl_nil, Nesting.add_closing hopens, List.append_nil, List.reverse_reverse]
    rfl

/-- The components of a text. -/
theorem ofText_eq_of_forms {s : String} (h : Forms s.toList cs []) : Component.ofText s = cs := by
  obtain ⟨ts, hscan, hfold⟩ := h
  rw [List.append_nil, Token.scanAll_nil, List.append_nil] at hscan
  rw [Component.ofText, Component.ofTokens, hscan, hfold, Nesting.start, List.append_nil,
    Nesting.finish, Nesting.closeAll, List.reverse_reverse]

end Component

/-! ## One token -/

namespace Token

variable {v rest : List Char}

theorem scan_function (hv : isName v = true)
    (hurl : Text.sameLetters (String.ofList v) "url" = false) (rest : List Char) :
    scan (v ++ '(' :: rest) = some (.function (String.ofList v), rest) := by
  have htake : takeName (v ++ '(' :: rest) = (v, '(' :: rest) :=
    takeName_of_isName hv fun c hc => by cases hc; decide
  rw [scan_of_isName hv (by simp)]
  unfold scanName
  simp only [htake, hurl]
  rfl

theorem scan_idHash (hv : isName v = true) (hrest : EndsName rest) :
    scan ('#' :: (v ++ rest)) = some (.idHash (String.ofList v), rest) := by
  have hhash : scan ('#' :: (v ++ rest)) = some (scanHash (v ++ rest)) := rfl
  rw [hhash, scanHash, takeName_of_isName hv hrest.not_nameChar]
  dsimp only
  rw [if_pos (startsName_append hv rest)]

/-- A point in front of a name. -/
theorem scan_point (hv : isName v = true) (rest : List Char) :
    scan ('.' :: (v ++ rest)) = some (.delim '.', v ++ rest) := by
  have hdigit : ∃ c w, v = c :: w ∧ isDigit c = false := by
    rcases exists_of_isName hv with ⟨c, w, rfl, hc⟩ | ⟨c, w, rfl, -⟩
    · exact ⟨c, w, rfl, not_isDigit_of_isNameStart hc⟩
    · exact ⟨'-', c :: w, rfl, rfl⟩
  obtain ⟨c, w, rfl, hc⟩ := hdigit
  have hnumber : startsNumber ('.' :: (c :: w ++ rest)) = false := hc
  have hmark : scanMark ('.' :: (c :: w ++ rest)) = none := rfl
  rw [scan, hnumber, hmark]
  rfl

/-- An asterisk with no equals sign after it. -/
theorem scan_asterisk (hrest : '=' ∉ rest.head?) :
    scan ('*' :: rest) = some (.delim '*', rest) := by
  have hmark : scanMark ('*' :: rest) = none := by
    have hmarks : ∀ m ∈ marks, m.1.head? = some '*' → m.1 = ['*', '='] := by decide
    refine scanMark_eq_none fun m hm ds hds hprefix => ?_
    obtain rfl : ds = ['='] := by simpa [hds] using hmarks m hm (by rw [hds]; rfl)
    obtain ⟨more, rfl⟩ := hprefix
    exact hrest rfl
  have hnumber : startsNumber ('*' :: rest) = false := rfl
  rw [scan, hnumber, hmark]
  rfl

/-- A single space. -/
theorem scan_singleSpace (hrest : ∀ c ∈ rest.head?, isSpace c = false) :
    scan (' ' :: rest) = some (.space " ", rest) := by
  rw [scan_space (by decide)]
  cases rest with
  | nil => rfl
  | cons c rest =>
    have hc := hrest c rfl
    rw [List.takeWhile_cons_of_neg (by simp [hc]), List.dropWhile_cons_of_neg (by simp [hc])]

/-- The characters of a string up to its quote. -/
theorem takeString_of_isQuotable (hv : IsQuotable v) (rest : List Char) :
    takeString '"' (v ++ '"' :: rest) = (v, .closed, rest) := by
  induction v with
  | nil =>
    rw [List.nil_append]
    unfold takeString
    exact if_pos rfl
  | cons c v ih =>
    obtain ⟨hquote, hback, hnewline, hzero⟩ := hv c List.mem_cons_self
    have htail := ih fun d hd => hv d (List.mem_cons_of_mem _ hd)
    rw [List.cons_append]
    unfold takeString
    simp only [hquote, hnewline, hback, if_false, htail, visible_of_ne hzero, Bool.false_eq_true]

theorem scan_string (hv : IsQuotable v) (rest : List Char) :
    scan ('"' :: (v ++ '"' :: rest)) = some (.string (String.ofList v), rest) := by
  have hstring : scan ('"' :: (v ++ '"' :: rest)) = some (scanString '"' (v ++ '"' :: rest)) := rfl
  rw [hstring, scanString, takeString_of_isQuotable hv]

/-- The operators of attribute tests as tokens. -/
def ofOperator : AttributeOperator → Token
  | .equals => .delim '='
  | .includes => .includeMatch
  | .dashed => .dashMatch
  | .startsWith => .startMatch
  | .endsWith => .endMatch
  | .substring => .substringMatch

theorem scan_operator (o : AttributeOperator) (rest : List Char) :
    scan (o.text.toList ++ rest) = some (ofOperator o, rest) := by
  cases o <;> rfl

/-! ## Numbers -/

/-- The digits of a number, from the first one on. -/
def digitsOf (n : Nat) : List Nat :=
  (Nat.toDigits 10 n).map fun c => c.toNat - '0'.toNat

theorem ofDigits_digitsOf (n : Nat) : Text.ofDigits 10 (digitsOf n) = n := by
  have hdigits := Nat.ofDigitChars_ten_toDigits (n := n)
  rw [Nat.ofDigitChars_eq_foldl] at hdigits
  rw [digitsOf, Text.ofDigits, List.foldl_map]
  simpa only [Nat.mul_comm] using hdigits

theorem digit?_of_isDigit {c : Char} (h : c.isDigit = true) :
    Text.digit? c = some (c.toNat - '0'.toNat) := by
  have hrange : '0' ≤ c ∧ c ≤ '9' := by
    simpa [Char.isDigit, Char.le_def, Char.ext_iff] using h
  rw [Text.digit?, if_pos hrange]
  rfl

theorem digit?_of_mem_toDigits {n : Nat} {c : Char} (h : c ∈ Nat.toDigits 10 n) :
    Text.digit? c = some (c.toNat - '0'.toNat) :=
  digit?_of_isDigit (Nat.isDigit_of_mem_toDigits (by decide) (by decide) h)

theorem mapM_digit?_toDigits (n : Nat) :
    (Nat.toDigits 10 n).mapM Text.digit? = some (digitsOf n) := by
  have hall : ∀ cs : List Char, (∀ c ∈ cs, Text.digit? c = some (c.toNat - '0'.toNat)) →
      cs.mapM Text.digit? = some (cs.map fun c => c.toNat - '0'.toNat) := by
    intro cs hcs
    induction cs with
    | nil => rfl
    | cons c cs ih =>
      rw [List.mapM_cons, hcs c List.mem_cons_self,
        ih fun d hd => hcs d (List.mem_cons_of_mem _ hd)]
      rfl
  exact hall _ fun c hc => digit?_of_mem_toDigits hc

/-- No digit and nothing else that belongs to a number begins a text. -/
def EndsNumber (cs : List Char) : Prop :=
  ∀ c ∈ cs.head?, Text.digit? c = none ∧ c ≠ '.' ∧ c ≠ 'e' ∧ c ≠ 'E'

theorem takeDigits_toDigits (n : Nat) (hrest : EndsNumber rest) :
    takeDigits (Nat.toDigits 10 n ++ rest) = (digitsOf n, rest) := by
  have hall : ∀ cs : List Char, (∀ c ∈ cs, Text.digit? c = some (c.toNat - '0'.toNat)) →
      takeDigits (cs ++ rest) = (cs.map fun c => c.toNat - '0'.toNat, rest) := by
    intro cs hcs
    induction cs with
    | nil =>
      cases rest with
      | nil => rfl
      | cons d rest => simp [takeDigits, (hrest d rfl).1]
    | cons c cs ih =>
      have htake := ih fun d hd => hcs d (List.mem_cons_of_mem _ hd)
      simp [takeDigits, hcs c List.mem_cons_self, htake]
  exact hall _ fun c hc => digit?_of_mem_toDigits hc

/-- The number that is written as a sign, where it has one, and digits. -/
def numeral (signed negative : Bool) (n : Nat) : Numeral :=
  ⟨signed, negative, digitsOf n, [], none⟩

/-- The sign of a number. -/
def signOf (signed negative : Bool) : List Char :=
  if signed then [if negative then '-' else '+'] else []

/-- An unsigned number is not negative. -/
def IsSign (signed negative : Bool) : Prop :=
  signed = false → negative = false

theorem isDigit_of_mem_toDigits {n : Nat} {c : Char} (h : c ∈ Nat.toDigits 10 n) :
    isDigit c = true := by
  have hc := digit?_of_mem_toDigits h
  unfold Text.digit? at hc
  split at hc
  · simpa [isDigit] using ‹_›
  · cases hc

theorem exists_toDigits (n : Nat) :
    ∃ d ds, Nat.toDigits 10 n = d :: ds ∧ isDigit d = true := by
  cases hdigits : Nat.toDigits 10 n with
  | nil => exact absurd hdigits Nat.toDigits_ne_nil
  | cons d ds => exact ⟨d, ds, rfl, isDigit_of_mem_toDigits (hdigits ▸ List.mem_cons_self)⟩

variable {signed negative : Bool}

theorem takeSign_signOf (hsign : IsSign signed negative) (n : Nat) (rest : List Char) :
    takeSign (signOf signed negative ++ (Nat.toDigits 10 n ++ rest)) =
      (signed, negative, Nat.toDigits 10 n ++ rest) := by
  cases signed with
  | true => cases negative <;> rfl
  | false =>
    obtain ⟨d, ds, hdigits, hd⟩ := exists_toDigits n
    rw [hsign rfl, hdigits, signOf, if_neg (by decide), List.nil_append, List.cons_append]
    unfold takeSign
    split
    next heq => cases heq; exact absurd hd (by decide)
    next heq => cases heq; exact absurd hd (by decide)
    next => rfl

theorem takeNumeral_signOf (hsign : IsSign signed negative) (n : Nat) (hrest : EndsNumber rest) :
    takeNumeral (signOf signed negative ++ (Nat.toDigits 10 n ++ rest)) =
      (numeral signed negative n, rest) := by
  have hfraction : takeFraction rest = ([], rest) := by
    unfold takeFraction
    split
    · exact absurd rfl (hrest _ rfl).2.1
    · rfl
  have hexponent : takeExponent rest = (none, rest) := by
    unfold takeExponent
    split
    · rfl
    · obtain ⟨-, -, he, hE⟩ := hrest _ rfl
      rw [if_neg (by simp [he, hE])]
  rw [takeNumeral]
  simp only [takeSign_signOf hsign, takeDigits_toDigits n hrest, hfraction, hexponent]
  rfl

/-- A sign, a point or a digit begins a number. -/
theorem exists_of_startsNumber {cs : List Char} (h : startsNumber cs = true) :
    ∃ c rest, cs = c :: rest ∧ (c = '+' ∨ c = '-' ∨ c = '.' ∨ isDigit c = true) := by
  cases cs with
  | nil => cases h
  | cons c rest =>
    refine ⟨c, rest, rfl, ?_⟩
    unfold startsNumber takeSign at h
    split at h
    next heq =>
      split at heq
      next hplus => exact .inl (List.cons.inj hplus).1
      next hminus => exact .inr (.inl (List.cons.inj hminus).1)
      next => exact .inr (.inr (.inl (List.cons.inj heq).1))
    next heq =>
      split at heq
      next hplus => exact .inl (List.cons.inj hplus).1
      next hminus => exact .inr (.inl (List.cons.inj hminus).1)
      next => rw [(List.cons.inj heq).1]; exact .inr (.inr (.inr h))
    next => cases h

theorem scan_of_startsNumber {cs : List Char} (h : startsNumber cs = true) :
    scan cs = some (scanNumber cs) := by
  obtain ⟨c, rest, rfl, hc⟩ := exists_of_startsNumber h
  have hfirst : isSpace c = false ∧ ¬(c = '"' ∨ c = '\'') ∧ c ≠ '#' := by
    rcases hc with rfl | rfl | rfl | hc
    · decide
    · decide
    · decide
    · have hne : ∀ d : Char, isDigit d = false → c ≠ d := by
        rintro _ hd rfl
        rw [hc] at hd
        cases hd
      have hspace : isSpace c = false := by
        simp [isSpace, isNewline, hne ' ' (by decide), hne '\t' (by decide),
          hne '\n' (by decide), hne '\r' (by decide), hne '\x0c' (by decide)]
      exact ⟨hspace, by simp [hne '"' (by decide), hne '\'' (by decide)], hne '#' (by decide)⟩
  rw [scan, hfirst.1, if_neg (by decide), if_neg hfirst.2.1, if_neg hfirst.2.2, if_pos h]

/-- A sign and digits begin a number. -/
theorem scan_signOf (hsign : IsSign signed negative) (n : Nat) (rest : List Char) :
    scan (signOf signed negative ++ (Nat.toDigits 10 n ++ rest)) =
      some (scanNumber (signOf signed negative ++ (Nat.toDigits 10 n ++ rest))) := by
  obtain ⟨d, ds, hdigits, hd⟩ := exists_toDigits n
  refine scan_of_startsNumber ?_
  unfold startsNumber
  rw [takeSign_signOf hsign, hdigits, List.cons_append]
  split
  next heq =>
    rw [(List.cons.inj heq).1] at hd
    exact absurd hd (by decide)
  next heq =>
    rw [← (List.cons.inj heq).1]
    exact hd
  next heq => cases heq

/-- A number that no unit follows. -/
theorem scan_number (hsign : IsSign signed negative) (n : Nat) (hrest : EndsNumber rest)
    (hpercent : '%' ∉ rest.head?) (hunit : startsName rest = false) :
    scan (signOf signed negative ++ (Nat.toDigits 10 n ++ rest)) =
      some (.number (numeral signed negative n), rest) := by
  rw [scan_signOf hsign, scanNumber]
  simp only [takeNumeral_signOf hsign n hrest, hunit]
  split
  · exact absurd rfl hpercent
  · rfl

/-- A number with a unit. -/
theorem scan_dimension (hsign : IsSign signed negative) (n : Nat) (hv : isName v = true)
    (hnumber : EndsNumber (v ++ rest)) (hrest : EndsName rest) :
    scan (signOf signed negative ++ (Nat.toDigits 10 n ++ (v ++ rest))) =
      some (.dimension (numeral signed negative n) (String.ofList v), rest) := by
  have htake : takeName (v ++ rest) = (v, rest) := takeName_of_isName hv hrest.not_nameChar
  have hunit := startsName_append hv rest
  rw [scan_signOf hsign, scanNumber]
  simp only [takeNumeral_signOf hsign n hnumber, hunit, htake]
  split
  next heq =>
    rw [heq] at hunit
    exact absurd hunit (by simp [startsName, isNameStart])
  next => rfl

end Token

end CriticalCss
