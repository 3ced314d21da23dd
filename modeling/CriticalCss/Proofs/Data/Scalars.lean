import CriticalCss.Data.Json
import CriticalCss.Proofs.Token.Forming
import Mathlib.Data.List.Basic
import Mathlib.Tactic.SplitIfs

/-!
# Strings and numbers of a JSON text

What the writer makes of a string or a number is read as the same again, up to the character that
follows.  A decimal number is read as far as its text goes: zeros that are written in front of the
point become digits, and what is not finite comes back as null.

* `readString?_flatMap_writeChar` reads the characters of a string up to its closing quote.
* `readNumber?_toDigits` reads a whole number, `readNumber?_point` digits around a point, and
  `readNumber?_scientificDigits` a number with an exponent.
* `readNumber?_writeDecimal` is any decimal number.
* `readMark?_writeString` and `readMark?_writeNumber` are the results; `rereadNumber` is the value
  that a number comes back as.
-/

namespace CriticalCss.Data.Json

open Token (EndsNumber digit?_of_isDigit)

/-! ## Strings -/

theorem hexDigit?_digitChar : ∀ n < 16, Text.hexDigit? (Nat.digitChar n) = some n := by decide

/-- A control character is read back from its number. -/
theorem readEscape?_control {c : Char} (hc : c.toNat < 0x20) (cs : List Char) :
    readEscape? ('u' :: '0' :: '0' :: Nat.digitChar (c.toNat / 16) ::
      Nat.digitChar (c.toNat % 16) :: cs) = some (c, cs) := by
  have hzero : Text.hexDigit? '0' = some 0 := by decide
  have hhigh := hexDigit?_digitChar (c.toNat / 16) (by omega)
  have hlow := hexDigit?_digitChar (c.toNat % 16) (by omega)
  have hnumber : Text.ofDigits 16 [0, 0, c.toNat / 16, c.toNat % 16] = c.toNat := by
    simp only [Text.ofDigits, List.foldl_cons, List.foldl_nil]
    omega
  have hhex : hex4? ('0' :: '0' :: Nat.digitChar (c.toNat / 16) ::
      Nat.digitChar (c.toNat % 16) :: cs) = some (c.toNat, cs) := by
    simp [hex4?, hzero, hhigh, hlow, hnumber]
  simp only [readEscape?, if_true, readCodeUnit?, hhex, Option.bind_eq_bind, Option.bind_some]
  rw [if_neg (by omega), if_neg (by omega), Char.ofNat_toNat]

theorem readString?_escape {c : Char} (escape cs : List Char)
    (h : readEscape? (escape ++ cs) = some (c, cs)) :
    readString? ('\\' :: escape ++ cs) = (readString? cs).map fun p => (c :: p.1, p.2) := by
  rw [List.cons_append, readString?_backslash, h, Option.bind_some]

/-- A character is read back from how it is written. -/
theorem readString?_writeChar (c : Char) (cs : List Char) :
    readString? (writeChar c ++ cs) = (readString? cs).map fun p => (c :: p.1, p.2) := by
  unfold writeChar
  split_ifs with hquote hslash hback hfeed hline hreturn htab hcontrol
  · exact readString?_escape ['"'] cs (by rw [hquote]; rfl)
  · exact readString?_escape ['\\'] cs (by rw [hslash]; rfl)
  · exact readString?_escape ['b'] cs (by rw [hback]; rfl)
  · exact readString?_escape ['f'] cs (by rw [hfeed]; rfl)
  · exact readString?_escape ['n'] cs (by rw [hline]; rfl)
  · exact readString?_escape ['r'] cs (by rw [hreturn]; rfl)
  · exact readString?_escape ['t'] cs (by rw [htab]; rfl)
  · exact readString?_escape _ cs (readEscape?_control hcontrol cs)
  · exact readString?_plain hquote hcontrol hslash cs

/-- The characters of a string are read back up to its closing quote. -/
theorem readString?_flatMap_writeChar (cs rest : List Char) :
    readString? (cs.flatMap writeChar ++ '"' :: rest) = some (cs, rest) := by
  induction cs with
  | nil => rw [List.flatMap_nil, List.nil_append, readString?, if_pos rfl]
  | cons c cs ih => rw [List.flatMap_cons, List.append_assoc, readString?_writeChar, ih]; rfl

theorem readMark?_writeString (s : String) (rest : List Char) :
    readMark? (writeString s ++ rest) = some (.scalar (.text s), rest) := by
  have hread := readString?_flatMap_writeChar s.toList rest
  have hmark : markOf? '"' = none := rfl
  rw [writeString, List.append_assoc, List.cons_append, List.singleton_append, readMark?, hmark]
  dsimp only
  rw [readScalar?, if_pos rfl, hread, Option.map_some, Option.map_some, String.ofList_toList]

/-! ## Numbers -/

/-- Reading digits takes them all and leaves what follows. -/
theorem digits_append {cs rest : List Char} (hcs : ∀ c ∈ cs, c.isDigit = true)
    (hrest : ∀ c ∈ rest.head?, c.isDigit = false) :
    digits (cs ++ rest) = (cs.filterMap Text.digit?, rest) := by
  have htake : rest.takeWhile Char.isDigit = [] := by
    cases rest with
    | nil => rfl
    | cons c rest => simp [hrest c rfl]
  have hdrop : rest.dropWhile Char.isDigit = rest := by
    cases rest with
    | nil => rfl
    | cons c rest => simp [hrest c rfl]
  rw [digits, List.takeWhile_append_of_pos hcs, List.dropWhile_append_of_pos hcs, htake, hdrop,
    List.append_nil]

theorem isDigit_eq_false_of_endsNumber {rest : List Char} (h : EndsNumber rest) :
    ∀ c ∈ rest.head?, c.isDigit = false := by
  intro c hc
  have hdigit := (h c hc).1
  rw [Text.digit?] at hdigit
  split at hdigit
  · cases hdigit
  · next hrange =>
    simpa [Char.isDigit, Char.le_def, Char.ext_iff] using hrange

/-- The values of some digits. -/
def valuesOf (cs : List Char) : List Nat :=
  cs.map fun c => c.toNat - '0'.toNat

theorem filterMap_digit? {cs : List Char} (hcs : ∀ c ∈ cs, c.isDigit = true) :
    cs.filterMap Text.digit? = valuesOf cs := by
  rw [valuesOf, ← List.filterMap_eq_map]
  exact List.filterMap_congr fun c hc => digit?_of_isDigit (hcs c hc)

theorem isDigit_of_mem_toDigits {n : Nat} {c : Char} (h : c ∈ Nat.toDigits 10 n) :
    c.isDigit = true :=
  Nat.isDigit_of_mem_toDigits (by decide) (by decide) h

/-- Digits that a number may begin with: no zero stands in front of others. -/
def Leads (whole : List Nat) : Prop :=
  (∃ d, whole = [d]) ∨ ∃ d ds, whole = (d + 1) :: ds

theorem value_digitChar : ∀ n < 10, (Nat.digitChar n).toNat - '0'.toNat = n := by decide

/-- The digits of a number that is not zero begin with one that is not zero. -/
theorem exists_valuesOf_toDigits {n : Nat} (hn : 0 < n) :
    ∃ d ds, valuesOf (Nat.toDigits 10 n) = (d + 1) :: ds := by
  induction n using Nat.strongRecOn with
  | ind n ih =>
    by_cases hsmall : n < 10
    · refine ⟨n - 1, [], ?_⟩
      rw [Nat.toDigits_of_lt_base hsmall, valuesOf, List.map_singleton, value_digitChar n hsmall,
        Nat.sub_add_cancel hn]
    · obtain ⟨d, ds, hds⟩ := ih (n / 10) (by omega) (by omega)
      rw [Nat.toDigits_of_base_le (by decide) (by omega), valuesOf, List.map_append, ← valuesOf,
        hds]
      exact ⟨d, _, rfl⟩

theorem leads_toDigits (n : Nat) : Leads (valuesOf (Nat.toDigits 10 n)) := by
  rcases Nat.eq_zero_or_pos n with rfl | hn
  · exact .inl ⟨0, rfl⟩
  · exact .inr (exists_valuesOf_toDigits hn)

theorem readFraction?_of_endsNumber {rest : List Char} (h : EndsNumber rest) :
    readFraction? rest = some (none, rest) := by
  cases rest with
  | nil => rfl
  | cons c rest =>
    unfold readFraction?
    split
    · next heq =>
      exact absurd (List.cons.inj heq).1 (h c rfl).2.1
    · rfl

theorem readExponent?_of_endsNumber {rest : List Char} (h : EndsNumber rest) :
    readExponent? rest = some (none, rest) := by
  cases rest with
  | nil => rfl
  | cons c rest =>
    unfold readExponent?
    split
    · next heq =>
      exact absurd (List.cons.inj heq).1 (h c rfl).2.2.1
    · next heq =>
      exact absurd (List.cons.inj heq).1 (h c rfl).2.2.2
    · rfl

/-- A whole number, or minus zero, which is none. -/
def wholeNumber (negative : Bool) (n : Nat) : Number :=
  if negative && n == 0 then .decimal true 0 0 else .whole (if negative then -(n : Int) else n)

/-- A number begins with a digit. -/
theorem exists_cons_of_readNumber? {negative : Bool} {cs rest : List Char} {n : Number}
    (h : readNumber? negative cs = some (n, rest)) :
    ∃ c tail, cs = c :: tail ∧ c.isDigit = true := by
  obtain ⟨hdigits, -⟩ := readNumber?_cases h
  cases cs with
  | nil => exact absurd rfl hdigits
  | cons c tail =>
    refine ⟨c, tail, rfl, ?_⟩
    by_contra hc
    exact hdigits (by simp [digits, hc])

/-- The digits of a number are taken up to a character that cannot belong to it. -/
theorem digits_toDigits (n : Nat) {rest : List Char} (hrest : EndsNumber rest) :
    digits (Nat.toDigits 10 n ++ rest) = (valuesOf (Nat.toDigits 10 n), rest) := by
  have hall : ∀ c ∈ Nat.toDigits 10 n, c.isDigit = true := fun c hc => isDigit_of_mem_toDigits hc
  rw [digits_append hall (isDigit_eq_false_of_endsNumber hrest), filterMap_digit? hall]

theorem readNumber?_toDigits (negative : Bool) (n : Nat) {rest : List Char}
    (hrest : EndsNumber rest) :
    readNumber? negative (Nat.toDigits 10 n ++ rest) = some (wholeNumber negative n, rest) := by
  have hdigits := digits_toDigits n hrest
  have hvalue : Text.ofDigits 10 (valuesOf (Nat.toDigits 10 n)) = n := Token.ofDigits_digitsOf n
  simp only [readNumber?, hdigits, readFraction?_of_endsNumber hrest,
    readExponent?_of_endsNumber hrest, Option.bind_eq_bind, Option.bind_some]
  rcases leads_toDigits n with ⟨d, hleads⟩ | ⟨d, ds, hleads⟩
  · rw [hleads] at hvalue ⊢
    simp only [hvalue, wholeNumber]
  · rw [hleads] at hvalue ⊢
    simp only [hvalue, wholeNumber]

theorem readFraction?_point {places rest : List Char} (hplaces : ∀ c ∈ places, c.isDigit = true)
    (hne : places ≠ []) (hrest : ∀ c ∈ rest.head?, c.isDigit = false) :
    readFraction? ('.' :: (places ++ rest)) = some (some (valuesOf places), rest) := by
  obtain ⟨d, ds, hvalues⟩ : ∃ d ds, valuesOf places = d :: ds :=
    List.exists_cons_of_ne_nil (mt List.map_eq_nil_iff.1 hne)
  rw [readFraction?, digits_append hplaces hrest, filterMap_digit? hplaces, hvalues]

/-- Digits around a point. -/
theorem readNumber?_point (negative : Bool) {whole places rest : List Char}
    (hwhole : ∀ c ∈ whole, c.isDigit = true) (hplaces : ∀ c ∈ places, c.isDigit = true)
    (hleads : Leads (valuesOf whole)) (hne : places ≠ []) (hrest : EndsNumber rest) :
    readNumber? negative (whole ++ '.' :: (places ++ rest)) =
      some (.decimal negative (Text.ofDigits 10 (valuesOf (whole ++ places))) (-places.length),
        rest) := by
  have hpoint : ∀ c ∈ ('.' :: (places ++ rest)).head?, c.isDigit = false := by simp
  have hdigits := digits_append hwhole hpoint
  rw [filterMap_digit? hwhole] at hdigits
  have hfraction := readFraction?_point hplaces hne (isDigit_eq_false_of_endsNumber hrest)
  have hvalues : valuesOf (whole ++ places) = valuesOf whole ++ valuesOf places := List.map_append
  simp only [readNumber?, hdigits, hfraction, readExponent?_of_endsNumber hrest,
    Option.bind_eq_bind, Option.bind_some, hvalues]
  have hlength : (valuesOf places).length = places.length := List.length_map _
  rcases hleads with ⟨d, hleads⟩ | ⟨d, ds, hleads⟩
  · simp only [hleads, Option.getD_some, Option.getD_none, hlength, Int.zero_sub]
  · simp only [hleads, Option.getD_some, Option.getD_none, hlength, Int.zero_sub]

/-- A whole number after the mark of an exponent. -/
def writeExponent (n : Int) : List Char :=
  'e' :: (if n < 0 then ['-'] else []) ++ Nat.toDigits 10 n.natAbs

theorem exists_toDigits (n : Nat) : ∃ c cs, Nat.toDigits 10 n = c :: cs ∧ c.isDigit = true := by
  obtain ⟨c, cs, hcs⟩ := List.exists_cons_of_ne_nil (Nat.toDigits_ne_nil (n := n) (b := 10))
  exact ⟨c, cs, hcs, isDigit_of_mem_toDigits (hcs ▸ List.mem_cons_self)⟩

/-- A whole number is read with its sign. -/
theorem readSigned?_sign (n : Int) {rest : List Char} (hrest : EndsNumber rest) :
    readSigned? ((if n < 0 then ['-'] else []) ++ Nat.toDigits 10 n.natAbs ++ rest) =
      some (n, rest) := by
  have hdigits := digits_toDigits n.natAbs hrest
  have hvalue : Text.ofDigits 10 (valuesOf (Nat.toDigits 10 n.natAbs)) = n.natAbs :=
    Token.ofDigits_digitsOf n.natAbs
  obtain ⟨c, cs, hcs, hc⟩ := exists_toDigits n.natAbs
  obtain ⟨d, ds, hvalues⟩ : ∃ d ds, valuesOf (Nat.toDigits 10 n.natAbs) = d :: ds :=
    ⟨_, _, by rw [hcs, valuesOf, List.map_cons]⟩
  rw [hvalues] at hdigits hvalue
  by_cases hn : n < 0
  · rw [if_pos hn, List.append_assoc, List.singleton_append, readSigned?, hdigits]
    simp only [hvalue]
    rw [Int.ofNat_natAbs_of_nonpos (Int.le_of_lt hn), Int.neg_neg]
  · have hminus : c ≠ '-' := by
      rintro rfl
      cases hc
    have hplus : c ≠ '+' := by
      rintro rfl
      cases hc
    rw [if_neg hn, List.nil_append]
    rw [hcs, List.cons_append] at hdigits ⊢
    rw [readSigned?.eq_2 _ fun _ heq => hminus (List.cons.inj heq).1, List.head?_cons,
      if_neg fun heq => hplus (Option.some.inj heq), hdigits]
    simp only [hvalue]
    rw [Int.natAbs_of_nonneg (Int.not_lt.1 hn)]

theorem readExponent?_writeExponent (n : Int) {rest : List Char} (hrest : EndsNumber rest) :
    readExponent? (writeExponent n ++ rest) = some (some n, rest) := by
  rw [writeExponent, List.cons_append, List.cons_append, readExponent?, readSigned?_sign n hrest,
    Option.map_some]

/-- Digits with an exponent, with a point after the first ones if there are more. -/
theorem readNumber?_exponent (negative : Bool) {whole places rest : List Char}
    (hwhole : ∀ c ∈ whole, c.isDigit = true) (hplaces : ∀ c ∈ places, c.isDigit = true)
    (hleads : Leads (valuesOf whole)) (n : Int) (hrest : EndsNumber rest) :
    readNumber? negative
        (whole ++ ((if places = [] then [] else '.' :: places) ++ (writeExponent n ++ rest))) =
      some (.decimal negative (Text.ofDigits 10 (valuesOf (whole ++ places))) (n - places.length),
        rest) := by
  have hmark : ∀ c ∈ (writeExponent n ++ rest).head?, c.isDigit = false := by
    simp [writeExponent]
  have hexponent := readExponent?_writeExponent n hrest
  have hvalues : valuesOf (whole ++ places) = valuesOf whole ++ valuesOf places := List.map_append
  have hlength : (valuesOf places).length = places.length := List.length_map _
  by_cases hne : places = []
  · have hdigits := digits_append hwhole hmark
    rw [filterMap_digit? hwhole] at hdigits
    have hfraction : readFraction? (writeExponent n ++ rest) =
        some (none, writeExponent n ++ rest) := rfl
    rw [if_pos hne, List.nil_append, hne, List.append_nil]
    simp only [readNumber?, hdigits, hfraction, hexponent, Option.bind_eq_bind, Option.bind_some]
    rcases hleads with ⟨d, hleads⟩ | ⟨d, ds, hleads⟩ <;>
      simp [hleads]
  · have hpoint : ∀ c ∈ ('.' :: (places ++ (writeExponent n ++ rest))).head?, c.isDigit = false := by
      simp
    have hdigits := digits_append hwhole hpoint
    rw [filterMap_digit? hwhole] at hdigits
    have hfraction := readFraction?_point hplaces hne hmark
    rw [if_neg hne, List.cons_append]
    simp only [readNumber?, hdigits, hfraction, hexponent, Option.bind_eq_bind, Option.bind_some,
      hvalues]
    rcases hleads with ⟨d, hleads⟩ | ⟨d, ds, hleads⟩ <;>
      simp only [hleads, Option.getD_some, hlength]

/-- Zeros in front change nothing. -/
theorem ofDigits_zeros (k : Nat) (ds : List Nat) :
    Text.ofDigits 10 (List.replicate k 0 ++ ds) = Text.ofDigits 10 ds := by
  induction k with
  | zero => rfl
  | succ k ih =>
    rw [List.replicate_succ, List.cons_append, ← ih]
    rfl

/-- Zeros at the end are those of a power of ten. -/
theorem toDigits_mul_pow {n : Nat} (hn : n ≠ 0) (k : Nat) :
    Nat.toDigits 10 (n * Nat.pow 10 k) = Nat.toDigits 10 n ++ List.replicate k '0' := by
  induction k with
  | zero =>
    rw [List.replicate_zero, List.append_nil]
    exact congrArg (Nat.toDigits 10) (Nat.mul_one n)
  | succ k ih =>
    have hpos : 0 < n * Nat.pow 10 k :=
      Nat.mul_pos (Nat.pos_of_ne_zero hn) (Nat.pow_pos (by decide))
    have heq : n * Nat.pow 10 (k + 1) = n * Nat.pow 10 k * 10 := (Nat.mul_assoc _ _ _).symm
    rw [heq, Nat.toDigits_of_base_le (by decide) (by omega), Nat.mul_div_cancel _ (by decide), ih,
      Nat.mul_mod_left, List.replicate_succ', List.append_assoc]
    rfl

/-- The number that a decimal number is read as.  Where zeros stand in front of the point, they are
digits. -/
def rereadDecimal (negative : Bool) (digits : Nat) (exponent : Int) : Number :=
  if 0 ≤ exponent ∧ exponent + (Nat.toDigits 10 digits).length ≤ 13 then
    .decimal negative (digits * Nat.pow 10 (exponent.toNat + 1)) (-1)
  else .decimal negative digits exponent

/-- The value that the text of a number is read as. -/
def rereadNumber : Number → Value
  | .whole n => .number (.whole n)
  | .decimal negative digits exponent => .number (rereadDecimal negative digits exponent)
  | .infinite _ => .null
  | .notANumber => .null

theorem positionalDigits_ofNat (digits n : Nat) :
    (Decimal.positionalDigits digits (.ofNat n)).toList =
      Nat.toDigits 10 (digits * Nat.pow 10 n) := by
  simp only [Decimal.positionalDigits, String.toList_ofList]
  split
  · next hzero =>
    rw [hzero, Nat.zero_mul]
  · next hzero =>
    exact (toDigits_mul_pow hzero n).symm

/-- Digits with zeros in front, so many that one stands before the last `places`. -/
def padded (digits places : Nat) : List Char :=
  List.replicate (places + 1 - (Nat.toDigits 10 digits).length) '0' ++ Nat.toDigits 10 digits

section Padding

variable (digits places : Nat)

theorem isDigit_of_mem_padded {c : Char} (h : c ∈ padded digits places) : c.isDigit = true := by
  rcases List.mem_append.1 h with h | h
  · rw [(List.mem_replicate.1 h).2]
    decide
  · exact isDigit_of_mem_toDigits h

theorem places_lt_length_padded : places < (padded digits places).length := by
  simp only [padded, List.length_append, List.length_replicate]
  omega

theorem ofDigits_padded : Text.ofDigits 10 (valuesOf (padded digits places)) = digits := by
  have hvalues : valuesOf (padded digits places) =
      List.replicate (places + 1 - (Nat.toDigits 10 digits).length) 0 ++
        valuesOf (Nat.toDigits 10 digits) := by
    rw [padded, valuesOf, List.map_append, List.map_replicate]
    rfl
  rw [hvalues, ofDigits_zeros]
  exact Token.ofDigits_digitsOf digits

/-- What stands before the last `places` digits is a zero alone or begins with another digit. -/
theorem leads_padded (hplaces : 0 < places) :
    Leads (valuesOf ((padded digits places).take ((padded digits places).length - places))) := by
  by_cases hshort : (Nat.toDigits 10 digits).length ≤ places
  · obtain ⟨k, hk⟩ : ∃ k, places + 1 - (Nat.toDigits 10 digits).length = k + 1 :=
      ⟨places - (Nat.toDigits 10 digits).length, by omega⟩
    have hlength : (padded digits places).length - places = 1 := by
      simp only [padded, List.length_append, List.length_replicate]
      omega
    rw [hlength, padded, hk, List.replicate_succ, List.cons_append]
    exact .inl ⟨0, rfl⟩
  · have hpadded : padded digits places = Nat.toDigits 10 digits := by
      rw [padded, Nat.sub_eq_zero_of_le (by omega)]
      rfl
    have hpos : 0 < digits := by
      refine Nat.pos_of_ne_zero fun hzero => hshort ?_
      rw [hzero]
      exact hplaces
    obtain ⟨d, ds, hds⟩ := exists_valuesOf_toDigits hpos
    obtain ⟨cut, hcut⟩ : ∃ cut, (Nat.toDigits 10 digits).length - places = cut + 1 :=
      ⟨(Nat.toDigits 10 digits).length - places - 1, by omega⟩
    rw [hpadded, hcut, valuesOf, List.map_take, ← valuesOf, hds, List.take_succ_cons]
    exact .inr ⟨d, _, rfl⟩

end Padding

theorem positionalDigits_negSucc (digits n : Nat) :
    (Decimal.positionalDigits digits (.negSucc n)).toList =
      (padded digits (n + 1)).take ((padded digits (n + 1)).length - (n + 1)) ++
        '.' :: (padded digits (n + 1)).drop ((padded digits (n + 1)).length - (n + 1)) :=
  String.toList_ofList

theorem readNumber?_positional (negative : Bool) (digits n : Nat) {rest : List Char}
    (hrest : EndsNumber rest) :
    readNumber? negative ((Decimal.positionalDigits digits (.negSucc n)).toList ++ rest) =
      some (.decimal negative digits (.negSucc n), rest) := by
  have hlength := places_lt_length_padded digits (n + 1)
  have hplaces : ((padded digits (n + 1)).drop
      ((padded digits (n + 1)).length - (n + 1))).length = n + 1 := by
    rw [List.length_drop]
    omega
  rw [positionalDigits_negSucc, List.append_assoc, List.cons_append, readNumber?_point negative
    (fun c hc => isDigit_of_mem_padded _ _ (List.mem_of_mem_take hc))
    (fun c hc => isDigit_of_mem_padded _ _ (List.mem_of_mem_drop hc))
    (leads_padded digits (n + 1) (Nat.succ_pos n))
    (List.ne_nil_of_length_pos (by rw [hplaces]; exact Nat.succ_pos n)) hrest,
    List.take_append_drop, ofDigits_padded, hplaces]
  rfl

/-- A whole number with a zero behind its point. -/
theorem readNumber?_toDigits_point (negative : Bool) (n : Nat) {rest : List Char}
    (hrest : EndsNumber rest) :
    readNumber? negative (Nat.toDigits 10 n ++ ['.', '0'] ++ rest) =
      some (.decimal negative (n * 10) (-1), rest) := by
  have hvalue : Text.ofDigits 10 (valuesOf (Nat.toDigits 10 n ++ ['0'])) = n * 10 := by
    have hnumber : Text.ofDigits 10 (valuesOf (Nat.toDigits 10 n)) = n := Token.ofDigits_digitsOf n
    rw [valuesOf, List.map_append, Text.ofDigits, List.foldl_append, ← Text.ofDigits, ← valuesOf,
      hnumber]
    rfl
  rw [List.append_assoc, ← hvalue]
  exact readNumber?_point negative (fun c hc => isDigit_of_mem_toDigits hc) (by simp)
    (leads_toDigits n) (by simp) hrest

/-- A number with an exponent is read up to a character that cannot belong to it. -/
theorem readNumber?_scientificDigits (negative : Bool) (digits : Nat) (exponent : Int)
    {rest : List Char} (hrest : EndsNumber rest) :
    readNumber? negative ((Decimal.scientificDigits digits exponent).toList ++ rest) =
      some (.decimal negative digits exponent, rest) := by
  obtain ⟨c, cs, hcs, -⟩ := exists_toDigits digits
  have hall : ∀ d ∈ c :: cs, d.isDigit = true := fun d hd => isDigit_of_mem_toDigits (hcs ▸ hd)
  have hvalue : Text.ofDigits 10 (valuesOf (c :: cs)) = digits :=
    hcs ▸ Token.ofDigits_digitsOf digits
  have hsplit : [c] ++ cs = c :: cs := rfl
  have htext : (Decimal.scientificDigits digits exponent).toList =
      [c] ++ ((if cs = [] then [] else '.' :: cs) ++
        writeExponent (exponent + ((c :: cs).length : Int) - 1)) := by
    simp only [Decimal.scientificDigits, String.toList_ofList, hcs, List.tail_cons, writeExponent,
      List.take_succ_cons, List.take_zero, List.append_assoc, List.cons_append, List.nil_append]
  have hfirst : ∀ d ∈ [c], d.isDigit = true := fun d hd =>
    hall d (List.mem_of_mem_head? (List.mem_singleton.1 hd ▸ rfl))
  have hplaces : ∀ d ∈ cs, d.isDigit = true := fun d hd => hall d (List.mem_cons_of_mem c hd)
  have hread := readNumber?_exponent negative hfirst hplaces (.inl ⟨_, rfl⟩)
    (exponent + ((c :: cs).length : Int) - 1) hrest
  have hexponent : exponent + ((c :: cs).length : Int) - 1 - cs.length = exponent := by
    rw [List.length_cons]
    omega
  rw [hsplit, hvalue, hexponent] at hread
  rw [htext, List.append_assoc, List.append_assoc]
  exact hread

/-- A decimal number is read up to a character that cannot belong to it. -/
theorem readNumber?_writeDecimal (negative : Bool) (digits : Nat) (exponent : Int)
    {rest : List Char} (hrest : EndsNumber rest) :
    readNumber? negative (writeDecimal digits exponent ++ rest) =
      some (rereadDecimal negative digits exponent, rest) := by
  rw [writeDecimal, rereadDecimal]
  generalize hbefore : exponent + ((Nat.toDigits 10 digits).length : Int) = before
  cases exponent with
  | ofNat n =>
    have hpositive : 0 ≤ Int.ofNat n := Int.natCast_nonneg n
    by_cases hshort : before ≤ 13
    · rw [if_pos ⟨by omega, hshort⟩, if_pos hpositive, if_pos ⟨hpositive, hshort⟩,
        positionalDigits_ofNat, readNumber?_toDigits_point negative _ hrest, Nat.mul_assoc]
      rfl
    · rw [if_neg fun h => hshort h.2, if_neg fun h => hshort h.2]
      exact readNumber?_scientificDigits negative digits _ hrest
  | negSucc n =>
    have hnegative : ¬0 ≤ Int.negSucc n := Int.not_le.2 (Int.negSucc_lt_zero n)
    have hpoint : ¬(0 ≤ Int.negSucc n ∧ before ≤ 13) := fun h => hnegative h.1
    rw [if_neg hnegative, List.append_nil, if_neg hpoint]
    split
    · exact readNumber?_positional negative digits n hrest
    · exact readNumber?_scientificDigits negative digits _ hrest

/-! ## Scalars -/

/-- A number with its sign is read as a scalar. -/
theorem readMark?_sign {negative : Bool} {cs rest : List Char} {n : Number}
    (h : readNumber? negative cs = some (n, rest)) :
    readMark? ((if negative then ['-'] else []) ++ cs) = some (.scalar (.number n), rest) := by
  cases negative with
  | true =>
    have hmark : markOf? '-' = none := rfl
    rw [if_pos rfl, List.singleton_append, readMark?, hmark]
    dsimp only
    rw [readScalar?, if_neg (by decide), if_pos rfl, h]
    rfl
  | false =>
    -- a number begins with a digit, which is no mark and no other scalar
    obtain ⟨c, tail, rfl, hc⟩ := exists_cons_of_readNumber? h
    have hmark : markOf? c = none := by
      unfold markOf?
      split <;> first | rfl | cases hc
    have hquote : c ≠ '"' := by
      rintro rfl
      cases hc
    have hminus : c ≠ '-' := by
      rintro rfl
      cases hc
    rw [if_neg Bool.false_ne_true, List.nil_append, readMark?, hmark]
    dsimp only
    rw [readScalar?, if_neg hquote, if_neg hminus, if_pos hc, h]
    rfl

theorem wholeNumber_natAbs (n : Int) : wholeNumber (n < 0) n.natAbs = .whole n := by
  rw [wholeNumber]
  split
  · next hzero =>
    simp only [Bool.and_eq_true, decide_eq_true_eq, beq_iff_eq] at hzero
    omega
  · congr 1
    by_cases hn : n < 0
    · rw [if_pos (decide_eq_true hn)]
      omega
    · rw [if_neg (by simpa using hn)]
      omega

/-- The text of a number is read up to a character that cannot belong to it. -/
theorem readMark?_writeNumber (n : Number) {rest : List Char} (hrest : EndsNumber rest) :
    readMark? (writeNumber n ++ rest) = some (.scalar (rereadNumber n), rest) := by
  cases n with
  | whole n =>
    have hread := readNumber?_toDigits (n < 0) n.natAbs hrest
    rw [wholeNumber_natAbs] at hread
    rw [writeNumber, List.append_assoc]
    have hmark := readMark?_sign hread
    simp only [decide_eq_true_eq] at hmark
    exact hmark
  | decimal negative digits exponent =>
    rw [writeNumber, List.append_assoc]
    exact readMark?_sign (readNumber?_writeDecimal negative digits exponent hrest)
  | infinite negative => rfl
  | notANumber => rfl

end CriticalCss.Data.Json
