/-!
# Letters and digits of the ASCII range

Case folding here touches the letters `A` to `Z` only; every other character stays as it is.
-/

namespace CriticalCss.Text

/-- The text with `A` to `Z` replaced by `a` to `z`. -/
def lower (s : String) : String :=
  String.ofList (s.toList.map Char.toLower)

/-- Equality of texts up to the case of ASCII letters. -/
def sameLetters (s t : String) : Bool :=
  lower s == lower t

/-- The value of a hexadecimal digit. -/
def hexDigit? (c : Char) : Option Nat :=
  if '0' ≤ c ∧ c ≤ '9' then some (c.toNat - 48)
  else if 'a' ≤ c ∧ c ≤ 'f' then some (c.toNat - 87)
  else if 'A' ≤ c ∧ c ≤ 'F' then some (c.toNat - 55)
  else none

/-- The value of a decimal digit. -/
def digit? (c : Char) : Option Nat :=
  if '0' ≤ c ∧ c ≤ '9' then some (c.toNat - 48) else none

/-- The number a list of digits writes in the given base, most significant digit first. -/
def ofDigits (base : Nat) (digits : List Nat) : Nat :=
  digits.foldl (fun n d => n * base + d) 0

/-- The character with a code point, where `U+FFFD` stands for code points that are no characters. -/
def scalarOr (n : Nat) : Char :=
  if n.isValidChar then Char.ofNat n else '\uFFFD'

/-- How many UTF-16 code units a character takes. -/
def units16 (c : Char) : Nat :=
  if c.toNat < 0x10000 then 1 else 2

/-- The decimal digits of a number as text. -/
def ofNat (n : Nat) : String :=
  String.ofList (Nat.toDigits 10 n)

/-- A number in lower-case hexadecimal. -/
def hex (n : Nat) : String :=
  String.ofList (Nat.toDigits 16 n)

/-- A number in upper-case hexadecimal with two places. -/
def hexByte (n : Nat) : List Char :=
  [Nat.digitChar (n / 16), Nat.digitChar (n % 16)].map Char.toUpper

/-- Whether `needle` occurs in `hay`. -/
def contains (hay needle : List Char) : Bool :=
  needle.isPrefixOf hay || match hay with
    | [] => false
    | _ :: rest => contains rest needle

/-! ## Letters and their case -/

/-- The letters that have a case. -/
def letters : List Char :=
  (List.range' 65 26 ++ List.range' 97 26).map Char.ofNat

theorem mem_letters {c : Char} (h : c.isAlpha = true) : c ∈ letters := by
  have hcode : (65 ≤ c.toNat ∧ c.toNat ≤ 90) ∨ (97 ≤ c.toNat ∧ c.toNat ≤ 122) := by
    rcases Bool.or_eq_true_iff.1 h with h | h
    · exact .inl (of_decide_eq_true h)
    · obtain ⟨h, h'⟩ := Bool.and_eq_true_iff.1 h
      exact .inr ⟨of_decide_eq_true h, of_decide_eq_true h'⟩
  refine List.mem_map.2 ⟨c.toNat, ?_, Char.ofNat_toNat c⟩
  rw [List.mem_append, List.mem_range'_1, List.mem_range'_1]
  omega

/-- What holds of every letter can be checked one by one. -/
theorem forall_letter (p : Char → Prop) [DecidablePred p]
    (h : (letters.all fun c => decide (p c)) = true) (c : Char) (hc : c.isAlpha = true) : p c :=
  of_decide_eq_true (List.all_eq_true.1 h c (mem_letters hc))

/-- What is no letter has no case. -/
theorem toLower_of_not_isAlpha {c : Char} (h : c.isAlpha = false) : c.toLower = c := by
  have hupper : ¬(65 ≤ c.toNat ∧ c.toNat ≤ 90) :=
    of_decide_eq_false (Bool.or_eq_false_iff.1 h).1
  exact dif_neg hupper

@[simp]
theorem isAlpha_toLower (c : Char) : c.toLower.isAlpha = c.isAlpha := by
  cases hc : c.isAlpha with
  | true => exact forall_letter (fun c => c.toLower.isAlpha = true) rfl c hc
  | false => rw [toLower_of_not_isAlpha hc, hc]

@[simp]
theorem toLower_toLower (c : Char) : c.toLower.toLower = c.toLower := by
  cases hc : c.isAlpha with
  | true => exact forall_letter (fun c => c.toLower.toLower = c.toLower) rfl c hc
  | false => rw [toLower_of_not_isAlpha hc, toLower_of_not_isAlpha hc]

theorem lower_lower (s : String) : lower (lower s) = lower s := by
  simp [lower, Function.comp_def]

end CriticalCss.Text
