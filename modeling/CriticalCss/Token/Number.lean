import CriticalCss.Token.Basic
import CriticalCss.Token.Escape

/-!
# Numbers in style sheet text

A number is an optional sign, digits, an optional fraction and an optional exponent.  A point or an
exponent mark belongs to the number only when a digit follows it.  `Numeral.toFloat` is the value
by floating point arithmetic, digit by digit.
-/

namespace CriticalCss

namespace Token

/-- The digits at the start of a text, and the text after them. -/
def takeDigits : List Char → List Nat × List Char
  | [] => ([], [])
  | c :: cs =>
    match Text.digit? c with
    | some d => (d :: (takeDigits cs).1, (takeDigits cs).2)
    | none => ([], c :: cs)

/-- Reads a sign: whether there is one, whether it is a minus, and the text after it. -/
def takeSign : List Char → Bool × Bool × List Char
  | '+' :: cs => (true, false, cs)
  | '-' :: cs => (true, true, cs)
  | cs => (false, false, cs)

/-- Whether a number begins here: after an optional sign stands a digit, or a point and a digit. -/
def startsNumber (cs : List Char) : Bool :=
  match (takeSign cs).2.2 with
  | '.' :: c :: _ => isDigit c
  | c :: _ => isDigit c
  | [] => false

/-- Reads a fraction. -/
def takeFraction : List Char → List Nat × List Char
  | '.' :: c :: cs => if isDigit c then takeDigits (c :: cs) else ([], '.' :: c :: cs)
  | cs => ([], cs)

/-- Reads an exponent. -/
def takeExponent (cs : List Char) : Option (Bool × List Nat) × List Char :=
  match cs with
  | [] => (none, cs)
  | e :: rest =>
    if e == 'e' || e == 'E' then
      let (_, negative, digits) := takeSign rest
      match takeDigits digits with
      | ([], _) => (none, cs)
      | (ds, after) => (some (negative, ds), after)
    else (none, cs)

/-- Reads a number. -/
def takeNumeral (cs : List Char) : Numeral × List Char :=
  let sign := takeSign cs
  let whole := takeDigits sign.2.2
  let fraction := takeFraction whole.2
  let exponent := takeExponent fraction.2
  (⟨sign.1, sign.2.1, whole.1, fraction.1, exponent.1⟩, exponent.2)

/-! ## What is left is a suffix -/

theorem takeDigits_suffix (cs : List Char) : (takeDigits cs).2 <:+ cs := by
  induction cs with
  | nil => exact List.suffix_rfl
  | cons c cs ih =>
    rw [takeDigits]
    split
    · exact ih.trans (List.suffix_cons c cs)
    · exact List.suffix_rfl

theorem takeSign_suffix (cs : List Char) : (takeSign cs).2.2 <:+ cs := by
  unfold takeSign
  split
  · exact List.suffix_cons _ _
  · exact List.suffix_cons _ _
  · exact List.suffix_rfl

theorem takeFraction_suffix (cs : List Char) : (takeFraction cs).2 <:+ cs := by
  unfold takeFraction
  split
  · split
    · exact (takeDigits_suffix _).trans (List.suffix_cons _ _)
    · exact List.suffix_rfl
  · exact List.suffix_rfl

theorem takeExponent_suffix (cs : List Char) : (takeExponent cs).2 <:+ cs := by
  cases cs with
  | nil => exact List.suffix_rfl
  | cons e rest =>
    have hdigits := (takeDigits_suffix (takeSign rest).2.2).trans (takeSign_suffix rest)
    rw [takeExponent]
    split
    · dsimp only
      cases htaken : takeDigits (takeSign rest).2.2 with
      | mk digits after =>
        rw [htaken] at hdigits
        cases digits with
        | nil => exact List.suffix_rfl
        | cons d ds => exact hdigits.trans (List.suffix_cons e rest)
    · exact List.suffix_rfl

theorem takeNumeral_suffix (cs : List Char) : (takeNumeral cs).2 <:+ cs :=
  (takeExponent_suffix _).trans <| (takeFraction_suffix _).trans <|
    (takeDigits_suffix _).trans (takeSign_suffix cs)

theorem takeDigits_length_lt {c : Char} {cs : List Char} (hc : isDigit c = true) :
    (takeDigits (c :: cs)).2.length < (c :: cs).length := by
  have hdigit : Text.digit? c = some (c.toNat - '0'.toNat) := if_pos (by simpa [isDigit] using hc)
  rw [takeDigits, hdigit]
  exact Nat.lt_succ_of_le (takeDigits_suffix cs).length_le

/-- A number takes at least one character wherever one begins. -/
theorem takeNumeral_length_lt {cs : List Char} (h : startsNumber cs = true) :
    (takeNumeral cs).2.length < cs.length := by
  have hsign := (takeSign_suffix cs).length_le
  have hwhole := (takeDigits_suffix (takeSign cs).2.2).length_le
  have hfraction := (takeFraction_suffix (takeDigits (takeSign cs).2.2).2).length_le
  have hexponent :=
    (takeExponent_suffix (takeFraction (takeDigits (takeSign cs).2.2).2).2).length_le
  suffices (takeDigits (takeSign cs).2.2).2.length < (takeSign cs).2.2.length ∨
      (takeFraction (takeDigits (takeSign cs).2.2).2).2.length <
        (takeDigits (takeSign cs).2.2).2.length by
    simp only [takeNumeral]
    omega
  unfold startsNumber at h
  split at h
  · next c rest heq =>
    have hnone : takeDigits ('.' :: c :: rest) = ([], '.' :: c :: rest) := rfl
    have htaken : takeFraction ('.' :: c :: rest) = takeDigits (c :: rest) := if_pos h
    rw [heq, hnone]
    right
    dsimp only
    rw [htaken]
    exact Nat.lt_succ_of_lt (takeDigits_length_lt h)
  · next heq =>
    rw [heq]
    exact .inl (takeDigits_length_lt h)
  · cases h

end Token

namespace Numeral

/-- The digits as a floating point number, each step rounded. -/
def floatOfDigits (digits : List Nat) : Float :=
  digits.foldl (fun n d => n * 10 + d.toFloat) 0

/-- The fraction after the point, digit by digit. -/
def floatOfFraction (digits : List Nat) : Float :=
  (digits.foldl (fun (sum, place) d => (sum + d.toFloat * place, place * 0.1)) (0.0, 0.1)).1

/-- The value in double precision. -/
def toFloat (n : Numeral) : Float :=
  let size := floatOfDigits n.whole + floatOfFraction n.fraction
  let value := (if n.negative then -1.0 else 1.0) * size
  match n.exponent with
  | none => value
  | some (negative, digits) =>
    value * Float.pow 10 ((if negative then -1.0 else 1.0) * floatOfDigits digits)

end Numeral

end CriticalCss
