import CriticalCss.Decimal.Nearest
import CriticalCss.Text.Letter

/-!
# The shortest decimal text of a number

Of all decimal numbers that round to a given single precision number, `shortest` takes one with the
fewest digits, of those the nearest, and of two equally near ones the one that a `Tie` names.
`positional` writes it without an exponent, and `diagnostic` with an exponent where it is very large
or very small.
-/

namespace CriticalCss.Decimal

/-- Which of two equally near numbers is taken. -/
inductive Tie where
  | greater
  | even
deriving DecidableEq

/-- The greatest `t` with `10 ^ t ≤ num / den`. -/
def log10Quotient (num den : Nat) : Int :=
  if den ≤ num then ((Nat.toDigits 10 (num / den)).length : Int) - 1
  else -((Nat.toDigits 10 ((den + num - 1) / num - 1)).length : Int)

/-- A fraction divided by a power of ten. -/
def scale10 (num den : Nat) (g : Int) : Nat × Nat :=
  match g with
  | .ofNat n => (num, den * Nat.pow 10 n)
  | .negSucc n => (num * Nat.pow 10 (n + 1), den)

/-- Of the two multiples of `10 ^ g` around the number `m * 2 ^ q`, the nearer one that rounds to it.
The numbers that round to it lie between `low` and `4 * m + 2` quarters of `2 ^ q`, ends included
when `m` is even. -/
def gridPoint? (tie : Tie) (m : Nat) (q : Int) (low : Nat) (g : Int) : Option Nat :=
  let unit := scale 1 4 q
  let value := scale10 (4 * m * unit.1) unit.2 g
  let floor := value.1 / value.2
  let inside (c : Nat) : Bool :=
    -- `c` grid steps in quarters of `2 ^ q`, by cross multiplication
    let s := scale10 unit.1 unit.2 g
    let left := low * s.1
    let right := (4 * m + 2) * s.1
    if m % 2 = 0 then left ≤ c * s.2 && c * s.2 ≤ right
    else left < c * s.2 && c * s.2 < right
  let down := inside floor
  let up := inside (floor + 1)
  if down && up then
    let twice := 2 * (value.1 % value.2)
    let stays := twice < value.2 ∨ (twice = value.2 ∧ tie = .even ∧ floor % 2 = 0)
    some (if stays then floor else floor + 1)
  else if down then some floor
  else if up then some (floor + 1)
  else none

/-- Digits and exponent of the shortest decimal that rounds to `m * 2 ^ q` in single precision. -/
def shortest (tie : Tie) (m : Nat) (q : Int) : Nat × Int :=
  if m = 0 then (0, 0)
  else
    let low := if m = Nat.pow 2 23 ∧ q > single.least then 4 * m - 1 else 4 * m - 2
    let unit := scale m 1 q
    let top := log10Quotient unit.1 unit.2
    let found := (List.range 17).findSome? fun (n : Nat) =>
      let g := top - (n : Int)
      (gridPoint? tie m q low g).map fun c => (c, g)
    found.getD (0, 0)

/-- The digits without zeros at the end, and how many there were. -/
def dropZeros : Nat → Nat → Nat × Nat
  | 0, n => (n, 0)
  | fuel + 1, n =>
    if n ≠ 0 ∧ n % 10 = 0 then
      let (d, k) := dropZeros fuel (n / 10)
      (d, k + 1)
    else (n, 0)

/-- A decimal number without an exponent. -/
def positionalDigits (digits : Nat) (exponent : Int) : String :=
  let ds := Nat.toDigits 10 digits
  match exponent with
  | .ofNat n => String.ofList (if digits = 0 then ds else ds ++ List.replicate n '0')
  | .negSucc n =>
    let places := n + 1
    let padded := List.replicate (places + 1 - ds.length) '0' ++ ds
    let cut := padded.length - places
    String.ofList (padded.take cut ++ '.' :: padded.drop cut)

/-- A decimal number with one digit in front of the point and an exponent. -/
def scientificDigits (digits : Nat) (exponent : Int) : String :=
  let ds := Nat.toDigits 10 digits
  let top : Int := exponent + (ds.length : Int) - 1
  let places := if ds.tail = [] then [] else '.' :: ds.tail
  let sign := if top < 0 then ['-'] else []
  String.ofList (ds.take 1 ++ places ++ 'e' :: sign ++ Nat.toDigits 10 top.natAbs)

/-- Sign, digits and exponent of a single precision number, without zeros at the end of the digits. -/
def shortestOf (tie : Tie) (x : Float32) : Bool × Nat × Int :=
  let (negative, m, q) := ofFloat32 x
  let (d, g) := shortest tie m q
  let (d', k) := dropZeros 40 d
  (negative, d', g + k)

/-- The text of a number that is no finite number. -/
def special? (x : Float32) : Option String :=
  if x.isNaN then some "NaN"
  else if x.isInf then some (if x < 0 then "-inf" else "inf")
  else none

/-- A number without an exponent, and without a point when it is whole. -/
def positional (x : Float32) : String :=
  match special? x with
  | some s => s
  | none =>
    let (negative, d, g) := shortestOf .greater x
    (if negative then "-" else "") ++ positionalDigits d g

/-- A number as a diagnostic shows it: always with a point or an exponent; the exponent appears from
`10 ^ 16` on and below `10 ^ -4`. -/
def diagnostic (x : Float32) : String :=
  match special? x with
  | some s => s
  | none =>
    let (negative, d, g) := shortestOf .greater x
    let top : Int := g + ((Nat.toDigits 10 d).length : Int) - 1
    let body :=
      if d = 0 then "0.0"
      else if top ≥ 16 ∨ top < -4 then scientificDigits d g
      else
        let s := positionalDigits d g
        if s.toList.contains '.' then s else s ++ ".0"
    (if negative then "-" else "") ++ body

end CriticalCss.Decimal
