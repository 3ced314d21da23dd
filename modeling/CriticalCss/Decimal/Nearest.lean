/-!
# Rounding to a binary format

A finite number of a binary format is a whole number `m` of `precision` bits times a power `2 ^ q`
with `least ≤ q`.  `nearest` finds the pair nearest to a fraction; of two equally near ones it takes
the one with the even `m`.  `Float32` values are assembled from such pairs and taken apart into
them.
-/

namespace CriticalCss.Decimal

/-- A binary format by its number of significant bits and its range of exponents. -/
structure Format where
  precision : Nat
  least : Int
  greatest : Int

/-- Single precision. -/
def single : Format := ⟨24, -149, 104⟩

/-- Double precision. -/
def double : Format := ⟨53, -1074, 971⟩

/-- A fraction times a power of two, as a fraction. -/
def scale (num den : Nat) (q : Int) : Nat × Nat :=
  match q with
  | .ofNat n => (num * Nat.pow 2 n, den)
  | .negSucc n => (num, den * Nat.pow 2 (n + 1))

/-- The exponent of the greatest power of two that is at most `num / den`. -/
def log2Quotient (num den : Nat) : Int :=
  let e : Int := (Nat.log2 num : Int) - Nat.log2 den
  let s := scale den 1 e
  if s.1 ≤ num * s.2 then e else e - 1

/-- The whole number nearest to a fraction, a half going to the even one. -/
def roundHalfEven (num den : Nat) : Nat :=
  let whole := num / den
  let twice := 2 * (num % den)
  if twice < den ∨ (twice = den ∧ whole % 2 = 0) then whole else whole + 1

/-- The number `m * 2 ^ q` of a format nearest to `num / den`. -/
def nearest (f : Format) (num den : Nat) : Nat × Int :=
  if num = 0 then (0, f.least)
  else
    let q := max f.least (log2Quotient num den - f.precision + 1)
    let s := scale num den (-q)
    let m := roundHalfEven s.1 s.2
    if m = Nat.pow 2 f.precision then (m / 2, q + 1) else (m, q)

/-- The single precision number with a sign and a pair, which is infinite when the pair is out of
range. -/
def toFloat32 (negative : Bool) (m : Nat) (q : Int) : Float32 :=
  let sign : Nat := if negative then Nat.pow 2 31 else 0
  let size : Nat :=
    if q > single.greatest then 0xff * Nat.pow 2 23
    else if m < Nat.pow 2 23 then m
    else (q + 150).toNat * Nat.pow 2 23 + (m - Nat.pow 2 23)
  Float32.ofBits (UInt32.ofNat (sign + size))

/-- Sign and pair of a finite single precision number. -/
def ofFloat32 (x : Float32) : Bool × Nat × Int :=
  let bits := x.toBits.toNat
  let exponent : Nat := bits / Nat.pow 2 23 % 256
  let fraction : Nat := bits % Nat.pow 2 23
  (bits ≥ Nat.pow 2 31,
    if exponent = 0 then (fraction, -149) else (fraction + Nat.pow 2 23, (exponent : Int) - 150))

/-- A decimal number `digits * 10 ^ exponent` as a fraction.  Beyond any binary exponent it is cut
off: far too large numbers are one that is too large, and far too small ones are zero. -/
def fraction (digits : Nat) (exponent : Int) : Nat × Nat :=
  if digits = 0 then (0, 1)
  else if exponent > 400 then (Nat.pow 10 400, 1)
  else if exponent + ((Nat.toDigits 10 digits).length : Int) < -400 then (0, 1)
  else
    match exponent with
    | .ofNat n => (digits * Nat.pow 10 n, 1)
    | .negSucc n => (digits, Nat.pow 10 (n + 1))

/-- A decimal number in single precision, read by way of double precision; nothing when it is out of
the range of double precision. -/
def readFloat32? (negative : Bool) (digits : Nat) (exponent : Int) : Option Float32 :=
  let (num, den) := fraction digits exponent
  let (m, q) := nearest double num den
  if q > double.greatest then none
  else
    let s := scale m 1 q
    let (m', q') := nearest single s.1 s.2
    some (toFloat32 negative m' q')

/-- A whole number in single precision. -/
def wholeToFloat32 (n : Int) : Float32 :=
  let (m, q) := nearest single n.natAbs 1
  toFloat32 (n < 0) m q

end CriticalCss.Decimal
