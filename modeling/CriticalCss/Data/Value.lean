import CriticalCss.Decimal.Shortest

/-!
# Self-describing values

The values that a JSON or TOML document writes.  Records keep the order of their members and may
name a member twice; what that means is up to the reader of the record.  A number keeps the decimal
digits it was written with, so that the type it is read as decides how it is rounded.
-/

namespace CriticalCss.Data

/-- A number of a document. -/
inductive Number where
  /-- Written without a point and without an exponent. -/
  | whole (n : Int)
  /-- `digits * 10 ^ exponent` with a sign. -/
  | decimal (negative : Bool) (digits : Nat) (exponent : Int)
  | infinite (negative : Bool)
  | notANumber
deriving DecidableEq

/-- A value of a document. -/
inductive Value where
  | null
  | bool (b : Bool)
  | number (n : Number)
  | text (s : String)
  | list (items : List Value)
  | record (members : List (String × Value))
deriving Inhabited

namespace Number

/-- The number in single precision, by way of double precision where it was written with a point or
an exponent. -/
def toFloat32? : Number → Option Float32
  | .whole n => some (Decimal.wholeToFloat32 n)
  | .decimal negative digits exponent => Decimal.readFloat32? negative digits exponent
  | .infinite negative => some (Decimal.toFloat32 negative 0 1000)
  | .notANumber => some (0.0 / 0.0)

/-- A finite single precision number by its shortest digits, of two equally near ones by those that
are even; nothing for the others. -/
def ofFloat32? (x : Float32) : Option Number :=
  if x.isNaN || x.isInf then none
  else
    let (negative, digits, exponent) := Decimal.shortestOf .even x
    some (.decimal negative digits exponent)

end Number

namespace Value

mutual

/-- How deeply a value is nested. -/
def depth : Value → Nat
  | .list items => depthOfList items + 1
  | .record members => depthOfMembers members + 1
  | _ => 1

/-- The greatest depth in a list. -/
def depthOfList : List Value → Nat
  | [] => 0
  | v :: vs => max v.depth (depthOfList vs)

/-- The greatest depth among members. -/
def depthOfMembers : List (String × Value) → Nat
  | [] => 0
  | (_, v) :: ms => max v.depth (depthOfMembers ms)

end

/-- Text values. -/
def ofTexts (ss : List String) : Value :=
  .list (ss.map .text)

/-- A natural number. -/
def ofNat (n : Nat) : Value :=
  .number (.whole n)

/-- A single precision number; what is not finite becomes null. -/
def ofFloat32 (x : Float32) : Value :=
  match Number.ofFloat32? x with
  | some n => .number n
  | none => .null

end Value

end CriticalCss.Data
