import CriticalCss.Data.Value

/-!
# Reading typed data out of values

A structure is read from a record, or from a list that holds its fields in order.  In a record,
members that are no fields are passed over, and a field that stands twice is an error; a list may be
too short but not too long.  What a missing field means depends on the field: it may be an error,
stand for a default, or stand for nothing.
-/

namespace CriticalCss.Data

/-- The greatest numbers of 32 and 64 bits. -/
def max32 : Nat := 4294967295

/-- The greatest number of 64 bits. -/
def max64 : Nat := 18446744073709551615

namespace Value

/-- A text. -/
def asText? : Value → Option String
  | .text s => some s
  | _ => none

/-- A truth value. -/
def asBool? : Value → Option Bool
  | .bool b => some b
  | _ => none

/-- A whole number between zero and a bound. -/
def asNat? (bound : Nat) : Value → Option Nat
  | .number (.whole (.ofNat n)) => if n ≤ bound then some n else none
  | _ => none

/-- A single precision number. -/
def asFloat32? : Value → Option Float32
  | .number n => n.toFloat32?
  | _ => none

/-- A list whose items are all read. -/
def asList? (read : Value → Option α) : Value → Option (List α)
  | .list items => items.mapM read
  | _ => none

/-- Null, or a value that is read. -/
def asOption? (read : Value → Option α) : Value → Option (Option α)
  | .null => some none
  | v => (read v).map some

/-- A list of texts. -/
def asTexts? : Value → Option (List String) :=
  asList? asText?

/-- The name of a case without data: a text, or a record with that one member, which is null. -/
def asCase? : Value → Option String
  | .text s => some s
  | .record [(name, .null)] => some name
  | _ => none

end Value

/-- The fields of a structure in a value. -/
structure Fields where
  /-- The value of each field that is there. -/
  present : List (String × Value)
  /-- The structure is written as a list. -/
  listed : Bool

namespace Fields

/-- The fields with the given names, in their order. -/
def of? (names : List String) : Value → Option Fields
  | .record members =>
    let known := members.filter fun m => names.contains m.1
    if (known.map (·.1)).Nodup then some ⟨known, false⟩ else none
  | .list items =>
    if items.length ≤ names.length then some ⟨names.zip items, true⟩ else none
  | _ => none

/-- A field, if it is there. -/
def get? (f : Fields) (name : String) : Option Value :=
  f.present.lookup name

/-- A field that must be there. -/
def required (f : Fields) (name : String) (read : Value → Option α) : Option α :=
  (f.get? name).bind read

/-- A field that has a default. -/
def withDefault (f : Fields) (name : String) (default : α) (read : Value → Option α) : Option α :=
  match f.get? name with
  | none => some default
  | some v => read v

/-- A field that may be null, or be missing in a record. -/
def optional (f : Fields) (name : String) (read : Value → Option α) : Option (Option α) :=
  match f.get? name with
  | none => if f.listed then none else some none
  | some v => v.asOption? read

end Fields

end CriticalCss.Data
