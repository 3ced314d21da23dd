import CriticalCss.Data.Value

/-!
# Tables of TOML

A table may be opened once by a header, and it may come to be because a header or a dotted key names
something inside it.  A table that a header opened cannot be extended by dotted keys, nor can one that
dotted keys made be opened by a header.
-/

namespace CriticalCss.Data.Toml

/-- How a table came to be. -/
inductive Origin where
  /-- It was opened by a header. -/
  | header
  /-- A header names something inside it. -/
  | implied
  /-- A dotted key names something inside it. -/
  | dotted
deriving DecidableEq

/-- What a key stands for while a document is read. -/
inductive Entry where
  /-- A value that is complete. -/
  | value (v : Value)
  | table (origin : Origin) (members : List (String × Entry))
  /-- A list of tables, the last one first. -/
  | tables (items : List (List (String × Entry)))

/-- The members of a table. -/
abbrev Members := List (String × Entry)

namespace Entry

mutual

/-- The value of an entry. -/
def toValue : Entry → Value
  | .value v => v
  | .table _ members => .record (membersToValues members)
  | .tables items => .list (tablesToValues items).reverse

/-- The values of members. -/
def membersToValues : List (String × Entry) → List (String × Value)
  | [] => []
  | (k, e) :: rest => (k, e.toValue) :: membersToValues rest

/-- The values of tables. -/
def tablesToValues : List (List (String × Entry)) → List Value
  | [] => []
  | t :: ts => .record (membersToValues t) :: tablesToValues ts

end

end Entry

/-- Replaces the entry of a key, or adds it. -/
def setEntry (key : String) (e : Entry) : Members → Members
  | [] => [(key, e)]
  | (k, old) :: rest => if k = key then (k, e) :: rest else (k, old) :: setEntry key e rest

/-- Changes the table that a path of keys leads to; it is given how it came to be and its members.
Tables on the way that are not there come to be with the given origin; dotted keys lead only through
tables that no header opened. -/
def within? (made : Origin) (change : Origin → Members → Option Members) (origin : Origin)
    (members : Members) : List String → Option Members
  | [] => change origin members
  | key :: path =>
    match members.lookup key with
    | none => do
      let inner ← within? made change made [] path
      return setEntry key (.table made inner) members
    | some (.value _) => none
    | some (.table o inner) =>
      if made = .dotted ∧ o = .header then none
      else do
        let inner ← within? made change o inner path
        return setEntry key (.table o inner) members
    | some (.tables []) => none
    | some (.tables (last :: before)) => do
      let last ← within? made change .header last path
      return setEntry key (.tables (last :: before)) members

/-- Adds a value at a dotted key to a table. -/
def assign? (path : List String) (key : String) (v : Value) (origin : Origin)
    (members : Members) : Option Members :=
  let put (o : Origin) (ms : Members) : Option Members :=
    if (o = .dotted) = (path = []) then none
    else if (ms.lookup key).isSome then none
    else some (setEntry key (.value v) ms)
  within? .dotted put origin members path

/-- Opens a table. -/
def openTable? (key : String) (_origin : Origin) (members : Members) : Option Members :=
  match members.lookup key with
  | none => some (setEntry key (.table .header []) members)
  | some (.table .implied inner) => some (setEntry key (.table .header inner) members)
  | _ => none

/-- Opens one more table of a list. -/
def openItem? (key : String) (_origin : Origin) (members : Members) : Option Members :=
  match members.lookup key with
  | none => some (setEntry key (.tables [[]]) members)
  | some (.tables items) => some (setEntry key (.tables ([] :: items)) members)
  | _ => none

end CriticalCss.Data.Toml
