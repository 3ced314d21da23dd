import CriticalCss.Data.Toml.Scalar
import CriticalCss.Data.Toml.Table

/-!
# Reading TOML

A document is a list of lines: headers of tables and assignments of values to keys.  Arrays may span
lines, inline tables may not.
-/

namespace CriticalCss.Data.Toml

/-- Characters of keys without quotes. -/
def isKeyChar (c : Char) : Bool :=
  c.isAlphanum || c == '_' || c == '-'

/-- Reads one part of a key. -/
def keyPart? (cs : List Char) : Option (String × List Char) :=
  match cs with
  | '"' :: _ => lineString? cs
  | '\'' :: _ => lineString? cs
  | _ =>
    let name := cs.takeWhile isKeyChar
    if name = [] then none else some (String.ofList name, cs.drop name.length)

/-- Reads a key with points, of at most as many parts as the first argument allows. -/
def keyWithin? : Nat → List Char → Option (List String × List Char)
  | 0, _ => none
  | n + 1, cs => do
    let (part, rest) ← keyPart? (skipBlanks cs)
    match skipBlanks rest with
    | '.' :: after =>
      let (parts, rest) ← keyWithin? n after
      return (part :: parts, rest)
    | rest => return ([part], rest)

/-- Reads a key with points; blanks around it are dropped. -/
def key? (cs : List Char) : Option (List String × List Char) :=
  keyWithin? (cs.length + 1) cs

/-- The path and the last part of a key. -/
def splitKey? (parts : List String) : Option (List String × String) :=
  parts.getLast?.map fun last => (parts.dropLast, last)

mutual

/-- Reads a value; the first argument bounds the steps. -/
def value? : Nat → List Char → Option (Value × List Char)
  | 0, _ => none
  | n + 1, cs =>
    match cs with
    | '[' :: rest => (items? n (skipLines rest)).map fun p => (.list p.1, p.2)
    | '{' :: rest =>
      match skipBlanks rest with
      | '}' :: after => some (.record [], after)
      | inner => (pairs? n [] inner).map fun p => (.record (Entry.membersToValues p.1), p.2)
    | '"' :: _ => (string? cs).map fun p => (.text p.1, p.2)
    | '\'' :: _ => (string? cs).map fun p => (.text p.1, p.2)
    | _ => scalar cs

/-- Reads the items of an array up to its closing bracket. -/
def items? : Nat → List Char → Option (List Value × List Char)
  | 0, _ => none
  | n + 1, cs =>
    match cs with
    | ']' :: rest => some ([], rest)
    | _ => do
      let (v, rest) ← value? n cs
      match skipLines rest with
      | ',' :: rest =>
        let (vs, rest) ← items? n (skipLines rest)
        return (v :: vs, rest)
      | ']' :: rest => return ([v], rest)
      | _ => none

/-- Reads the assignments of an inline table up to its closing bracket. -/
def pairs? : Nat → Members → List Char → Option (Members × List Char)
  | 0, _, _ => none
  | n + 1, members, cs => do
    let (parts, rest) ← key? cs
    let (path, key) ← splitKey? parts
    let '=' :: rest := rest | none
    let (v, rest) ← value? n (skipBlanks rest)
    let members ← assign? path key v .header members
    match skipBlanks rest with
    | ',' :: rest => pairs? n members rest
    | '}' :: rest => return (members, rest)
    | _ => none

end

/-- A document that has been read up to some line. -/
structure Progress where
  root : Members
  /-- The path of the table that assignments go to. -/
  current : List String

namespace Progress

/-- A header is read. -/
def open? (p : Progress) (parts : List String)
    (open_ : String → Origin → Members → Option Members) : Option Progress := do
  let (path, key) ← splitKey? parts
  let root ← within? .implied (open_ key) .header p.root path
  return ⟨root, parts⟩

/-- An assignment is read. -/
def assign? (p : Progress) (parts : List String) (v : Value) : Option Progress := do
  let (path, key) ← splitKey? parts
  let root ← within? .implied (Toml.assign? path key v) .header p.root p.current
  return { p with root }

end Progress

/-- Reads one line, or several if a value spans them. -/
def line? (p : Progress) (cs : List Char) : Option (Progress × List Char) :=
  match skipBlanks cs with
  | '[' :: '[' :: rest => do
    let (parts, rest) ← key? rest
    let ']' :: ']' :: rest := rest | none
    return (← p.open? parts openItem?, ← endLine? rest)
  | '[' :: rest => do
    let (parts, rest) ← key? rest
    let ']' :: rest := rest | none
    return (← p.open? parts openTable?, ← endLine? rest)
  | rest =>
    match endLine? rest with
    | some after => some (p, after)
    | none => do
      let (parts, rest) ← key? rest
      let '=' :: rest := rest | none
      let (v, rest) ← value? (rest.length + 1) (skipBlanks rest)
      return (← p.assign? parts v, ← endLine? rest)

/-- Reads lines, at most as many as the first argument allows. -/
def lines? : Nat → Progress → List Char → Option Progress
  | _, p, [] => some p
  | 0, _, _ => none
  | n + 1, p, cs => do
    let (p, rest) ← line? p cs
    lines? n p rest

/-- Reads a document. -/
def read? (s : String) : Option Value := do
  let cs := match s.toList with
    | '\uFEFF' :: cs => cs
    | cs => cs
  let p ← lines? (cs.length + 1) ⟨[], []⟩ cs
  return .record (Entry.membersToValues p.root)

end CriticalCss.Data.Toml
