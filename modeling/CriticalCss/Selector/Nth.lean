import CriticalCss.Text.Letter
import CriticalCss.Token.Component

/-!
# Positions of the form `an+b`

An expression `an+b` describes the positions, counted from one, that `a * n + b` takes for some
natural number `n`.  `Nth.read` reads such an expression from components: `odd`, `even`, an integer,
or a multiple of `n` with an optional offset, where a sign may stand apart from the offset.
-/

namespace CriticalCss

/-- The positions `step * n + offset`. -/
structure Nth where
  step : Int
  offset : Int
deriving DecidableEq

/-- Why no expression can be read. -/
inductive NthFault where
  | unsuitable (t : Token)
  | endOfInput
deriving DecidableEq

namespace Nth

/-- Every other position from the first one on. -/
def odd : Nth := ⟨2, 1⟩

/-- Every other position from the second one on. -/
def even : Nth := ⟨2, 0⟩

/-- Whether the expression describes the position with an index counted from zero. -/
def describes (e : Nth) (index : Nat) : Bool :=
  let distance : Int := index + 1 - e.offset
  if e.step = 0 then distance = 0
  else if 0 < e.step then 0 ≤ distance ∧ e.step ∣ distance
  else distance ≤ 0 ∧ e.step ∣ distance

/-- The text of an expression. -/
def text (e : Nth) : String :=
  if e = odd then "odd"
  else if e = even then "even"
  else if e.step = 0 then toString e.offset
  else
    let multiple := if e.step = 1 then "n" else toString e.step ++ "n"
    if e.offset = 0 then multiple
    else if 0 < e.offset then multiple ++ "+" ++ toString e.offset
    else multiple ++ toString e.offset

/-- The offset in a name such as `n-3`, which is read as a step and a negative offset. -/
def dashedOffset? (name : List Char) : Option Int :=
  match name with
  | n :: '-' :: d :: ds =>
    if n.toLower = 'n' then
      ((d :: ds).mapM Text.digit?).map fun digits =>
        max Numeral.least (-(Text.ofDigits 10 digits : Int))
    else none
  | _ => none

/-- Reads an unsigned integer as the offset, given its sign. -/
def readUnsigned (step sign : Int) (cs : List Component) :
    Except NthFault (Nth × List Component) :=
  match Component.dropSpaces cs with
  | [] => .error .endOfInput
  | c :: rest =>
    match c with
    | .token (.number n) =>
      match n.signed, n.int? with
      | false, some b => .ok (⟨step, sign * b⟩, rest)
      | _, _ => .error (.unsuitable c.head)
    | _ => .error (.unsuitable c.head)

/-- Reads the offset after `n`, if there is one. -/
def readOffset (step : Int) (cs : List Component) : Except NthFault (Nth × List Component) :=
  match Component.dropSpaces cs with
  | .token (.delim '+') :: rest => readUnsigned step 1 rest
  | .token (.delim '-') :: rest => readUnsigned step (-1) rest
  | .token (.number n) :: rest =>
    match n.signed, n.int? with
    | true, some b => .ok (⟨step, b⟩, rest)
    | _, _ => .ok (⟨step, 0⟩, cs)
  | _ => .ok (⟨step, 0⟩, cs)

/-- Reads what follows a step, given the name that begins with `n`. -/
def readAfterStep (step : Int) (name whole : String) (cs : List Component) :
    Except NthFault (Nth × List Component) :=
  if Text.sameLetters name "n" then readOffset step cs
  else if Text.sameLetters name "n-" then readUnsigned step (-1) cs
  else
    match dashedOffset? name.toList with
    | some b => .ok (⟨step, b⟩, cs)
    | none => .error (.unsuitable (.ident whole))

/-- Reads an expression that begins with a name. -/
def readName (name : String) (cs : List Component) : Except NthFault (Nth × List Component) :=
  if Text.sameLetters name "even" then .ok (even, cs)
  else if Text.sameLetters name "odd" then .ok (odd, cs)
  else
    match name.toList with
    | '-' :: tail => readAfterStep (-1) (String.ofList tail) name cs
    | _ => readAfterStep 1 name name cs

/-- Reads an expression; what follows it is returned. -/
def readStart (cs : List Component) : Except NthFault (Nth × List Component) :=
  match Component.dropSpaces cs with
  | [] => .error .endOfInput
  | c :: rest =>
    match c with
    | .token (.number n) =>
      match n.int? with
      | some b => .ok (⟨0, b⟩, rest)
      | none => .error (.unsuitable c.head)
    | .token (.dimension n unit) =>
      match n.int? with
      | some a => readAfterStep a unit unit rest
      | none => .error (.unsuitable c.head)
    | .token (.ident name) => readName name rest
    | .token (.delim '+') =>
      match rest with
      | .token (.ident name) :: after => readAfterStep 1 name name after
      | other :: _ => .error (.unsuitable other.head)
      | [] => .error .endOfInput
    | _ => .error (.unsuitable c.head)

/-- Reads an expression that nothing follows. -/
def read (cs : List Component) : Except NthFault Nth := do
  let (e, rest) ← readStart cs
  match Component.dropSpaces rest with
  | [] => return e
  | c :: _ => .error (.unsuitable c.head)

end Nth

end CriticalCss
