import CriticalCss.Probe.Pattern
import CriticalCss.Text.Blank
import CriticalCss.Text.Letter

/-!
# Deciding what to do with a selector

A probe keeps the selectors that match one of its keep patterns, and removes those that match one of
its remove patterns.  Of the others, the ones that begin with a pseudo-class or pseudo-element stand
for nothing that could be looked up and are kept, unless they speak of the root; the rest is looked
up in the document without the pseudo-elements and pseudo-classes that no laid-out element has.
-/

namespace CriticalCss

/-- What is kept, what is removed, and how many milliseconds a page may load. -/
structure Probe where
  keep : List SelectorPattern
  remove : List SelectorPattern
  loadTimeout : Nat

/-- How a selector is decided. -/
inductive Triage where
  | keep
  | remove
  /-- It begins with a pseudo-class or pseudo-element. -/
  | purePseudo
  /-- It depends on the elements that this text selects. -/
  | query (selector : String)
deriving DecidableEq

namespace Probe

/-- How many milliseconds a page may load unless something else is asked for. -/
def standardTimeout : Nat := 2000

/-- A probe with patterns given by their text. -/
def ofTexts (keep remove : List String) (loadTimeout : Nat) : Probe :=
  ⟨keep.map (⟨·⟩), remove.map (⟨·⟩), loadTimeout⟩

/-- The names that are left out, with their colons, before a selector is looked up. -/
def unqueryableNames : List (List Char) :=
  ["after", "before", "first-line", "first-letter", "selection", "visited"].map String.toList

/-- Drops one of the unqueryable names. -/
def dropName? (cs : List Char) : Option (List Char) :=
  (unqueryableNames.find? (·.isPrefixOf cs)).map fun n => cs.drop n.length

/-- Drops a name that begins with a dash. -/
def dropVendorName? : List Char → Option (List Char)
  | '-' :: cs => some (cs.dropWhile fun c => c.isLower || c = '-')
  | _ => none

/-- Drops one or two colons and the name after them. -/
def dropPseudo? (dropName? : List Char → Option (List Char)) : List Char → Option (List Char)
  | ':' :: ':' :: cs => dropName? cs
  | ':' :: cs => dropName? cs
  | _ => none

/-- The text without the names that can be dropped.  The first argument bounds the steps. -/
def withoutPseudoWithin (dropName? : List Char → Option (List Char)) :
    Nat → List Char → List Char
  | 0, cs => cs
  | _, [] => []
  | n + 1, c :: cs =>
    match dropPseudo? dropName? (c :: cs) with
    | some rest => withoutPseudoWithin dropName? n rest
    | none => c :: withoutPseudoWithin dropName? n cs

/-- The text without the names that can be dropped, each with one or two colons. -/
def withoutPseudo (dropName? : List Char → Option (List Char)) (cs : List Char) : List Char :=
  withoutPseudoWithin dropName? cs.length cs

/-- The selector that is looked up for a selector. -/
def strip (selector : String) : String :=
  let cs := withoutPseudo dropVendorName? (withoutPseudo dropName? selector.toList)
  String.ofList (Text.trimChars cs)

/-- Whether a selector begins with a colon and does not speak of the root. -/
def isPurePseudo (selector : String) : Bool :=
  selector.toList.head? = some ':' && !Text.contains selector.toList ":root".toList

/-- Decides what to do with a selector. -/
def triage (p : Probe) (selector : String) : Triage :=
  if p.keep.any (·.accepts selector) then .keep
  else if p.remove.any (·.accepts selector) then .remove
  else if isPurePseudo selector then .purePseudo
  else .query (strip selector)

end Probe

end CriticalCss
