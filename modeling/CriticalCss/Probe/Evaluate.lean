import CriticalCss.Document.Match
import CriticalCss.Probe.Basic
import CriticalCss.Rule.CriticalMap
import CriticalCss.Rule.Key

/-!
# Finding critical selectors

A selector that is neither kept nor removed by a pattern is critical when it selects an element whose
top lies above the fold.  The rules of a style sheet are looked at in order, those in `@media` and
`@supports` blocks included, and their critical selectors are recorded under the keys of the rules.
An element that was found to begin above the fold is remembered and not measured again.
-/

namespace CriticalCss

namespace Document

/-- Whether an element begins above the fold. -/
def isAboveFold (d : Document) (i : Nat) : Bool :=
  (d.rect? i).any fun r => r.top < Decimal.wholeToFloat32 d.viewport.height

/-- Whether one of some elements begins above the fold, and the elements that are known to do so
afterwards.  The first element that is known or found to begin there decides. -/
def findAboveFold (d : Document) (known : List Nat) : List Nat → Bool × List Nat
  | [] => (false, known)
  | i :: rest =>
    if known.contains i then (true, known)
    else if d.isAboveFold i then (true, i :: known)
    else d.findAboveFold known rest

end Document

/-- How far the evaluation of a style sheet has come: the elements that are known to begin above the
fold, and the selectors that were found critical. -/
structure Evaluation where
  known : List Nat
  critical : CriticalMap

namespace Probe

/-- Whether a selector is critical in a document, and the elements that are known to begin above the
fold afterwards. -/
def judge (p : Probe) (d : Document) (known : List Nat) (selector : String) : Bool × List Nat :=
  match p.triage selector with
  | .keep => (true, known)
  | .remove => (false, known)
  | .purePseudo => (true, known)
  | .query q =>
    match d.query q with
    | .ok nodes => d.findAboveFold known nodes
    | .error _ => (false, known)

/-- Judges a selector of a style rule, and records it under the key of the rule if it is critical. -/
def consider (p : Probe) (d : Document) (key : String) (e : Evaluation) (selector : String) :
    Evaluation :=
  let verdict := p.judge d e.known selector
  ⟨verdict.2, if verdict.1 then e.critical.insert key selector .rule else e.critical⟩

mutual

/-- Considers the selectors of a node. -/
def visit (p : Probe) (d : Document) (context : String) (e : Evaluation) : Node → Evaluation
  | .block h rules position =>
    let n := Node.block h rules position
    if probedKinds.contains h.kind then p.visitAll d (n.innerContext context) e rules else e
  | .item i position =>
    match (Node.item i position).key? context, i.selectors? with
    | some key, some selectors => selectors.foldl (p.consider d key) e
    | _, _ => e

/-- Considers the selectors of some nodes in order. -/
def visitAll (p : Probe) (d : Document) (context : String) (e : Evaluation) :
    List Node → Evaluation
  | [] => e
  | n :: ns => p.visitAll d context (p.visit d context e n) ns

end

/-- The critical selectors of a style sheet in a document. -/
def evaluate (p : Probe) (d : Document) (sheet : Stylesheet) : CriticalMap :=
  (p.visitAll d "" ⟨[], .empty⟩ sheet).critical

end Probe

end CriticalCss
