import CriticalCss.Rule.CriticalMap
import CriticalCss.Rule.Key

/-!
# Splitting a style sheet

A style sheet is split into the rules needed above the fold and the rest.  The critical part keeps
the selectors that the critical map has under the key of their rule, and every rule without
selectors.  What it keeps is taken, per key; the rest drops exactly the selectors that are taken, and
keeps rules without selectors too.  Comments, style rules without selectors and groups
without rules are dropped from both parts.
-/

namespace CriticalCss

/-- The two parts of a style sheet. -/
structure Split where
  critical : Stylesheet
  rest : Stylesheet
deriving DecidableEq

/-- The selectors taken per key; of several entries for one key the last one holds. -/
abbrev Taken := List (String × List String)

/-- The selectors taken under a key. -/
def Taken.get? (taken : Taken) (key : String) : Option (List String) :=
  taken.reverse.lookup key

namespace Stylesheet

/-- The selectors of a list that are critical under a key. -/
def criticalSelectors (critical : CriticalMap) (key : String) (selectors : List String) :
    List String :=
  selectors.filter (critical.isCritical key ·)

/-- A style rule with fewer selectors, unless none is left. -/
def withSelectors? (n : Node) (selectors : List String) : List Node :=
  if selectors = [] then [] else [n.withSelectors selectors]

/-- A group with fewer rules, unless none is left. -/
def withChildren? (n : Node) (rules : List Node) : List Node :=
  if rules = [] then [] else [n.withChildren rules]

mutual

/-- What the critical part keeps of a node. -/
def criticalPart (critical : CriticalMap) (context : String) : Node → List Node
  | .block h rules p =>
    let n := Node.block h rules p
    if h.groupsRules then
      withChildren? n (criticalParts critical (n.innerContext context) rules)
    else if (n.key? context).isSome then [n] else []
  | .item i p =>
    let n := Node.item i p
    match n.key? context, i.selectors? with
    | none, _ => []
    | some key, some selectors => withSelectors? n (criticalSelectors critical key selectors)
    | some _, none => [n]

/-- What the critical part keeps of some nodes. -/
def criticalParts (critical : CriticalMap) (context : String) : List Node → List Node
  | [] => []
  | n :: ns => criticalPart critical context n ++ criticalParts critical context ns

end

mutual

/-- What the critical part takes of a node. -/
def taken (critical : CriticalMap) (context : String) : Node → Taken
  | .block h rules p =>
    let n := Node.block h rules p
    if h.groupsRules then takenOf critical (n.innerContext context) rules
    else (n.key? context).toList.map fun key => (key, [])
  | .item i p =>
    ((Node.item i p).key? context).toList.map fun key =>
      (key, criticalSelectors critical key (i.selectors?.getD []))

/-- What the critical part takes of some nodes. -/
def takenOf (critical : CriticalMap) (context : String) : List Node → Taken
  | [] => []
  | n :: ns => taken critical context n ++ takenOf critical context ns

end

/-- The selectors of a list that are not taken under a key. -/
def remaining (taken : Taken) (key : String) (selectors : List String) : List String :=
  selectors.filter fun s => !((taken.get? key).any (·.contains s))

mutual

/-- What the rest keeps of a node. -/
def restPart (taken : Taken) (context : String) : Node → List Node
  | .block h rules p =>
    let n := Node.block h rules p
    if h.groupsRules then
      withChildren? n (restParts taken (n.innerContext context) rules)
    else if (n.key? context).isSome then [n] else []
  | .item i p =>
    let n := Node.item i p
    match n.key? context, i.selectors? with
    | none, _ => []
    | some key, some selectors => withSelectors? n (remaining taken key selectors)
    | some _, none => [n]

/-- What the rest keeps of some nodes. -/
def restParts (taken : Taken) (context : String) : List Node → List Node
  | [] => []
  | n :: ns => restPart taken context n ++ restParts taken context ns

end

/-- Whether a top-level node is looked at for the critical part. -/
def isCandidate (retainKeyframes : Bool) (n : Node) : Bool :=
  criticalKinds.contains n.kind || (retainKeyframes && n.kind == .keyframes)

/-- Splits a style sheet by the critical selectors of a page. -/
def split (source : Stylesheet) (critical : CriticalMap) (retainKeyframes : Bool) : Split :=
  let candidates := source.filter (isCandidate retainKeyframes)
  { critical := criticalParts critical "" candidates
    rest := restParts (takenOf critical "" candidates) "" source }

end Stylesheet

end CriticalCss
