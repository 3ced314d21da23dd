import CriticalCss.Rule.RuleMap
import CriticalCss.Run.Pool

/-!
# The result of a run

`Run.fold` merges the critical parts of all pages into one style sheet and what is critical on no
page into another.  `Run.run` is the whole of a run: it obtains the source, splits it for every page
and folds the results.
-/

namespace CriticalCss

/-- The style sheets that a run prints. -/
structure Output where
  critical : String
  /-- What is critical on no page; empty if the rest is not asked for. -/
  rest : String
  /-- The pages that have no result. -/
  errors : List PageError
deriving DecidableEq

namespace PageResult

/-- The split of a page that has one. -/
def split? (p : PageResult) : Option Split := p.outcome.toOption

/-- The error of a page that has no result. -/
def error? (p : PageResult) : Option PageError :=
  match p.outcome with
  | .ok _ => none
  | .error e => some e

end PageResult

namespace Run

section Sheets

variable {M : Type} [DecidableEq M]

/-- The rules of some style sheets, each of them once; rules are told apart by their mark. -/
def mergeAll (mark : Node → M) (sheets : List Stylesheet) : RuleMap M :=
  sheets.foldl (RuleMap.merge mark) .empty

/-- The critical rules of all pages. -/
def criticalRules (mark : Node → M) (splits : List Split) : RuleMap M :=
  mergeAll mark (splits.map (·.critical))

/-- The rules that are critical on no page. -/
def restRules (mark : Node → M) (splits : List Split) : RuleMap M :=
  (mergeAll mark (splits.map (·.rest))).subtract (criticalRules mark splits)

/-- The style sheet of what is critical on some page. -/
def criticalSheet (r : Run) (mark : Node → M) (results : List PageResult) : Stylesheet :=
  (criticalRules mark (results.filterMap (·.split?))).assemble r.config.invalidRules

/-- The style sheet of what is critical on no page. -/
def restSheet (r : Run) (mark : Node → M) (results : List PageResult) : Stylesheet :=
  (restRules mark (results.filterMap (·.split?))).assemble r.config.invalidRules

/-- The result of a run with the given pages, when rules are told apart by their mark; at least one
page has to have a split. -/
def foldBy (r : Run) (mark : Node → M) (results : List PageResult) : Except RunError Output :=
  let errors := results.filterMap (·.error?)
  if (results.filterMap (·.split?)).isEmpty then .error (.allFailed errors)
  else
    let print := Stylesheet.print r.options
    let rest := if r.config.outputRest then print (r.restSheet mark results) else ""
    .ok ⟨print (r.criticalSheet mark results), rest, errors⟩

end Sheets

/-- The result of a run with the given pages, whose rules are told apart by their content. -/
def fold (r : Run) (results : List PageResult) : Except RunError Output :=
  r.foldBy id results

/-- Obtains the source, splits it for every page and folds the results. -/
def output (r : Run) : RunAct Output := do
  let css ← r.sourceCss
  match r.readSheet css with
  | .error e => throw (.parse e)
  | .ok source =>
    let results ← r.evaluatePages source
    match r.fold results with
    | .error e => throw e
    | .ok output => return output

/-- A whole run.  A session that belongs to the run is closed at its end, whatever the outcome. -/
def run (r : Run) (ownsSession : Bool) : StateM Scene (Except RunError Output) := do
  let result ← r.output.run
  if ownsSession then
    let _ ← Session.close.run
  return result

end Run

end CriticalCss
