import CriticalCss.Browser.Error
import CriticalCss.Stylesheet.Error
import CriticalCss.Text.Letter

/-!
# What can go wrong in a run

A page error concerns one page and leaves the other pages alone; it says during which phase of the
work on the page it came up.  A run error means that the run has no result.
-/

namespace CriticalCss

/-- How far the work on a page has come. -/
inductive TaskState where
  | pending
  | pageAcquired
  | pageConfigured
  | navigated
  | probed
  | closed
  | failed
deriving DecidableEq

namespace TaskState

/-- The name of a state. -/
def name : TaskState → String
  | .pending => "pending"
  | .pageAcquired => "page-acquired"
  | .pageConfigured => "page-configured"
  | .navigated => "navigated"
  | .probed => "probed"
  | .closed => "closed"
  | .failed => "failed"

/-- Whether no work follows a state. -/
def isFinal : TaskState → Bool
  | .closed | .failed => true
  | _ => false

end TaskState

/-- What is being done with a page. -/
inductive Phase where
  /-- Opening the page, for which some attempts were made. -/
  | acquisition (attempts : Nat)
  | configuration
  | navigation
  | screenshot
  | probe
  | close
deriving DecidableEq

/-- The state that a page has reached when a phase begins. -/
def Phase.reached : Phase → TaskState
  | .acquisition _ => .pending
  | .configuration => .pageAcquired
  | .navigation => .pageConfigured
  | .screenshot | .probe => .navigated
  | .close => .probed

/-- Why there is no result for a page. -/
structure PageError where
  url : String
  phase : Phase
  cause : RenderError
deriving DecidableEq

namespace PageError

/-- The state that the page had reached. -/
def state (e : PageError) : TaskState := e.phase.reached

/-- The wording of the error. -/
def message (e : PageError) : String :=
  let quoted := "'" ++ e.url ++ "'"
  let failed := match e.phase with
    | .acquisition n =>
      "could not open a page for " ++ quoted ++ " after " ++ Text.ofNat n ++ " attempts"
    | .configuration => "could not configure page for " ++ quoted
    | .navigation => "could not load " ++ quoted
    | .screenshot => "could not take screenshot of " ++ quoted
    | .probe => "could not evaluate stylesheet on " ++ quoted
    | .close => "could not close page for " ++ quoted
  failed ++ ": " ++ e.cause.message

end PageError

/-- Why there is no source style sheet. -/
inductive SourceFault where
  | unreadable (fault : FileFault)
  | emptyFile
  | noStylesheets
deriving DecidableEq

/-- The wording of a fault. -/
def SourceFault.message : SourceFault → String
  | .unreadable fault => fault.message
  | .emptyFile => "file is empty"
  | .noStylesheets => "page has no stylesheets"

/-- Why a run has no result. -/
inductive RunError where
  /-- The file or page has no source style sheet. -/
  | source (place : String) (fault : SourceFault)
  | parse (e : ParseError)
  /-- The page with the source style sheet could not be used. -/
  | browser (e : RenderError)
  /-- No page has a result. -/
  | allFailed (errors : List PageError)
deriving DecidableEq

/-- The wording of an error. -/
def RunError.message : RunError → String
  | .source place fault => "could not read source CSS from '" ++ place ++ "': " ++ fault.message
  | .parse e => "could not parse source CSS: " ++ e.message
  | .browser e => "browser error: " ++ e.message
  | .allFailed errors => "all " ++ Text.ofNat errors.length ++ " page evaluations failed"

end CriticalCss
