import CriticalCss.Files

/-!
# Faults of pages and sessions
-/

namespace CriticalCss

/-- Why something could not be done with a page. -/
inductive RenderError where
  | sessionClosed
  | pageClosed
  /-- No page could be opened. -/
  | pageCreation (reason : String)
  | navigation (url reason : String)
  /-- Something took longer than the given number of milliseconds. -/
  | timeout (operation : String) (milliseconds : Nat)
  /-- The page shows nothing. -/
  | noDocument
  | evaluation (reason : String)
  | screenshot (reason : String)
  | files (path : String) (fault : FileFault)
deriving DecidableEq

/-- The wording of a fault. -/
def RenderError.message : RenderError → String
  | .sessionClosed => "browser session is closed"
  | .pageClosed => "page is closed"
  | .pageCreation reason => "failed to open page: " ++ reason
  | .navigation url reason => "navigation to '" ++ url ++ "' failed: " ++ reason
  | .timeout operation ms => operation ++ " timed out after " ++ toString ms ++ "ms"
  | .noDocument => "page has no document"
  | .evaluation reason => "evaluation failed: " ++ reason
  | .screenshot reason => "screenshot failed: " ++ reason
  | .files path fault => "I/O error on '" ++ path ++ "': " ++ fault.message

end CriticalCss
