import CriticalCss.Browser.Page
import CriticalCss.Url.Address

/-!
# Where a page comes from

A page is fetched from the network if its configured address names a host.  Everything else is a
local document: a `file` address, or a path that starts from a base directory.
-/

namespace CriticalCss

/-- How the document of a page is obtained. -/
inductive PageTarget where
  | remote (url : String)
  | file (path : String)
deriving DecidableEq

namespace PageTarget

/-- The target that an address means.  A path ends before its query and fragment. -/
def resolve (base address : String) : PageTarget :=
  match Address.read? address with
  | some (.network url) => .remote url.text
  | some (.file path) => .file path
  | none =>
    .file (Files.join base (String.ofList (address.toList.takeWhile fun c => c ≠ '?' ∧ c ≠ '#')))

/-- Shows the document in a file. -/
def showFile (page : Nat) (path : String) : Act Unit := do
  match (← get).files.read path with
  | .error fault => throw (.files path fault)
  | .ok content => Page.setContent page content

/-- Shows the document of a target. -/
def load (target : PageTarget) (page timeout : Nat) : Act Unit :=
  match target with
  | .remote url => Page.goto page url timeout
  | .file path => showFile page path

end PageTarget

end CriticalCss
