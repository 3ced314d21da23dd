import CriticalCss.Config.Basic
import CriticalCss.Probe.Watch
import CriticalCss.Run.Source
import CriticalCss.Run.Target
import CriticalCss.Stylesheet.Printer
import CriticalCss.Stylesheet.Reader

/-!
# Runs

A run is a valid configuration with everything that follows from it.  `Run.sourceCss` obtains the
style sheet to split, from the first page if the configuration names no other source.
-/

namespace CriticalCss

/-- What is needed to work on the pages of a configuration. -/
structure Run where
  config : Config
  device : Device
  userAgent : String
  probe : Probe
  /-- Reads the source style sheet. -/
  readSheet : String → Except ParseError Stylesheet
  /-- How the results are printed. -/
  options : PrintOptions

/-- Something that is done for a whole run. -/
abbrev RunAct := ExceptT RunError (StateM Scene)

/-- Does something with a page for which the run as a whole needs success. -/
def Act.forRun (a : Act α) : RunAct α :=
  ExceptT.adapt .browser a

namespace Run

/-- Prepares a run. -/
def ofConfig (c : Config) : Except ConfigError Run := do
  c.validate
  let device ← c.device.resolve
  return ⟨c, device, c.userAgentOn device, c.probe, Stylesheet.read, .pretty⟩

/-- Sets up a page as the configuration says. -/
def configure (r : Run) (page : Nat) : Act Unit := do
  Page.enableCache page r.config.enableCache
  Page.enableJavascript page r.config.enableJavascript
  Page.filter page r.config.blocklist
  Page.emulate page r.device r.userAgent

/-- How a page of this run is obtained. -/
def target (r : Run) (url : String) : PageTarget :=
  .resolve r.config.baseDir url

/-- The text of the style sheets of a page that is open. -/
def stylesheetsOf (r : Run) (page : Nat) (url : String) : Act String := do
  r.configure page
  (r.target url).load page r.config.timeout
  Page.stylesheetText page

/-- The text of the style sheets of a page that is opened for this only.  An error of reading them
hides one of closing the page. -/
def extractCss (r : Run) (url : String) : RunAct String := do
  let page ← Session.newPage.forRun
  match ← ((r.stylesheetsOf page url).run : StateM Scene _) with
  | .ok css =>
    (Page.close page).forRun
    return css
  | .error e =>
    let _ ← ((Page.close page).run : StateM Scene _)
    throw (.browser e)

/-- The source style sheet as text. -/
def sourceCss (r : Run) : RunAct String := do
  match (CssSource.ofOption r.config.css).read (← get).files with
  | .error e => throw e
  | .ok (some css) => return css
  | .ok none =>
    let url := r.config.urls.headD ""
    let css ← r.extractCss url
    if Text.isAllBlank css then throw (.source url .noStylesheets)
    return css

end Run

end CriticalCss
