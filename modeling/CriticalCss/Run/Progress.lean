import CriticalCss.Run.Task

/-!
# The states of a page

The work on a page goes through states, and an error tells from its phase which of them the page had
reached.  `Run.step` does without the states.  Here are the same stages once more, with a note of
every state at the moment at which the page comes to it.
-/

namespace CriticalCss

/-- Something that notes the states that a page goes through. -/
abbrev Noted := StateT (List TaskState) (StateM Scene)

/-- Work on a page that notes the states that the page goes through. -/
abbrev NotedWork := ExceptT PageError Noted

/-- The page has come to a state. -/
def advance (next : TaskState) : Noted Unit :=
  modify (· ++ [next])

/-- Work during which the page stays in its state. -/
def Work.still {α : Type} (w : Work α) : NotedWork α :=
  ExceptT.mk (StateT.lift w.run)

namespace Run

/-- `Run.look`; when the page has loaded or was stopped, it has been probed. -/
def lookNoted (r : Run) (source : Stylesheet) (url : String) (page frame : Nat) :
    NotedWork (Next Split) := do
  match ← (r.look source url page frame).still with
  | .wait ms stage => return .wait ms stage
  | .done split =>
    advance .probed
    return .done split

/-- `Run.picture` with notes. -/
def pictureNoted (r : Run) (source : Stylesheet) (url : String) (page : Nat) :
    NotedWork (Next Split) := do
  ((r.savePicture url page).during url .screenshot).still
  r.lookNoted source url page 0

/-- `Run.settle` with notes. -/
def settleNoted (r : Run) (source : Stylesheet) (url : String) (page : Nat) :
    NotedWork (Next Split) :=
  if r.config.screenshots.enabled then
    if (r.pictureDirectory? url).isSome then return .wait 0 (.picturing page)
    else r.pictureNoted source url page
  else r.lookNoted source url page 0

/-- `Run.rest` with notes. -/
def restNoted (r : Run) (source : Stylesheet) (url : String) (page : Nat) :
    NotedWork (Next Split) :=
  if r.config.renderDelay = 0 then r.settleNoted source url page
  else return .wait r.config.renderDelay (.resting page)

/-- `Run.arrive` with notes. -/
def arriveNoted (r : Run) (source : Stylesheet) (url : String) (page : Nat) (response : Response) :
    NotedWork (Next Split) := do
  ((Page.arrive page response).during url .navigation).still
  advance .navigated
  r.restNoted source url page

/-- `Run.readFile` with notes. -/
def readFileNoted (r : Run) (source : Stylesheet) (url : String) (page : Nat) (path : String) :
    NotedWork (Next Split) := do
  ((PageTarget.showFile page path).during url .navigation).still
  advance .navigated
  r.restNoted source url page

/-- `Run.navigate` with notes. -/
def navigateNoted (r : Run) (source : Stylesheet) (url : String) (page : Nat) :
    NotedWork (Next Split) := do
  ((r.configure page).during url .configuration).still
  advance .pageConfigured
  match r.target url with
  | .file path => return .wait 0 (.reading page path)
  | .remote address =>
    let response ← ((Page.respond page address r.config.timeout).during url .navigation).still
    if response.wait = 0 then r.arriveNoted source url page response
    else return .wait response.wait (.fetching page response)

/-- `Run.closing` with notes.  Work that fails has failed before its page is closed, and an error of
closing leaves the page in the state in which it was. -/
def closingNoted (url : String) (page : Nat) (work : NotedWork (Next Split)) :
    Noted (Next (Except PageError Split)) := do
  match ← work.run with
  | .ok (.wait ms stage) => return .wait ms stage
  | .ok (.done split) =>
    match ← (((Page.close page).during url .close).run : StateM Scene _) with
    | .ok _ =>
      advance .closed
      return .done (.ok split)
    | .error e => return .done (.error e)
  | .error e =>
    advance .failed
    let _ ← ((Page.close page).run : StateM Scene _)
    return .done (.error e)

/-- `Run.step` with notes. -/
def stepNoted (r : Run) (source : Stylesheet) (url : String) :
    Stage → Noted (Next (Except PageError Split))
  | .start => do
    match ← ((acquire url 0 acquireRetries).run : StateM Scene _) with
    | .error e => return .done (.error e)
    | .ok page =>
      advance .pageAcquired
      closingNoted url page (r.navigateNoted source url page)
  | .fetching page response => closingNoted url page (r.arriveNoted source url page response)
  | .reading page path => closingNoted url page (r.readFileNoted source url page path)
  | .resting page => closingNoted url page (r.settleNoted source url page)
  | .picturing page => closingNoted url page (r.pictureNoted source url page)
  | .watching page frame => closingNoted url page (r.lookNoted source url page frame)

end Run

end CriticalCss
