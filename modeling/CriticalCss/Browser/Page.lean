import CriticalCss.Browser.Error
import CriticalCss.Browser.Session
import CriticalCss.Document.Picture
import CriticalCss.Document.Record
import CriticalCss.Text.Quoted

/-!
# What can be done with pages

A scene is a session, the files in the working directory, and the time in milliseconds.  An action on
it ends with a value or with a fault.  Waiting is not part of the actions on pages: `respond` tells
how long the answer of an address takes, and `arrive` shows it once the wait is over.
-/

namespace CriticalCss

/-- A session, files and a clock. -/
structure Scene where
  session : Session
  files : Files
  now : Nat

/-- Something that is done in a scene and may fail. -/
abbrev Act := ExceptT RenderError (StateM Scene)

namespace Scene

/-- Lets time pass. -/
def pass (s : Scene) (milliseconds : Nat) : Scene :=
  { s with now := s.now + milliseconds }

/-- Changes the session. -/
def onSession (s : Scene) (f : Session → Session) : Scene :=
  { s with session := f s.session }

end Scene

namespace Act

/-- Lets time pass. -/
def wait (milliseconds : Nat) : Act Unit :=
  modify (·.pass milliseconds)

/-- Adds an event to the log. -/
def record (id : Nat) (e : PageEvent) : Act Unit :=
  modify (·.onSession (·.record id e))

/-- A page that is open. -/
def openPage (id : Nat) : Act Page := do
  match (← get).session.pages[id]? with
  | none => throw .pageClosed
  | some p => if p.closed then throw .pageClosed else return p

/-- What an open page shows. -/
def shown (id : Nat) : Act (Page × Loaded) := do
  let p ← openPage id
  match p.current with
  | none => throw .noDocument
  | some l => return (p, l)

/-- Replaces a page. -/
def setPage (id : Nat) (p : Page) : Act Unit :=
  modify (·.onSession (·.setPage id p))

end Act

namespace Session

/-- Opens a page; the result is its number. -/
def newPage : Act Nat := do
  let s := (← get).session
  if s.closed then throw .sessionClosed
  if 0 < s.failingOpens then
    modify (·.onSession fun s => { s with failingOpens := s.failingOpens - 1 })
    throw (.pageCreation "target crashed")
  modify (·.onSession (·.addPage))
  return s.pages.length

/-- Closes the session. -/
def close : Act Unit := do
  if (← get).session.closed then throw .sessionClosed
  modify (·.onSession fun s => { s with closed := true })

end Session

/-- An answer to a navigation. -/
structure Response where
  url : String
  snapshot : Snapshot
  /-- How many milliseconds pass before it is known whether the answer comes. -/
  wait : Nat
  /-- The answer comes in time. -/
  arrives : Bool
  /-- How many milliseconds the navigation may take. -/
  timeout : Nat

namespace Page

/-- The address of a page whose content was set. -/
def contentUrl : String := "about:blank"

/-- Switches the cache on or off. -/
def enableCache (id : Nat) (on : Bool) : Act Unit := do
  let p ← Act.openPage id
  Act.setPage id { p with cacheEnabled := on }
  Act.record id (.cacheEnabled on)

/-- Switches scripts on or off. -/
def enableJavascript (id : Nat) (on : Bool) : Act Unit := do
  let p ← Act.openPage id
  Act.setPage id { p with javascriptEnabled := on }
  Act.record id (.javascriptEnabled on)

/-- Blocks requests from now on. -/
def filter (id : Nat) (blocklist : Blocklist) : Act Unit := do
  let p ← Act.openPage id
  Act.setPage id { p with blocklist }
  Act.record id (.filtered blocklist.patterns)

/-- Shows the page on another device. -/
def emulate (id : Nat) (device : Device) (userAgent : String) : Act Unit := do
  let p ← Act.openPage id
  Act.setPage id { p with device }
  Act.record id (.emulated device.width device.height userAgent)

/-- Shows a snapshot under an address. -/
def load (id : Nat) (url : String) (snapshot : Snapshot) : Act Unit := do
  let p ← Act.openPage id
  for request in snapshot.subresources do
    Act.record id (.requested request (p.blocklist.blocks request))
  Act.setPage id { p with current := some ⟨url, snapshot, (← get).now, false⟩ }

/-- Asks an address for its document. -/
def respond (id : Nat) (url : String) (timeout : Nat) : Act Response := do
  let _ ← Act.openPage id
  let s := (← get).session
  match s.documents.lookup url with
  | none => throw (.navigation url "net::ERR_NAME_NOT_RESOLVED")
  | some snapshot =>
    if s.failingNavigations.contains url then throw (.navigation url "net::ERR_CONNECTION_RESET")
    let delay := (s.delays.lookup url).getD 0
    return ⟨url, snapshot, min delay timeout, delay ≤ timeout, timeout⟩

/-- Shows the answer of an address, or gives up, once the wait is over. -/
def arrive (id : Nat) (r : Response) : Act Unit := do
  if !r.arrives then throw (.timeout "navigation" r.timeout)
  load id r.url r.snapshot
  Act.record id (.navigated r.url)

/-- Goes to an address and waits for its answer. -/
def goto (id : Nat) (url : String) (timeout : Nat) : Act Unit := do
  let r ← respond id url timeout
  Act.wait r.wait
  arrive id r

/-- Shows a snapshot given as text.  The fault does not tell where or why the text is not one. -/
def setContent (id : Nat) (content : String) : Act Unit :=
  match Snapshot.ofText? content with
  | none => throw (.navigation contentUrl "content is not a document snapshot")
  | some snapshot => do
    load id contentUrl snapshot
    Act.record id .contentSet

/-- Whether the page is loading. -/
def isLoading (id : Nat) : Act Bool := do
  let (_, l) ← Act.shown id
  return l.isLoading (← get).now

/-- Breaks off loading. -/
def stop (id : Nat) : Act Unit := do
  let p ← Act.openPage id
  let now := (← get).now
  Act.setPage id { p with current := p.current.map (·.stop now) }
  Act.record id .stopped

/-- The document that the page shows now. -/
def document (id : Nat) : Act Document := do
  let (p, l) ← Act.shown id
  return l.snapshot.layout p.device.viewport (l.isComplete (← get).now)

/-- The text of all style sheets of the page. -/
def stylesheetText (id : Nat) : Act String := do
  let (_, l) ← Act.shown id
  return l.snapshot.stylesheetText

/-- The address of the page, whether it is open or not. -/
def url (id : Nat) : Act (Option String) := do
  return (← get).session.pages[id]?.bind fun p => p.current.map (·.url)

/-- Closes the page. -/
def close (id : Nat) : Act Unit := do
  let p ← Act.openPage id
  Act.setPage id { p with closed := true }
  modify (·.onSession fun s => { s with openPages := s.openPages - 1 })
  Act.record id .closed
  match p.current with
  | none => return
  | some l =>
    if (← get).session.failingCloses.contains l.url then
      throw (.evaluation ("target for '" ++ l.url ++ "' did not close cleanly"))

/-- Gives up the page without closing it; nothing can be done with it any more. -/
def drop (id : Nat) : Act Unit := do
  let p ← Act.openPage id
  Act.setPage id { p with closed := true }
  modify (·.onSession fun s => { s with openPages := s.openPages - 1 })

end Page

/-! ## Screenshots -/

/-- The endings of file names that stand for a kind of picture. -/
def pictureExtensions : List String :=
  ["avif", "jpg", "jpeg", "jfif", "png", "apng", "gif", "webp", "tif", "tiff", "tga", "dds", "bmp",
    "ico", "hdr", "exr", "pbm", "pam", "ppm", "pgm", "ff", "qoi", "pcx"]

/-- Why a path cannot be that of a picture. -/
def pictureFault? (path : String) : Option String :=
  match Files.extension? path with
  | none => some "The image format could not be determined"
  | some ext =>
    if pictureExtensions.contains (Text.lower ext) then none
    else some ("The file extension `." ++ Text.quoted ext ++
      "` was not recognized as an image format")

/-- The fault of an encoder that does not take colours with transparency. -/
def colorFault (format : String) : String :=
  "The encoder or decoder for " ++ format ++ " does not support the color type `Rgba8`"

/-- The fault of a format that can be read only. -/
def formatFault (format : String) : String :=
  "The image format `" ++ format ++ "` is not supported"

/-- The endings of the formats in which no picture of a page can be written, each with the fault. -/
def encodingFaults : List (String × String) :=
  ["jpg", "jpeg", "jfif"].map (·, colorFault "Jpeg") ++
    [("ff", colorFault "Farbfeld"),
      ("hdr", "Format error encoding Hdr:\nhdr format currently only supports the `Rgb32F` color type"),
      ("exr", "Format error encoding OpenExr:\nwriting color type Rgba8 not yet supported"),
      ("dds", formatFault "Dds"), ("pcx", formatFault "Pcx")]

/-- Why a picture of a page cannot be written in the format of a path. -/
def encodingFault? (path : String) : Option String :=
  (Files.extension? path).bind fun ext => encodingFaults.lookup (Text.lower ext)

/-- Saves a picture of the page.  The format is tried once the file is made; the empty file that is left
when it cannot be written does not count among the files. -/
def Page.screenshot (id : Nat) (path : String) : Act Unit := do
  let _ ← Act.shown id
  match pictureFault? path with
  | some reason => throw (.screenshot (path ++ ": " ++ reason))
  | none =>
    match (← get).files.savePicture path with
    | .error fault => throw (.screenshot (path ++ ": " ++ fault.message))
    | .ok files =>
      match encodingFault? path with
      | some reason => throw (.screenshot (path ++ ": " ++ reason))
      | none =>
        modify fun s => { s with files }
        Act.record id (.screenshot path)

end CriticalCss
