import CriticalCss.Browser.Blocklist
import CriticalCss.Browser.Device
import CriticalCss.Document.Snapshot

/-!
# Browser sessions

A session answers addresses with the snapshots it was given, some of them late or not at all, and
keeps a log of what its pages did.  Pages have numbers in the order in which they were opened.
-/

namespace CriticalCss

/-- Something a page did. -/
inductive PageEvent where
  | opened
  | cacheEnabled (on : Bool)
  | javascriptEnabled (on : Bool)
  | filtered (patterns : List String)
  | emulated (width height : Nat) (userAgent : String)
  | navigated (url : String)
  | contentSet
  | requested (url : String) (blocked : Bool)
  | stopped
  | screenshot (path : String)
  | closed
deriving DecidableEq

/-- What a page shows. -/
structure Loaded where
  url : String
  snapshot : Snapshot
  /-- When it began to load. -/
  started : Nat
  /-- Loading was broken off. -/
  stopped : Bool

namespace Loaded

/-- Whether loading has come to its end by a point in time. -/
def isComplete (l : Loaded) (now : Nat) : Bool :=
  !l.stopped && l.snapshot.loadTime ≤ now - l.started

/-- Whether loading goes on at a point in time. -/
def isLoading (l : Loaded) (now : Nat) : Bool :=
  !l.stopped && !l.isComplete now

/-- Breaks off loading, unless it has come to its end. -/
def stop (l : Loaded) (now : Nat) : Loaded :=
  if l.isComplete now then l else { l with stopped := true }

end Loaded

/-- A page of a session. -/
structure Page where
  closed : Bool
  cacheEnabled : Bool
  javascriptEnabled : Bool
  blocklist : Blocklist
  device : Device
  current : Option Loaded

/-- A page as it is opened. -/
def Page.fresh : Page := ⟨false, true, true, .allowAll, .desktop, none⟩

/-- A browser session. -/
structure Session where
  /-- The snapshots by their address; of several for one address the first one is shown. -/
  documents : List (String × Snapshot)
  /-- How many milliseconds pass before an address answers. -/
  delays : List (String × Nat)
  failingNavigations : List String
  failingCloses : List String
  /-- How many of the next attempts to open a page fail. -/
  failingOpens : Nat
  closed : Bool
  /-- All pages that were opened, in order. -/
  pages : List Page
  /-- How many pages are open. -/
  openPages : Nat
  /-- How many pages were open at once at most. -/
  peakPages : Nat
  log : List (Nat × PageEvent)

namespace Session

/-- A session without documents and pages. -/
def empty : Session := ⟨[], [], [], [], 0, false, [], 0, 0, []⟩

/-- Shows a snapshot at an address. -/
def addDocument (s : Session) (url : String) (snapshot : Snapshot) : Session :=
  { s with documents := (url, snapshot) :: s.documents }

/-- Makes an address answer late. -/
def delayResponse (s : Session) (url : String) (milliseconds : Nat) : Session :=
  { s with delays := (url, milliseconds) :: s.delays }

/-- Makes an address fail. -/
def failNavigation (s : Session) (url : String) : Session :=
  { s with failingNavigations := url :: s.failingNavigations }

/-- Makes closing a page that shows an address fail. -/
def failClose (s : Session) (url : String) : Session :=
  { s with failingCloses := url :: s.failingCloses }

/-- Makes the next attempts to open a page fail. -/
def failOpens (s : Session) (count : Nat) : Session :=
  { s with failingOpens := count }

/-- Whether pages can be opened. -/
def isConnected (s : Session) : Bool := !s.closed

/-- How many pages were opened. -/
def pagesOpened (s : Session) : Nat := s.pages.length

/-- Adds an event to the log. -/
def record (s : Session) (page : Nat) (e : PageEvent) : Session :=
  { s with log := s.log ++ [(page, e)] }

/-- What one page did. -/
def eventsOf (s : Session) (page : Nat) : List PageEvent :=
  (s.log.filter (·.1 = page)).map (·.2)

/-- Replaces a page. -/
def setPage (s : Session) (id : Nat) (p : Page) : Session :=
  { s with pages := s.pages.set id p }

/-- Opens a page. -/
def addPage (s : Session) : Session :=
  { s with
    pages := s.pages ++ [.fresh]
    openPages := s.openPages + 1
    peakPages := max s.peakPages (s.openPages + 1)
    log := s.log ++ [(s.pages.length, .opened)] }

end Session

end CriticalCss
