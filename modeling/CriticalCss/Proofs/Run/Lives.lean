import CriticalCss.Proofs.Browser.Events
import CriticalCss.Proofs.Run.States

/-!
# The life of a page

A page that is opened for an address of a run is set up, shows a document if it can be had, and is
closed.  Its events in the log tell where the work on it has come to, and its outcome agrees with
them.

* `Showing` is the part of a life from the first request of a document on.
* `Run.Underway` says what a page has written when it waits for a stage, and `Run.Ended` what it has
  written when it has an outcome.
* `look_gives` up to `navigate_gives` follow the work on an open page, and `step_goesOn` a whole
  stage.  Other pages do not notice any of it.
-/

namespace CriticalCss

/-! ## What a life consists of -/

/-- What a page does with its document. -/
structure Showing where
  requests : List (String × Bool)
  /-- Where the page went; nothing if its content was set. -/
  address : Option String
  picture : Option String
  stopped : Bool

namespace Showing

/-- The events of a page that shows its document: its requests, then that it is there, then a
picture and that it was stopped, if this happened. -/
def events (v : Showing) : List PageEvent :=
  v.requests.map (fun request => .requested request.1 request.2) ++
    [v.address.elim .contentSet .navigated] ++ (v.picture.map .screenshot).toList ++
    if v.stopped then [.stopped] else []

/-- A page that shows its document, and nothing else has happened. -/
def plain (requests : List (String × Bool)) (address : Option String) : Showing :=
  ⟨requests, address, none, false⟩

theorem events_pictured {v : Showing} (hpicture : v.picture = none) (hrunning : v.stopped = false)
    (path : String) :
    { v with picture := some path }.events = v.events ++ [.screenshot path] := by
  simp [events, hpicture, hrunning]

theorem events_stopped {v : Showing} (hrunning : v.stopped = false) :
    { v with stopped := true }.events = v.events ++ [.stopped] := by
  simp [events, hrunning]

end Showing

/-- What a page does that begins to show a document. -/
def Page.showing (p : Page) (snapshot : Snapshot) (address : Option String) : Showing :=
  .plain (snapshot.subresources.map fun request => (request, p.blocklist.blocks request)) address

theorem Page.events_showing (p : Page) (snapshot : Snapshot) (address : Option String) :
    (p.showing snapshot address).events =
      p.requestEvents snapshot ++ [address.elim .contentSet .navigated] := by
  simp [showing, Showing.events, Showing.plain, requestEvents]

/-- An open page that has written some events. -/
structure Scene.Wrote (s : Scene) (id : Nat) (p : Page) (written : List PageEvent) : Prop where
  page : s.page? id = some p
  isOpen : p.closed = false
  events : s.session.eventsOf id = written

/-- What an open page has written after it wrote more. -/
theorem Scene.Wrote.of_writes {s s' : Scene} {id : Nat} {p p' : Page} {written more : List PageEvent}
    (h : s.Wrote id p written) (hwrites : s.Writes s' id p' more) (hopen : p'.closed = false) :
    s'.Wrote id p' (written ++ more) :=
  ⟨hwrites.page, hopen, by rw [hwrites.eventsOf_self, h.events]⟩

namespace Run

/-- The events of a page that is opened and set up. -/
def setup (r : Run) : List PageEvent :=
  [.opened, .cacheEnabled r.config.enableCache, .javascriptEnabled r.config.enableJavascript,
    .filtered r.config.blocklist.patterns, .emulated r.device.width r.device.height r.userAgent]

/-- Where the picture of a page is saved, if pictures are asked for. -/
def picture? (r : Run) (url : String) : Option String :=
  if r.config.screenshots.enabled then some (r.config.picturePath url) else none

/-- What the page of a task has written when the task waits for a stage. -/
inductive Underway (r : Run) (url : String) (s : Scene) : Stage → Prop where
  | start : Underway r url s .start
  | fetching {page : Nat} {p : Page} (response : Response) (wrote : s.Wrote page p r.setup) :
    Underway r url s (.fetching page response)
  | reading {page : Nat} {p : Page} (path : String) (wrote : s.Wrote page p r.setup) :
    Underway r url s (.reading page path)
  | resting {page : Nat} {p : Page} {l : Loaded} {requests : List (String × Bool)}
    {address : Option String}
    (wrote : s.Wrote page p (r.setup ++ (Showing.plain requests address).events))
    (current : p.current = some l) : Underway r url s (.resting page)
  | picturing {page : Nat} {p : Page} {l : Loaded} {requests : List (String × Bool)}
    {address : Option String}
    (wrote : s.Wrote page p (r.setup ++ (Showing.plain requests address).events))
    (current : p.current = some l) (enabled : r.config.screenshots.enabled = true) :
    Underway r url s (.picturing page)
  | watching {page frame : Nat} {p : Page} {l : Loaded} {v : Showing}
    (wrote : s.Wrote page p (r.setup ++ v.events)) (current : p.current = some l)
    (picture : v.picture = r.picture? url) (running : v.stopped = false) :
    Underway r url s (.watching page frame)

/-- What the page of a task has written when the task has an outcome.  A task without a page could
not open one. -/
inductive Ended (r : Run) (url : String) (s : Session) :
    Option Nat → Except PageError Split → Prop where
  | unopened {attempts : Nat} {e : RenderError} :
    Ended r url s none (.error ⟨url, .acquisition attempts, e⟩)
  | unshown {page : Nat} {e : RenderError} (events : s.eventsOf page = r.setup ++ [.closed]) :
    Ended r url s (some page) (.error ⟨url, .navigation, e⟩)
  | unpictured {page : Nat} {e : RenderError} {requests : List (String × Bool)}
    {address : Option String}
    (events : s.eventsOf page = r.setup ++ (Showing.plain requests address).events ++ [.closed]) :
    Ended r url s (some page) (.error ⟨url, .screenshot, e⟩)
  | unclosed {page : Nat} {e : RenderError} {v : Showing}
    (events : s.eventsOf page = r.setup ++ v.events ++ [.closed])
    (picture : v.picture = r.picture? url) : Ended r url s (some page) (.error ⟨url, .close, e⟩)
  | split {page : Nat} {split : Split} {v : Showing}
    (events : s.eventsOf page = r.setup ++ v.events ++ [.closed])
    (picture : v.picture = r.picture? url) : Ended r url s (some page) (.ok split)

variable {r : Run} {source : Stylesheet} {url : String} {page : Nat} {p : Page} {l : Loaded}
  {s s' : Scene} {events : List PageEvent}

/-! ## Work on an open page -/

/-- What a piece of work on a page comes to: the page has no document, or no picture, or it has been
probed, or it waits.  The work changes and writes about no other page. -/
inductive Gives (r : Run) (url : String) (page : Nat) (s : Scene) :
    Except PageError (Next Split) × Scene → Prop where
  | unshown {s' : Scene} {p : Page} {e : RenderError} {more : List PageEvent}
    (writes : s.Writes s' page p more) (wrote : s'.Wrote page p r.setup) :
    Gives r url page s (.error ⟨url, .navigation, e⟩, s')
  | unpictured {s' : Scene} {p : Page} {e : RenderError} {requests : List (String × Bool)}
    {address : Option String} {more : List PageEvent} (writes : s.Writes s' page p more)
    (wrote : s'.Wrote page p (r.setup ++ (Showing.plain requests address).events)) :
    Gives r url page s (.error ⟨url, .screenshot, e⟩, s')
  | done {s' : Scene} {p : Page} {v : Showing} {split : Split} {more : List PageEvent}
    (writes : s.Writes s' page p more) (wrote : s'.Wrote page p (r.setup ++ v.events))
    (picture : v.picture = r.picture? url) : Gives r url page s (.ok (.done split), s')
  | wait {s' : Scene} {p : Page} {ms : Nat} {next : Stage} {more : List PageEvent}
    (writes : s.Writes s' page p more) (own : next.page? = some page)
    (underway : r.Underway url s' next) : Gives r url page s (.ok (.wait ms next), s')

/-- Work may begin with something that only the page does. -/
theorem Gives.of_writes (hwrites : s.Writes s' page p events)
    {result : Except PageError (Next Split) × Scene} (h : r.Gives url page s' result) :
    r.Gives url page s result := by
  cases h with
  | unshown writes wrote => exact .unshown (hwrites.trans writes) wrote
  | unpictured writes wrote => exact .unpictured (hwrites.trans writes) wrote
  | done writes wrote picture => exact .done (hwrites.trans writes) wrote picture
  | wait writes own underway => exact .wait (hwrites.trans writes) own underway

/-- The last look at a page leads to its split. -/
theorem look_gives_of_last {frame : Nat} {v : Showing}
    (hlook : r.probe.look page frame s = (.ok false, s')) (hwrites : s.Writes s' page p events)
    (h : s'.Wrote page p (r.setup ++ v.events)) (hcurrent : p.current = some l)
    (hpicture : v.picture = r.picture? url) :
    r.Gives url page s (r.look source url page frame s) := by
  have hdocument := Page.document_run h.page h.isOpen hcurrent
  have hrun : r.look source url page frame s = (.ok (.done (r.splitFor source
      (l.snapshot.layout p.device.viewport (l.isComplete s'.now)))), s') := by
    rw [look, bind_of_ok (during_of_ok hlook)]
    simp only [Bool.false_eq_true, false_and, if_false]
    rw [bind_of_ok (during_of_ok hdocument)]
    rfl
  rw [hrun]
  exact .done hwrites h hpicture

/-- A page is looked at again, has loaded, or is stopped and says so. -/
theorem look_gives {frame : Nat} {v : Showing} (h : s.Wrote page p (r.setup ++ v.events))
    (hcurrent : p.current = some l) (hpicture : v.picture = r.picture? url)
    (hrunning : v.stopped = false) : r.Gives url page s (r.look source url page frame s) := by
  cases hloading : l.isLoading s.now with
  | false =>
    exact look_gives_of_last
      (r.probe.look_run_of_loaded h.page h.isOpen hcurrent hloading frame) (.refl h.page) h hcurrent
      hpicture
  | true =>
    by_cases hlate : r.probe.loadTimeout ≤ frame * Probe.frameTime
    · have hlook := Probe.look_run_of_late h.page h.isOpen hcurrent hloading hlate
      have hwrites := Scene.writes_edit h.page { p with current := some (l.stop s.now) } [.stopped]
      have hwrote := h.of_writes hwrites h.isOpen
      rw [List.append_assoc, ← Showing.events_stopped hrunning] at hwrote
      exact look_gives_of_last hlook hwrites hwrote rfl hpicture
    · have hlook := Probe.look_run_of_early h.page h.isOpen hcurrent hloading
        (Nat.lt_of_not_le hlate)
      have hrun : r.look source url page frame s =
          (.ok (.wait Probe.frameTime (.watching page (frame + 1))), s) := by
        rw [look, bind_of_ok (during_of_ok hlook)]
        simp only [true_and, if_pos (Nat.lt_of_not_le hlate)]
        rfl
      rw [hrun]
      exact .wait (.refl h.page) rfl (.watching h hcurrent hpicture hrunning)

/-- Saving the picture of a page writes where it was saved, or it fails and writes nothing. -/
theorem savePicture_cases (h : s.page? page = some p) (hopen : p.closed = false)
    (hcurrent : p.current = some l) :
    (∃ e s', r.savePicture url page s = (.error e, s') ∧ s.Writes s' page p []) ∨
      ∃ s', r.savePicture url page s = (.ok (), s') ∧
        s.Writes s' page p [.screenshot (r.config.picturePath url)] := by
  have hget : (get : Act Scene) s = (.ok s, s) := rfl
  rw [savePicture]
  cases r.pictureDirectory? url with
  | none =>
    rcases Page.screenshot_cases h hopen hcurrent (r.config.picturePath url) with
      ⟨e, hrun⟩ | ⟨saved, hrun⟩
    · exact .inl ⟨e, s, hrun, .refl h⟩
    · have hsaved := Scene.writes_files h saved
      exact .inr ⟨_, hrun, hsaved.trans (Scene.writes_edit hsaved.page p _)⟩
  | some directory =>
    dsimp only
    rw [bind_of_ok hget]
    cases s.files.makeDirectories directory with
    | error fault => exact .inl ⟨_, s, rfl, .refl h⟩
    | ok files =>
      have hfiles := Scene.writes_files h files
      rcases Page.screenshot_cases hfiles.page hopen hcurrent (r.config.picturePath url) with
        ⟨e, hrun⟩ | ⟨saved, hrun⟩
      · exact .inl ⟨e, _, hrun, hfiles⟩
      · have hsaved := Scene.writes_files h saved
        exact .inr ⟨_, hrun, hsaved.trans (Scene.writes_edit hsaved.page p _)⟩

/-- A page is pictured and looked at. -/
theorem picture_gives {requests : List (String × Bool)} {address : Option String}
    (h : s.Wrote page p (r.setup ++ (Showing.plain requests address).events))
    (hcurrent : p.current = some l) (henabled : r.config.screenshots.enabled = true) :
    r.Gives url page s (r.picture source url page s) := by
  rw [picture]
  rcases savePicture_cases h.page h.isOpen hcurrent with ⟨e, s', hrun, hwrites⟩ | ⟨s', hrun, hwrites⟩
  · rw [bind_of_error (during_of_error hrun)]
    have hwrote := h.of_writes hwrites h.isOpen
    rw [List.append_nil] at hwrote
    exact .unpictured hwrites hwrote
  · rw [bind_of_ok (during_of_ok hrun)]
    have hwrote := h.of_writes hwrites h.isOpen
    rw [List.append_assoc, ← Showing.events_pictured rfl rfl] at hwrote
    refine .of_writes hwrites (look_gives hwrote hcurrent ?_ rfl)
    rw [picture?, if_pos henabled]

/-- A page that has rested is pictured, if pictures are asked for, and looked at. -/
theorem settle_gives {requests : List (String × Bool)} {address : Option String}
    (h : s.Wrote page p (r.setup ++ (Showing.plain requests address).events))
    (hcurrent : p.current = some l) : r.Gives url page s (r.settle source url page s) := by
  rw [settle]
  split
  · next henabled =>
    split
    · exact .wait (.refl h.page) rfl (.picturing h hcurrent henabled)
    · exact picture_gives h hcurrent henabled
  · next hdisabled =>
    refine look_gives h hcurrent ?_ rfl
    rw [picture?, if_neg hdisabled]
    rfl

/-- A page that shows its document rests for a while. -/
theorem rest_gives {requests : List (String × Bool)} {address : Option String}
    (h : s.Wrote page p (r.setup ++ (Showing.plain requests address).events))
    (hcurrent : p.current = some l) : r.Gives url page s (r.rest source url page s) := by
  rw [rest]
  split
  · exact settle_gives h hcurrent
  · exact .wait (.refl h.page) rfl (.resting h hcurrent)

/-- An answer is shown, unless it comes too late. -/
theorem arrive_gives (h : s.Wrote page p r.setup) (response : Response) :
    r.Gives url page s (r.arrive source url page response s) := by
  rw [arrive]
  cases harrives : response.arrives with
  | false =>
    rw [bind_of_error (during_of_error (Page.arrive_run_of_late harrives page s))]
    exact .unshown (.refl h.page) h
  | true =>
    have hshowing : p.requestEvents response.snapshot ++ [.navigated response.url] =
        (p.showing response.snapshot (some response.url)).events :=
      (p.events_showing response.snapshot (some response.url)).symm
    have hrun := Page.arrive_run h.page h.isOpen harrives
    rw [hshowing] at hrun
    have hwrites := Scene.writes_edit h.page
      { p with current := some ⟨response.url, response.snapshot, s.now, false⟩ }
      (p.showing response.snapshot (some response.url)).events
    rw [bind_of_ok (during_of_ok hrun)]
    exact .of_writes hwrites (rest_gives (h.of_writes hwrites h.isOpen) rfl)

/-- A file is shown, unless it cannot be read or is no document. -/
theorem readFile_gives (h : s.Wrote page p r.setup) (path : String) :
    r.Gives url page s (r.readFile source url page path s) := by
  have hget : (get : Act Scene) s = (.ok s, s) := rfl
  rw [readFile]
  cases hread : s.files.read path with
  | error fault =>
    have hshow : PageTarget.showFile page path s = (.error (.files path fault), s) := by
      rw [PageTarget.showFile, bind_of_ok hget, hread]
      rfl
    rw [bind_of_error (during_of_error hshow)]
    exact .unshown (.refl h.page) h
  | ok content =>
    have hshow : PageTarget.showFile page path s = Page.setContent page content s := by
      rw [PageTarget.showFile, bind_of_ok hget, hread]
    cases hcontent : Snapshot.ofText? content with
    | none =>
      rw [Page.setContent_run_of_none hcontent] at hshow
      rw [bind_of_error (during_of_error hshow)]
      exact .unshown (.refl h.page) h
    | some snapshot =>
      have hshowing : p.requestEvents snapshot ++ [.contentSet] =
          (p.showing snapshot none).events := (p.events_showing snapshot none).symm
      have hwrites := Scene.writes_edit h.page
        { p with current := some ⟨Page.contentUrl, snapshot, s.now, false⟩ }
        (p.showing snapshot none).events
      rw [Page.setContent_run h.page h.isOpen hcontent, hshowing] at hshow
      rw [bind_of_ok (during_of_ok hshow)]
      exact .of_writes hwrites (rest_gives (h.of_writes hwrites h.isOpen) rfl)

/-- A page that was opened is set up and begins to load its document. -/
theorem navigate_gives (h : s.Wrote page p [.opened]) :
    r.Gives url page s (r.navigate source url page s) := by
  have hwrites := Scene.writes_edit h.page (r.configured p) r.configuration
  have hwrote : (s.edit page (r.configured p) r.configuration).Wrote page (r.configured p) r.setup :=
    h.of_writes hwrites h.isOpen
  rw [navigate, bind_of_ok (during_of_ok (configure_run h.page h.isOpen))]
  refine .of_writes hwrites ?_
  generalize s.edit page (r.configured p) r.configuration = s' at hwrote ⊢
  cases r.target url with
  | file path => exact .wait (.refl hwrote.page) rfl (.reading path hwrote)
  | remote address =>
    have hrespond := Page.respond_run hwrote.page hwrote.isOpen address r.config.timeout
    generalize s'.world.answer address r.config.timeout = result at hrespond
    cases result with
    | error e =>
      dsimp only
      rw [bind_of_error (during_of_error hrespond)]
      exact .unshown (.refl hwrote.page) hwrote
    | ok response =>
      dsimp only
      rw [bind_of_ok (during_of_ok hrespond)]
      split
      · exact arrive_gives hwrote response
      · exact .wait (.refl hwrote.page) rfl (.fetching response hwrote)

end Run

/-! ## Stages -/

namespace Scene

/-- A scene goes on to another one while a task is worked on.  Its page is the one that it had
before, or it is opened now; no other page notices anything. -/
structure Attends (s s' : Scene) (before after : Option Nat) : Prop where
  others : ∀ q < s.session.pagesOpened, before ≠ some q →
    s'.page? q = s.page? q ∧ s'.session.eventsOf q = s.session.eventsOf q
  pages : before = after ∧ s'.session.pagesOpened = s.session.pagesOpened ∨
    before = none ∧ after = some s.session.pagesOpened ∧
      s'.session.pagesOpened = s.session.pagesOpened + 1
  faithful : s'.session.IsFaithful

variable {s s' t : Scene} {id : Nat} {p : Page} {events : List PageEvent}

theorem Writes.attends (h : s.Writes s' id p events) (hfaithful : s.session.IsFaithful) :
    s.Attends s' (some id) (some id) where
  others q _ hq := by
    have hne : q ≠ id := fun heq => hq (congrArg some heq.symm)
    exact ⟨h.others q hne, h.eventsOf_of_ne hne⟩
  pages := .inl ⟨rfl, h.number⟩
  faithful := h.isFaithful hfaithful

theorem Idles.attends (h : s.Idles s') (hfaithful : s.session.IsFaithful) :
    s.Attends s' none none where
  others q _ _ := by
    rw [page?, page?, Session.eventsOf, Session.eventsOf, h.pages, h.log]
    exact ⟨rfl, rfl⟩
  pages := .inl ⟨rfl, congrArg List.length h.pages⟩
  faithful := h.quiet.isFaithful hfaithful

theorem Attends.trans {before middle after : Option Nat} (h : s.Attends s' before middle)
    (h' : s'.Attends t middle after) : s.Attends t before after where
  others q hq hbefore := by
    have hthere : q < s'.session.pagesOpened := by
      rcases h.pages with ⟨-, hnumber⟩ | ⟨-, -, hnumber⟩ <;> omega
    have hmiddle : middle ≠ some q := by
      rintro rfl
      rcases h.pages with ⟨rfl, -⟩ | ⟨-, hnew, -⟩
      · exact hbefore rfl
      · cases hnew
        exact Nat.lt_irrefl _ hq
    obtain ⟨hpage, hevents⟩ := h.others q hq hbefore
    obtain ⟨hpage', hevents'⟩ := h'.others q hthere hmiddle
    exact ⟨hpage'.trans hpage, hevents'.trans hevents⟩
  pages := by
    rcases h.pages with ⟨rfl, hnumber⟩ | ⟨rfl, rfl, hnumber⟩
    · rcases h'.pages with ⟨rfl, hnumber'⟩ | ⟨rfl, rfl, hnumber'⟩
      · exact .inl ⟨rfl, hnumber'.trans hnumber⟩
      · exact .inr ⟨rfl, by rw [hnumber], by rw [hnumber', hnumber]⟩
    · rcases h'.pages with ⟨rfl, hnumber'⟩ | ⟨hnone, -⟩
      · exact .inr ⟨rfl, rfl, hnumber'.trans hnumber⟩
      · cases hnone
  faithful := h'.faithful

/-- A page that is opened has the next number and has written just this. -/
theorem wrote_addPage (hfaithful : s.session.IsFaithful) :
    (s.onSession (·.addPage)).Wrote s.session.pagesOpened .fresh [.opened] where
  page := List.getElem?_concat_length
  isOpen := rfl
  events := by
    rw [Session.eventsOf_append (s := s.session) rfl, hfaithful.eventsOf_eq_nil (Nat.le_refl _)]
    simp [Session.pagesOpened]

theorem attends_addPage (hfaithful : s.session.IsFaithful) :
    s.Attends (s.onSession (·.addPage)) none (some s.session.pagesOpened) where
  others q hq _ := by
    have hlog : (s.onSession (·.addPage)).session.log =
        s.session.log ++ [(s.session.pagesOpened, .opened)] := rfl
    refine ⟨List.getElem?_append_left hq, ?_⟩
    rw [Session.eventsOf_append hlog, List.filter_cons_of_neg (by simpa using (Nat.ne_of_lt hq).symm)]
    exact List.append_nil _
  pages := .inr ⟨rfl, rfl, List.length_append⟩
  faithful := hfaithful.addPage

end Scene

namespace Run

variable {r : Run} {source : Stylesheet} {url : String} {page : Nat} {s s' : Scene} {stage : Stage}

/-- A task that waits does not notice what leaves its page and its events as they are. -/
theorem Underway.congr (h : r.Underway url s stage)
    (hpage : ∀ q, stage.page? = some q →
      s'.page? q = s.page? q ∧ s'.session.eventsOf q = s.session.eventsOf q) :
    r.Underway url s' stage := by
  have hwrote : ∀ {id p events}, stage.page? = some id → s.Wrote id p events →
      s'.Wrote id p events := fun hid wrote =>
    ⟨(hpage _ hid).1.trans wrote.page, wrote.isOpen, (hpage _ hid).2.trans wrote.events⟩
  cases h with
  | start => exact .start
  | fetching response wrote => exact .fetching response (hwrote rfl wrote)
  | reading path wrote => exact .reading path (hwrote rfl wrote)
  | resting wrote current => exact .resting (hwrote rfl wrote) current
  | picturing wrote current enabled => exact .picturing (hwrote rfl wrote) current enabled
  | watching wrote current picture running =>
    exact .watching (hwrote rfl wrote) current picture running

/-- An outcome agrees with the log as long as the events of its page stay the same. -/
theorem Ended.congr {session session' : Session} {page? : Option Nat}
    {outcome : Except PageError Split} (h : r.Ended url session page? outcome)
    (hevents : ∀ q, page? = some q → session'.eventsOf q = session.eventsOf q) :
    r.Ended url session' page? outcome := by
  cases h with
  | unopened => exact .unopened
  | unshown events => exact .unshown ((hevents _ rfl).trans events)
  | unpictured events => exact .unpictured ((hevents _ rfl).trans events)
  | unclosed events picture => exact .unclosed ((hevents _ rfl).trans events) picture
  | split events picture => exact .split ((hevents _ rfl).trans events) picture

/-- What a stage leads to: an outcome that agrees with the log, or a wait of a task that is under
way. -/
inductive GoesOn (r : Run) (url : String) (s : Scene) (own : Option Nat) :
    Next (Except PageError Split) × Scene → Prop where
  | done {s' : Scene} {page? : Option Nat} {outcome : Except PageError Split}
    (attends : s.Attends s' own page?) (ended : r.Ended url s'.session page? outcome) :
    GoesOn r url s own (.done outcome, s')
  | wait {s' : Scene} {ms : Nat} {next : Stage} (attends : s.Attends s' own next.page?)
    (underway : r.Underway url s' next) : GoesOn r url s own (.wait ms next, s')

/-- A stage may begin with something else that is done for its task. -/
theorem GoesOn.of_attends {own own' : Option Nat} (hattends : s.Attends s' own own')
    {result : Next (Except PageError Split) × Scene} (h : r.GoesOn url s' own' result) :
    r.GoesOn url s own result := by
  cases h with
  | done attends ended => exact .done (hattends.trans attends) ended
  | wait attends underway => exact .wait (hattends.trans attends) underway

/-- A page is closed when its work has ended, and this is the last that it writes. -/
theorem closing_goesOn {work : Work (Next Split)} (hfaithful : s.session.IsFaithful)
    (h : r.Gives url page s (work s)) : r.GoesOn url s (some page) (closing url page work s) := by
  generalize hwork : work s = result at h
  have hclose : ∀ {s₁ p more events}, s.Writes s₁ page p more → s₁.Wrote page p events →
      s.Attends (Page.close page s₁).2 (some page) (some page) ∧
        (Page.close page s₁).2.session.eventsOf page = events ++ [.closed] := by
    intro s₁ p more events hwrites hwrote
    have hclosed := Scene.writes_retire hwrote.page [.closed]
    rw [Page.close_run hwrote.page hwrote.isOpen]
    refine ⟨(hwrites.trans hclosed).attends hfaithful, ?_⟩
    rw [hclosed.eventsOf_self, hwrote.events]
  cases h with
  | unshown writes wrote =>
    obtain ⟨hattends, hevents⟩ := hclose writes wrote
    rw [closing_of_error hwork]
    exact .done hattends (.unshown hevents)
  | unpictured writes wrote =>
    obtain ⟨hattends, hevents⟩ := hclose writes wrote
    rw [closing_of_error hwork]
    exact .done hattends (.unpictured hevents)
  | @done s₁ p v split more writes wrote picture =>
    obtain ⟨hattends, hevents⟩ := hclose writes wrote
    cases hresult : Page.close page s₁ with
    | mk ended s₂ =>
      rw [hresult] at hattends hevents
      cases ended with
      | error e =>
        rw [closing_of_unclosed hwork hresult]
        exact .done hattends (.unclosed hevents picture)
      | ok _ =>
        rw [closing_of_closed hwork hresult]
        exact .done hattends (.split hevents picture)
  | wait writes own underway =>
    rw [closing_of_wait hwork]
    exact .wait (own ▸ writes.attends hfaithful) underway

/-- What a stage of a task that is under way leads to. -/
theorem step_goesOn (hfaithful : s.session.IsFaithful) (h : r.Underway url s stage) :
    r.GoesOn url s stage.page? (r.step source url stage s) := by
  cases h with
  | start =>
    rcases acquire_cases url 0 acquireRetries s with
      ⟨attempts, e, s', hacquire, hidles⟩ | ⟨s', hacquire, hidles⟩
    · rw [r.step_of_unacquired source hacquire]
      exact .done (hidles.attends hfaithful) .unopened
    · have hidle := hidles.attends hfaithful
      have hopened := Scene.attends_addPage hidle.faithful
      have hnumber : s'.session.pagesOpened = s.session.pagesOpened :=
        congrArg List.length hidles.pages
      rw [r.step_of_acquired source hacquire, ← hnumber]
      exact .of_attends (hidle.trans hopened)
        (closing_goesOn hopened.faithful (navigate_gives (Scene.wrote_addPage hidle.faithful)))
  | fetching response wrote => exact closing_goesOn hfaithful (arrive_gives wrote response)
  | reading path wrote => exact closing_goesOn hfaithful (readFile_gives wrote path)
  | resting wrote current => exact closing_goesOn hfaithful (settle_gives wrote current)
  | picturing wrote current enabled =>
    exact closing_goesOn hfaithful (picture_gives wrote current enabled)
  | watching wrote current picture running =>
    exact closing_goesOn hfaithful (look_gives wrote current picture running)

end Run

end CriticalCss
