import CriticalCss.Probe.Watch

/-!
# What the actions on a page do

An action on an open page ends with a value and edits the scene: the page becomes another one, and some
events are written into the log under its number.  An action on a page that is not open fails and does
nothing.

* `bind_of_ok`, `bind_of_error` and `StateT.bind_of_run` take a sequence of actions apart.
* `Scene.edit` is the scene with another page and more events, and `Scene.retire` the scene in which a
  page is closed or given up.  `Scene.Turns` says what they leave as it is: the other pages, the clock,
  and what the pages have in common.
* The lemmas whose names end in `run` are the equations of the actions on an open page.  All that is
  said of these actions later follows from them.
-/

namespace CriticalCss

/-! ## Sequences of actions -/

section Sequences

variable {ε α β : Type} {x : ExceptT ε (StateM Scene) α} {f : α → ExceptT ε (StateM Scene) β}
  {s s' : Scene}

/-- After an action that ends with a value the next one goes on. -/
theorem bind_of_ok {a : α} (h : x s = (.ok a, s')) : (x >>= f) s = f a s' := by
  show (match x s with | (result, t) => ExceptT.bindCont f result t) = f a s'
  rw [h]
  rfl

/-- After an action that ends with a fault nothing else is done. -/
theorem bind_of_error {e : ε} (h : x s = (.error e, s')) : (x >>= f) s = (.error e, s') := by
  show (match x s with | (result, t) => ExceptT.bindCont f result t) = (.error e, s')
  rw [h]
  rfl

/-- After an action that cannot fail the next one goes on. -/
theorem StateT.bind_of_run {x : StateM Scene α} {f : α → StateM Scene β} {a : α}
    (h : x s = (a, s')) : (x >>= f) s = f a s' := by
  show (match x s with | (a, t) => f a t) = f a s'
  rw [h]

end Sequences

/-! ## What pages have in common -/

/-- What the pages of a scene have in common: no action on a page changes it, unless it saves a
picture. -/
structure World where
  documents : List (String × Snapshot)
  delays : List (String × Nat)
  failingNavigations : List String
  failingCloses : List String
  failingOpens : Nat
  closed : Bool
  files : Files

namespace World

/-- The answer of an address. -/
def answer (w : World) (url : String) (timeout : Nat) : Except RenderError Response :=
  match w.documents.lookup url with
  | none => .error (.navigation url "net::ERR_NAME_NOT_RESOLVED")
  | some snapshot =>
    if w.failingNavigations.contains url then .error (.navigation url "net::ERR_CONNECTION_RESET")
    else
      let delay := (w.delays.lookup url).getD 0
      .ok ⟨url, snapshot, min delay timeout, delay ≤ timeout, timeout⟩

/-- An answer is awaited no longer than the timeout. -/
theorem wait_le_of_answer {w : World} {url : String} {timeout : Nat} {r : Response}
    (h : w.answer url timeout = .ok r) : r.wait ≤ timeout := by
  rw [answer] at h
  cases hdocument : w.documents.lookup url with
  | none =>
    rw [hdocument] at h
    cases h
  | some snapshot =>
    rw [hdocument] at h
    dsimp only at h
    by_cases hfails : w.failingNavigations.contains url = true
    · rw [if_pos hfails] at h
      cases h
    · rw [if_neg hfails] at h
      cases h
      exact Nat.min_le_right _ _

end World

namespace Scene

/-- What the pages of a scene have in common. -/
def world (s : Scene) : World :=
  ⟨s.session.documents, s.session.delays, s.session.failingNavigations, s.session.failingCloses,
    s.session.failingOpens, s.session.closed, s.files⟩

/-- A page of a scene, if there is one with the number. -/
def page? (s : Scene) (id : Nat) : Option Page :=
  s.session.pages[id]?

/-- Which pages are closed. -/
def closedPages (s : Scene) : List Bool :=
  s.session.pages.map (·.closed)

/-- A page is there and open. -/
def IsOpen (s : Scene) (id : Nat) : Prop :=
  s.closedPages[id]? = some false

variable {s s' s'' : Scene} {id : Nat} {p p' : Page}

theorem length_closedPages (s : Scene) : s.closedPages.length = s.session.pagesOpened :=
  List.length_map _

theorem isOpen_iff : s.IsOpen id ↔ ∃ p, s.page? id = some p ∧ p.closed = false := by
  rw [IsOpen, closedPages, List.getElem?_map, Option.map_eq_some_iff]
  rfl

theorem IsOpen.lt_pagesOpened (h : s.IsOpen id) : id < s.session.pagesOpened := by
  rw [← length_closedPages]
  exact (List.getElem?_eq_some_iff.1 h).1

theorem isOpen_of_page (h : s.page? id = some p) (hopen : p.closed = false) : s.IsOpen id :=
  isOpen_iff.2 ⟨p, h, hopen⟩

/-! ## One page changes -/

/-- A page becomes another one and writes some events into the log. -/
def edit (s : Scene) (id : Nat) (p : Page) (events : List PageEvent) : Scene :=
  s.onSession fun t => { t.setPage id p with log := t.log ++ events.map (id, ·) }

/-- A page is closed or given up and writes some events into the log. -/
def retire (s : Scene) (id : Nat) (p : Page) (events : List PageEvent) : Scene :=
  (s.edit id { p with closed := true } events).onSession fun t =>
    { t with openPages := t.openPages - 1 }

/-- A page that stays the same and writes nothing changes nothing. -/
theorem edit_self (h : s.page? id = some p) : s.edit id p [] = s := by
  obtain ⟨hlt, hget⟩ := List.getElem?_eq_some_iff.1 h
  have hpages : s.session.pages.set id p = s.session.pages := by
    rw [← hget]
    exact List.set_getElem_self hlt
  show s.onSession (fun t => { t with pages := t.pages.set id p, log := t.log ++ [] }) = s
  rw [onSession, hpages, List.append_nil]

/-- Noting one more event. -/
theorem edit_record (s : Scene) (id : Nat) (p : Page) (events : List PageEvent) (e : PageEvent) :
    (s.edit id p events).onSession (·.record id e) = s.edit id p (events ++ [e]) := by
  simp only [edit, onSession, Session.record, Session.setPage, List.map_append, List.append_assoc,
    List.map_cons, List.map_nil]

theorem edit_edit (s : Scene) (id : Nat) (p p' : Page) (events more : List PageEvent) :
    (s.edit id p events).edit id p' more = s.edit id p' (events ++ more) := by
  simp only [edit, onSession, Session.setPage, List.set_set, List.map_append, List.append_assoc]

/-- Replacing the page once more. -/
theorem edit_setPage (s : Scene) (id : Nat) (p p' : Page) (events : List PageEvent) :
    (s.edit id p events).onSession (·.setPage id p') = s.edit id p' events := by
  simp only [edit, onSession, Session.setPage, List.set_set]

theorem page_edit (h : s.page? id = some p) (p' : Page) (events : List PageEvent) :
    (s.edit id p' events).page? id = some p' :=
  List.getElem?_set_self (List.getElem?_eq_some_iff.1 h).1

theorem page_edit_of_ne {q : Nat} (hq : q ≠ id) (p' : Page) (events : List PageEvent) :
    (s.edit id p' events).page? q = s.page? q :=
  List.getElem?_set_ne hq.symm

theorem closedPages_edit (h : s.page? id = some p) (hsame : p'.closed = p.closed)
    (events : List PageEvent) :
    (s.edit id p' events).closedPages = s.closedPages := by
  obtain ⟨hlt, hget⟩ := List.getElem?_eq_some_iff.1 h
  show (s.session.pages.set id p').map (·.closed) = s.session.pages.map (·.closed)
  rw [List.map_set, hsame, ← hget]
  exact (List.map_set).symm.trans (congrArg _ (List.set_getElem_self hlt))

theorem closedPages_retire (s : Scene) (id : Nat) (p : Page) (events : List PageEvent) :
    (s.retire id p events).closedPages = s.closedPages.set id true :=
  List.map_set

theorem pagesOpened_edit (s : Scene) (id : Nat) (p : Page) (events : List PageEvent) :
    (s.edit id p events).session.pagesOpened = s.session.pagesOpened :=
  List.length_set

/-- A scene goes on to another one in which one page has become the given one; the other pages, the
clock and what the pages have in common are the same. -/
structure Turns (s s' : Scene) (id : Nat) (p : Page) : Prop where
  world : s'.world = s.world
  now : s'.now = s.now
  page : s'.page? id = some p
  others : ∀ q, q ≠ id → s'.page? q = s.page? q

theorem Turns.refl (h : s.page? id = some p) : s.Turns s id p :=
  ⟨rfl, rfl, h, fun _ _ => rfl⟩

theorem Turns.trans (h : s.Turns s' id p) (h' : s'.Turns s'' id p') : s.Turns s'' id p' where
  world := h'.world.trans h.world
  now := h'.now.trans h.now
  page := h'.page
  others q hq := (h'.others q hq).trans (h.others q hq)

theorem turns_edit (h : s.page? id = some p) (p' : Page) (events : List PageEvent) :
    s.Turns (s.edit id p' events) id p' :=
  ⟨rfl, rfl, page_edit h p' events, fun _ hq => page_edit_of_ne hq p' events⟩

theorem turns_retire (h : s.page? id = some p) (events : List PageEvent) :
    s.Turns (s.retire id p events) id { p with closed := true } :=
  ⟨rfl, rfl, page_edit h _ events, fun _ hq => page_edit_of_ne hq _ events⟩

end Scene

/-! ## Looking for a page -/

section Lookup

variable {α : Type} {s : Scene} {id : Nat} {p : Page}

/-- A page that is not closed is found open. -/
theorem Act.openPage_run (h : s.page? id = some p) (hopen : p.closed = false) :
    Act.openPage id s = (.ok p, s) := by
  have hget : (get : Act Scene) s = (.ok s, s) := rfl
  rw [Act.openPage, bind_of_ok hget]
  rw [Scene.page?] at h
  simp only [h, hopen]
  rfl

/-- A page that is not open is not found. -/
theorem Act.openPage_of_not_isOpen (h : ¬s.IsOpen id) :
    Act.openPage id s = (.error .pageClosed, s) := by
  have hget : (get : Act Scene) s = (.ok s, s) := rfl
  rw [Act.openPage, bind_of_ok hget]
  cases hpage : s.session.pages[id]? with
  | none => rfl
  | some p =>
    have hclosed : p.closed = true := by
      cases hp : p.closed with
      | false => exact absurd (Scene.isOpen_of_page hpage hp) h
      | true => rfl
    simp only [hclosed]
    rfl

/-- What begins with an open page fails without one. -/
theorem Act.openPage_bind_of_not_isOpen (h : ¬s.IsOpen id) (f : Page → Act α) :
    (Act.openPage id >>= f) s = (.error .pageClosed, s) :=
  bind_of_error (Act.openPage_of_not_isOpen h)

/-- An open page with a document shows it. -/
theorem Act.shown_run (h : s.page? id = some p) (hopen : p.closed = false) {l : Loaded}
    (hcurrent : p.current = some l) : Act.shown id s = (.ok (p, l), s) := by
  rw [Act.shown, bind_of_ok (Act.openPage_run h hopen), hcurrent]
  rfl

/-- An open page without a document shows none. -/
theorem Act.shown_of_none (h : s.page? id = some p) (hopen : p.closed = false)
    (hcurrent : p.current = none) : Act.shown id s = (.error .noDocument, s) := by
  rw [Act.shown, bind_of_ok (Act.openPage_run h hopen), hcurrent]
  rfl

theorem Act.shown_of_not_isOpen (h : ¬s.IsOpen id) :
    Act.shown id s = (.error .pageClosed, s) :=
  Act.openPage_bind_of_not_isOpen h _

end Lookup

/-! ## Actions on an open page -/

variable {s : Scene} {id : Nat} {p : Page}

/-- Replacing an open page and noting it in the log. -/
theorem Act.change_run (h : s.page? id = some p) (hopen : p.closed = false) (f : Page → Page)
    (e : PageEvent) :
    (do let p ← Act.openPage id; Act.setPage id (f p); Act.record id e) s =
      (.ok (), s.edit id (f p) [e]) := by
  rw [bind_of_ok (Act.openPage_run h hopen)]
  rfl

namespace Page

theorem enableCache_run (h : s.page? id = some p) (hopen : p.closed = false) (on : Bool) :
    enableCache id on s = (.ok (), s.edit id { p with cacheEnabled := on } [.cacheEnabled on]) :=
  Act.change_run h hopen (fun p => { p with cacheEnabled := on }) _

theorem enableJavascript_run (h : s.page? id = some p) (hopen : p.closed = false) (on : Bool) :
    enableJavascript id on s =
      (.ok (), s.edit id { p with javascriptEnabled := on } [.javascriptEnabled on]) :=
  Act.change_run h hopen (fun p => { p with javascriptEnabled := on }) _

theorem filter_run (h : s.page? id = some p) (hopen : p.closed = false) (blocklist : Blocklist) :
    filter id blocklist s =
      (.ok (), s.edit id { p with blocklist } [.filtered blocklist.patterns]) :=
  Act.change_run h hopen (fun p => { p with blocklist }) _

theorem emulate_run (h : s.page? id = some p) (hopen : p.closed = false) (device : Device)
    (userAgent : String) :
    emulate id device userAgent s =
      (.ok (), s.edit id { p with device } [.emulated device.width device.height userAgent]) :=
  Act.change_run h hopen (fun p => { p with device }) _

/-- What a page writes about the requests of a document. -/
def requestEvents (p : Page) (snapshot : Snapshot) : List PageEvent :=
  snapshot.subresources.map fun request => .requested request (p.blocklist.blocks request)

/-- Requests are noted one after the other. -/
theorem requests_run (s : Scene) (id : Nat) (p : Page) (noted : List PageEvent)
    (requests : List String) (blocks : String → Bool) :
    (forIn requests () fun request _ => do
        Act.record id (.requested request (blocks request))
        pure (ForInStep.yield ()) : Act Unit) (s.edit id p noted) =
      (.ok (), s.edit id p
        (noted ++ requests.map fun request => .requested request (blocks request))) := by
  induction requests generalizing noted with
  | nil =>
    rw [List.map_nil, List.append_nil]
    rfl
  | cons request requests ih =>
    have hnoted := ih (noted ++ [.requested request (blocks request)])
    rw [← Scene.edit_record, List.append_assoc] at hnoted
    rw [List.forIn_cons]
    exact hnoted

/-- A page that loads a document notes its requests and shows it from now on. -/
theorem load_run (h : s.page? id = some p) (hopen : p.closed = false) (url : String)
    (snapshot : Snapshot) :
    load id url snapshot s =
      (.ok (), s.edit id { p with current := some ⟨url, snapshot, s.now, false⟩ }
        (p.requestEvents snapshot)) := by
  have hrequests := requests_run s id p [] snapshot.subresources p.blocklist.blocks
  rw [Scene.edit_self h, List.nil_append] at hrequests
  rw [load, bind_of_ok (Act.openPage_run h hopen), bind_of_ok hrequests]
  exact congrArg (Prod.mk _) (Scene.edit_setPage s id p _ _)

/-- What an address answers follows from what pages have in common. -/
theorem respond_run (h : s.page? id = some p) (hopen : p.closed = false) (url : String)
    (timeout : Nat) : respond id url timeout s = (s.world.answer url timeout, s) := by
  have hget : (get : Act Scene) s = (.ok s, s) := rfl
  have hdocuments : s.world.documents = s.session.documents := rfl
  have hfailing : s.world.failingNavigations = s.session.failingNavigations := rfl
  rw [respond, bind_of_ok (Act.openPage_run h hopen), bind_of_ok hget, World.answer, hdocuments,
    hfailing]
  cases s.session.documents.lookup url with
  | none => rfl
  | some snapshot =>
    cases hfails : s.session.failingNavigations.contains url with
    | true =>
      simp only
      rfl
    | false =>
      simp only
      rfl

/-- An answer that comes in time is shown, and it is noted that the page went there. -/
theorem arrive_run (h : s.page? id = some p) (hopen : p.closed = false) {r : Response}
    (harrives : r.arrives = true) :
    arrive id r s =
      (.ok (), s.edit id { p with current := some ⟨r.url, r.snapshot, s.now, false⟩ }
        (p.requestEvents r.snapshot ++ [.navigated r.url])) := by
  rw [arrive, harrives]
  show (load id r.url r.snapshot >>= fun _ => Act.record id (.navigated r.url)) s = _
  rw [bind_of_ok (load_run h hopen r.url r.snapshot), ← Scene.edit_record]
  rfl

/-- An answer that does not come in time is a fault. -/
theorem arrive_run_of_late {r : Response} (hlate : r.arrives = false) (id : Nat) (s : Scene) :
    arrive id r s = (.error (.timeout "navigation" r.timeout), s) := by
  rw [arrive, hlate]
  rfl

/-- Content that is a document is shown, and it is noted that it was set. -/
theorem setContent_run (h : s.page? id = some p) (hopen : p.closed = false) {content : String}
    {snapshot : Snapshot} (hcontent : Snapshot.ofText? content = some snapshot) :
    setContent id content s =
      (.ok (), s.edit id { p with current := some ⟨contentUrl, snapshot, s.now, false⟩ }
        (p.requestEvents snapshot ++ [.contentSet])) := by
  simp only [setContent, hcontent]
  rw [bind_of_ok (load_run h hopen contentUrl snapshot), ← Scene.edit_record]
  rfl

/-- Content that is no document is a fault. -/
theorem setContent_run_of_none {content : String} (hcontent : Snapshot.ofText? content = none)
    (id : Nat) (s : Scene) :
    setContent id content s =
      (.error (.navigation contentUrl "content is not a document snapshot"), s) := by
  simp only [setContent, hcontent]
  rfl

theorem isLoading_run (h : s.page? id = some p) (hopen : p.closed = false) {l : Loaded}
    (hcurrent : p.current = some l) : isLoading id s = (.ok (l.isLoading s.now), s) := by
  rw [isLoading, bind_of_ok (Act.shown_run h hopen hcurrent)]
  rfl

theorem document_run (h : s.page? id = some p) (hopen : p.closed = false) {l : Loaded}
    (hcurrent : p.current = some l) :
    document id s = (.ok (l.snapshot.layout p.device.viewport (l.isComplete s.now)), s) := by
  rw [document, bind_of_ok (Act.shown_run h hopen hcurrent)]
  rfl

theorem stylesheetText_run (h : s.page? id = some p) (hopen : p.closed = false) {l : Loaded}
    (hcurrent : p.current = some l) : stylesheetText id s = (.ok l.snapshot.stylesheetText, s) := by
  rw [stylesheetText, bind_of_ok (Act.shown_run h hopen hcurrent)]
  rfl

theorem stop_run (h : s.page? id = some p) (hopen : p.closed = false) :
    stop id s =
      (.ok (), s.edit id { p with current := p.current.map (·.stop s.now) } [.stopped]) := by
  rw [stop, bind_of_ok (Act.openPage_run h hopen)]
  rfl

/-- Saving a picture of a page that shows a document changes the files and is noted, or it fails. -/
theorem screenshot_cases (h : s.page? id = some p) (hopen : p.closed = false) {l : Loaded}
    (hcurrent : p.current = some l) (path : String) :
    (∃ e, screenshot id path s = (.error e, s)) ∨
      ∃ files, screenshot id path s = (.ok (), { s with files }.edit id p [.screenshot path]) := by
  have hget : (get : Act Scene) s = (.ok s, s) := rfl
  rw [screenshot, bind_of_ok (Act.shown_run h hopen hcurrent)]
  cases pictureFault? path with
  | some reason => exact .inl ⟨_, rfl⟩
  | none =>
    dsimp only
    rw [bind_of_ok hget]
    cases hsaved : s.files.savePicture path with
    | error fault =>
      dsimp only
      exact .inl ⟨_, rfl⟩
    | ok files =>
      dsimp only
      cases encodingFault? path with
      | some reason => exact .inl ⟨_, rfl⟩
      | none =>
        have hsame : { s with files }.edit id p [] = { s with files } := Scene.edit_self h
        refine .inr ⟨files, ?_⟩
        rw [← List.nil_append [PageEvent.screenshot path], ← Scene.edit_record, hsame]
        rfl

/-- The fault of closing a page that shows a document, if closing fails. -/
def closeFault? (w : World) (url : String) : Option RenderError :=
  if w.failingCloses.contains url then
    some (.evaluation ("target for '" ++ url ++ "' did not close cleanly"))
  else none

/-- An open page is closed; if closing fails, this is found out afterwards. -/
theorem close_run (h : s.page? id = some p) (hopen : p.closed = false) :
    close id s =
      (match p.current.bind fun l => closeFault? s.world l.url with
        | some e => .error e
        | none => .ok (), s.retire id p [.closed]) := by
  rw [close, bind_of_ok (Act.openPage_run h hopen)]
  obtain ⟨closed, cacheEnabled, javascriptEnabled, blocklist, device, current⟩ := p
  cases current with
  | none => rfl
  | some l =>
    show (if s.session.failingCloses.contains l.url then throw _ else pure () : Act Unit) _ = _
    rw [Option.bind_some, closeFault?, Scene.world]
    by_cases hfails : s.session.failingCloses.contains l.url = true
    · rw [if_pos hfails, if_pos hfails]
      rfl
    · rw [if_neg hfails, if_neg hfails]
      rfl

/-- An open page is given up, and nothing is noted. -/
theorem drop_run (h : s.page? id = some p) (hopen : p.closed = false) :
    drop id s = (.ok (), s.retire id p []) := by
  have hlog : s.session.log ++ [] = s.session.log := List.append_nil _
  rw [drop, bind_of_ok (Act.openPage_run h hopen)]
  simp only [Scene.retire, Scene.edit, Scene.onSession, List.map_nil, hlog]
  rfl

end Page

/-! ## Opening a page -/

namespace Session

/-- In a session that is closed no page is opened. -/
theorem newPage_of_closed (hclosed : s.session.closed = true) :
    newPage s = (.error .sessionClosed, s) := by
  have hget : (MonadState.get : Act Scene) s = (.ok s, s) := rfl
  rw [newPage, bind_of_ok hget]
  dsimp only
  rw [if_pos hclosed]
  rfl

/-- An attempt that is to fail is counted. -/
theorem newPage_of_failing (hopen : ¬s.session.closed = true)
    (hfailing : 0 < s.session.failingOpens) :
    newPage s = (.error (.pageCreation "target crashed"),
      s.onSession fun t => { t with failingOpens := t.failingOpens - 1 }) := by
  have hget : (MonadState.get : Act Scene) s = (.ok s, s) := rfl
  rw [newPage, bind_of_ok hget]
  dsimp only
  rw [if_neg hopen, if_pos hfailing]
  rfl

/-- A page that is opened has the next number. -/
theorem newPage_of_ready (hopen : ¬s.session.closed = true)
    (hready : ¬0 < s.session.failingOpens) :
    newPage s = (.ok s.session.pagesOpened, s.onSession (·.addPage)) := by
  have hget : (MonadState.get : Act Scene) s = (.ok s, s) := rfl
  rw [newPage, bind_of_ok hget]
  dsimp only
  rw [if_neg hopen, if_neg hready]
  rfl

end Session

/-! ## Looking at a page -/

/-- The first frame at which a page that is still loading is stopped. -/
def Probe.lastFrame (p : Probe) : Nat :=
  (p.loadTimeout + frameTime - 1) / frameTime

theorem Probe.lastFrame_le_iff (p : Probe) (frame : Nat) :
    p.lastFrame ≤ frame ↔ p.loadTimeout ≤ frame * frameTime := by
  simp only [lastFrame, frameTime]
  omega

/-- A page that has loaded needs no second look. -/
theorem Probe.look_run_of_loaded (probe : Probe) (h : s.page? id = some p)
    (hopen : p.closed = false) {l : Loaded} (hcurrent : p.current = some l)
    (hloaded : l.isLoading s.now = false) (frame : Nat) :
    probe.look id frame s = (.ok false, s) := by
  rw [look, bind_of_ok (Page.isLoading_run h hopen hcurrent), hloaded]
  rfl

/-- A page that is loading when the time for it has not passed is looked at again. -/
theorem Probe.look_run_of_early {probe : Probe} (h : s.page? id = some p)
    (hopen : p.closed = false) {l : Loaded} (hcurrent : p.current = some l)
    (hloading : l.isLoading s.now = true) {frame : Nat}
    (hearly : frame * frameTime < probe.loadTimeout) :
    probe.look id frame s = (.ok true, s) := by
  rw [look, bind_of_ok (Page.isLoading_run h hopen hcurrent), hloading]
  simp only [if_true, if_neg (Nat.not_le.2 hearly)]
  rfl

/-- A page that is loading when the time for it has passed is stopped. -/
theorem Probe.look_run_of_late {probe : Probe} (h : s.page? id = some p) (hopen : p.closed = false)
    {l : Loaded} (hcurrent : p.current = some l) (hloading : l.isLoading s.now = true) {frame : Nat}
    (hlate : probe.loadTimeout ≤ frame * frameTime) :
    probe.look id frame s =
      (.ok false, s.edit id { p with current := some (l.stop s.now) } [.stopped]) := by
  have hstop := Page.stop_run h hopen
  rw [hcurrent, Option.map_some] at hstop
  rw [look, bind_of_ok (Page.isLoading_run h hopen hcurrent), hloading]
  simp only [if_true, if_pos hlate]
  rw [bind_of_ok hstop]
  rfl

end CriticalCss
