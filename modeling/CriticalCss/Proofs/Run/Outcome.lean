import CriticalCss.Proofs.Browser.Actions
import CriticalCss.Run.Alone

/-!
# How the work on one page ends

Without pictures, the work on a page ends in a way that can be told beforehand from its address and
from what the pages of the scene have in common.  `Run.outcomeIn` tells it without going through the
stages.

* `Run.Leads` says that a task whose stage goes on at a point in time is on its way to an outcome.
  It looks at the page of the task only.
* `step_comes` says that one stage ends with this outcome or leads to a stage that does, and that it
  changes no page but its own.
* `workAlone_eq` and `evaluatePage_eq` follow the stages to the end.
-/

namespace CriticalCss

/-! ## The outcome of a page -/

namespace World

/-- What a page shows of a file. -/
def fileShown (w : World) (path : String) : Except RenderError (String × Snapshot) :=
  match w.files.read path with
  | .error fault => .error (.files path fault)
  | .ok content =>
    match Snapshot.ofText? content with
    | none => .error (.navigation Page.contentUrl "content is not a document snapshot")
    | some snapshot => .ok (Page.contentUrl, snapshot)

end World

/-- What a page shows when it has waited for an answer. -/
def Response.shown (response : Response) : Except RenderError (String × Snapshot) :=
  if response.arrives then .ok (response.url, response.snapshot)
  else .error (.timeout "navigation" response.timeout)

namespace Run

variable (r : Run) (source : Stylesheet) (url : String)

/-- What the page with an address shows, or why it shows nothing. -/
def shownIn (w : World) : Except RenderError (String × Snapshot) :=
  match r.target url with
  | .remote address =>
    match w.answer address r.config.timeout with
    | .error e => .error e
    | .ok response => response.shown
  | .file path => w.fileShown path

/-- The document of a snapshot at the end of the work: late elements are there if they appear before
the last look. -/
def documentAtEnd (snapshot : Snapshot) : Document :=
  snapshot.layout r.device.viewport
    (decide (snapshot.loadTime ≤ r.config.renderDelay + r.probe.lastFrame * Probe.frameTime))

/-- The outcome for a page once its split is known and it is to be closed. -/
def closedWith (w : World) (address : String) (split : Split) : Except PageError Split :=
  match Page.closeFault? w address with
  | some e => .error ⟨url, .close, e⟩
  | none => .ok split

/-- The outcome for a page once it is known what it shows. -/
def outcomeOf (w : World) : Except RenderError (String × Snapshot) → Except PageError Split
  | .error e => .error ⟨url, .navigation, e⟩
  | .ok (address, snapshot) => closedWith url w address (r.splitFor source (r.documentAtEnd snapshot))

/-- The outcome for the page with an address. -/
def outcomeIn (w : World) : Except PageError Split :=
  r.outcomeOf source url w (r.shownIn url w)

end Run

/-! ## What a stage is on its way to -/

/-- The page that a stage works on, if it has been opened. -/
def Stage.page? : Stage → Option Nat
  | .start => none
  | .fetching page _ | .reading page _ | .resting page | .picturing page | .watching page _ =>
    some page

/-- An open page that is set up for a run. -/
structure Scene.Ready (s : Scene) (r : Run) (page : Nat) (p : Page) : Prop where
  page : s.page? page = some p
  isOpen : p.closed = false
  device : p.device = r.device

/-- An open page of a run that has shown a document for some time, without having been stopped. -/
structure Scene.Shows (s : Scene) (r : Run) (page : Nat) (p : Page) (l : Loaded) (time age : Nat) :
    Prop extends s.Ready r page p where
  current : p.current = some l
  running : l.stopped = false
  age : time = l.started + age

namespace Run

/-- A stage that goes on at a point in time is on its way to an outcome. -/
inductive Leads (r : Run) (source : Stylesheet) (url : String) (s : Scene) (time : Nat) :
    Stage → Except PageError Split → Prop where
  | start : Leads r source url s time .start (r.outcomeIn source url s.world)
  | fetching {page : Nat} {p : Page} (response : Response) (ready : s.Ready r page p) :
    Leads r source url s time (.fetching page response)
      (r.outcomeOf source url s.world response.shown)
  | reading {page : Nat} {p : Page} (path : String) (ready : s.Ready r page p) :
    Leads r source url s time (.reading page path)
      (r.outcomeOf source url s.world (s.world.fileShown path))
  | resting {page : Nat} {p : Page} {l : Loaded}
    (shows : s.Shows r page p l time r.config.renderDelay) :
    Leads r source url s time (.resting page)
      (r.outcomeOf source url s.world (.ok (l.url, l.snapshot)))
  | watching {page frame : Nat} {p : Page} {l : Loaded} (early : frame ≤ r.probe.lastFrame)
    (shows : s.Shows r page p l time (r.config.renderDelay + frame * Probe.frameTime)) :
    Leads r source url s time (.watching page frame)
      (r.outcomeOf source url s.world (.ok (l.url, l.snapshot)))

variable {r : Run} {source : Stylesheet} {url : String} {s s' : Scene} {time : Nat} {stage : Stage}
  {outcome : Except PageError Split}

/-- A task that waits is not disturbed by what leaves its page and the world as they are. -/
theorem Leads.congr (h : Leads r source url s time stage outcome) (hworld : s'.world = s.world)
    (hpage : ∀ page, stage.page? = some page → s'.page? page = s.page? page) :
    Leads r source url s' time stage outcome := by
  cases h with
  | start =>
    rw [← hworld]
    exact .start
  | fetching response ready =>
    rw [← hworld]
    exact .fetching response { ready with page := (hpage _ rfl).trans ready.page }
  | reading path ready =>
    rw [← hworld]
    exact .reading path { ready with page := (hpage _ rfl).trans ready.page }
  | resting shows =>
    rw [← hworld]
    exact .resting { shows with page := (hpage _ rfl).trans shows.page }
  | watching early shows =>
    rw [← hworld]
    exact .watching early { shows with page := (hpage _ rfl).trans shows.page }

/-- The page of a task that is under way exists. -/
theorem Leads.exists_page (h : Leads r source url s time stage outcome) {page : Nat}
    (hpage : stage.page? = some page) : ∃ p, s.page? page = some p := by
  cases h with
  | start => cases hpage
  | fetching response ready =>
    cases hpage
    exact ⟨_, ready.page⟩
  | reading path ready =>
    cases hpage
    exact ⟨_, ready.page⟩
  | resting shows =>
    cases hpage
    exact ⟨_, shows.page⟩
  | watching early shows =>
    cases hpage
    exact ⟨_, shows.page⟩

/-! ## Works -/

/-- What a piece of work on a page comes to: an error or a split that leads to the outcome once the
page is closed, or a wait that leads to it.  No other page is changed. -/
inductive Promises (r : Run) (source : Stylesheet) (url : String) (page : Nat) (s : Scene)
    (outcome : Except PageError Split) : Except PageError (Next Split) × Scene → Prop where
  | error {s' : Scene} {p : Page} {e : PageError} (turns : s.Turns s' page p)
    (isOpen : p.closed = false) (ends : outcome = .error e) :
    Promises r source url page s outcome (.error e, s')
  | done {s' : Scene} {p : Page} {l : Loaded} {split : Split} (turns : s.Turns s' page p)
    (isOpen : p.closed = false) (current : p.current = some l)
    (ends : outcome = closedWith url s.world l.url split) :
    Promises r source url page s outcome (.ok (.done split), s')
  | wait {s' : Scene} {p : Page} {ms : Nat} {next : Stage} (turns : s.Turns s' page p)
    (own : next.page? = some page) (leads : Leads r source url s' (s'.now + ms) next outcome) :
    Promises r source url page s outcome (.ok (.wait ms next), s')

variable {page : Nat} {p : Page} {l : Loaded}

/-- Work may begin with something that changes the page only. -/
theorem Promises.of_turns (hturns : s.Turns s' page p)
    {result : Except PageError (Next Split) × Scene}
    (h : Promises r source url page s' outcome result) :
    Promises r source url page s outcome result := by
  cases h with
  | error turns isOpen ends => exact .error (hturns.trans turns) isOpen ends
  | done turns isOpen current ends =>
    rw [hturns.world] at ends
    exact .done (hturns.trans turns) isOpen current ends
  | wait turns own leads => exact .wait (hturns.trans turns) own leads

section During

variable {α : Type} {a : Act α} {phase : Phase}

theorem during_of_ok {v : α} (h : a s = (.ok v, s')) :
    Act.during a url phase s = (.ok v, s') := by
  show (match a s with
    | (result, t) => (Except.mapError (fun e => (⟨url, phase, e⟩ : PageError)) result, t)) = _
  rw [h]
  rfl

theorem during_of_error {e : RenderError} (h : a s = (.error e, s')) :
    Act.during a url phase s = (.error ⟨url, phase, e⟩, s') := by
  show (match a s with
    | (result, t) => (Except.mapError (fun e => (⟨url, phase, e⟩ : PageError)) result, t)) = _
  rw [h]
  rfl

/-- What is done during a phase ends with a value or with an error of the phase. -/
theorem during_cases (a : Act α) (url : String) (phase : Phase) (s : Scene) :
    (∃ e s', a.during url phase s = (.error ⟨url, phase, e⟩, s')) ∨
      ∃ v s', a.during url phase s = (.ok v, s') := by
  cases ha : a s with
  | mk result s' =>
    cases result with
    | error e => exact .inl ⟨e, s', during_of_error ha⟩
    | ok v => exact .inr ⟨v, s', during_of_ok ha⟩

end During

/-- The last look at a page leads to its split. -/
theorem look_promises_of_last {frame : Nat} (hlook : r.probe.look page frame s = (.ok false, s'))
    (hturns : s.Turns s' page p) (h : s'.Ready r page p) (hcurrent : p.current = some l)
    (hcomplete : l.isComplete s'.now = decide (l.snapshot.loadTime ≤
      r.config.renderDelay + r.probe.lastFrame * Probe.frameTime)) :
    Promises r source url page s (r.outcomeOf source url s.world (.ok (l.url, l.snapshot)))
      (r.look source url page frame s) := by
  have hdocument := Page.document_run h.page h.isOpen hcurrent
  rw [hcomplete, h.device] at hdocument
  have hrun : r.look source url page frame s =
      (.ok (.done (r.splitFor source (r.documentAtEnd l.snapshot))), s') := by
    rw [look, bind_of_ok (during_of_ok hlook)]
    simp only [Bool.false_eq_true, false_and, if_false]
    rw [bind_of_ok (during_of_ok hdocument)]
    rfl
  rw [hrun]
  exact .done hturns h.isOpen hcurrent rfl

/-- Looking at a page leads to the outcome of what it shows. -/
theorem look_promises {frame : Nat} (hearly : frame ≤ r.probe.lastFrame)
    (h : s.Shows r page p l s.now (r.config.renderDelay + frame * Probe.frameTime)) :
    Promises r source url page s (r.outcomeOf source url s.world (.ok (l.url, l.snapshot)))
      (r.look source url page frame s) := by
  have hage : s.now - l.started = r.config.renderDelay + frame * Probe.frameTime :=
    Nat.sub_eq_of_eq_add' h.age
  have hcomplete : l.isComplete s.now =
      decide (l.snapshot.loadTime ≤ r.config.renderDelay + frame * Probe.frameTime) := by
    rw [Loaded.isComplete, h.running, hage]
    rfl
  have hloading : l.isLoading s.now = !l.isComplete s.now := by
    rw [Loaded.isLoading, h.running]
    rfl
  have hframes : frame * Probe.frameTime ≤ r.probe.lastFrame * Probe.frameTime :=
    Nat.mul_le_mul_right _ hearly
  by_cases hloaded : l.snapshot.loadTime ≤ r.config.renderDelay + frame * Probe.frameTime
  · -- a page that has loaded stays so until the last look
    rw [decide_eq_true hloaded] at hcomplete
    have hlook := r.probe.look_run_of_loaded h.page h.isOpen h.current
      (by rw [hloading, hcomplete]; rfl) frame
    refine look_promises_of_last hlook (.refl h.page) h.toReady h.current ?_
    rw [hcomplete, decide_eq_true (by omega)]
  rw [decide_eq_false hloaded] at hcomplete
  rw [hcomplete, Bool.not_false] at hloading
  by_cases hlate : r.probe.loadTimeout ≤ frame * Probe.frameTime
  · -- this was the last look, and the page is stopped
    have hlook := Probe.look_run_of_late h.page h.isOpen h.current hloading hlate
    have hstop : l.stop s.now = { l with stopped := true } := by
      rw [Loaded.stop, hcomplete]
      rfl
    have hlast : r.probe.lastFrame * Probe.frameTime = frame * Probe.frameTime := by
      rw [Nat.le_antisymm ((r.probe.lastFrame_le_iff frame).2 hlate) hearly]
    rw [hstop] at hlook
    have hturns := Scene.turns_edit h.page { p with current := some { l with stopped := true } }
      [.stopped]
    refine look_promises_of_last (l := { l with stopped := true }) hlook hturns
      ⟨hturns.page, h.isOpen, h.device⟩ rfl ?_
    rw [hlast, decide_eq_false hloaded]
    rfl
  · have hlook := Probe.look_run_of_early h.page h.isOpen h.current hloading
      (Nat.lt_of_not_le hlate)
    have hrun : r.look source url page frame s =
        (.ok (.wait Probe.frameTime (.watching page (frame + 1))), s) := by
      rw [look, bind_of_ok (during_of_ok hlook)]
      simp only [true_and, if_pos (Nat.lt_of_not_le hlate)]
      rfl
    rw [hrun]
    refine .wait (.refl h.page) rfl (.watching (p := p) ?_ { h with age := ?_ })
    · have := r.probe.lastFrame_le_iff frame
      omega
    · have := h.age
      rw [Nat.succ_mul]
      omega

/-- A page that has rested leads to the outcome of what it shows. -/
theorem settle_promises (hpictures : r.config.screenshots.enabled = false)
    (h : s.Shows r page p l s.now r.config.renderDelay) :
    Promises r source url page s (r.outcomeOf source url s.world (.ok (l.url, l.snapshot)))
      (r.settle source url page s) := by
  rw [settle, hpictures]
  exact look_promises (Nat.zero_le _) { h with age := by rw [h.age, Nat.zero_mul]; rfl }

/-- A page that has begun to show a document leads to the outcome of what it shows. -/
theorem rest_promises (hpictures : r.config.screenshots.enabled = false)
    (h : s.Shows r page p l s.now 0) :
    Promises r source url page s (r.outcomeOf source url s.world (.ok (l.url, l.snapshot)))
      (r.rest source url page s) := by
  rw [rest]
  split
  · next hdelay => exact settle_promises hpictures { h with age := by rw [h.age, hdelay] }
  · exact .wait (.refl h.page) rfl (.resting { h with age := by rw [h.age, Nat.add_zero] })

/-- Showing an answer leads to the outcome of what it shows. -/
theorem arrive_promises (hpictures : r.config.screenshots.enabled = false)
    (h : s.Ready r page p) (response : Response) :
    Promises r source url page s (r.outcomeOf source url s.world response.shown)
      (r.arrive source url page response s) := by
  rw [Response.shown]
  cases harrives : response.arrives with
  | true =>
    have hrun := Page.arrive_run h.page h.isOpen harrives
    have hturns := Scene.turns_edit h.page
      { p with current := some ⟨response.url, response.snapshot, s.now, false⟩ }
      (p.requestEvents response.snapshot ++ [.navigated response.url])
    rw [arrive, bind_of_ok (during_of_ok hrun), ← hturns.world]
    exact .of_turns hturns (rest_promises hpictures
      ⟨⟨hturns.page, h.isOpen, h.device⟩, rfl, rfl, hturns.now⟩)
  | false =>
    rw [arrive, bind_of_error (during_of_error (Page.arrive_run_of_late harrives page s))]
    exact .error (.refl h.page) h.isOpen rfl

/-- Reading a file leads to the outcome of what it shows. -/
theorem readFile_promises (hpictures : r.config.screenshots.enabled = false)
    (h : s.Ready r page p) (path : String) :
    Promises r source url page s (r.outcomeOf source url s.world (s.world.fileShown path))
      (r.readFile source url page path s) := by
  have hfiles : s.world.files = s.files := rfl
  rw [World.fileShown, hfiles]
  have hget : (get : Act Scene) s = (.ok s, s) := rfl
  cases hread : s.files.read path with
  | error fault =>
    have hshow : PageTarget.showFile page path s = (.error (.files path fault), s) := by
      rw [PageTarget.showFile, bind_of_ok hget, hread]
      rfl
    rw [readFile, bind_of_error (during_of_error hshow)]
    exact .error (.refl h.page) h.isOpen rfl
  | ok content =>
    have hshow : PageTarget.showFile page path s = Page.setContent page content s := by
      rw [PageTarget.showFile, bind_of_ok hget, hread]
    cases hcontent : Snapshot.ofText? content with
    | none =>
      simp only [hcontent]
      rw [Page.setContent_run_of_none hcontent] at hshow
      rw [readFile, bind_of_error (during_of_error hshow)]
      exact .error (.refl h.page) h.isOpen rfl
    | some snapshot =>
      simp only [hcontent]
      have hturns := Scene.turns_edit h.page
        { p with current := some ⟨Page.contentUrl, snapshot, s.now, false⟩ }
        (p.requestEvents snapshot ++ [.contentSet])
      rw [Page.setContent_run h.page h.isOpen hcontent] at hshow
      rw [readFile, bind_of_ok (during_of_ok hshow), ← hturns.world]
      exact .of_turns hturns (rest_promises hpictures
        ⟨⟨hturns.page, h.isOpen, h.device⟩, rfl, rfl, hturns.now⟩)

/-- A page as it is set up for a run. -/
def configured (r : Run) (p : Page) : Page :=
  { p with
    cacheEnabled := r.config.enableCache
    javascriptEnabled := r.config.enableJavascript
    blocklist := r.config.blocklist
    device := r.device }

/-- What a page writes that is set up for a run. -/
def configuration (r : Run) : List PageEvent :=
  [.cacheEnabled r.config.enableCache, .javascriptEnabled r.config.enableJavascript,
    .filtered r.config.blocklist.patterns, .emulated r.device.width r.device.height r.userAgent]

/-- A page is set up as the run says. -/
theorem configure_run (h : s.page? page = some p) (hopen : p.closed = false) :
    r.configure page s = (.ok (), s.edit page (r.configured p) r.configuration) := by
  have hcache := Page.enableCache_run h hopen r.config.enableCache
  have hscripts := Page.enableJavascript_run
    (Scene.page_edit h { p with cacheEnabled := r.config.enableCache }
      [.cacheEnabled r.config.enableCache]) hopen r.config.enableJavascript
  rw [Scene.edit_edit] at hscripts
  have hfilter := Page.filter_run (Scene.page_edit h
    { p with
      cacheEnabled := r.config.enableCache
      javascriptEnabled := r.config.enableJavascript }
    [.cacheEnabled r.config.enableCache, .javascriptEnabled r.config.enableJavascript])
    hopen r.config.blocklist
  rw [Scene.edit_edit] at hfilter
  have hemulate := Page.emulate_run (Scene.page_edit h
    { p with
      cacheEnabled := r.config.enableCache
      javascriptEnabled := r.config.enableJavascript
      blocklist := r.config.blocklist }
    [.cacheEnabled r.config.enableCache, .javascriptEnabled r.config.enableJavascript,
      .filtered r.config.blocklist.patterns]) hopen r.device r.userAgent
  rw [Scene.edit_edit] at hemulate
  exact (bind_of_ok hcache).trans
    ((bind_of_ok hscripts).trans ((bind_of_ok hfilter).trans hemulate))

/-- Setting up a page and asking for its document leads to the outcome of the page. -/
theorem navigate_promises (hpictures : r.config.screenshots.enabled = false)
    (h : s.page? page = some p) (hopen : p.closed = false) :
    Promises r source url page s (r.outcomeIn source url s.world)
      (r.navigate source url page s) := by
  have hturns := Scene.turns_edit h (r.configured p) r.configuration
  have hready : (s.edit page (r.configured p) r.configuration).Ready r page (r.configured p) :=
    ⟨hturns.page, hopen, rfl⟩
  rw [navigate, bind_of_ok (during_of_ok (configure_run h hopen)), ← hturns.world, outcomeIn, shownIn]
  refine .of_turns hturns ?_
  generalize s.edit page (r.configured p) r.configuration = s' at hready ⊢
  cases r.target url with
  | file path => exact .wait (.refl hready.page) rfl (.reading path hready)
  | remote address =>
    have hrespond := Page.respond_run hready.page hready.isOpen address r.config.timeout
    simp only
    cases hanswer : s'.world.answer address r.config.timeout with
    | error e =>
      rw [hanswer] at hrespond
      rw [bind_of_error (during_of_error hrespond)]
      exact .error (.refl hready.page) hready.isOpen rfl
    | ok response =>
      rw [hanswer] at hrespond
      rw [bind_of_ok (during_of_ok hrespond)]
      by_cases hwait : response.wait = 0
      · rw [if_pos hwait]
        exact arrive_promises hpictures hready response
      · rw [if_neg hwait]
        exact .wait (.refl hready.page) rfl (.fetching response hready)

/-! ## Stages -/

/-- What a stage comes to: the outcome, or a wait for a stage of the same page that leads to it. -/
inductive Comes (r : Run) (source : Stylesheet) (url : String) (page : Nat) (s : Scene)
    (outcome : Except PageError Split) : Next (Except PageError Split) → Prop where
  | done : Comes r source url page s outcome (.done outcome)
  | wait {ms : Nat} {next : Stage} (own : next.page? = some page)
    (leads : Leads r source url s (s.now + ms) next outcome) :
    Comes r source url page s outcome (.wait ms next)

section Closing

variable {work : Work (Next Split)} {s₁ s₂ : Scene} {split : Split}

/-- Work that waits leaves its page open. -/
theorem closing_of_wait {ms : Nat} {stage : Stage} (h : work s = (.ok (.wait ms stage), s₁)) :
    closing url page work s = (.wait ms stage, s₁) := by
  have hrun : work.run s = (.ok (.wait ms stage), s₁) := h
  rw [closing, StateT.bind_of_run hrun]
  rfl

/-- The page of work that failed is closed, whether or not closing fails. -/
theorem closing_of_error {e : PageError} (h : work s = (.error e, s₁)) :
    closing url page work s = (.done (.error e), (Page.close page s₁).2) := by
  have hrun : work.run s = (.error e, s₁) := h
  rw [closing, StateT.bind_of_run hrun]
  rfl

theorem closing_of_closed (h : work s = (.ok (.done split), s₁))
    (hclose : Page.close page s₁ = (.ok (), s₂)) :
    closing url page work s = (.done (.ok split), s₂) := by
  have hrun : work.run s = (.ok (.done split), s₁) := h
  have hduring : ((Page.close page).during url .close).run s₁ = (.ok (), s₂) := during_of_ok hclose
  rw [closing, StateT.bind_of_run hrun]
  exact StateT.bind_of_run hduring

theorem closing_of_unclosed (h : work s = (.ok (.done split), s₁)) {e : RenderError}
    (hclose : Page.close page s₁ = (.error e, s₂)) :
    closing url page work s = (.done (.error ⟨url, .close, e⟩), s₂) := by
  have hrun : work.run s = (.ok (.done split), s₁) := h
  have hduring : ((Page.close page).during url .close).run s₁ = (.error ⟨url, .close, e⟩, s₂) :=
    during_of_error hclose
  rw [closing, StateT.bind_of_run hrun]
  exact StateT.bind_of_run hduring

end Closing

/-- Without a page the work on it ends at once. -/
theorem step_of_unacquired (r : Run) (source : Stylesheet) {e : PageError} {s₁ : Scene}
    (h : acquire url 0 acquireRetries s = (.error e, s₁)) :
    r.step source url .start s = (.done (.error e), s₁) := by
  have hrun : (acquire url 0 acquireRetries).run s = (.error e, s₁) := h
  rw [step, StateT.bind_of_run hrun]
  rfl

/-- With a page the work on it goes on. -/
theorem step_of_acquired (r : Run) (source : Stylesheet) {s₁ : Scene}
    (h : acquire url 0 acquireRetries s = (.ok page, s₁)) :
    r.step source url .start s = closing url page (r.navigate source url page) s₁ := by
  have hrun : (acquire url 0 acquireRetries).run s = (.ok page, s₁) := h
  rw [step, StateT.bind_of_run hrun]

/-- Closing a page after its work gives the outcome that the work leads to. -/
theorem closing_comes {work : Work (Next Split)}
    (h : Promises r source url page s outcome (work s)) :
    ∃ s' p next, closing url page work s = (next, s') ∧ s.Turns s' page p ∧
      Comes r source url page s' outcome next := by
  generalize hwork : work s = result at h
  cases h with
  | @wait s' p ms next turns own leads =>
    exact ⟨s', p, .wait ms next, closing_of_wait hwork, turns, .wait own leads⟩
  | @error s' p e turns isOpen ends =>
    have hclosed := Scene.turns_retire turns.page [.closed]
    refine ⟨_, _, .done (.error e), ?_, turns.trans hclosed, ends ▸ .done⟩
    rw [closing_of_error hwork, Page.close_run turns.page isOpen]
  | @done s' p l split turns isOpen current ends =>
    have hclose := Page.close_run turns.page isOpen
    have hclosed := Scene.turns_retire turns.page [.closed]
    refine ⟨_, _, .done outcome, ?_, turns.trans hclosed, .done⟩
    rw [current, Option.bind_some, turns.world] at hclose
    rw [ends, closedWith]
    cases hfault : Page.closeFault? s.world l.url with
    | none =>
      rw [hfault] at hclose
      exact closing_of_closed hwork hclose
    | some e =>
      rw [hfault] at hclose
      exact closing_of_unclosed hwork hclose

/-- A page that is opened is new. -/
theorem exists_run_acquire (url : String) (hopen : s.world.closed = false)
    (hopens : s.world.failingOpens = 0) :
    ∃ s', acquire url 0 acquireRetries s = (.ok s.session.pages.length, s') ∧
      s.Turns s' s.session.pages.length .fresh := by
  have hclosed : ¬s.session.closed = true := Bool.eq_false_iff.1 hopen
  have hready : ¬0 < s.session.failingOpens := Nat.not_lt.2 (Nat.le_of_eq hopens)
  have hnew := Session.newPage_of_ready hclosed hready
  have hattempt : (ExceptT.lift (ExceptT.run Session.newPage) : Work _) s =
      (.ok (.ok s.session.pages.length), s.onSession (·.addPage)) := by
    show (match Session.newPage s with | (result, t) => (Except.ok result, t)) = _
    rw [hnew]
    rfl
  refine ⟨s.onSession (·.addPage), bind_of_ok hattempt, rfl, rfl, ?_, ?_⟩
  · exact List.getElem?_concat_length
  · intro q hq
    show (s.session.pages ++ [.fresh])[q]? = s.session.pages[q]?
    rcases Nat.lt_or_gt_of_ne hq with hlt | hgt
    · exact List.getElem?_append_left hlt
    · rw [List.getElem?_eq_none (by rw [List.length_append]; exact hgt),
        List.getElem?_eq_none (Nat.le_of_lt hgt)]

/-- Every stage comes to the outcome or goes on towards it. -/
theorem step_comes (hpictures : r.config.screenshots.enabled = false)
    (hopen : s.world.closed = false) (hopens : s.world.failingOpens = 0)
    (h : Leads r source url s s.now stage outcome) :
    ∃ s' page p next, r.step source url stage s = (next, s') ∧ s.Turns s' page p ∧
      Comes r source url page s' outcome next ∧
      (stage.page? = some page ∨ stage.page? = none ∧ s.page? page = none) := by
  cases h with
  | start =>
    obtain ⟨s₁, hacquire, hopened⟩ := exists_run_acquire url hopen hopens
    have hnavigate : Promises r source url s.session.pages.length s₁
        (r.outcomeIn source url s₁.world) (r.navigate source url s.session.pages.length s₁) :=
      navigate_promises hpictures hopened.page rfl
    rw [hopened.world] at hnavigate
    obtain ⟨s', p, next, hrun, hturns, hcomes⟩ := closing_comes hnavigate
    refine ⟨s', _, p, next, ?_, hopened.trans hturns, hcomes, .inr ⟨rfl, ?_⟩⟩
    · rw [← hrun]
      exact r.step_of_acquired source hacquire
    · exact List.getElem?_eq_none (Nat.le_refl _)
  | fetching response ready =>
    obtain ⟨s', p, next, hrun, hturns, hcomes⟩ :=
      closing_comes (arrive_promises hpictures ready response)
    exact ⟨s', _, p, next, hrun, hturns, hcomes, .inl rfl⟩
  | reading path ready =>
    obtain ⟨s', p, next, hrun, hturns, hcomes⟩ :=
      closing_comes (readFile_promises hpictures ready path)
    exact ⟨s', _, p, next, hrun, hturns, hcomes, .inl rfl⟩
  | resting shows =>
    obtain ⟨s', p, next, hrun, hturns, hcomes⟩ := closing_comes (settle_promises hpictures shows)
    exact ⟨s', _, p, next, hrun, hturns, hcomes, .inl rfl⟩
  | watching early shows =>
    obtain ⟨s', p, next, hrun, hturns, hcomes⟩ := closing_comes (look_promises early shows)
    exact ⟨s', _, p, next, hrun, hturns, hcomes, .inl rfl⟩

/-! ## The work on a page alone -/

/-- Time that passes disturbs no task. -/
theorem Leads.pass (h : Leads r source url s time stage outcome) (ms : Nat) :
    Leads r source url (s.pass ms) time stage outcome :=
  h.congr rfl fun _ _ => rfl

/-- The work on a page alone comes to the outcome that its stage leads to. -/
theorem workAlone_eq (hpictures : r.config.screenshots.enabled = false)
    (hopen : s.world.closed = false) (hopens : s.world.failingOpens = 0)
    (h : Leads r source url s s.now stage outcome) :
    (r.workAlone source url stage s).1 = outcome := by
  induction stage, s using workAlone_induction r source url with
  | done stage s result s' hstep =>
    obtain ⟨t, page, p, next, hrun, -, hcomes, -⟩ := step_comes hpictures hopen hopens h
    rw [hstep, Prod.mk.injEq] at hrun
    obtain ⟨rfl, rfl⟩ := hrun
    rw [workAlone, hstep]
    cases hcomes
    rfl
  | wait stage s ms next s' hstep ih =>
    obtain ⟨t, page, p, next', hrun, hturns, hcomes, -⟩ := step_comes hpictures hopen hopens h
    rw [hstep, Prod.mk.injEq] at hrun
    obtain ⟨rfl, rfl⟩ := hrun
    have hworld : (s'.pass ms).world = s.world := hturns.world
    cases hcomes with
    | wait own leads =>
      rw [workAlone, hstep]
      exact ih (hworld ▸ hopen) (hworld ▸ hopens) (leads.pass ms)

/-- The result for a page alone. -/
theorem evaluatePage_eq (hpictures : r.config.screenshots.enabled = false)
    (hopen : s.world.closed = false) (hopens : s.world.failingOpens = 0) :
    (r.evaluatePage source url s).1 = ⟨url, r.outcomeIn source url s.world⟩ :=
  congrArg (PageResult.mk url) (workAlone_eq hpictures hopen hopens .start)

end Run

end CriticalCss
