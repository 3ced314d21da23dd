import CriticalCss.Rule.Split
import CriticalCss.Run.Basic

/-!
# The work on one page

The work on a page goes in stages: it is opened, set up, shown, left alone for a while, pictured,
watched until it has loaded, probed and closed.  Between two stages it waits, and other pages may be
worked on.  Whatever fails, the page is closed.  `rank_lt_of_step` says that every stage leads closer
to the end.
-/

namespace CriticalCss

/-- Where the work on a page goes on after a wait. -/
inductive Stage where
  | start
  /-- The answer of an address is on its way. -/
  | fetching (page : Nat) (response : Response)
  /-- A file is being read. -/
  | reading (page : Nat) (path : String)
  /-- The page is left alone so that late changes show. -/
  | resting (page : Nat)
  /-- A picture is being saved. -/
  | picturing (page : Nat)
  /-- The page is looked at when some frames have passed. -/
  | watching (page frame : Nat)

namespace Stage

/-- A bound on how many milliseconds and stages are still to come. -/
def rank (loadTimeout : Nat) : Stage → Nat
  | .watching _ frame => loadTimeout + Probe.frameTime - frame * Probe.frameTime + 1
  | .picturing _ => loadTimeout + Probe.frameTime + 2
  | .resting _ => loadTimeout + Probe.frameTime + 3
  | .reading .. | .fetching .. => loadTimeout + Probe.frameTime + 4
  | .start => loadTimeout + Probe.frameTime + 5

theorem rank_pos (loadTimeout : Nat) (s : Stage) : 0 < s.rank loadTimeout := by
  cases s <;> simp [rank]

end Stage

/-- What a stage leads to: an end, or another stage after some milliseconds.  Where no time passes,
pages that are ready come first. -/
inductive Next (α : Type) where
  | done (result : α)
  | wait (milliseconds : Nat) (stage : Stage)

/-- Something that is done with a page in a run. -/
abbrev Work := ExceptT PageError (StateM Scene)

/-- Does something with a page during a phase. -/
def Act.during (a : Act α) (url : String) (phase : Phase) : Work α :=
  ExceptT.adapt (⟨url, phase, ·⟩) a

namespace Run

/-- How often opening a page is tried again. -/
def acquireRetries : Nat := 3

/-- Opens a page, after some attempts that failed, and tries again as often as is said unless the
session is closed. -/
def acquire (url : String) (failed : Nat) : (retries : Nat) → Work Nat
  | 0 => Session.newPage.during url (.acquisition (failed + 1))
  | retries + 1 => do
    match ← (Session.newPage.run : StateM Scene _) with
    | .ok page => return page
    | .error .sessionClosed => throw ⟨url, .acquisition (failed + 1), .sessionClosed⟩
    | .error _ => acquire url (failed + 1) retries

/-- The split of the source for a page with a document. -/
def splitFor (r : Run) (source : Stylesheet) (document : Document) : Split :=
  source.split (r.probe.evaluate document source) !r.config.dropKeyframes

/-- Looks at a page in a frame; when it has loaded or was stopped, the source is split. -/
def look (r : Run) (source : Stylesheet) (url : String) (page frame : Nat) : Work (Next Split) := do
  let again ← (r.probe.look page frame).during url .probe
  if again ∧ frame * Probe.frameTime < r.probe.loadTimeout then
    return .wait Probe.frameTime (.watching page (frame + 1))
  else
    let document ← (Page.document page).during url .probe
    return .done (r.splitFor source document)

/-- Where the picture of a page goes, and its directory if the path names one. -/
def pictureDirectory? (r : Run) (url : String) : Option String :=
  (Files.parent? (r.config.picturePath url)).filter (· ≠ "")

/-- Saves the picture of a page. -/
def savePicture (r : Run) (url : String) (page : Nat) : Act Unit := do
  match r.pictureDirectory? url with
  | none => pure ()
  | some directory =>
    match (← get).files.makeDirectories directory with
    | .error fault => throw (.files directory fault)
    | .ok files => modify fun s => { s with files }
  Page.screenshot page (r.config.picturePath url)

/-- Saves a picture and looks at the page. -/
def picture (r : Run) (source : Stylesheet) (url : String) (page : Nat) : Work (Next Split) := do
  (r.savePicture url page).during url .screenshot
  r.look source url page 0

/-- Goes on with a page that has rested. -/
def settle (r : Run) (source : Stylesheet) (url : String) (page : Nat) : Work (Next Split) :=
  if r.config.screenshots.enabled then
    if (r.pictureDirectory? url).isSome then return .wait 0 (.picturing page)
    else r.picture source url page
  else r.look source url page 0

/-- Goes on with a page that shows its document. -/
def rest (r : Run) (source : Stylesheet) (url : String) (page : Nat) : Work (Next Split) :=
  if r.config.renderDelay = 0 then r.settle source url page
  else return .wait r.config.renderDelay (.resting page)

/-- Shows the answer of an address. -/
def arrive (r : Run) (source : Stylesheet) (url : String) (page : Nat) (response : Response) :
    Work (Next Split) := do
  (Page.arrive page response).during url .navigation
  r.rest source url page

/-- Shows the document in a file. -/
def readFile (r : Run) (source : Stylesheet) (url : String) (page : Nat) (path : String) :
    Work (Next Split) := do
  (PageTarget.showFile page path).during url .navigation
  r.rest source url page

/-- Sets up a page and begins to load its document. -/
def navigate (r : Run) (source : Stylesheet) (url : String) (page : Nat) : Work (Next Split) := do
  (r.configure page).during url .configuration
  match r.target url with
  | .file path => return .wait 0 (.reading page path)
  | .remote address =>
    let response ← (Page.respond page address r.config.timeout).during url .navigation
    if response.wait = 0 then r.arrive source url page response
    else return .wait response.wait (.fetching page response)

/-- Works on a page and closes it when the work has ended.  An error of the work hides one of
closing. -/
def closing (url : String) (page : Nat) (work : Work (Next Split)) :
    StateM Scene (Next (Except PageError Split)) := do
  match ← work.run with
  | .ok (.wait ms stage) => return .wait ms stage
  | .ok (.done split) =>
    match ← ((Page.close page).during url .close).run with
    | .ok _ => return .done (.ok split)
    | .error e => return .done (.error e)
  | .error e =>
    let _ ← (Page.close page).run
    return .done (.error e)

/-- Works on a page from a stage up to the next wait. -/
def step (r : Run) (source : Stylesheet) (url : String) :
    Stage → StateM Scene (Next (Except PageError Split))
  | .start => do
    match ← (acquire url 0 acquireRetries).run with
    | .error e => return .done (.error e)
    | .ok page => closing url page (r.navigate source url page)
  | .fetching page response => closing url page (r.arrive source url page response)
  | .reading page path => closing url page (r.readFile source url page path)
  | .resting page => closing url page (r.settle source url page)
  | .picturing page => closing url page (r.picture source url page)
  | .watching page frame => closing url page (r.look source url page frame)

/-! ## Every stage leads closer to the end -/

theorem pure_apply {α : Type} (a : α) (s : Scene) :
    (StateT.pure a : StateM Scene α) s = (a, s) := rfl

/-- Whether work waits only for stages below a bound. -/
def WaitsBelow (loadTimeout bound : Nat) (work : Work (Next Split)) : Prop :=
  ∀ s ms stage, (work.run s).1 = .ok (.wait ms stage) → stage.rank loadTimeout < bound

theorem WaitsBelow.mono {t m n : Nat} {work : Work (Next Split)} (h : WaitsBelow t m work)
    (hle : m ≤ n) : WaitsBelow t n work :=
  fun s ms stage hs => Nat.lt_of_lt_of_le (h s ms stage hs) hle

theorem WaitsBelow.pure_done (t n : Nat) (split : Split) :
    WaitsBelow t n (pure (.done split)) := by
  intro s ms stage h
  simp [ExceptT.run, pure, ExceptT.pure, ExceptT.mk, pure_apply] at h

theorem WaitsBelow.pure_wait {t n : Nat} (ms : Nat) {stage : Stage} (h : stage.rank t < n) :
    WaitsBelow t n (pure (.wait ms stage)) := by
  intro s ms' stage' hs
  simp only [ExceptT.run, pure, ExceptT.pure, ExceptT.mk, pure_apply, Except.ok.injEq,
    Next.wait.injEq] at hs
  exact hs.2 ▸ h

theorem WaitsBelow.bind {t n : Nat} (x : Work α) {f : α → Work (Next Split)}
    (h : ∀ a, WaitsBelow t n (f a)) : WaitsBelow t n (x >>= f) := by
  intro s ms stage hs
  simp only [ExceptT.run, Bind.bind, ExceptT.bind, ExceptT.mk, StateT.bind] at hs
  generalize hx : x s = p at hs
  obtain ⟨result, s'⟩ := p
  cases result with
  | error e => simp [ExceptT.bindCont, pure, pure_apply] at hs
  | ok a => exact h a s' ms stage hs

variable (r : Run) (source : Stylesheet) (url : String) (page : Nat)

theorem waitsBelow_look (frame : Nat) :
    WaitsBelow r.probe.loadTimeout ((Stage.watching page frame).rank r.probe.loadTimeout)
      (r.look source url page frame) := by
  refine .bind _ fun again => ?_
  split
  · next h =>
    refine .pure_wait _ ?_
    have := h.2
    simp only [Stage.rank, Probe.frameTime] at *
    omega
  · exact .bind _ fun document => .pure_done _ _ _

theorem waitsBelow_picture :
    WaitsBelow r.probe.loadTimeout ((Stage.picturing page).rank r.probe.loadTimeout)
      (r.picture source url page) :=
  .bind _ fun _ => (r.waitsBelow_look source url page 0).mono (by simp [Stage.rank])

theorem waitsBelow_settle :
    WaitsBelow r.probe.loadTimeout ((Stage.resting page).rank r.probe.loadTimeout)
      (r.settle source url page) := by
  unfold settle
  split
  · split
    · exact .pure_wait _ (by simp [Stage.rank])
    · exact (r.waitsBelow_picture source url page).mono (by simp [Stage.rank])
  · exact (r.waitsBelow_look source url page 0).mono (by simp [Stage.rank])

theorem waitsBelow_rest (n : Nat) (h : (Stage.resting page).rank r.probe.loadTimeout < n) :
    WaitsBelow r.probe.loadTimeout n (r.rest source url page) := by
  unfold rest
  split
  · exact (r.waitsBelow_settle source url page).mono (Nat.le_of_lt h)
  · exact .pure_wait _ h

theorem waitsBelow_arrive (response : Response) :
    WaitsBelow r.probe.loadTimeout ((Stage.fetching page response).rank r.probe.loadTimeout)
      (r.arrive source url page response) :=
  .bind _ fun _ => r.waitsBelow_rest source url page _ (by simp [Stage.rank])

theorem waitsBelow_readFile (path : String) :
    WaitsBelow r.probe.loadTimeout ((Stage.reading page path).rank r.probe.loadTimeout)
      (r.readFile source url page path) :=
  .bind _ fun _ => r.waitsBelow_rest source url page _ (by simp [Stage.rank])

theorem waitsBelow_navigate :
    WaitsBelow r.probe.loadTimeout (Stage.start.rank r.probe.loadTimeout)
      (r.navigate source url page) := by
  refine .bind _ fun _ => ?_
  split
  · exact .pure_wait _ (by simp [Stage.rank])
  · refine .bind _ fun response => ?_
    split
    · exact (r.waitsBelow_arrive source url page response).mono (by simp [Stage.rank])
    · exact .pure_wait _ (by simp [Stage.rank])

theorem rank_lt_of_closing {t n : Nat} {work : Work (Next Split)} (h : WaitsBelow t n work)
    {s : Scene} {ms : Nat} {stage : Stage} (hs : (closing url page work s).1 = .wait ms stage) :
    stage.rank t < n := by
  simp only [closing, bind, StateT.bind] at hs
  generalize hw : ExceptT.run work s = p at hs
  obtain ⟨result, s'⟩ := p
  match result, hw with
  | .error e, _ =>
    simp only [StateT.bind, bind] at hs
    generalize ExceptT.run (Page.close page) s' = q at hs
    cases q with
    | mk closed s'' => simp [pure_apply, pure] at hs
  | .ok (.wait ms' stage'), hw =>
    simp only [pure_apply, pure, Next.wait.injEq] at hs
    exact hs.2 ▸ h s ms' stage' (by rw [hw])
  | .ok (.done split), _ =>
    simp only [StateT.bind, bind] at hs
    generalize ExceptT.run ((Page.close page).during url .close) s' = q at hs
    obtain ⟨closed, s''⟩ := q
    cases closed <;> simp [pure_apply, pure] at hs

/-- A stage waits only for a stage that is closer to the end. -/
theorem rank_lt_of_step {stage next : Stage} {s : Scene} {ms : Nat}
    (h : (r.step source url stage s).1 = .wait ms next) :
    next.rank r.probe.loadTimeout < stage.rank r.probe.loadTimeout := by
  cases stage with
  | start =>
    simp only [step, bind, StateT.bind] at h
    generalize ExceptT.run (acquire url 0 acquireRetries) s = p at h
    obtain ⟨result, s'⟩ := p
    cases result with
    | error e => simp [pure_apply, pure] at h
    | ok page => exact rank_lt_of_closing url page (r.waitsBelow_navigate source url page) h
  | fetching page response =>
    exact rank_lt_of_closing url page (r.waitsBelow_arrive source url page response) h
  | reading page path =>
    exact rank_lt_of_closing url page (r.waitsBelow_readFile source url page path) h
  | resting page => exact rank_lt_of_closing url page (r.waitsBelow_settle source url page) h
  | picturing page => exact rank_lt_of_closing url page (r.waitsBelow_picture source url page) h
  | watching page frame =>
    exact rank_lt_of_closing url page (r.waitsBelow_look source url page frame) h

end Run

end CriticalCss
