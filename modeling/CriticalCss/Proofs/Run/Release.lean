import CriticalCss.Proofs.Browser.Openings
import CriticalCss.Proofs.Run.Schedule
import CriticalCss.Run.Output

/-!
# Every page that a run opens is closed

Whatever fails, the work on a page closes it exactly once, and no more pages are open at once than
the configuration allows.

* The work on one page.  `keeps_look` up to `keeps_navigate` say that the work opens and closes
  nothing and waits only for its own page.  `step_retains` is what one stage does to the pages that
  are held: it holds its own page while it waits, and none when it is done.
* The pool.  `Pool.Roomy` says that the pages of the tasks are held and that there is room for them.
  `Roomy.of_move` is what one move preserves, and `Roomy.of_moves` what a whole schedule preserves.
* The run.  `run_holds` goes from the source to the results.  `Scene.Bounds` and `Scene.Released` are
  what the pages and the log tell then, and `run_releases` says so of a run and of every schedule.
-/

namespace CriticalCss

open Relation (ReflTransGen)

/-! ## The work on a page -/

/-- If work goes on after a wait, it does so with the same page. -/
def Next.StaysOn {α : Type} (page : Nat) (next : Next α) : Prop :=
  ∀ ms stage, next = .wait ms stage → stage.page? = some page

theorem Next.staysOn_done {α : Type} (page : Nat) (result : α) :
    (Next.done result).StaysOn page := nofun

theorem Next.staysOn_wait {α : Type} {page : Nat} {stage : Stage} (h : stage.page? = some page)
    (ms : Nat) : (Next.wait ms stage : Next α).StaysOn page := by
  intro ms' stage' heq
  cases heq
  exact h

/-- The error did not come up when the page was opened. -/
def PageError.IsLater (e : PageError) : Prop :=
  ∀ attempts, e.phase ≠ .acquisition attempts

namespace Run

variable {r : Run} {source : Stylesheet} {url : String} {page : Nat}

/-- Work that is done inside other work ends with its outcome as a value. -/
theorem lift_of_run {ε ε' α : Type} {x : ExceptT ε (StateM Scene) α} {s s' : Scene}
    {result : Except ε α} (h : x s = (result, s')) :
    (liftM (x.run : StateM Scene _) : ExceptT ε' (StateM Scene) _) s = (.ok result, s') := by
  show (match x s with | (result, t) => (Except.ok result, t)) = _
  rw [h]

/-- What is done during a phase on which opening a page does not depend keeps the pages, and its errors
are those of the phase. -/
theorem keeps_during {α : Type} {a : Act α} {Q : α → Prop} (h : Keeps a Q fun _ => True)
    (phase : Phase) (hphase : ∀ attempts, phase ≠ .acquisition attempts) :
    Keeps (a.during url phase) Q PageError.IsLater := by
  intro s
  have hkept := h s
  generalize hrun : a s = result at hkept
  cases hkept with
  | ok rests value =>
    rw [during_of_ok hrun]
    exact .ok rests value
  | error rests _ =>
    rw [during_of_error hrun]
    exact .error rests hphase

theorem keeps_configure (r : Run) :
    Keeps (r.configure page) (fun _ => True) fun _ => True := by
  refine (Page.handles_enableCache _).keeps.bind fun _ _ => ?_
  refine (Page.handles_enableJavascript _).keeps.bind fun _ _ => ?_
  refine (Page.handles_filter _).keeps.bind fun _ _ => ?_
  exact (Page.handles_emulate _ _).keeps

theorem keeps_showFile (path : String) :
    Keeps (PageTarget.showFile page path) (fun _ => True) fun _ => True := by
  refine Keeps.get.bind fun s _ => ?_
  split
  · exact .throw trivial
  · exact (Page.handles_setContent _).keeps

theorem keeps_load (target : PageTarget) (timeout : Nat) :
    Keeps (target.load page timeout) (fun _ => True) fun _ => True := by
  cases target with
  | remote url => exact (Page.handles_goto url timeout).keeps
  | file path => exact keeps_showFile path

theorem keeps_stylesheetsOf (r : Run) (url : String) :
    Keeps (r.stylesheetsOf page url) (fun _ => True) fun _ => True := by
  refine r.keeps_configure.bind fun _ _ => ?_
  exact (keeps_load _ _).bind fun _ _ => Page.handles_stylesheetText.keeps

theorem keeps_savePicture (r : Run) (url : String) :
    Keeps (r.savePicture url page) (fun _ => True) fun _ => True := by
  have hpicture : Keeps (Page.screenshot page (r.config.picturePath url)) (fun _ => True)
      fun _ => True := (Page.handles_screenshot _).keeps
  have hsave : ∀ files : Files, Keeps (modify fun s => { s with files } : Act Unit) (fun _ => True)
      fun _ => True := fun files => .modify fun s => .of_idles ⟨rfl, rfl, rfl, rfl⟩ rfl
  unfold savePicture
  dsimp only
  split
  · exact hpicture
  · refine Keeps.get.bind fun s _ => ?_
    split
    · exact .throw trivial
    · exact (hsave _).bind fun _ _ => hpicture

theorem keeps_look (r : Run) (frame : Nat) :
    Keeps (r.look source url page frame) (Next.StaysOn page) PageError.IsLater := by
  refine (keeps_during (r.probe.handles_look frame).keeps .probe nofun).bind fun again _ => ?_
  split
  · exact .pure (Next.staysOn_wait rfl _)
  · exact (keeps_during Page.handles_document.keeps .probe nofun).bind fun _ _ =>
      .pure (Next.staysOn_done _ _)

theorem keeps_picture (r : Run) :
    Keeps (r.picture source url page) (Next.StaysOn page) PageError.IsLater :=
  (keeps_during (r.keeps_savePicture url) .screenshot nofun).bind fun _ _ => r.keeps_look 0

theorem keeps_settle (r : Run) :
    Keeps (r.settle source url page) (Next.StaysOn page) PageError.IsLater := by
  unfold settle
  split
  · split
    · exact .pure (Next.staysOn_wait rfl _)
    · exact r.keeps_picture
  · exact r.keeps_look 0

theorem keeps_rest (r : Run) :
    Keeps (r.rest source url page) (Next.StaysOn page) PageError.IsLater := by
  unfold rest
  split
  · exact r.keeps_settle
  · exact .pure (Next.staysOn_wait rfl _)

theorem keeps_arrive (r : Run) (response : Response) :
    Keeps (r.arrive source url page response) (Next.StaysOn page) PageError.IsLater :=
  (keeps_during (Page.handles_arrive response).keeps .navigation nofun).bind fun _ _ => r.keeps_rest

theorem keeps_readFile (r : Run) (path : String) :
    Keeps (r.readFile source url page path) (Next.StaysOn page) PageError.IsLater :=
  (keeps_during (keeps_showFile path) .navigation nofun).bind fun _ _ => r.keeps_rest

theorem keeps_navigate (r : Run) :
    Keeps (r.navigate source url page) (Next.StaysOn page) PageError.IsLater := by
  refine (keeps_during r.keeps_configure .configuration nofun).bind fun _ _ => ?_
  split
  · exact .pure (Next.staysOn_wait rfl _)
  · refine (keeps_during (Page.handles_respond _ _).keeps .navigation nofun).bind fun response _ => ?_
    split
    · exact r.keeps_arrive response
    · exact .pure (Next.staysOn_wait rfl _)

/-! ## One stage -/

variable {s₀ s s' : Scene} {bound : Nat} {others : List Nat}

/-- What is held after a stage: the other pages are held, and its own page as well if the work waits. -/
inductive Retains (s₀ : Scene) (bound : Nat) (others : List Nat) :
    Next (Except PageError Split) × Scene → Prop where
  | done {result : Except PageError Split} {s : Scene} (holds : s₀.Holds bound others s) :
    Retains s₀ bound others (.done result, s)
  | wait {ms page : Nat} {stage : Stage} {s : Scene} (own : stage.page? = some page)
    (holds : s₀.Holds bound (page :: others) s) : Retains s₀ bound others (.wait ms stage, s)

/-- A page is closed when its work has ended, also when closing fails. -/
theorem closing_retains {work : Work (Next Split)}
    (hwork : Keeps work (Next.StaysOn page) PageError.IsLater)
    (h : s₀.Holds bound (page :: others) s) :
    Retains s₀ bound others (closing url page work s) := by
  have hclose : ∀ {s₁ : Scene}, s.Rests s₁ → s₀.Holds bound others (Page.close page s₁).2 := by
    intro s₁ hrests
    have hheld := h.quiet hrests.toQuiet
    exact hheld.close (Page.close_closes (hheld.isOpen List.mem_cons_self))
  have hkept := hwork s
  generalize hrun : work s = result at hkept
  cases hkept with
  | error rests _ =>
    rw [closing_of_error hrun]
    exact .done (hclose rests)
  | @ok next s₁ rests stays =>
    cases next with
    | wait ms stage =>
      rw [closing_of_wait hrun]
      exact .wait (stays ms stage rfl) (h.quiet rests.toQuiet)
    | done split =>
      have hclosed := hclose rests
      cases hended : Page.close page s₁ with
      | mk ended s₂ =>
        rw [hended] at hclosed
        cases ended with
        | ok v =>
          rw [closing_of_closed hrun hended]
          exact .done hclosed
        | error e =>
          rw [closing_of_unclosed hrun hended]
          exact .done hclosed

/-- Acquiring a page fails with an error that says so, or it opens the page with the next number; the
attempts that failed did nothing to the pages. -/
theorem acquire_cases (url : String) (failed retries : Nat) (s : Scene) :
    (∃ attempts e s', acquire url failed retries s = (.error ⟨url, .acquisition attempts, e⟩, s') ∧
        s.Idles s') ∨
      ∃ s', acquire url failed retries s = (.ok s.session.pagesOpened, s'.onSession (·.addPage)) ∧
        s.Idles s' := by
  induction retries generalizing failed s with
  | zero =>
    rcases Session.newPage_idles s with ⟨e, s', hnew, hidles⟩ | hnew
    · exact .inl ⟨_, e, s', during_of_error hnew, hidles⟩
    · exact .inr ⟨s, during_of_ok hnew, .refl s⟩
  | succ retries ih =>
    rcases Session.newPage_idles s with ⟨e, s', hnew, hidles⟩ | hnew
    · have hstep : acquire url failed (retries + 1) s = _ := bind_of_ok (lift_of_run hnew)
      have hnumber : s'.session.pagesOpened = s.session.pagesOpened := 
        congrArg List.length hidles.pages
      rw [hstep]
      cases e with
      | sessionClosed => exact .inl ⟨_, _, s', rfl, hidles⟩
      | _ =>
        rcases ih (failed + 1) s' with ⟨attempts, e, t, hacquire, hmore⟩ | ⟨t, hacquire, hmore⟩
        · exact .inl ⟨attempts, e, t, hacquire, hidles.trans hmore⟩
        · exact .inr ⟨t, hnumber ▸ hacquire, hidles.trans hmore⟩
    · exact .inr ⟨s, bind_of_ok (lift_of_run hnew), .refl s⟩

/-- A page that is acquired is held; otherwise no page was opened. -/
theorem acquire_holds (h : s₀.Holds bound others s) (hroom : others.length < bound)
    (url : String) (failed retries : Nat) :
    (∃ e s', acquire url failed retries s = (.error e, s') ∧ s₀.Holds bound others s') ∨
      ∃ page s', acquire url failed retries s = (.ok page, s') ∧
        s₀.Holds bound (page :: others) s' := by
  rcases acquire_cases url failed retries s with
    ⟨attempts, e, s', hacquire, hidles⟩ | ⟨s', hacquire, hidles⟩
  · exact .inl ⟨_, s', hacquire, h.quiet hidles.quiet⟩
  · have hheld := (h.quiet hidles.quiet).addPage hroom
    have hpage : s'.closedPages.length = s.session.pagesOpened := by
      rw [Scene.length_closedPages, Session.pagesOpened, hidles.pages]
      rfl
    rw [hpage] at hheld
    exact .inr ⟨_, _, hacquire, hheld⟩

/-- What one stage does to the pages that are held, when there is room for one page besides those of
the others. -/
theorem step_retains (r : Run) (source : Stylesheet) (url : String) {stage : Stage}
    (h : s₀.Holds bound (stage.page?.toList ++ others) s) (hroom : others.length < bound) :
    Retains s₀ bound others (r.step source url stage s) := by
  cases stage with
  | start =>
    rcases acquire_holds h hroom url 0 acquireRetries with
      ⟨e, s', hacquire, hholds⟩ | ⟨page, s', hacquire, hholds⟩
    · rw [r.step_of_unacquired source hacquire]
      exact .done hholds
    · rw [r.step_of_acquired source hacquire]
      exact closing_retains r.keeps_navigate hholds
  | fetching page response => exact closing_retains (r.keeps_arrive response) h
  | reading page path => exact closing_retains (r.keeps_readFile path) h
  | resting page => exact closing_retains r.keeps_settle h
  | picturing page => exact closing_retains r.keeps_picture h
  | watching page frame => exact closing_retains (r.keeps_look frame) h

end Run

/-! ## The pool -/

namespace Pool

/-- The pages of the tasks that are not finished. -/
def pages (p : Pool) : List Nat :=
  p.tasks.filterMap (·.stage.page?)

/-- The pages of the tasks under way are held, and there are no more of these tasks than a bound
allows. -/
structure Roomy (s₀ : Scene) (bound : Nat) (p : Pool) (s : Scene) : Prop where
  unbegun : ∀ t ∈ p.waiting, t.stage = .start
  room : p.ready.length + p.sleeping.length ≤ bound
  holds : s₀.Holds bound p.pages s

variable {r : Run} {source : Stylesheet} {s₀ s s' : Scene} {bound : Nat} {p p' : Pool}

theorem pages_perm (h : p'.tasks.Perm p.tasks) : p'.pages.Perm p.pages :=
  h.filterMap _

/-- The pages when there is one task more. -/
theorem pages_perm_cons {t : Task} (h : p'.tasks.Perm (t :: p.tasks)) :
    p'.pages.Perm (t.stage.page?.toList ++ p.pages) := by
  have htasks := h.filterMap (·.stage.page?)
  rw [List.filterMap_eq_flatMap_toList, List.filterMap_eq_flatMap_toList, List.flatMap_cons,
    ← List.filterMap_eq_flatMap_toList, ← List.filterMap_eq_flatMap_toList] at htasks
  exact htasks

/-- Tasks at their start have no page, so there are no more pages than tasks under way. -/
theorem length_pages_le (hstart : ∀ t ∈ p.waiting, t.stage = .start) :
    p.pages.length ≤ p.ready.length + p.sleeping.length := by
  have hnone : p.waiting.filterMap (·.stage.page?) = [] := by
    rw [List.filterMap_eq_nil_iff]
    intro t ht
    rw [hstart t ht]
    rfl
  rw [pages, tasks, List.append_assoc, List.filterMap_append, hnone, List.nil_append]
  have hlength := List.length_filterMap_le (fun t : Task => t.stage.page?)
    (p.ready ++ p.sleeping.map (·.2))
  rw [List.length_append, List.length_map] at hlength
  exact hlength

/-- Whichever task that is ready goes first, its page is held besides those of the others, and there
is room for one. -/
theorem Roomy.of_ready (h : Roomy s₀ bound p s) {before after : List Task} {t : Task}
    (hready : p.ready = before ++ t :: after) :
    s₀.Holds bound (t.stage.page?.toList ++ { p with ready := before ++ after }.pages) s ∧
      { p with ready := before ++ after }.pages.length < bound := by
  refine ⟨h.holds.perm (pages_perm_cons (tasks_perm_of_ready hready)).symm, ?_⟩
  have hlength : { p with ready := before ++ after }.pages.length ≤
      (before ++ after).length + p.sleeping.length := length_pages_le h.unbegun
  have hroom := h.room
  rw [hready] at hroom
  simp only [List.length_append, List.length_cons] at hlength hroom
  omega

/-- What one move preserves. -/
theorem Roomy.of_move (h : Roomy s₀ bound p s) (hmove : Move r source (p, s) (p', s')) :
    Roomy s₀ bound p' s' := by
  cases hmove with
  | @finish _ _ _ before after t result ready step =>
    obtain ⟨hheld, hroom⟩ := h.of_ready ready
    have hretains := r.step_retains source t.url hheld hroom
    rw [step] at hretains
    cases hretains with
    | done holds =>
      refine ⟨fun t ht => h.unbegun t (List.mem_of_mem_drop ht), ?_, ?_⟩
      · have hlength := h.room
        rw [ready] at hlength
        simp only [finish, List.length_append, List.length_cons, List.length_take] at hlength ⊢
        omega
      · exact holds.perm (pages_perm (tasks_finish _ _ _))
  | @putBack _ _ _ before after t ms stage ready step =>
    obtain ⟨hheld, hroom⟩ := h.of_ready ready
    have hretains := r.step_retains source t.url hheld hroom
    rw [step] at hretains
    cases hretains with
    | wait own holds =>
      refine ⟨?_, ?_, ?_⟩
      · rw [putBack]
        split <;> exact h.unbegun
      · have hlength := h.room
        rw [ready] at hlength
        rw [putBack]
        split <;> simp only [List.length_append, List.length_cons, List.length_nil] at hlength ⊢ <;>
          omega
      · have hpages := pages_perm_cons
          (tasks_putBack { p with ready := before ++ after } s'.now ms { t with stage })
        rw [own] at hpages
        exact holds.perm hpages
  | @wake _ _ time idle first =>
    refine ⟨h.unbegun, ?_, ?_⟩
    · have hsplit := List.length_eq_length_filter_add (l := p.sleeping) fun e => decide (e.1 ≤ time)
      have hlength := h.room
      rw [idle] at hlength
      simp only [wake, List.length_append, List.length_map, idle, List.length_nil] at hlength ⊢
      omega
    · refine (h.holds.perm (pages_perm (tasks_wake p time))).quiet ?_
      exact Scene.Idles.quiet ⟨rfl, rfl, rfl, rfl⟩

/-- What a schedule preserves. -/
theorem Roomy.of_moves (h : Roomy s₀ bound p s)
    (hmoves : ReflTransGen (Move r source) (p, s) (p', s')) : Roomy s₀ bound p' s' := by
  generalize hlast : (p', s') = last at hmoves
  induction hmoves generalizing p' s' with
  | refl =>
    cases hlast
    exact h
  | @tail middle _ _ hmove ih =>
    subst hlast
    exact (ih rfl).of_move hmove

/-- A run begins with as many tasks under way as there is room for. -/
theorem roomy_ofUrls (urls : List String) (h : s₀.Holds bound [] s) :
    Roomy s₀ bound (ofUrls urls bound) s := by
  have hstart : ∀ t ∈ (ofUrls urls bound).tasks, t.stage = .start :=
    fun t ht => start_of_mem_ofUrls ht
  refine ⟨fun t ht => hstart t (List.mem_append_left _ (List.mem_append_left _ ht)), ?_, ?_⟩
  · exact List.length_take_le _ _
  · have hnone : (ofUrls urls bound).pages = [] := by
      rw [pages, List.filterMap_eq_nil_iff]
      intro t ht
      rw [hstart t ht]
      rfl
    rw [hnone]
    exact h

/-- When nothing is left to do, no page is held. -/
theorem Roomy.of_isDone (h : Roomy s₀ bound p s) (hdone : p.IsDone) : s₀.Holds bound [] s := by
  have hlength := length_pages_le h.unbegun
  rw [hdone.1, hdone.2] at hlength
  have hnone : p.pages = [] := List.eq_nil_of_length_eq_zero (Nat.le_zero.1 hlength)
  rw [← hnone]
  exact h.holds

end Pool

/-! ## The whole run -/

/-- Something that is done for a whole run holds no page in the end. -/
def Releases {ε α : Type} (bound : Nat) (x : ExceptT ε (StateM Scene) α) : Prop :=
  ∀ s₀ s : Scene, s₀.Holds bound [] s → s₀.Holds bound [] (x s).2

namespace Releases

variable {ε α β : Type} {bound : Nat} {x : ExceptT ε (StateM Scene) α}
  {f : α → ExceptT ε (StateM Scene) β}

theorem pure (a : α) : Releases bound (pure a : ExceptT ε (StateM Scene) α) :=
  fun _ _ h => h

theorem throw (e : ε) : Releases bound (throw e : ExceptT ε (StateM Scene) α) :=
  fun _ _ h => h

theorem bind (hx : Releases bound x) (hf : ∀ a, Releases bound (f a)) :
    Releases bound (x >>= f) := by
  intro s₀ s h
  have hx' := hx s₀ s h
  cases hrun : x s with
  | mk result s' =>
    rw [hrun] at hx'
    cases result with
    | error e =>
      rw [bind_of_error hrun]
      exact hx'
    | ok a =>
      rw [bind_of_ok hrun]
      exact hf a s₀ s' hx'

end Releases

namespace Run

variable {bound : Nat}

theorem forRun_of_ok {α : Type} {a : Act α} {s s' : Scene} {v : α} (h : a s = (.ok v, s')) :
    a.forRun s = (.ok v, s') := by
  show (match a s with | (result, t) => (Except.mapError RunError.browser result, t)) = _
  rw [h]
  rfl

theorem forRun_of_error {α : Type} {a : Act α} {s s' : Scene} {e : RenderError}
    (h : a s = (.error e, s')) : a.forRun s = (.error (.browser e), s') := by
  show (match a s with | (result, t) => (Except.mapError RunError.browser result, t)) = _
  rw [h]
  rfl

/-- The page that is opened for its style sheets is closed in the end, whatever fails, unless it could
not be opened. -/
theorem extractCss_cases (r : Run) (url : String) (s : Scene) :
    s.Quiet (r.extractCss url s).2 ∨
      ∃ s', (s.onSession (·.addPage)).Quiet s' ∧
        (r.extractCss url s).2 = (Page.close s.closedPages.length s').2 := by
  rcases Session.newPage_cases s with ⟨e, s₁, hnew, hquiet⟩ | hnew
  · rw [extractCss, bind_of_error (forRun_of_error hnew)]
    exact .inl hquiet
  · have hopen := s.isOpen_addPage
    generalize s.closedPages.length = page at hnew hopen
    refine .inr ⟨(r.stylesheetsOf page url (s.onSession (·.addPage))).2,
      (r.keeps_stylesheetsOf url _).rests.toQuiet, ?_⟩
    rw [extractCss, bind_of_ok (forRun_of_ok hnew)]
    cases hresult : r.stylesheetsOf page url (s.onSession (·.addPage)) with
    | mk result s₂ =>
      rw [bind_of_ok (lift_of_run hresult)]
      cases hclose : Page.close page s₂ with
      | mk ended s₃ =>
        cases result with
        | error e =>
          dsimp only
          rw [bind_of_ok (lift_of_run hclose)]
          rfl
        | ok css =>
          dsimp only
          cases ended with
          | error e => rw [bind_of_error (forRun_of_error hclose)]
          | ok _ =>
            rw [bind_of_ok (forRun_of_ok hclose)]
            rfl

/-- To obtain the source, nothing is done with pages except that the style sheets of one may be
extracted. -/
theorem sourceCss_snd (r : Run) (s : Scene) :
    (r.sourceCss s).2 = s ∨ (r.sourceCss s).2 = (r.extractCss (r.config.urls.headD "") s).2 := by
  have hget : (get : RunAct Scene) s = (.ok s, s) := rfl
  rw [sourceCss, bind_of_ok hget]
  cases (CssSource.ofOption r.config.css).read s.files with
  | error e => exact .inl rfl
  | ok css? =>
    cases css? with
    | some css => exact .inl rfl
    | none =>
      refine .inr ?_
      cases hextract : r.extractCss (r.config.urls.headD "") s with
      | mk result s' =>
        dsimp only
        cases result with
        | error e => rw [bind_of_error hextract]
        | ok css =>
          rw [bind_of_ok hextract]
          split <;> rfl

/-- The source is obtained without a page being left open. -/
theorem releases_sourceCss (r : Run) (hbound : 0 < bound) : Releases bound r.sourceCss := by
  intro s₀ s h
  rcases r.sourceCss_snd s with hsame | hextract
  · rw [hsame]
    exact h
  rw [hextract]
  rcases r.extractCss_cases (r.config.urls.headD "") s with hquiet | ⟨s', hquiet, hclose⟩
  · exact h.quiet hquiet
  · have hheld := (h.addPage hbound).quiet hquiet
    rw [hclose]
    exact hheld.close (Page.close_closes (hheld.isOpen List.mem_cons_self))

/-- The pages of a run are closed when all of them have been worked on. -/
theorem releases_evaluatePages (r : Run) (source : Stylesheet) :
    Releases r.config.concurrency
      (liftM (r.evaluatePages source) : RunAct (List PageResult)) := by
  intro s₀ s h
  obtain ⟨p, hmoves, hdone, -⟩ :=
    Pool.exists_moves_run r source (.ofUrls r.config.urls r.config.concurrency) s
  exact ((Pool.roomy_ofUrls r.config.urls h).of_moves hmoves).of_isDone hdone

theorem releases_output (r : Run) (hpositive : 0 < r.config.concurrency) :
    Releases r.config.concurrency r.output := by
  refine (r.releases_sourceCss hpositive).bind fun css => ?_
  split
  · exact .throw _
  · refine (r.releases_evaluatePages _).bind fun results => ?_
    split
    · exact .throw _
    · exact .pure _

/-- When the source has been obtained, a run ends with what becomes of its pages. -/
theorem output_run {r : Run} {s s₁ : Scene} {css : String} {source : Stylesheet}
    (hcss : r.sourceCss s = (.ok css, s₁)) (hsource : r.readSheet css = .ok source) :
    r.output s = (r.fold (r.evaluatePages source s₁).1, (r.evaluatePages source s₁).2) := by
  have hlift : (liftM (r.evaluatePages source) : RunAct (List PageResult)) s₁ =
      (.ok (r.evaluatePages source s₁).1, (r.evaluatePages source s₁).2) := rfl
  rw [output, bind_of_ok hcss]
  simp only [hsource]
  rw [bind_of_ok hlift]
  cases r.fold (r.evaluatePages source s₁).1 <;> rfl

/-- After the pages have been evaluated, a run does nothing to them. -/
theorem idles_run {r : Run} {s s₁ : Scene} {css : String} {source : Stylesheet}
    (hcss : r.sourceCss s = (.ok css, s₁)) (hsource : r.readSheet css = .ok source)
    (ownsSession : Bool) : (r.evaluatePages source s₁).2.Idles (r.run ownsSession s).2 := by
  have houtput := congrArg Prod.snd (output_run hcss hsource)
  cases ownsSession with
  | false => exact houtput ▸ .refl _
  | true => exact houtput ▸ Session.close_idles _

/-- A run holds no page in the end. -/
theorem run_holds {r : Run} (hpositive : 0 < r.config.concurrency) (ownsSession : Bool)
    (s : Scene) : s.Holds r.config.concurrency [] (r.run ownsSession s).2 := by
  have houtput := r.releases_output hpositive s s (.refl s _)
  cases ownsSession with
  | false => exact houtput
  | true => exact houtput.quiet (Session.close_idles _).quiet

end Run

namespace Scene

/-- When no page is held any more, all the new ones are closed and the others are as they were. -/
theorem Holds.closedPages_eq {s₀ s : Scene} {bound : Nat} (h : s₀.Holds bound [] s) :
    s.closedPages = s₀.closedPages ++
      List.replicate (s.closedPages.length - s₀.closedPages.length) true := by
  refine List.ext_getElem? fun id => ?_
  by_cases hold : id < s₀.closedPages.length
  · rw [List.getElem?_append_left hold, h.old id hold]
  · rw [List.getElem?_append_right (Nat.le_of_not_lt hold)]
    by_cases hnew : id < s.closedPages.length
    · rw [h.new id (Nat.le_of_not_lt hold) hnew, List.getElem?_replicate_of_lt (by omega)]
      rfl
    · rw [List.getElem?_eq_none (Nat.le_of_not_lt hnew), List.getElem?_eq_none]
      rw [List.length_replicate]
      omega

/-- What is left when work goes on after a scene in which no page was open: at no moment were more pages
open than a bound allows.  The most that were open at once and the openings and closings in the log tell
so. -/
structure Bounds (s : Scene) (bound : Nat) (s' : Scene) : Prop where
  openPages : s'.session.openPages ≤ bound
  peakPages : s'.session.peakPages ≤ max s.session.peakPages bound
  log : ∃ events, s'.session.log = s.session.log ++ events ∧
    ∀ seen, seen <+: events →
      seen.countP (·.2 = .opened) ≤ seen.countP (·.2 = .closed) + bound

/-- What is left when work has ended after a scene in which no page was open: none is open again, each
page that was opened has been closed exactly once, the pages that were there before are as they were, and
at no moment were more pages open than a bound allows. -/
structure Released (s : Scene) (bound : Nat) (s' : Scene) : Prop where
  openPages : s'.session.openPages = 0
  peakPages : s'.session.peakPages ≤ max s.session.peakPages bound
  pages : s'.session.pages.map (·.closed) = s.session.pages.map (·.closed) ++
    List.replicate (s'.session.pagesOpened - s.session.pagesOpened) true
  log : ∃ events, s'.session.log = s.session.log ++ events ∧
    (∀ seen, seen <+: events →
      seen.countP (·.2 = .opened) ≤ seen.countP (·.2 = .closed) + bound) ∧
    ∀ id,
      events.count (id, .opened) =
          (if s.session.pagesOpened ≤ id ∧ id < s'.session.pagesOpened then 1 else 0) ∧
        events.count (id, .closed) = events.count (id, .opened)

variable {s s' : Scene} {bound : Nat} {held : List Nat}

theorem Holds.log_eq (h : s.Holds bound held s') :
    s'.session.log = s.session.log ++ s.since s' :=
  (List.prefix_iff_eq_append.1 h.log).symm

/-- The pages that are held are few enough. -/
theorem Holds.bounds (h : s.Holds bound held s') (hidle : s.session.openPages = 0) :
    s.Bounds bound s' := by
  have hopen := h.openPages
  have hpeak := h.peakPages
  have hheld := h.accounts.length_le
  rw [hidle, Nat.zero_add] at hopen hpeak
  exact ⟨hopen ▸ hheld, hpeak, s.since s', h.log_eq, h.accounts.bounded⟩

/-- When no page is held any more, all have been released. -/
theorem Holds.released (h : s.Holds bound [] s') (hidle : s.session.openPages = 0) :
    s.Released bound s' := by
  have haccounts := h.accounts
  have hclosed := h.closedPages_eq
  rw [length_closedPages, length_closedPages] at haccounts hclosed
  refine ⟨h.openPages.trans hidle, (h.bounds hidle).peakPages, hclosed, s.since s', h.log_eq,
    haccounts.bounded, fun id => ⟨haccounts.opened id, ?_⟩⟩
  rw [haccounts.opened, haccounts.closed]
  exact if_congr (and_iff_left List.not_mem_nil) rfl rfl

end Scene

namespace Run

/-- At every moment of a run at most as many pages are open as the configuration allows, and in the
end none is: whatever the source of the style sheet is and whatever fails, each page that was opened
is closed exactly once.  This does not depend on the order in which the pages are worked on: it is so on
every schedule that begins once the source has been obtained, and in its end, whether or not the session
is then closed. -/
theorem run_releases {r : Run} (hvalid : r.config.validate = .ok ()) {s : Scene}
    (hidle : s.session.openPages = 0) :
    (∀ ownsSession, s.Released r.config.concurrency (r.run ownsSession s).2) ∧
      ∀ (source : Stylesheet) (p : Pool) (s' : Scene),
        ReflTransGen (Pool.Move r source)
            (.ofUrls r.config.urls r.config.concurrency, (r.sourceCss s).2) (p, s') →
          s.Bounds r.config.concurrency s' ∧
            (p.IsDone → s.Released r.config.concurrency s' ∧
              s.Released r.config.concurrency (Session.close s').2) := by
  have hpositive := concurrency_pos_of_validate hvalid
  refine ⟨fun ownsSession => (run_holds hpositive ownsSession s).released hidle, ?_⟩
  intro source p s' hmoves
  have hsource := r.releases_sourceCss hpositive s s (.refl s _)
  have hroomy := (Pool.roomy_ofUrls r.config.urls hsource).of_moves hmoves
  refine ⟨hroomy.holds.bounds hidle, fun hdone => ?_⟩
  have hholds := hroomy.of_isDone hdone
  exact ⟨hholds.released hidle, (hholds.quiet (Session.close_idles s').quiet).released hidle⟩

/-- The scene in which one page is late, one fails and one cannot be closed, when moreover the first
attempt to open a page fails. -/
def troubledOpening : Scene :=
  troubled.onSession (·.failOpens 1)

/-- The run with the three pages, when the style sheet is given. -/
def givenSheetRun : Run :=
  { threeUrlsRun with config := { threeUrls with css := some "nav{color:red}" } }

/-- All three pages are opened in spite of the attempt that fails, no more than two at once, and each of
them is closed once. -/
theorem run_releases_givenSheetRun :
    givenSheetRun.config.validate = .ok () ∧ troubledOpening.session.openPages = 0 ∧
      (givenSheetRun.run true troubledOpening).2.session.pagesOpened = 3 ∧
      (givenSheetRun.run true troubledOpening).2.session.openPages = 0 ∧
      (givenSheetRun.run true troubledOpening).2.session.peakPages ≤ 2 ∧
      (givenSheetRun.run true troubledOpening).2.session.pages.map (·.closed) =
        [true, true, true] ∧
      ∀ id < 3,
        (givenSheetRun.run true troubledOpening).2.session.log.count (id, .opened) = 1 ∧
          (givenSheetRun.run true troubledOpening).2.session.log.count (id, .closed) = 1 := by
  have hvalid : givenSheetRun.config.validate = .ok () := by decide +kernel
  have hidle : troubledOpening.session.openPages = 0 := rfl
  have hreleased := (run_releases hvalid hidle).1 true
  have hcss : givenSheetRun.sourceCss troubledOpening =
      (.ok "nav{color:red}", troubledOpening) := rfl
  have hsource : givenSheetRun.readSheet "nav{color:red}" =
      .ok [.item (.style ["nav"] [⟨"color", "red"⟩]) (some ⟨1, 1⟩)] := by decide +kernel
  have hadvance := Pool.run_eq_of_advance givenSheetRun
    [.item (.style ["nav"] [⟨"color", "red"⟩]) (some ⟨1, 1⟩)]
    (.ofUrls givenSheetRun.config.urls 2, troubledOpening) 25
    ⟨List.isEmpty_iff.1 (by decide +kernel), List.isEmpty_iff.1 (by decide +kernel)⟩
  have hpages : (givenSheetRun.run true troubledOpening).2.session.pagesOpened = 3 :=
    calc (givenSheetRun.run true troubledOpening).2.session.pagesOpened
      _ = (givenSheetRun.evaluatePages [.item (.style ["nav"] [⟨"color", "red"⟩]) (some ⟨1, 1⟩)]
            troubledOpening).2.session.pagesOpened :=
          congrArg List.length (idles_run hcss hsource true).pages
      _ = ((Pool.advance givenSheetRun [.item (.style ["nav"] [⟨"color", "red"⟩]) (some ⟨1, 1⟩)])^[25]
            (.ofUrls givenSheetRun.config.urls 2, troubledOpening)).2.session.pagesOpened :=
          congrArg (fun x => x.2.session.pagesOpened) hadvance
      _ = 3 := by decide +kernel
  obtain ⟨events, hlog, -, hevents⟩ := hreleased.log
  have hclosed := hreleased.pages
  rw [hpages] at hevents hclosed
  refine ⟨hvalid, hidle, hpages, hreleased.openPages, hreleased.peakPages, hclosed, ?_⟩
  intro id hid
  obtain ⟨hopenings, hclosings⟩ := hevents id
  have hnew : troubledOpening.session.log ++ events = events := List.nil_append _
  rw [hlog, hnew, hclosings, hopenings, if_pos ⟨Nat.zero_le _, hid⟩]
  exact ⟨rfl, rfl⟩

end Run

end CriticalCss
