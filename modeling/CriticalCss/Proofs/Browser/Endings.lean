import CriticalCss.Proofs.Browser.Actions

/-!
# How an action on a page ends

Whatever is done with a page, apart from closing it or giving it up, ends in one of two ways.  Either it
fails, and nothing but time has passed; or the page was open and is so still, and it has been edited and
has written what was done.

* `Scene.Ends` are the two ways.  `Ends.exists_pass` and `Ends.exists_error` read off them what a failure
  leaves behind and what comes of a page that is not open.
* `Handles` says that an action ends so in every scene.  There is one lemma `handles` for each action, and
  what an action does to the books of the session, to its prospects and to the log is derived from it.
-/

namespace CriticalCss

namespace Scene

/-- The two ways in which an action on a page can end that takes at most some milliseconds.  For a page
that is not open nothing is awaited. -/
inductive Ends {α : Type} (s : Scene) (id patience : Nat) : Except RenderError α × Scene → Prop where
  | fails {e : RenderError} {milliseconds : Nat} (hle : milliseconds ≤ patience)
    (hwait : ¬s.IsOpen id → milliseconds = 0) : Ends s id patience (.error e, s.pass milliseconds)
  | edits {a : α} {s' : Scene} {p p' : Page} {events : List PageEvent} (page : s.page? id = some p)
    (session : s'.session = (s.edit id p' events).session) (isOpen : p.closed = false)
    (stays : p'.closed = false) (works : ∀ e ∈ events, e ≠ .opened ∧ e ≠ .closed) :
    Ends s id patience (.ok a, s')

namespace Ends

variable {α β : Type} {s s' : Scene} {id patience milliseconds : Nat}
  {x : Except RenderError α × Scene} {p : Page}

/-- An action that fails at once. -/
theorem fails_now (s : Scene) (id patience : Nat) (e : RenderError) :
    s.Ends id patience ((.error e, s) : Except RenderError α × Scene) := by
  have hfails : s.Ends id patience ((.error e, s.pass 0) : Except RenderError α × Scene) :=
    .fails (Nat.zero_le _) fun _ => rfl
  exact hfails

/-- An action that only looks at an open page. -/
theorem looks (page : s.page? id = some p) (isOpen : p.closed = false) {a : α}
    (run : x = (.ok a, s)) : s.Ends id patience x := by
  rw [run]
  exact .edits page (congrArg _ (edit_self page).symm) isOpen isOpen (List.forall_mem_nil _)

/-- An action that is done with an open page after some time. -/
theorem of_pass (h : (s.pass milliseconds).Ends id 0 x) (hle : milliseconds ≤ patience)
    (hopen : s.IsOpen id) : s.Ends id patience x := by
  cases h with
  | fails hnone _ =>
    obtain rfl := Nat.le_zero.1 hnone
    exact .fails hle fun hclosed => absurd hopen hclosed
  | edits page session isOpen stays works => exact .edits page session isOpen stays works

/-- A failure leaves nothing behind but time that has passed. -/
theorem exists_pass (h : s.Ends id patience x) {e : RenderError} (he : x.1 = .error e) :
    ∃ milliseconds ≤ patience, x.2 = s.pass milliseconds := by
  cases h with
  | fails hle _ => exact ⟨_, hle, rfl⟩
  | edits => cases he

/-- On a page that is not open an action fails at once. -/
theorem exists_error (h : s.Ends id patience x) (hclosed : ¬s.IsOpen id) :
    ∃ e, x = (.error e, s) := by
  cases h with
  | @fails e milliseconds _ hwait =>
    obtain rfl := hwait hclosed
    exact ⟨e, rfl⟩
  | edits page _ isOpen => exact absurd (isOpen_of_page page isOpen) hclosed

/-- What an action ends with can be turned into something else. -/
theorem map (h : s.Ends id patience x) (f : α → β) : s.Ends id patience (x.1.map f, x.2) := by
  cases h with
  | fails hle hwait => exact .fails hle hwait
  | edits page session isOpen stays works => exact .edits page session isOpen stays works

end Ends

end Scene

/-- In every scene an action on a page ends in one of the two ways. -/
def Handles {α : Type} (id patience : Nat) (x : Act α) : Prop :=
  ∀ s : Scene, s.Ends id patience (x s)

section Rules

variable {α : Type} {id patience : Nat}

/-- An action for which a page must be open. -/
theorem Handles.of_open {x : Act α}
    (hnone : ∀ s : Scene, ¬s.IsOpen id → ∃ e, x s = (.error e, s))
    (hpage : ∀ (s : Scene) (p : Page), s.page? id = some p → p.closed = false →
      s.Ends id patience (x s)) : Handles id patience x := by
  intro s
  by_cases hopen : s.IsOpen id
  · obtain ⟨p, hp, hclosed⟩ := Scene.isOpen_iff.1 hopen
    exact hpage s p hp hclosed
  · obtain ⟨e, hrun⟩ := hnone s hopen
    rw [hrun]
    exact .fails_now s id patience e

/-- An action that begins with the document of an open page. -/
theorem Handles.shown_bind {f : Page × Loaded → Act α}
    (hpage : ∀ (s : Scene) (p : Page) (l : Loaded), s.page? id = some p → p.closed = false →
      p.current = some l → s.Ends id patience ((Act.shown id >>= f) s)) :
    Handles id patience (Act.shown id >>= f) := by
  refine .of_open (fun s hclosed => ⟨_, bind_of_error (Act.shown_of_not_isOpen hclosed)⟩) ?_
  intro s p hp hopen
  cases hcurrent : p.current with
  | none =>
    rw [bind_of_error (Act.shown_of_none hp hopen hcurrent)]
    exact .fails_now s id patience _
  | some l => exact hpage s p l hp hopen hcurrent

/-- Replacing a page and noting it in the log. -/
theorem Act.handles_change {f : Page → Page} (hf : ∀ p, (f p).closed = p.closed) {e : PageEvent}
    (he : e ≠ .opened ∧ e ≠ .closed) :
    Handles id patience (do let p ← Act.openPage id; Act.setPage id (f p); Act.record id e) := by
  refine .of_open (fun s hclosed => ⟨_, Act.openPage_bind_of_not_isOpen hclosed _⟩) ?_
  intro s p hpage hopen
  rw [Act.change_run hpage hopen]
  refine .edits hpage rfl hopen ((hf p).trans hopen) ?_
  intro e' he'
  rw [List.mem_singleton.1 he']
  exact he

end Rules

/-! ## The actions -/

variable {id : Nat}

namespace Page

theorem handles_enableCache (on : Bool) : Handles id 0 (enableCache id on) :=
  Act.handles_change (f := fun p => { p with cacheEnabled := on }) (fun _ => rfl) (by simp)

theorem handles_enableJavascript (on : Bool) : Handles id 0 (enableJavascript id on) :=
  Act.handles_change (f := fun p => { p with javascriptEnabled := on }) (fun _ => rfl) (by simp)

theorem handles_filter (blocklist : Blocklist) : Handles id 0 (filter id blocklist) :=
  Act.handles_change (f := fun p => { p with blocklist }) (fun _ => rfl) (by simp)

theorem handles_emulate (device : Device) (userAgent : String) :
    Handles id 0 (emulate id device userAgent) :=
  Act.handles_change (f := fun p => { p with device }) (fun _ => rfl) (by simp)

/-- A page that shows a document from now on, once its requests and one event more are noted. -/
theorem ends_load {s : Scene} {p : Page} (hpage : s.page? id = some p) (hopen : p.closed = false)
    (l : Loaded) (snapshot : Snapshot) {last : PageEvent} (hlast : last ≠ .opened ∧ last ≠ .closed) :
    s.Ends id 0 ((.ok (), s.edit id { p with current := some l }
      (p.requestEvents snapshot ++ [last])) : Except RenderError Unit × Scene) := by
  refine .edits hpage rfl hopen hopen fun e he => ?_
  rcases List.mem_append.1 he with he | he
  · obtain ⟨request, -, rfl⟩ := List.mem_map.1 he
    exact ⟨nofun, nofun⟩
  · rw [List.mem_singleton.1 he]
    exact hlast

theorem load_of_not_isOpen {s : Scene} (h : ¬s.IsOpen id) (url : String) (snapshot : Snapshot) :
    load id url snapshot s = (.error .pageClosed, s) :=
  Act.openPage_bind_of_not_isOpen h _

theorem handles_respond (url : String) (timeout : Nat) : Handles id 0 (respond id url timeout) := by
  refine .of_open (fun s hclosed => ⟨_, Act.openPage_bind_of_not_isOpen hclosed _⟩) ?_
  intro s p hpage hopen
  rw [respond_run hpage hopen]
  cases s.world.answer url timeout with
  | error e => exact .fails_now s id 0 e
  | ok r => exact .looks hpage hopen rfl

theorem handles_arrive (r : Response) : Handles id 0 (arrive id r) := by
  cases harrives : r.arrives with
  | false =>
    intro s
    rw [arrive_run_of_late harrives]
    exact .fails_now s id 0 _
  | true =>
    refine .of_open (fun s hclosed => ?_) fun s p hpage hopen => ?_
    · rw [arrive, harrives]
      exact ⟨_, bind_of_error (load_of_not_isOpen hclosed r.url r.snapshot)⟩
    · rw [arrive_run hpage hopen harrives]
      exact ends_load hpage hopen _ _ (by simp)

/-- Going to an address fails before the wait or after it, or the answer is shown. -/
theorem handles_goto (url : String) (timeout : Nat) : Handles id timeout (goto id url timeout) := by
  refine .of_open (fun s hclosed => ?_) fun s p hpage hopen => ?_
  · exact ⟨_, bind_of_error (Act.openPage_bind_of_not_isOpen hclosed _)⟩
  have hrespond := respond_run hpage hopen url timeout
  cases hanswer : s.world.answer url timeout with
  | error e =>
    rw [hanswer] at hrespond
    rw [goto, bind_of_error hrespond]
    exact .fails_now s id timeout e
  | ok r =>
    have hwait : Act.wait r.wait s = (.ok (), s.pass r.wait) := rfl
    rw [hanswer] at hrespond
    rw [goto, bind_of_ok hrespond, bind_of_ok hwait]
    exact (handles_arrive r (s.pass r.wait)).of_pass (World.wait_le_of_answer hanswer)
      (Scene.isOpen_of_page hpage hopen)

theorem handles_setContent (content : String) : Handles id 0 (setContent id content) := by
  cases hcontent : Snapshot.ofText? content with
  | none =>
    intro s
    rw [setContent_run_of_none hcontent]
    exact .fails_now s id 0 _
  | some snapshot =>
    refine .of_open (fun s hclosed => ?_) fun s p hpage hopen => ?_
    · simp only [setContent, hcontent]
      exact ⟨_, bind_of_error (load_of_not_isOpen hclosed contentUrl snapshot)⟩
    · rw [setContent_run hpage hopen hcontent]
      exact ends_load hpage hopen _ _ (by simp)

theorem handles_isLoading : Handles id 0 (isLoading id) :=
  .shown_bind fun _ _ _ hpage hopen hcurrent =>
    .looks hpage hopen (isLoading_run hpage hopen hcurrent)

theorem handles_document : Handles id 0 (document id) :=
  .shown_bind fun _ _ _ hpage hopen hcurrent =>
    .looks hpage hopen (document_run hpage hopen hcurrent)

theorem handles_stylesheetText : Handles id 0 (stylesheetText id) :=
  .shown_bind fun _ _ _ hpage hopen hcurrent =>
    .looks hpage hopen (stylesheetText_run hpage hopen hcurrent)

theorem handles_stop : Handles id 0 (stop id) := by
  refine .of_open (fun s hclosed => ⟨_, Act.openPage_bind_of_not_isOpen hclosed _⟩) ?_
  intro s p hpage hopen
  rw [stop_run hpage hopen]
  exact .edits hpage rfl hopen hopen (by simp)

theorem handles_screenshot (path : String) : Handles id 0 (screenshot id path) := by
  refine .shown_bind fun s p l hpage hopen hcurrent => ?_
  show s.Ends id 0 (screenshot id path s)
  rcases screenshot_cases hpage hopen hcurrent path with ⟨e, hrun⟩ | ⟨files, hrun⟩
  · rw [hrun]
    exact .fails_now s id 0 e
  · rw [hrun]
    exact .edits hpage rfl hopen hopen (by simp)

end Page

/-- A look finds the page loaded or lets it load, or it stops the page. -/
theorem Probe.handles_look (probe : Probe) (frame : Nat) : Handles id 0 (probe.look id frame) := by
  refine .of_open (fun s hclosed => ?_) fun s p hpage hopen => ?_
  · exact ⟨_, bind_of_error (bind_of_error (Act.shown_of_not_isOpen hclosed))⟩
  cases hcurrent : p.current with
  | none =>
    have hnone : Page.isLoading id s = (.error .noDocument, s) :=
      bind_of_error (Act.shown_of_none hpage hopen hcurrent)
    rw [look, bind_of_error hnone]
    exact .fails_now s id 0 _
  | some l =>
    cases hloading : l.isLoading s.now with
    | false =>
      exact .looks hpage hopen (probe.look_run_of_loaded hpage hopen hcurrent hloading frame)
    | true =>
      by_cases hlate : probe.loadTimeout ≤ frame * frameTime
      · rw [look_run_of_late hpage hopen hcurrent hloading hlate]
        exact .edits hpage rfl hopen hopen (by simp)
      · exact .looks hpage hopen
          (look_run_of_early hpage hopen hcurrent hloading (Nat.lt_of_not_le hlate))

end CriticalCss
