import CriticalCss.Proofs.Browser.Events
import CriticalCss.Proofs.Run.Release
import CriticalCss.Run.Progress

/-!
# An error tells how far the work on its page had come

`Run.stepNoted` notes every state at the moment at which the page comes to it.  It does what
`Run.step` does, and the notes can be told afterwards: from the stage that a page waits for, or from
the outcome.  An error tells the last state before the failure.

* `Tracks` says this of the work on an open page.  `Tracks.bind_during` and `Tracks.advance` are the
  two ways in which work goes on.
* `stepNoted_run` says it of a stage.
-/

namespace CriticalCss

/-! ## Notes -/

namespace TaskState

/-- The states of a page in their order, as long as nothing fails. -/
def order : List TaskState :=
  [.pending, .pageAcquired, .pageConfigured, .navigated, .probed]

/-- The notes for a page that has come to a state. -/
def path (state : TaskState) : List TaskState :=
  order.takeWhile (· ≠ state) ++ [state]

/-- Whether a page that is being worked on may be in a state. -/
def isUnderway : TaskState → Bool
  | .pageAcquired | .pageConfigured | .navigated => true
  | _ => false

end TaskState

/-- The state of a page that waits for a stage. -/
def Stage.reached : Stage → TaskState
  | .start => .pending
  | .fetching .. | .reading .. => .pageConfigured
  | .resting _ | .picturing _ | .watching .. => .navigated

/-- The notes for a page that ends with an error: those up to the state that the error tells, and
the failure if the page was being worked on. -/
def PageError.trail (e : PageError) : List TaskState :=
  if e.state.isUnderway then e.state.path ++ [.failed] else e.state.path

/-- The last state before a failure is the one that the error tells. -/
theorem PageError.getLast_trail (e : PageError) :
    (e.trail.filter (· ≠ .failed)).getLast? = some e.state := by
  obtain ⟨url, phase, cause⟩ := e
  cases phase <;> rfl

/-- The notes for a page after a stage. -/
def Next.trail : Next (Except PageError Split) → List TaskState
  | .wait _ stage => stage.reached.path
  | .done (.ok _) => TaskState.closed.path
  | .done (.error e) => e.trail

namespace Run

/-! ## Sequences of noted work -/

section Sequences

variable {α β : Type} {x : NotedWork α} {f : α → NotedWork β} {states states' : List TaskState}
  {s s' : Scene}

theorem noted_bind_of_ok {a : α} (h : x states s = ((.ok a, states'), s')) :
    (x >>= f) states s = f a states' s' := by
  show (match x states s with
    | ((result, notes), t) => ExceptT.bindCont f result notes t) = f a states' s'
  rw [h]
  rfl

theorem noted_bind_of_error {e : PageError} (h : x states s = ((.error e, states'), s')) :
    (x >>= f) states s = ((.error e, states'), s') := by
  show (match x states s with
    | ((result, notes), t) => ExceptT.bindCont f result notes t) = ((.error e, states'), s')
  rw [h]
  rfl

theorem noted_bind_of_run {y : Noted α} {g : α → Noted β} {a : α}
    (h : y states s = ((a, states'), s')) : (y >>= g) states s = g a states' s' := by
  show (match y states s with | ((a, notes), t) => g a notes t) = g a states' s'
  rw [h]

/-- What is done without notes adds none. -/
theorem lift_noted_run {y : StateM Scene α} {a : α} (h : y s = (a, s')) :
    (liftM y : Noted α) states s = ((a, states), s') := by
  show (match y s with | (a, t) => ((a, states), t)) = _
  rw [h]

/-- Work during which the page stays in its state adds no note. -/
theorem still_run {w : Work α} {result : Except PageError α} (h : w s = (result, s')) :
    w.still states s = ((result, states), s') := by
  show (match w s with | (result, t) => ((result, states), t)) = _
  rw [h]

end Sequences

/-! ## Work -/

/-- The state to which work has brought a page. -/
def reached : Except PageError (Next Split) → TaskState
  | .error e => e.state
  | .ok (.wait _ stage) => stage.reached
  | .ok (.done _) => .probed

/-- Work with notes on a page in a state does what the work does, and its notes go up to the state
to which it brings the page. -/
structure Tracks (state : TaskState) (x : NotedWork (Next Split)) (w : Work (Next Split)) : Prop where
  run : ∀ s, x state.path s = (((w s).1, (reached (w s).1).path), (w s).2)
  underway : ∀ s e, (w s).1 = .error e → e.state.isUnderway = true

namespace Tracks

variable {state next : TaskState} {x : NotedWork (Next Split)} {w : Work (Next Split)} {url : String}

/-- A wait for a stage in which the page is in the same state. -/
theorem wait (ms : Nat) {stage : Stage} (h : stage.reached = state) :
    Tracks state (pure (.wait ms stage)) (pure (.wait ms stage)) where
  run s := by
    rw [← h]
    rfl
  underway s e he := nomatch he

/-- The page comes to the next state. -/
theorem advance (hpath : next.path = state.path ++ [next]) (h : Tracks next x w) :
    Tracks state (do advance next; x) w where
  run s := by
    have hnote : (liftM (CriticalCss.advance next) : NotedWork Unit) state.path s =
        ((.ok (), next.path), s) := by
      rw [hpath]
      rfl
    rw [noted_bind_of_ok hnote]
    exact h.run s
  underway := h.underway

/-- Something is done during a phase in which the page is in its state. -/
theorem bind_during {α : Type} {a : Act α} {phase : Phase} {f : α → NotedWork (Next Split)}
    {g : α → Work (Next Split)} (hphase : phase.reached = state) (hstate : state.isUnderway = true)
    (h : ∀ v, Tracks state (f v) (g v)) :
    Tracks state ((a.during url phase).still >>= f) (a.during url phase >>= g) := by
  constructor
  · intro s
    rcases during_cases a url phase s with ⟨e, s', hrun⟩ | ⟨v, s', hrun⟩
    · rw [noted_bind_of_error (still_run hrun), bind_of_error hrun, ← hphase]
      rfl
    · rw [noted_bind_of_ok (still_run hrun), bind_of_ok hrun]
      exact (h v).run s'
  · intro s e he
    rcases during_cases a url phase s with ⟨cause, s', hrun⟩ | ⟨v, s', hrun⟩
    · rw [bind_of_error hrun] at he
      cases he
      rw [← hphase] at hstate
      exact hstate
    · rw [bind_of_ok hrun] at he
      exact (h v).underway s' e he

end Tracks

variable (r : Run) (source : Stylesheet) (url : String) (page : Nat)

/-- A look at a page fails while it is probed, leads to another look or comes to a split. -/
theorem look_cases (frame : Nat) (s : Scene) :
    (∃ e s', r.look source url page frame s = (.error ⟨url, .probe, e⟩, s')) ∨
      (∃ s', r.look source url page frame s =
        (.ok (.wait Probe.frameTime (.watching page (frame + 1))), s')) ∨
      ∃ split s', r.look source url page frame s = (.ok (.done split), s') := by
  rw [look]
  rcases during_cases (r.probe.look page frame) url .probe s with ⟨e, s', hlook⟩ | ⟨again, s', hlook⟩
  · exact .inl ⟨e, s', bind_of_error hlook⟩
  rw [bind_of_ok hlook]
  split
  · exact .inr (.inl ⟨s', rfl⟩)
  rcases during_cases (Page.document page) url .probe s' with ⟨e, t, hdocument⟩ | ⟨d, t, hdocument⟩
  · exact .inl ⟨e, t, bind_of_error hdocument⟩
  · exact .inr (.inr ⟨_, t, bind_of_ok hdocument⟩)

theorem tracks_look (frame : Nat) :
    Tracks .navigated (r.lookNoted source url page frame) (r.look source url page frame) := by
  have hcases := r.look_cases source url page frame
  constructor
  · intro s
    rcases hcases s with ⟨e, s', hrun⟩ | ⟨s', hrun⟩ | ⟨split, s', hrun⟩
    · rw [lookNoted, noted_bind_of_error (still_run hrun), hrun]
      rfl
    · rw [lookNoted, noted_bind_of_ok (still_run hrun), hrun]
      rfl
    · rw [lookNoted, noted_bind_of_ok (still_run hrun), hrun]
      rfl
  · intro s e he
    rcases hcases s with ⟨cause, s', hrun⟩ | ⟨s', hrun⟩ | ⟨split, s', hrun⟩
    · rw [hrun] at he
      cases he
      rfl
    · rw [hrun] at he
      cases he
    · rw [hrun] at he
      cases he

theorem tracks_picture :
    Tracks .navigated (r.pictureNoted source url page) (r.picture source url page) :=
  .bind_during rfl rfl fun _ => r.tracks_look source url page 0

theorem tracks_settle :
    Tracks .navigated (r.settleNoted source url page) (r.settle source url page) := by
  rw [settleNoted, settle]
  split
  · split
    · exact .wait 0 rfl
    · exact r.tracks_picture source url page
  · exact r.tracks_look source url page 0

theorem tracks_rest :
    Tracks .navigated (r.restNoted source url page) (r.rest source url page) := by
  rw [restNoted, rest]
  split
  · exact r.tracks_settle source url page
  · exact .wait _ rfl

theorem tracks_arrive (response : Response) :
    Tracks .pageConfigured (r.arriveNoted source url page response)
      (r.arrive source url page response) :=
  .bind_during rfl rfl fun _ => .advance rfl (r.tracks_rest source url page)

theorem tracks_readFile (path : String) :
    Tracks .pageConfigured (r.readFileNoted source url page path)
      (r.readFile source url page path) :=
  .bind_during rfl rfl fun _ => .advance rfl (r.tracks_rest source url page)

theorem tracks_navigate :
    Tracks .pageAcquired (r.navigateNoted source url page) (r.navigate source url page) := by
  refine .bind_during rfl rfl fun _ => .advance rfl ?_
  cases r.target url with
  | file path => exact .wait 0 rfl
  | remote address =>
    refine .bind_during rfl rfl fun response => ?_
    split
    · exact r.tracks_arrive source url page response
    · exact .wait _ rfl

/-! ## Stages -/

variable {source url page}

/-- Closing a page after its work adds what the outcome says to the notes of the work. -/
theorem closingNoted_run {state : TaskState} {x : NotedWork (Next Split)} {w : Work (Next Split)}
    (h : Tracks state x w) (s : Scene) :
    closingNoted url page x state.path s =
      (((closing url page w s).1, (closing url page w s).1.trail), (closing url page w s).2) := by
  have hnoted := h.run s
  have hunderway := h.underway s
  cases hwork : w s with
  | mk result s' =>
    rw [hwork] at hnoted hunderway
    have hrun : w.run s = (result, s') := hwork
    have hrunNoted : x.run state.path s = ((result, (reached result).path), s') := hnoted
    rw [closingNoted, noted_bind_of_run hrunNoted, closing, StateT.bind_of_run hrun]
    cases result with
    | error e =>
      have hfailed : advance .failed e.state.path s' = (((), e.trail), s') := by
        rw [PageError.trail, if_pos (hunderway e rfl)]
        rfl
      cases hclose : Page.close page s' with
      | mk ended t =>
        have hended : (Page.close page).run s' = (ended, t) := hclose
        dsimp only
        rw [StateT.bind_of_run hended]
        refine (noted_bind_of_run hfailed).trans ?_
        exact noted_bind_of_run (lift_noted_run hended)
    | ok next =>
      cases next with
      | wait ms stage => rfl
      | done split =>
        dsimp only
        rcases during_cases (Page.close page) url .close s' with ⟨e, t, hclose⟩ | ⟨v, t, hclose⟩
        · have hended : ((Page.close page).during url .close).run s' = (.error ⟨url, .close, e⟩, t) :=
            hclose
          rw [StateT.bind_of_run hended]
          exact noted_bind_of_run (lift_noted_run hended)
        · have hended : ((Page.close page).during url .close).run s' = (.ok v, t) := hclose
          rw [StateT.bind_of_run hended]
          refine (noted_bind_of_run (lift_noted_run hended)).trans ?_
          rfl

/-- A stage with notes does what the stage does, and when the notes went up to the state in which
the page waited, they are those for what the stage leads to. -/
theorem stepNoted_run (stage : Stage) (s : Scene) :
    r.stepNoted source url stage stage.reached.path s =
      (((r.step source url stage s).1, (r.step source url stage s).1.trail),
        (r.step source url stage s).2) := by
  cases stage with
  | start =>
    rw [stepNoted, step]
    rcases acquire_cases url 0 acquireRetries s with ⟨attempts, e, s', hacquire, -⟩ | ⟨s', hacquire, -⟩
    · have hrun : (acquire url 0 acquireRetries).run s = (.error ⟨url, .acquisition attempts, e⟩, s') :=
        hacquire
      rw [noted_bind_of_run (lift_noted_run hrun), StateT.bind_of_run hrun]
      rfl
    · have hrun : (acquire url 0 acquireRetries).run s = _ := hacquire
      have hacquired : advance .pageAcquired TaskState.pending.path (s'.onSession (·.addPage)) =
          (((), TaskState.pageAcquired.path), s'.onSession (·.addPage)) := rfl
      rw [noted_bind_of_run (lift_noted_run hrun), StateT.bind_of_run hrun]
      refine (noted_bind_of_run hacquired).trans ?_
      exact closingNoted_run (r.tracks_navigate source url _) _
  | fetching page response => exact closingNoted_run (r.tracks_arrive source url page response) s
  | reading page path => exact closingNoted_run (r.tracks_readFile source url page path) s
  | resting page => exact closingNoted_run (r.tracks_settle source url page) s
  | picturing page => exact closingNoted_run (r.tracks_picture source url page) s
  | watching page frame => exact closingNoted_run (r.tracks_look source url page frame) s

end Run

end CriticalCss
