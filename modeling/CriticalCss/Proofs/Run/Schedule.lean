import CriticalCss.Proofs.Run.Outcome
import Mathlib.Data.List.Nodup
import Mathlib.Logic.Function.Iterate
import Mathlib.Logic.Relation

/-!
# The pages of a run do not disturb each other

`Pool.run` works on the page that has been ready longest.  Here every order is allowed: `Pool.Move`
takes any page that is ready, and lets time pass when none is.

* The tasks under way.  `OnCourse` says that every task leads to the outcome that its page has
  alone, and that no two tasks share a page.  `OnCourse.of_step` is what one stage preserves.
* The pool.  `Pool.Fair` adds where every page of the run stands.  `Fair.of_move` is what one move
  preserves, and `Fair.of_moves` what a whole schedule preserves.
* The results.  `Fair.inOrder_eq` reads them off a pool in which nothing is left to do, and
  `evaluatePages_eq_map` puts everything together.
-/

namespace CriticalCss

open Relation (ReflTransGen)

/-! ## Tasks under way -/

/-- Every task of an agenda leads to the outcome of its page alone, and no two have a page in
common.  With every task stands the time at which it goes on. -/
structure OnCourse (r : Run) (source : Stylesheet) (w : World) (s : Scene)
    (agenda : List (Nat × Task)) : Prop where
  world : s.world = w
  leads : ∀ e ∈ agenda,
    r.Leads source e.2.url s e.1 e.2.stage (r.outcomeIn source e.2.url w)
  pages : (agenda.filterMap (·.2.stage.page?)).Nodup

namespace OnCourse

variable {r : Run} {source : Stylesheet} {w : World} {s s' : Scene}
  {agenda rest : List (Nat × Task)}

theorem perm (h : OnCourse r source w s agenda) {agenda' : List (Nat × Task)}
    (hperm : agenda'.Perm agenda) : OnCourse r source w s agenda' where
  world := h.world
  leads e he := h.leads e (hperm.mem_iff.1 he)
  pages := (hperm.filterMap _).nodup_iff.2 h.pages

/-- Without tasks nothing has to be on its course. -/
theorem nil (hworld : s.world = w) : OnCourse r source w s [] where
  world := hworld
  leads _ he := absurd he List.not_mem_nil
  pages := List.nodup_nil

/-- Tasks at their start disturb nothing. -/
theorem append_start (h : OnCourse r source w s agenda) (time : Nat) {tasks : List Task}
    (hstart : ∀ t ∈ tasks, t.stage = .start) :
    OnCourse r source w s (tasks.map (time, ·) ++ agenda) := by
  induction tasks with
  | nil => exact h
  | cons t tasks ih =>
    have htasks := ih fun t ht => hstart t (List.mem_cons_of_mem _ ht)
    refine ⟨h.world, ?_, ?_⟩
    · intro e he
      rcases List.mem_cons.1 he with rfl | he
      · rw [hstart t List.mem_cons_self, ← h.world]
        exact .start
      · exact htasks.leads e he
    · have hnone := hstart t List.mem_cons_self
      simp only [List.map_cons, List.cons_append, List.filterMap_cons, hnone, Stage.page?]
      exact htasks.pages

theorem pass (h : OnCourse r source w s agenda) (ms : Nat) :
    OnCourse r source w (s.pass ms) agenda where
  world := h.world
  leads e he := (h.leads e he).pass ms
  pages := h.pages

/-- What one stage preserves: a task that ends has the outcome of its page alone, a task that waits
is on its course, and so is every other task. -/
theorem of_step (hpictures : r.config.screenshots.enabled = false) (hopen : w.closed = false)
    (hopens : w.failingOpens = 0) {t : Task} (h : OnCourse r source w s ((s.now, t) :: rest))
    {next : Next (Except PageError Split)} (hstep : r.step source t.url t.stage s = (next, s')) :
    s'.now = s.now ∧
      ((next = .done (r.outcomeIn source t.url w) ∧ OnCourse r source w s' rest) ∨
        ∃ ms stage, next = .wait ms stage ∧
          OnCourse r source w s' ((s'.now + ms, { t with stage }) :: rest)) := by
  have hworld := h.world
  have hnodup := h.pages
  simp only [List.filterMap_cons] at hnodup
  obtain ⟨s'', page, p, next', hrun, hturns, hcomes, hown⟩ :=
    Run.step_comes hpictures (hworld ▸ hopen) (hworld ▸ hopens) (h.leads _ List.mem_cons_self)
  rw [hstep, Prod.mk.injEq] at hrun
  obtain ⟨rfl, rfl⟩ := hrun
  -- the page is that of the task or a new one, so no other task works on it
  have hother : page ∉ rest.filterMap (·.2.stage.page?) := by
    rcases hown with hown | ⟨-, hnew⟩
    · rw [hown] at hnodup
      exact (List.nodup_cons.1 hnodup).1
    · intro hmem
      obtain ⟨e, he, hpage⟩ := List.mem_filterMap.1 hmem
      obtain ⟨p, hp⟩ := (h.leads e (List.mem_cons_of_mem _ he)).exists_page hpage
      rw [hnew] at hp
      cases hp
  have hrest : OnCourse r source w s' rest :=
    { world := hturns.world.trans hworld
      leads := fun e he => (h.leads e (List.mem_cons_of_mem _ he)).congr hturns.world fun q hq =>
        hturns.others q fun heq => hother (List.mem_filterMap.2 ⟨e, he, heq ▸ hq⟩)
      pages := by
        cases hpage : t.stage.page? with
        | none => rwa [hpage] at hnodup
        | some q =>
          rw [hpage] at hnodup
          exact (List.nodup_cons.1 hnodup).2 }
  refine ⟨hturns.now, ?_⟩
  cases hcomes with
  | done => exact .inl ⟨rfl, hrest⟩
  | @wait ms stage own leads =>
    refine .inr ⟨ms, stage, rfl, hrest.world, ?_, ?_⟩
    · intro e he
      rcases List.mem_cons.1 he with rfl | he
      · exact leads
      · exact hrest.leads e he
    · simp only [List.filterMap_cons, own]
      exact List.nodup_cons.2 ⟨hother, hrest.pages⟩

end OnCourse

/-! ## The pool -/

namespace Pool

/-- One move of a pool: any page that is ready is worked on up to its next wait, or time passes
because none is ready. -/
inductive Move (r : Run) (source : Stylesheet) : Pool × Scene → Pool × Scene → Prop where
  | finish {p : Pool} {s s' : Scene} {before after : List Task} {t : Task}
    {result : Except PageError Split} (ready : p.ready = before ++ t :: after)
    (step : r.step source t.url t.stage s = (.done result, s')) :
    Move r source (p, s) ({ p with ready := before ++ after }.finish t.index result, s')
  | putBack {p : Pool} {s s' : Scene} {before after : List Task} {t : Task} {ms : Nat}
    {stage : Stage} (ready : p.ready = before ++ t :: after)
    (step : r.step source t.url t.stage s = (.wait ms stage, s')) :
    Move r source (p, s)
      ({ p with ready := before ++ after }.putBack s'.now ms { t with stage }, s')
  | wake {p : Pool} {s : Scene} {time : Nat} (idle : p.ready = [])
    (first : p.firstWake? = some time) :
    Move r source (p, s) (p.wake time, s.pass (time - s.now))

/-- Nothing is left to do. -/
def IsDone (p : Pool) : Prop := p.ready = [] ∧ p.sleeping = []

/-- The tasks under way with the times at which they go on. -/
def agenda (p : Pool) (now : Nat) : List (Nat × Task) :=
  p.ready.map (now, ·) ++ p.sleeping

/-- All tasks that are not finished. -/
def tasks (p : Pool) : List Task :=
  p.waiting ++ p.ready ++ p.sleeping.map (·.2)

/-- The pages of a run are worked on as if every one were alone: what has been found out is right,
what is under way is on its course, and no page is missing or there twice. -/
structure Fair (r : Run) (source : Stylesheet) (w : World) (urls : List String) (p : Pool)
    (s : Scene) : Prop where
  onCourse : OnCourse r source w s (p.agenda s.now)
  later : ∀ e ∈ p.sleeping, s.now ≤ e.1
  unbegun : ∀ t ∈ p.waiting, t.stage = .start
  busy : p.waiting ≠ [] → ¬ p.IsDone
  progress : ∃ finished : List (String × Nat),
    p.results = finished.map (fun e => (e.2, r.outcomeIn source e.1 w)) ∧
      (finished ++ p.tasks.map fun t => (t.url, t.index)).Perm urls.zipIdx

variable {r : Run} {source : Stylesheet} {w : World} {urls : List String} {p : Pool} {s s' : Scene}

/-! ### As long as a task waits for room, something is left to do -/

theorem busy_ofUrls (urls : List String) {concurrency : Nat} (hpositive : 0 < concurrency)
    (hwaiting : (ofUrls urls concurrency).waiting ≠ []) : ¬ (ofUrls urls concurrency).IsDone := by
  rintro ⟨hready, -⟩
  rcases List.take_eq_nil_iff.1 hready with hzero | hnil
  · omega
  · exact hwaiting (List.drop_eq_nil_of_le (by rw [hnil]; exact Nat.zero_le _))

theorem busy_finish {index : Nat} {result : Except PageError Split}
    (hwaiting : (p.finish index result).waiting ≠ []) : ¬ (p.finish index result).IsDone := by
  rintro ⟨hnone, -⟩
  rcases List.take_eq_nil_iff.1 (List.append_eq_nil_iff.1 hnone).2 with hzero | hnil
  · cases hzero
  · exact hwaiting (List.drop_eq_nil_of_le (by rw [hnil]; exact Nat.zero_le _))

theorem not_isDone_putBack (p : Pool) (now ms : Nat) (t : Task) :
    ¬ (p.putBack now ms t).IsDone := by
  rw [putBack]
  split <;> rintro ⟨hnone, hnone'⟩ <;> simp at hnone hnone'

theorem not_isDone_wake {time : Nat} (hfirst : p.firstWake? = some time) :
    ¬ (p.wake time).IsDone := by
  obtain ⟨first, hsleeps, rfl⟩ := List.mem_map.1 (List.min?_mem hfirst)
  rintro ⟨hnone, -⟩
  have hawake : first ∈ p.sleeping.filter fun e => decide (e.1 ≤ first.1) :=
    List.mem_filter.2 ⟨hsleeps, decide_eq_true (Nat.le_refl _)⟩
  rw [List.map_eq_nil_iff.1 (List.append_eq_nil_iff.1 hnone).2] at hawake
  exact absurd hawake List.not_mem_nil

/-! ### The first moment -/

/-- The tasks of a run, some of which have room at once. -/
theorem tasks_ofUrls (urls : List String) (concurrency : Nat) :
    (ofUrls urls concurrency).tasks.Perm
      (urls.zipIdx.map fun e => (⟨e.2, e.1, .start⟩ : Task)) := by
  show (List.drop concurrency _ ++ List.take concurrency _ ++ []).Perm _
  rw [List.append_nil]
  refine List.perm_append_comm.trans ?_
  rw [List.take_append_drop]

/-- All tasks of a run begin at their start. -/
theorem start_of_mem_ofUrls {concurrency : Nat} {t : Task}
    (ht : t ∈ (ofUrls urls concurrency).tasks) : t.stage = .start := by
  obtain ⟨e, -, rfl⟩ := List.mem_map.1 ((tasks_ofUrls urls concurrency).mem_iff.1 ht)
  rfl

/-- The places of the tasks are those of the addresses. -/
theorem places_ofUrls (urls : List String) (concurrency : Nat) :
    ((ofUrls urls concurrency).tasks.map fun t => (t.url, t.index)).Perm urls.zipIdx := by
  refine ((tasks_ofUrls urls concurrency).map _).trans (.of_eq ?_)
  rw [List.map_map]
  exact List.map_id _

/-- A run begins with all tasks at their start. -/
theorem fair_ofUrls (r : Run) (source : Stylesheet) (urls : List String) {concurrency : Nat}
    (hpositive : 0 < concurrency) (s : Scene) :
    Fair r source s.world urls (ofUrls urls concurrency) s := by
  have hstart : ∀ t ∈ (ofUrls urls concurrency).tasks, t.stage = .start :=
    fun t ht => start_of_mem_ofUrls ht
  constructor
  · have hready : ∀ t ∈ (ofUrls urls concurrency).ready, t.stage = .start := fun t ht =>
      hstart t (List.mem_append_left _ (List.mem_append_right _ ht))
    have hcourse : OnCourse r source s.world s [] := .nil rfl
    exact hcourse.append_start s.now hready
  · exact fun e he => absurd he List.not_mem_nil
  · exact fun t ht => hstart t (List.mem_append_left _ (List.mem_append_left _ ht))
  · exact busy_ofUrls urls hpositive
  · exact ⟨[], rfl, places_ofUrls urls concurrency⟩

/-! ### What a move does to the tasks -/

theorem agenda_perm_of_ready {before after : List Task} {t : Task}
    (hready : p.ready = before ++ t :: after) (now : Nat) :
    (p.agenda now).Perm ((now, t) :: { p with ready := before ++ after }.agenda now) := by
  rw [agenda, hready]
  refine (List.Perm.map _ List.perm_middle).append_right _

theorem tasks_perm_of_ready {before after : List Task} {t : Task}
    (hready : p.ready = before ++ t :: after) :
    p.tasks.Perm (t :: { p with ready := before ++ after }.tasks) := by
  rw [tasks, hready]
  exact ((List.perm_middle.append_left _).trans List.perm_middle).append_right _

theorem agenda_finish (p : Pool) (index : Nat) (result : Except PageError Split) (now : Nat) :
    ((p.finish index result).agenda now).Perm
      ((p.waiting.take 1).map (now, ·) ++ p.agenda now) := by
  rw [agenda, agenda, finish, List.map_append, ← List.append_assoc]
  exact List.perm_append_comm.append_right _

theorem tasks_finish (p : Pool) (index : Nat) (result : Except PageError Split) :
    (p.finish index result).tasks.Perm p.tasks := by
  refine List.Perm.append_right _ ?_
  show (p.waiting.drop 1 ++ (p.ready ++ p.waiting.take 1)).Perm (p.waiting ++ p.ready)
  rw [← List.append_assoc]
  refine List.perm_append_comm.trans ?_
  rw [← List.append_assoc, List.take_append_drop]

theorem agenda_putBack (p : Pool) (now ms : Nat) (t : Task) :
    ((p.putBack now ms t).agenda now).Perm ((now + ms, t) :: p.agenda now) := by
  rw [putBack]
  split
  · next hms =>
    rw [hms, Nat.add_zero, agenda, List.map_append, List.append_assoc]
    exact List.perm_middle
  · rw [agenda, ← List.append_assoc]
    exact List.perm_append_singleton _ _

theorem tasks_putBack (p : Pool) (now ms : Nat) (t : Task) :
    (p.putBack now ms t).tasks.Perm (t :: p.tasks) := by
  rw [putBack]
  split
  · rw [tasks, ← List.append_assoc, List.append_assoc]
    exact List.perm_middle
  · rw [tasks, List.map_append, ← List.append_assoc]
    exact List.perm_append_singleton _ _

theorem tasks_wake (p : Pool) (time : Nat) : (p.wake time).tasks.Perm p.tasks := by
  show (p.waiting ++ (p.ready ++ _) ++ _).Perm _
  rw [tasks, ← List.append_assoc, List.append_assoc, ← List.map_append]
  exact ((List.filter_append_perm _ _).map _).append_left _

/-- When no task is ready, time passes up to the moment at which the first one goes on, and those
that go on then are ready in time. -/
theorem agenda_wake {time : Nat} (hready : p.ready = [])
    (hfirst : ∀ e ∈ p.sleeping, time ≤ e.1) (now : Nat) :
    ((p.wake time).agenda time).Perm (p.agenda now) := by
  have hawake : ((p.sleeping.filter fun e => decide (e.1 ≤ time)).map (·.2)).map (time, ·) =
      p.sleeping.filter fun e => decide (e.1 ≤ time) := by
    rw [List.map_map]
    refine (List.map_congr_left fun e he => ?_).trans (List.map_id _)
    have htime : e.1 ≤ time := of_decide_eq_true (List.mem_filter.1 he).2
    exact Prod.ext (Nat.le_antisymm (hfirst e (List.mem_filter.1 he).1) htime) rfl
  rw [agenda, agenda, wake, hready, List.nil_append, hawake]
  exact List.filter_append_perm _ _

/-! ### What a move preserves -/

variable {p' : Pool}

/-- What the end of a task preserves. -/
theorem Fair.of_finish (h : Fair r source w urls p s) {before after : List Task} {t : Task}
    (hready : p.ready = before ++ t :: after) (hnow : s'.now = s.now)
    (hcourse : OnCourse r source w s' ({ p with ready := before ++ after }.agenda s.now)) :
    Fair r source w urls
      ({ p with ready := before ++ after }.finish t.index (r.outcomeIn source t.url w)) s' := by
  constructor
  · rw [← hnow] at hcourse
    refine (hcourse.append_start _ fun t ht => ?_).perm (agenda_finish _ _ _ _)
    exact h.unbegun t (List.mem_of_mem_take ht)
  · rw [hnow]
    exact h.later
  · exact fun t ht => h.unbegun t (List.mem_of_mem_drop ht)
  · exact busy_finish
  · obtain ⟨finished, hresults, hperm⟩ := h.progress
    refine ⟨finished ++ [(t.url, t.index)], ?_, .trans ?_ hperm⟩
    · show p.results ++ _ = _
      rw [hresults, List.map_append]
      rfl
    · rw [List.append_assoc]
      refine List.Perm.append_left _ ?_
      have htasks := (tasks_perm_of_ready hready).map fun t => (t.url, t.index)
      exact (((tasks_finish _ _ _).map _).cons _).trans htasks.symm

/-- What the wait of a task preserves. -/
theorem Fair.of_putBack (h : Fair r source w urls p s) {before after : List Task} {t : Task}
    (hready : p.ready = before ++ t :: after) (hnow : s'.now = s.now) {ms : Nat} {stage : Stage}
    (hcourse : OnCourse r source w s'
      ((s'.now + ms, { t with stage }) :: { p with ready := before ++ after }.agenda s.now)) :
    Fair r source w urls
      ({ p with ready := before ++ after }.putBack s'.now ms { t with stage }) s' := by
  constructor
  · rw [← hnow] at hcourse
    exact hcourse.perm (agenda_putBack _ _ _ _)
  · rw [putBack]
    split
    · rw [hnow]
      exact h.later
    · intro e he
      rcases List.mem_append.1 he with he | he
      · rw [hnow]
        exact h.later e he
      · rw [List.mem_singleton.1 he]
        exact Nat.le_add_right _ _
  · rw [putBack]
    split <;> exact h.unbegun
  · exact fun _ => not_isDone_putBack _ _ _ _
  · obtain ⟨finished, hresults, hperm⟩ := h.progress
    refine ⟨finished, ?_, (List.Perm.append_left _ ?_).trans hperm⟩
    · rw [← hresults, putBack]
      split <;> rfl
    · have htasks := (tasks_perm_of_ready hready).map fun t => (t.url, t.index)
      exact ((tasks_putBack _ _ _ _).map _).trans htasks.symm

/-- What the passing of time preserves. -/
theorem Fair.of_wake (h : Fair r source w urls p s) {time : Nat} (hidle : p.ready = [])
    (hfirst : p.firstWake? = some time) :
    Fair r source w urls (p.wake time) (s.pass (time - s.now)) := by
  obtain ⟨hmem, hmin⟩ := List.min?_eq_some_iff.1 hfirst
  obtain ⟨first, hsleeps, rfl⟩ := List.mem_map.1 hmem
  have hleast : ∀ e ∈ p.sleeping, first.1 ≤ e.1 := fun e he =>
    hmin _ (List.mem_map.2 ⟨e, he, rfl⟩)
  have hnow : (s.pass (first.1 - s.now)).now = first.1 :=
    Nat.add_sub_of_le (h.later first hsleeps)
  constructor
  · rw [hnow]
    exact (h.onCourse.pass _).perm (agenda_wake hidle hleast s.now)
  · rw [hnow]
    exact fun e he => hleast e (List.mem_filter.1 he).1
  · exact h.unbegun
  · exact fun _ => not_isDone_wake hfirst
  · obtain ⟨finished, hresults, hperm⟩ := h.progress
    exact ⟨finished, hresults, (((tasks_wake p _).map _).append_left _).trans hperm⟩

section Schedules

variable (hpictures : r.config.screenshots.enabled = false) (hopen : w.closed = false)
  (hopens : w.failingOpens = 0)

include hpictures hopen hopens

/-- What one move preserves. -/
theorem Fair.of_move (h : Fair r source w urls p s) (hmove : Move r source (p, s) (p', s')) :
    Fair r source w urls p' s' := by
  cases hmove with
  | finish ready step =>
    have hcourse := h.onCourse.perm (agenda_perm_of_ready ready s.now).symm
    obtain ⟨hnow, ⟨hresult, hcourse⟩ | ⟨ms, stage, hwait, -⟩⟩ :=
      hcourse.of_step hpictures hopen hopens step
    · cases hresult
      exact h.of_finish ready hnow hcourse
    · cases hwait
  | putBack ready step =>
    have hcourse := h.onCourse.perm (agenda_perm_of_ready ready s.now).symm
    obtain ⟨hnow, ⟨hresult, -⟩ | ⟨ms, stage, hwait, hcourse⟩⟩ :=
      hcourse.of_step hpictures hopen hopens step
    · cases hresult
    · cases hwait
      exact h.of_putBack ready hnow hcourse
  | wake idle first => exact h.of_wake idle first

/-- What a schedule preserves. -/
theorem Fair.of_moves (h : Fair r source w urls p s)
    (hmoves : ReflTransGen (Move r source) (p, s) (p', s')) : Fair r source w urls p' s' := by
  generalize hlast : (p', s') = last at hmoves
  induction hmoves generalizing p' s' with
  | refl =>
    cases hlast
    exact h
  | @tail middle _ _ hmove ih =>
    subst hlast
    exact (ih rfl).of_move hpictures hopen hopens hmove

end Schedules

/-! ### The pool's own order -/

/-- When no task is ready or goes on later, nothing is left to do. -/
theorem isDone_of_firstWake (hready : p.ready = []) (hfirst : p.firstWake? = none) : p.IsDone :=
  ⟨hready, List.map_eq_nil_iff.1 (List.min?_eq_none_iff.1 hfirst)⟩

/-- As long as something is left to do, there is a move. -/
theorem exists_move (r : Run) (source : Stylesheet) (s : Scene) (h : ¬ p.IsDone) :
    ∃ next, Move r source (p, s) next := by
  cases hready : p.ready with
  | cons t more =>
    have hfirst : p.ready = [] ++ t :: more := hready
    cases hstep : r.step source t.url t.stage s with
    | mk next s' =>
      cases next with
      | done result => exact ⟨_, .finish hfirst hstep⟩
      | wait ms stage => exact ⟨_, .putBack hfirst hstep⟩
  | nil =>
    cases hfirst : p.firstWake? with
    | some time => exact ⟨_, .wake hready hfirst⟩
    | none => exact absurd (isDone_of_firstWake hready hfirst) h

/-- No schedule goes on for ever. -/
theorem wellFounded_move (r : Run) (source : Stylesheet) :
    WellFounded fun next last => Move r source last next := by
  let measure (x : Pool × Scene) : Nat × Nat :=
    (x.1.toDo r.probe.loadTimeout, x.1.sleeping.length)
  have hlex : WellFounded (Prod.Lex (· < · : Nat → Nat → Prop) (· < · : Nat → Nat → Prop)) :=
    (Prod.lex ⟨_, Nat.lt_wfRel.wf⟩ ⟨_, Nat.lt_wfRel.wf⟩).wf
  refine Subrelation.wf (fun {next last} hmove => ?_) (InvImage.wf measure hlex)
  show Prod.Lex _ _ (measure next) (measure last)
  cases hmove with
  | @finish p s s' before after t result ready step =>
    have := t.stage.rank_pos r.probe.loadTimeout
    refine Prod.Lex.left _ _ ?_
    rw [toDo_finish]
    simp only [toDo, ready, toDoIn_append, toDoIn_cons]
    omega
  | @putBack p s s' before after t ms stage ready step =>
    have := r.rank_lt_of_step source t.url (by rw [step] : _ = Next.wait ms stage)
    refine Prod.Lex.left _ _ ?_
    rw [toDo_putBack]
    simp only [toDo, ready, toDoIn_append, toDoIn_cons]
    omega
  | @wake p s time idle first =>
    show Prod.Lex _ _ ((p.wake time).toDo _, _) _
    rw [toDo_wake]
    exact Prod.Lex.right _ (length_sleeping_wake first)

/-- The pool's own order is one of the schedules, and it goes on until nothing is left to do. -/
theorem exists_moves_run (r : Run) (source : Stylesheet) (p : Pool) (s : Scene) :
    ∃ p', ReflTransGen (Move r source) (p, s) (p', (run r source p s).2) ∧ p'.IsDone ∧
      (run r source p s).1 = p'.results := by
  induction p, s using run_induction r source with
  | done p s t more hready result s' hstep ih =>
    rw [run_of_done hready hstep]
    obtain ⟨p', hmoves, hdone, hresults⟩ := ih
    have hfirst : p.ready = [] ++ t :: more := hready
    exact ⟨p', .head (.finish hfirst hstep) hmoves, hdone, hresults⟩
  | wait p s t more hready ms stage s' hstep ih =>
    rw [run_of_wait hready hstep]
    obtain ⟨p', hmoves, hdone, hresults⟩ := ih
    have hfirst : p.ready = [] ++ t :: more := hready
    exact ⟨p', .head (.putBack hfirst hstep) hmoves, hdone, hresults⟩
  | asleep p s hready hfirst =>
    rw [run_of_asleep hready hfirst]
    exact ⟨p, .refl, isDone_of_firstWake hready hfirst, rfl⟩
  | wake p s hready time hfirst ih =>
    rw [run_of_wake hready hfirst]
    obtain ⟨p', hmoves, hdone, hresults⟩ := ih
    exact ⟨p', .head (.wake hready hfirst) hmoves, hdone, hresults⟩

/-- The next move in the pool's own order, if anything is left to do. -/
def advance (r : Run) (source : Stylesheet) (x : Pool × Scene) : Pool × Scene :=
  match x.1.ready with
  | t :: more =>
    match r.step source t.url t.stage x.2 with
    | (.done result, s) => ({ x.1 with ready := more }.finish t.index result, s)
    | (.wait ms stage, s) => ({ x.1 with ready := more }.putBack s.now ms { t with stage }, s)
  | [] =>
    match x.1.firstWake? with
    | none => x
    | some time => (x.1.wake time, x.2.pass (time - x.2.now))

/-- A pool with nothing left to do is at its end. -/
theorem run_of_isDone (r : Run) (source : Stylesheet) (s : Scene) (h : p.IsDone) :
    run r source p s = (p.results, s) := by
  have hfirst : p.firstWake? = none := by
    rw [firstWake?, h.2]
    rfl
  exact run_of_asleep h.1 hfirst

/-- One move in the pool's own order does not change where it leads. -/
theorem run_advance (r : Run) (source : Stylesheet) (x : Pool × Scene) :
    run r source (advance r source x).1 (advance r source x).2 = run r source x.1 x.2 := by
  obtain ⟨p, s⟩ := x
  rw [advance]
  cases hready : p.ready with
  | cons t more =>
    cases hstep : r.step source t.url t.stage s with
    | mk next s' =>
      cases next with
      | done result =>
        simp only [hstep]
        exact (run_of_done hready hstep).symm
      | wait ms stage =>
        simp only [hstep]
        exact (run_of_wait hready hstep).symm
  | nil =>
    cases hfirst : p.firstWake? with
    | none => rfl
    | some time =>
      dsimp only
      exact (run_of_wake hready hfirst).symm

/-- The end of a pool is found by going on often enough. -/
theorem run_eq_of_advance (r : Run) (source : Stylesheet) (x : Pool × Scene) (moves : Nat)
    (h : ((advance r source)^[moves] x).1.IsDone) :
    run r source x.1 x.2 =
      (((advance r source)^[moves] x).1.results, ((advance r source)^[moves] x).2) := by
  induction moves generalizing x with
  | zero => exact run_of_isDone r source x.2 h
  | succ moves ih =>
    rw [← run_advance]
    exact ih (advance r source x) h

end Pool

/-! ## The results -/

/-- The results for the pages of a run in their order. -/
def PageResult.inOrder (urls : List String) (results : List (Nat × Except PageError Split)) :
    List PageResult :=
  urls.zipIdx.filterMap fun (url, index) => (results.lookup index).map (⟨url, ·⟩)

/-- When nothing is left to do, every page has the result that it has alone. -/
theorem Pool.Fair.inOrder_eq {r : Run} {source : Stylesheet} {w : World} {urls : List String}
    {p : Pool} {s : Scene} (h : p.Fair r source w urls s) (hdone : p.IsDone) :
    PageResult.inOrder urls p.results = urls.map fun url => ⟨url, r.outcomeIn source url w⟩ := by
  have hwaiting : p.waiting = [] := by
    by_contra hne
    exact h.busy hne hdone
  have htasks : p.tasks = [] := by
    rw [tasks, hwaiting, hdone.1, hdone.2]
    rfl
  obtain ⟨finished, hresults, hperm⟩ := h.progress
  rw [htasks, List.map_nil, List.append_nil] at hperm
  -- a page is known by its place, so the outcomes are a function of the places
  have hgraph : p.results = (finished.map (·.2)).map fun index =>
      (index, r.outcomeIn source (urls.getD index "") w) := by
    rw [hresults, List.map_map]
    refine List.map_congr_left fun e he => ?_
    have hplace := List.mem_zipIdx_iff_getElem?.1 (hperm.mem_iff.1 he)
    show _ = (e.2, r.outcomeIn source (urls.getD e.2 "") w)
    rw [List.getD_eq_getElem?_getD, hplace]
    rfl
  have hlookup : ∀ e ∈ urls.zipIdx,
      p.results.lookup e.2 = some (r.outcomeIn source e.1 w) := by
    intro e he
    have hmem : e.2 ∈ finished.map (·.2) := List.mem_map.2 ⟨e, hperm.mem_iff.2 he, rfl⟩
    have hplace := List.mem_zipIdx_iff_getElem?.1 he
    rw [hgraph, List.lookup_graph _ hmem, List.getD_eq_getElem?_getD, hplace]
    rfl
  calc PageResult.inOrder urls p.results
    _ = urls.zipIdx.filterMap (some ∘ fun e => ⟨e.1, r.outcomeIn source e.1 w⟩) :=
      List.filterMap_congr fun e he => congrArg (Option.map (PageResult.mk e.1)) (hlookup e he)
    _ = (urls.zipIdx.map Prod.fst).map fun url => ⟨url, r.outcomeIn source url w⟩ := by
      rw [List.filterMap_eq_map, List.map_map]
      rfl
    _ = urls.map fun url => ⟨url, r.outcomeIn source url w⟩ := by
      rw [List.zipIdx_map_fst]

namespace Run

/-- A valid configuration works on one page at once at least. -/
theorem concurrency_pos_of_validate {c : Config} (h : c.validate = .ok ()) : 0 < c.concurrency := by
  refine Nat.pos_of_ne_zero fun hzero => ?_
  rw [Config.validate] at h
  cases hurls : c.urls.isEmpty with
  | true =>
    rw [hurls] at h
    cases h
  | false =>
    rw [hurls, hzero] at h
    cases hblank : c.urls.find? Text.isAllBlank with
    | some url =>
      rw [hblank] at h
      cases h
    | none =>
      rw [hblank] at h
      cases h

/-- What follows from a configuration. -/
theorem eq_of_ofConfig {c : Config} {r : Run} (h : ofConfig c = .ok r) :
    c.validate = .ok () ∧ ∃ device, c.device.resolve = .ok device ∧
      r = ⟨c, device, c.userAgentOn device, c.probe, Stylesheet.read, .pretty⟩ := by
  rw [ofConfig] at h
  cases hvalid : c.validate with
  | error e =>
    rw [hvalid] at h
    cases h
  | ok _ =>
    cases hdevice : c.device.resolve with
    | error e =>
      rw [hvalid, hdevice] at h
      cases h
    | ok device =>
      rw [hvalid, hdevice] at h
      cases h
      exact ⟨rfl, device, rfl, rfl⟩

/-- Nothing that is chosen for the pages as a whole has to do with the outcome of one page. -/
theorem outcomeIn_eq_of_ofConfig {c : Config} {r r' : Run} {urls : List String} {concurrency : Nat}
    (h : ofConfig c = .ok r) (h' : ofConfig { c with urls, concurrency } = .ok r')
    (source : Stylesheet) (url : String) (w : World) :
    r'.outcomeIn source url w = r.outcomeIn source url w := by
  obtain ⟨-, device, hdevice, rfl⟩ := eq_of_ofConfig h
  obtain ⟨-, device', hdevice', rfl⟩ := eq_of_ofConfig h'
  have hsame : device = device' := Except.ok.inj (hdevice.symm.trans hdevice')
  subst hsame
  rfl

/-- The pages of a run do not disturb each other.  In every order in which the pages can be worked on,
with any number of them at once, each page has the result that it has alone, and so it has with any
other pages in the run. -/
theorem evaluatePages_eq_map {c : Config} {r : Run} (hr : ofConfig c = .ok r)
    (hpictures : c.screenshots.enabled = false) (source : Stylesheet) {s : Scene}
    (hopen : s.session.isConnected = true) (hopens : s.session.failingOpens = 0) :
    (r.evaluatePages source s).1 = c.urls.map (fun url => (r.evaluatePage source url s).1) ∧
      (∀ concurrency, 0 < concurrency → ∀ p s',
        ReflTransGen (Pool.Move r source) (.ofUrls c.urls concurrency, s) (p, s') → p.IsDone →
        PageResult.inOrder c.urls p.results =
          c.urls.map fun url => (r.evaluatePage source url s).1) ∧
      ∀ urls concurrency r', ofConfig { c with urls, concurrency } = .ok r' → ∀ url,
        (r'.evaluatePage source url s).1 = (r.evaluatePage source url s).1 := by
  obtain ⟨hvalid, device, -, hfields⟩ := eq_of_ofConfig hr
  have hconfig : r.config = c := by rw [hfields]
  have hworld : s.session.closed = false := by
    simpa [Session.isConnected] using hopen
  have hplain : r.config.screenshots.enabled = false := by rw [hconfig, hpictures]
  have halone : ∀ url, (r.evaluatePage source url s).1 = ⟨url, r.outcomeIn source url s.world⟩ :=
    fun url => evaluatePage_eq hplain hworld hopens
  -- every schedule keeps the pool fair, and the pool's own order is one of them
  have hschedules : ∀ concurrency, 0 < concurrency → ∀ p s',
      ReflTransGen (Pool.Move r source) (.ofUrls c.urls concurrency, s) (p, s') → p.IsDone →
      PageResult.inOrder c.urls p.results =
        c.urls.map fun url => (r.evaluatePage source url s).1 := by
    intro concurrency hpositive p s' hmoves hdone
    have hfair := (Pool.fair_ofUrls r source c.urls hpositive s).of_moves hplain hworld hopens hmoves
    rw [hfair.inOrder_eq hdone]
    simp only [halone]
  refine ⟨?_, hschedules, ?_⟩
  · obtain ⟨p, hmoves, hdone, hresults⟩ :=
      Pool.exists_moves_run r source (.ofUrls c.urls c.concurrency) s
    have hown := hschedules c.concurrency (concurrency_pos_of_validate hvalid) p _ hmoves hdone
    rw [← hown, ← hresults, ← hconfig]
    rfl
  · intro urls concurrency r' hr' url
    have hplain' : r'.config.screenshots.enabled = false := by
      obtain ⟨-, device', -, rfl⟩ := eq_of_ofConfig hr'
      exact hpictures
    rw [halone, evaluatePage_eq hplain' hworld hopens, outcomeIn_eq_of_ofConfig hr hr']

/-- Three pages, two of them at once. -/
def threeUrls : Config :=
  { Config.ofUrls ["http://late.test/", "http://lost.test/", "http://stuck.test/"] with
    concurrency := 2 }

/-- A page with an element that appears late. -/
def lateNav : Snapshot :=
  ⟨{ Element.named "html" with
      children := [{ Element.named "nav" with late := true }] }, [], [], 300⟩

/-- A session in which the answer of the first page takes long, the second page cannot be loaded and
the third one cannot be closed. -/
def troubled : Scene :=
  ⟨{ Session.empty with
      documents := threeUrls.urls.map fun url => (url, lateNav)
      delays := [("http://late.test/", 700)]
      failingNavigations := ["http://lost.test/"]
      failingCloses := ["http://stuck.test/"] }, .empty, 0⟩

/-- The run with the three pages. -/
def threeUrlsRun : Run :=
  ⟨threeUrls, .desktop, threeUrls.userAgentOn .desktop, threeUrls.probe, Stylesheet.read, .pretty⟩

/-- The first page has its split although the other ones fail. -/
theorem evaluatePages_eq_map_troubled :
    ofConfig threeUrls = .ok threeUrlsRun ∧ threeUrls.screenshots.enabled = false ∧
      troubled.session.isConnected = true ∧ troubled.session.failingOpens = 0 ∧
      (threeUrlsRun.evaluatePages [.ofStyle ["nav"] [⟨"color", "red"⟩]] troubled).1 =
        [⟨"http://late.test/", .ok ⟨[.ofStyle ["nav"] [⟨"color", "red"⟩]], []⟩⟩,
          ⟨"http://lost.test/", .error ⟨"http://lost.test/", .navigation,
            .navigation "http://lost.test/" "net::ERR_CONNECTION_RESET"⟩⟩,
          ⟨"http://stuck.test/", .error ⟨"http://stuck.test/", .close,
            .evaluation "target for 'http://stuck.test/' did not close cleanly"⟩⟩] := by
  have hrun : ofConfig threeUrls = .ok threeUrlsRun := rfl
  obtain ⟨hmap, -⟩ := evaluatePages_eq_map hrun rfl [.ofStyle ["nav"] [⟨"color", "red"⟩]]
    (s := troubled) rfl rfl
  refine ⟨hrun, rfl, rfl, rfl, hmap.trans ?_⟩
  have halone : ∀ url outcome,
      threeUrlsRun.outcomeIn [.ofStyle ["nav"] [⟨"color", "red"⟩]] url troubled.world = outcome →
        (threeUrlsRun.evaluatePage [.ofStyle ["nav"] [⟨"color", "red"⟩]] url troubled).1 =
          ⟨url, outcome⟩ := by
    intro url outcome houtcome
    rw [evaluatePage_eq rfl rfl rfl, houtcome]
  refine List.cons_eq_cons.2 ⟨halone _ _ ?_, List.cons_eq_cons.2 ⟨halone _ _ ?_,
    List.cons_eq_cons.2 ⟨halone _ _ ?_, rfl⟩⟩⟩
  all_goals decide +kernel

end Run

end CriticalCss
