import CriticalCss.Proofs.Run.Lives
import Mathlib.Logic.Function.Basic

/-!
# The log of a run agrees with its outcomes

Whatever fails, and in whichever order the pages of a run are worked on: each page that is opened
for an address writes a whole life into the log, and the outcome for the address agrees with it.

* `Pool.Orderly` says that every place in a run has one task or one result, and `Pool.Allots` that
  every page belongs to one place.
* `Pool.NotedMove` is a move of the pool with the notes of its tasks.  `Pool.Chronicled` is what
  holds all the while; `Chronicled.of_move` is what one move preserves, and `Chronicled.of_moves`
  what a whole schedule preserves.
* `run_chronicles` reads the lives of all pages off the end of a run.
-/

namespace CriticalCss

open Relation (ReflTransGen)
open Function (update)

/-! ## Places and pages -/

namespace Pool

/-- Every place in a run has one task or one result, and when nothing is left to do, no task is
left. -/
structure Orderly (urls : List String) (p : Pool) : Prop where
  busy : p.waiting ≠ [] → ¬ p.IsDone
  places : (p.results.map (fun e => (urls.getD e.1 "", e.1)) ++
    p.tasks.map fun t => (t.url, t.index)).Perm urls.zipIdx

/-- A task that waits has no result. -/
theorem results_putBack (p : Pool) (now ms : Nat) (t : Task) :
    (p.putBack now ms t).results = p.results := by
  rw [putBack]
  split <;> rfl

namespace Orderly

variable {r : Run} {source : Stylesheet} {urls : List String} {p p' : Pool} {s s' : Scene}

theorem nodup (h : Orderly urls p) :
    (p.results.map (·.1) ++ p.tasks.map (·.index)).Nodup := by
  have hplaces := (h.places.map (·.2)).nodup_iff.2 (by
    rw [List.zipIdx_map_snd]
    exact List.nodup_range')
  rwa [List.map_append, List.map_map, List.map_map] at hplaces

theorem getElem?_task (h : Orderly urls p) {t : Task} (ht : t ∈ p.tasks) :
    urls[t.index]? = some t.url := by
  have hmem : (t.url, t.index) ∈ urls.zipIdx :=
    h.places.mem_iff.1 (List.mem_append_right _ (List.mem_map.2 ⟨t, ht, rfl⟩))
  exact List.mem_zipIdx_iff_getElem?.1 hmem

theorem getD_task (h : Orderly urls p) {t : Task} (ht : t ∈ p.tasks) :
    urls.getD t.index "" = t.url := by
  rw [List.getD_eq_getElem?_getD, h.getElem?_task ht]
  rfl

theorem of_move (h : Orderly urls p) (hmove : Move r source (p, s) (p', s')) :
    Orderly urls p' := by
  cases hmove with
  | @finish _ _ _ before after t result ready step =>
    have htasks := tasks_perm_of_ready ready
    have hurl := h.getD_task (htasks.mem_iff.2 List.mem_cons_self)
    refine ⟨busy_finish, .trans ?_ h.places⟩
    show ((p.results ++ [(t.index, result)]).map _ ++ _).Perm _
    rw [List.map_append, List.append_assoc, List.map_singleton, hurl]
    refine List.Perm.append_left _ ?_
    have hplaces := htasks.map fun t => (t.url, t.index)
    exact (((tasks_finish _ _ _).map _).cons _).trans hplaces.symm
  | @putBack _ _ _ before after t ms stage ready step =>
    have htasks := tasks_perm_of_ready ready
    refine ⟨fun _ => not_isDone_putBack _ _ _ _, .trans ?_ h.places⟩
    rw [results_putBack]
    refine List.Perm.append_left _ ?_
    have hplaces := htasks.map fun t => (t.url, t.index)
    exact ((tasks_putBack _ _ _ _).map _).trans hplaces.symm
  | wake idle first =>
    exact ⟨fun _ => not_isDone_wake first, (((tasks_wake p _).map _).append_left _).trans h.places⟩

/-- When nothing is left to do, every place has a result. -/
theorem exists_lookup (h : Orderly urls p) (hdone : p.IsDone) {i : Nat} (hi : i < urls.length) :
    ∃ outcome, p.results.lookup i = some outcome ∧ (i, outcome) ∈ p.results := by
  have hwaiting : p.waiting = [] := by
    by_contra hne
    exact h.busy hne hdone
  have htasks : p.tasks = [] := by
    rw [tasks, hwaiting, hdone.1, hdone.2]
    rfl
  have hplaces := h.places
  rw [htasks, List.map_nil, List.append_nil] at hplaces
  have hplace : (urls[i], i) ∈ urls.zipIdx :=
    List.mem_zipIdx_iff_getElem?.2 (List.getElem?_eq_getElem hi)
  obtain ⟨e, he, heq⟩ := List.mem_map.1 (hplaces.mem_iff.2 hplace)
  obtain rfl : e.1 = i := congrArg Prod.snd heq
  cases hlookup : p.results.lookup e.1 with
  | none =>
    have hnone := List.lookup_eq_none_iff.1 hlookup e he
    simp at hnone
  | some outcome =>
    obtain ⟨before, after, hresults, -⟩ := List.lookup_eq_some_iff.1 hlookup
    exact ⟨outcome, rfl, by rw [hresults]; simp⟩

/-- When nothing is left to do, the results in the order of the places are the outcomes of the places.
-/
theorem exists_outcomes (h : Orderly urls p) (hdone : p.IsDone) :
    ∃ outcome : Nat → Except PageError Split,
      PageResult.inOrder urls p.results = urls.zipIdx.map (fun e => ⟨e.1, outcome e.2⟩) ∧
        ∀ i < urls.length, (i, outcome i) ∈ p.results := by
  have hresult : ∀ i, ∃ outcome, i < urls.length →
      p.results.lookup i = some outcome ∧ (i, outcome) ∈ p.results := by
    intro i
    by_cases hi : i < urls.length
    · obtain ⟨outcome, hlookup⟩ := h.exists_lookup hdone hi
      exact ⟨outcome, fun _ => hlookup⟩
    · exact ⟨.error ⟨"", .close, .pageClosed⟩, fun hlt => absurd hlt hi⟩
  choose outcome houtcome using hresult
  refine ⟨outcome, ?_, fun i hi => (houtcome i hi).2⟩
  have hlookup : ∀ e ∈ urls.zipIdx,
      (p.results.lookup e.2).map (PageResult.mk e.1) = some ⟨e.1, outcome e.2⟩ := by
    intro e he
    have hi := (List.getElem?_eq_some_iff.1 (List.mem_zipIdx_iff_getElem?.1 he)).1
    rw [(houtcome e.2 hi).1]
    rfl
  rw [PageResult.inOrder, List.filterMap_congr hlookup, List.filterMap_eq_map']

end Orderly

/-- The pages with the numbers from one up to another belong to one place each. -/
structure Allots (places first next : Nat) (pages : Nat → Option Nat) : Prop where
  le : first ≤ next
  among : ∀ i q, pages i = some q → i < places ∧ first ≤ q ∧ q < next
  unique : ∀ i j q, pages i = some q → pages j = some q → i = j
  all : ∀ q, first ≤ q → q < next → ∃ i, pages i = some q

theorem update_eq_some_iff {pages : Nat → Option Nat} {i j q next : Nat} :
    update pages i (some next) j = some q ↔ j = i ∧ next = q ∨ j ≠ i ∧ pages j = some q := by
  by_cases hj : j = i
  · subst hj
    simp
  · simp [hj]

/-- The next page belongs to a place that has no page yet. -/
theorem Allots.concat {places first next i : Nat} {pages : Nat → Option Nat}
    (h : Allots places first next pages) (hi : i < places) (hnone : pages i = none) :
    Allots places first (next + 1) (update pages i (some next)) where
  le := Nat.le_succ_of_le h.le
  among j q hq := by
    rcases update_eq_some_iff.1 hq with ⟨rfl, rfl⟩ | ⟨-, hq⟩
    · exact ⟨hi, h.le, Nat.lt_succ_self _⟩
    · obtain ⟨hlt, hle, hnext⟩ := h.among j q hq
      exact ⟨hlt, hle, Nat.lt_succ_of_lt hnext⟩
  unique j k q hj hk := by
    have hfresh : ∀ j, pages j ≠ some next := fun j hj => Nat.lt_irrefl _ (h.among j _ hj).2.2
    rcases update_eq_some_iff.1 hj with ⟨rfl, rfl⟩ | ⟨-, hother⟩
    · rcases update_eq_some_iff.1 hk with ⟨rfl, -⟩ | ⟨-, hother⟩
      · rfl
      · exact absurd hother (hfresh k)
    · rcases update_eq_some_iff.1 hk with ⟨-, rfl⟩ | ⟨-, hboth⟩
      · exact absurd hother (hfresh j)
      · exact h.unique j k q hother hboth
  all q hle hlt := by
    rcases Nat.eq_or_lt_of_le (Nat.le_of_lt_succ hlt) with rfl | hlt
    · exact ⟨i, Function.update_self ..⟩
    · obtain ⟨j, hj⟩ := h.all q hle hlt
      have hne : j ≠ i := by
        rintro rfl
        rw [hnone] at hj
        cases hj
      exact ⟨j, update_eq_some_iff.2 (.inr ⟨hne, hj⟩)⟩

/-- A page that is opened belongs to the place of its task. -/
theorem Allots.of_attends {s s' : Scene} {places first i : Nat} {pages : Nat → Option Nat}
    {after : Option Nat} (h : Allots places first s.session.pagesOpened pages) (hi : i < places)
    (hattends : s.Attends s' (pages i) after) :
    Allots places first s'.session.pagesOpened (update pages i after) := by
  rcases hattends.pages with ⟨hsame, hnumber⟩ | ⟨hnone, rfl, hnumber⟩
  · rw [← hsame, Function.update_eq_self, hnumber]
    exact h
  · rw [hnumber]
    exact h.concat hi hnone

/-! ## Moves with notes -/

/-- A move of a pool.  The task that is worked on adds to the notes under its place. -/
inductive NotedMove (r : Run) (source : Stylesheet) :
    (Pool × Scene) × (Nat → List TaskState) → (Pool × Scene) × (Nat → List TaskState) → Prop where
  | finish {p : Pool} {s s' : Scene} {notes : Nat → List TaskState} {states : List TaskState}
    {before after : List Task} {t : Task} {result : Except PageError Split}
    (ready : p.ready = before ++ t :: after)
    (step : r.stepNoted source t.url t.stage (notes t.index) s = ((.done result, states), s')) :
    NotedMove r source ((p, s), notes)
      (({ p with ready := before ++ after }.finish t.index result, s'), update notes t.index states)
  | putBack {p : Pool} {s s' : Scene} {notes : Nat → List TaskState} {states : List TaskState}
    {before after : List Task} {t : Task} {ms : Nat} {stage : Stage}
    (ready : p.ready = before ++ t :: after)
    (step : r.stepNoted source t.url t.stage (notes t.index) s = ((.wait ms stage, states), s')) :
    NotedMove r source ((p, s), notes)
      (({ p with ready := before ++ after }.putBack s'.now ms { t with stage }, s'),
        update notes t.index states)
  | wake {p : Pool} {s : Scene} {notes : Nat → List TaskState} {time : Nat} (idle : p.ready = [])
    (first : p.firstWake? = some time) :
    NotedMove r source ((p, s), notes) ((p.wake time, s.pass (time - s.now)), notes)

/-- What is known of a task that is not finished: it is under way with its page and its notes. -/
structure Follows (r : Run) (s : Scene) (pages : Nat → Option Nat) (notes : Nat → List TaskState)
    (t : Task) : Prop where
  underway : r.Underway t.url s t.stage
  page : pages t.index = t.stage.page?
  notes : notes t.index = t.stage.reached.path

/-- What is known of a result: it agrees with the log and with the notes. -/
structure Settled (r : Run) (urls : List String) (s : Scene) (pages : Nat → Option Nat)
    (notes : Nat → List TaskState) (e : Nat × Except PageError Split) : Prop where
  ended : r.Ended (urls.getD e.1 "") s.session (pages e.1) e.2
  notes : notes e.1 = (Next.done e.2).trail

/-- What holds of a run all the while: what is known of its tasks and its results, and whose the
pages are that were opened. -/
structure Chronicled (r : Run) (urls : List String) (first : Nat) (pages : Nat → Option Nat)
    (notes : Nat → List TaskState) (p : Pool) (s : Scene) : Prop where
  orderly : p.Orderly urls
  faithful : s.session.IsFaithful
  allots : Allots urls.length first s.session.pagesOpened pages
  follows : ∀ t ∈ p.tasks, Follows r s pages notes t
  settled : ∀ e ∈ p.results, Settled r urls s pages notes e

namespace Chronicled

variable {r : Run} {source : Stylesheet} {urls : List String} {first : Nat}
  {pages : Nat → Option Nat} {notes : Nat → List TaskState} {p p' : Pool} {s s' : Scene}

/-- While a task is worked on, nothing changes for the other tasks and for the results. -/
theorem undisturbed (h : Chronicled r urls first pages notes p s) {t : Task} {rest : List Task}
    (htasks : p.tasks.Perm (t :: rest)) {after : Option Nat}
    (hattends : s.Attends s' (pages t.index) after) (states : List TaskState) :
    (∀ t' ∈ rest, Follows r s' (update pages t.index after) (update notes t.index states) t') ∧
      ∀ e ∈ p.results,
        Settled r urls s' (update pages t.index after) (update notes t.index states) e := by
  -- the page of another place is there and is not that of the task
  have hsame : ∀ i q, i ≠ t.index → pages i = some q →
      s'.page? q = s.page? q ∧ s'.session.eventsOf q = s.session.eventsOf q := by
    intro i q hi hq
    exact hattends.others q (h.allots.among i q hq).2.2 fun hown =>
      hi (h.allots.unique i t.index q hq hown)
  have hnodup := h.orderly.nodup
  rw [((htasks.map (·.index)).append_left _).nodup_iff, List.map_cons, List.nodup_middle,
    List.nodup_cons, List.mem_append, not_or] at hnodup
  obtain ⟨⟨hresult, htask⟩, -⟩ := hnodup
  constructor
  · intro t' ht'
    have hne : t'.index ≠ t.index := fun heq => htask (List.mem_map.2 ⟨t', ht', heq⟩)
    obtain ⟨hunderway, hpage, hnotes⟩ := h.follows t' (htasks.mem_iff.2 (List.mem_cons_of_mem _ ht'))
    refine ⟨hunderway.congr fun q hq => hsame _ q hne (hpage.trans hq), ?_, ?_⟩
    · rw [Function.update_of_ne hne, hpage]
    · rw [Function.update_of_ne hne, hnotes]
  · intro e he
    have hne : e.1 ≠ t.index := fun heq => hresult (List.mem_map.2 ⟨e, he, heq⟩)
    obtain ⟨hended, hnotes⟩ := h.settled e he
    refine ⟨?_, ?_⟩
    · rw [Function.update_of_ne hne]
      exact hended.congr fun q hq => (hsame _ q hne hq).2
    · rw [Function.update_of_ne hne, hnotes]

/-- The place of a task belongs to the run. -/
theorem index_lt (h : Chronicled r urls first pages notes p s) {t : Task} (ht : t ∈ p.tasks) :
    t.index < urls.length :=
  (List.getElem?_eq_some_iff.1 (h.orderly.getElem?_task ht)).1

/-- What a stage of a task leads to, and what it adds to the notes. -/
theorem step_goesOn (h : Chronicled r urls first pages notes p s) {t : Task} (ht : t ∈ p.tasks)
    {next : Next (Except PageError Split)} (hstep : r.step source t.url t.stage s = (next, s')) :
    r.stepNoted source t.url t.stage (notes t.index) s = ((next, next.trail), s') ∧
      r.GoesOn t.url s (pages t.index) (next, s') := by
  obtain ⟨hunderway, hpage, hnotes⟩ := h.follows t ht
  have hnoted : r.stepNoted source t.url t.stage t.stage.reached.path s = _ :=
    r.stepNoted_run t.stage s
  have hgoes : r.GoesOn t.url s t.stage.page? (r.step source t.url t.stage s) :=
    Run.step_goesOn h.faithful hunderway
  rw [hstep, ← hnotes] at hnoted
  rw [hstep, ← hpage] at hgoes
  exact ⟨hnoted, hgoes⟩

/-- What the end of a task preserves. -/
theorem of_finish (h : Chronicled r urls first pages notes p s) {before after : List Task}
    {t : Task} {result : Except PageError Split} (hready : p.ready = before ++ t :: after)
    (hstep : r.step source t.url t.stage s = (.done result, s')) :
    ∃ pages' notes', NotedMove r source ((p, s), notes)
        (({ p with ready := before ++ after }.finish t.index result, s'), notes') ∧
      Chronicled r urls first pages' notes'
        ({ p with ready := before ++ after }.finish t.index result) s' := by
  have horderly := h.orderly.of_move (.finish hready hstep)
  have htasks := tasks_perm_of_ready hready
  have ht : t ∈ p.tasks := htasks.mem_iff.2 List.mem_cons_self
  have hurl := h.orderly.getD_task ht
  obtain ⟨hnoted, hgoes⟩ := h.step_goesOn ht hstep
  cases hgoes with
  | @done _ page? _ attends ended =>
    obtain ⟨hfollows, hsettled⟩ := h.undisturbed htasks attends (Next.done result).trail
    refine ⟨update pages t.index page?, update notes t.index (Next.done result).trail,
      .finish hready hnoted, horderly, attends.faithful,
      h.allots.of_attends (h.index_lt ht) attends,
      fun t' ht' => hfollows t' ((tasks_finish _ _ _).mem_iff.1 ht'), fun e he => ?_⟩
    rcases List.mem_append.1 he with he | he
    · exact hsettled e he
    · obtain rfl := List.mem_singleton.1 he
      refine ⟨?_, Function.update_self ..⟩
      rw [Function.update_self]
      exact hurl.symm ▸ ended

/-- What the wait of a task preserves. -/
theorem of_putBack (h : Chronicled r urls first pages notes p s) {before after : List Task}
    {t : Task} {ms : Nat} {stage : Stage} (hready : p.ready = before ++ t :: after)
    (hstep : r.step source t.url t.stage s = (.wait ms stage, s')) :
    ∃ pages' notes', NotedMove r source ((p, s), notes)
        (({ p with ready := before ++ after }.putBack s'.now ms { t with stage }, s'), notes') ∧
      Chronicled r urls first pages' notes'
        ({ p with ready := before ++ after }.putBack s'.now ms { t with stage }) s' := by
  have horderly := h.orderly.of_move (.putBack hready hstep)
  have htasks := tasks_perm_of_ready hready
  have ht : t ∈ p.tasks := htasks.mem_iff.2 List.mem_cons_self
  obtain ⟨hnoted, hgoes⟩ := h.step_goesOn ht hstep
  cases hgoes with
  | wait attends underway =>
    obtain ⟨hfollows, hsettled⟩ := h.undisturbed htasks attends (Next.wait ms stage).trail
    refine ⟨update pages t.index stage.page?, update notes t.index (Next.wait ms stage).trail,
      .putBack hready hnoted, horderly, attends.faithful,
      h.allots.of_attends (h.index_lt ht) attends, fun t' ht' => ?_, fun e he => hsettled e ?_⟩
    · rcases List.mem_cons.1 ((tasks_putBack _ _ _ _).mem_iff.1 ht') with rfl | ht'
      · exact ⟨underway, Function.update_self .., Function.update_self ..⟩
      · exact hfollows t' ht'
    · rw [results_putBack] at he
      exact he

/-- What the passing of time preserves. -/
theorem of_wake (h : Chronicled r urls first pages notes p s) {time : Nat} (hidle : p.ready = [])
    (hfirst : p.firstWake? = some time) :
    Chronicled r urls first pages notes (p.wake time) (s.pass (time - s.now)) where
  orderly := by
    have hmove : Move r [] (p, s) (p.wake time, s.pass (time - s.now)) := .wake hidle hfirst
    exact h.orderly.of_move hmove
  faithful := h.faithful
  allots := h.allots
  follows t ht := by
    obtain ⟨hunderway, hpage, hnotes⟩ := h.follows t ((tasks_wake p time).mem_iff.1 ht)
    exact ⟨hunderway.congr fun _ _ => ⟨rfl, rfl⟩, hpage, hnotes⟩
  settled e he := ⟨(h.settled e he).ended, (h.settled e he).notes⟩

/-- What one move preserves. -/
theorem of_move (h : Chronicled r urls first pages notes p s)
    (hmove : Move r source (p, s) (p', s')) :
    ∃ pages' notes', NotedMove r source ((p, s), notes) ((p', s'), notes') ∧
      Chronicled r urls first pages' notes' p' s' := by
  cases hmove with
  | finish ready step => exact h.of_finish ready step
  | putBack ready step => exact h.of_putBack ready step
  | wake idle first => exact ⟨pages, notes, .wake idle first, h.of_wake idle first⟩

/-- What a schedule preserves. -/
theorem of_moves (h : Chronicled r urls first pages notes p s)
    (hmoves : ReflTransGen (Move r source) (p, s) (p', s')) :
    ∃ pages' notes', ReflTransGen (NotedMove r source) ((p, s), notes) ((p', s'), notes') ∧
      Chronicled r urls first pages' notes' p' s' := by
  generalize hlast : (p', s') = last at hmoves
  induction hmoves generalizing p' s' with
  | refl =>
    cases hlast
    exact ⟨pages, notes, .refl, h⟩
  | @tail middle _ _ hmove ih =>
    subst hlast
    obtain ⟨pages₁, notes₁, hmoves₁, h₁⟩ := ih rfl
    obtain ⟨pages₂, notes₂, hmove₂, h₂⟩ := h₁.of_move hmove
    exact ⟨pages₂, notes₂, hmoves₁.tail hmove₂, h₂⟩

/-- Before anything is done, no place has a page, and every task is at its first state. -/
theorem ofUrls (r : Run) (urls : List String) {concurrency : Nat} (hpositive : 0 < concurrency)
    (hfaithful : s.session.IsFaithful) :
    Chronicled r urls s.session.pagesOpened (fun _ => none) (fun _ => TaskState.pending.path)
      (Pool.ofUrls urls concurrency) s where
  orderly := ⟨busy_ofUrls urls hpositive, places_ofUrls urls concurrency⟩
  faithful := hfaithful
  allots := ⟨Nat.le_refl _, nofun, nofun, fun q hle hlt => absurd hlt (Nat.not_lt.2 hle)⟩
  follows t ht := by
    have hstart := start_of_mem_ofUrls ht
    refine ⟨?_, ?_, ?_⟩ <;> rw [hstart]
    · exact .start
    · rfl
    · rfl
  settled e he := absurd he List.not_mem_nil

end Chronicled

end Pool

/-! ## Whole lives -/

namespace Run

/-- The life of the page for an address, as the log and the notes tell it, agrees with the outcome.

* The address has no page exactly when none could be acquired.
* The page is opened and set up, may show its document, and is closed in the end.  It shows no
  document exactly when the outcome is an error of the navigation.  If the outcome is an error of
  the picture, it shows its document and is neither pictured nor stopped.  If the outcome is a split
  or an error of closing, it shows its document, and is pictured if pictures are asked for.
* An error tells the last state that the page reached before the failure. -/
structure Chronicle (r : Run) (url : String) (session : Session) (page? : Option Nat)
    (states : List TaskState) (outcome : Except PageError Split) : Prop where
  unopened : page? = none ↔ ∃ e attempts, outcome = .error e ∧ e.phase = .acquisition attempts
  life : ∀ page, page? = some page → ∃ shown : Option Showing,
    session.eventsOf page = r.setup ++ shown.elim [] Showing.events ++ [.closed] ∧
      (shown = none ↔ ∃ e, outcome = .error e ∧ e.phase = .navigation) ∧
      (∀ e, outcome = .error e → e.phase = .screenshot →
        ∃ v, shown = some v ∧ v.picture = none ∧ v.stopped = false) ∧
      ((∃ split, outcome = .ok split) ∨ (∃ e, outcome = .error e ∧ e.phase = .close) →
        ∃ v, shown = some v ∧ v.picture = r.picture? url)
  state : ∀ e, outcome = .error e →
    (states.filter (· ≠ .failed)).getLast? = some e.state
  closed : ∀ split, outcome = .ok split → states.getLast? = some .closed

/-- What a task has written when it has an outcome is a whole life. -/
theorem Ended.chronicle {r : Run} {url : String} {session : Session} {page? : Option Nat}
    {outcome : Except PageError Split} (h : r.Ended url session page? outcome) :
    r.Chronicle url session page? (Next.done outcome).trail outcome := by
  have hstate : ∀ e, outcome = .error e →
      ((Next.done outcome).trail.filter (· ≠ .failed)).getLast? = some e.state := by
    rintro e rfl
    exact e.getLast_trail
  have hclosed : ∀ split, outcome = .ok split →
      (Next.done outcome).trail.getLast? = some .closed := by
    rintro split rfl
    rfl
  cases h with
  | unopened => exact ⟨by simp, nofun, hstate, hclosed⟩
  | unshown events =>
    refine ⟨by simp, ?_, hstate, hclosed⟩
    rintro page ⟨⟩
    exact ⟨none, by simpa using events, by simp, by simp, by simp⟩
  | unpictured events =>
    refine ⟨by simp, ?_, hstate, hclosed⟩
    rintro page ⟨⟩
    exact ⟨some (.plain ..), events, by simp, by simp [Showing.plain], by simp⟩
  | unclosed events picture =>
    refine ⟨by simp, ?_, hstate, hclosed⟩
    rintro page ⟨⟩
    exact ⟨some _, events, by simp, by simp, fun _ => ⟨_, rfl, picture⟩⟩
  | split events picture =>
    refine ⟨by simp, ?_, hstate, hclosed⟩
    rintro page ⟨⟩
    exact ⟨some _, events, by simp, by simp, fun _ => ⟨_, rfl, picture⟩⟩

/-- When nothing is left to do, every address has an outcome, and the life of its page agrees with
it. -/
theorem chronicle_of_isDone {r : Run} {urls : List String} {first : Nat} {pages : Nat → Option Nat}
    {notes : Nat → List TaskState} {p : Pool} {s : Scene}
    (h : p.Chronicled r urls first pages notes s) (hdone : p.IsDone) {session : Session}
    (hlog : session.log = s.session.log) :
    ∃ outcome : Nat → Except PageError Split,
      PageResult.inOrder urls p.results = urls.zipIdx.map (fun e => ⟨e.1, outcome e.2⟩) ∧
        ∀ url i, urls[i]? = some url →
          r.Chronicle url session (pages i) (notes i) (outcome i) := by
  obtain ⟨outcome, horder, houtcome⟩ := h.orderly.exists_outcomes hdone
  refine ⟨outcome, horder, ?_⟩
  intro url i hurl
  have hi := (List.getElem?_eq_some_iff.1 hurl).1
  obtain ⟨hended, hnotes⟩ := h.settled _ (houtcome i hi)
  rw [List.getD_eq_getElem?_getD, hurl] at hended
  have hevents : ∀ q, session.eventsOf q = s.session.eventsOf q := fun q => by
    rw [Session.eventsOf, hlog, Session.eventsOf]
  exact hnotes ▸ (hended.congr fun q _ => hevents q).chronicle

/-- The source is obtained without a word in the log about a page that was not opened. -/
theorem isFaithful_sourceCss (r : Run) {s : Scene} (h : s.session.IsFaithful) :
    (r.sourceCss s).2.session.IsFaithful := by
  rcases r.sourceCss_snd s with hsame | hextract
  · rw [hsame]
    exact h
  rw [hextract]
  rcases r.extractCss_cases (r.config.urls.headD "") s with hquiet | ⟨s', hquiet, hclose⟩
  · exact hquiet.isFaithful h
  · obtain ⟨p, hp, hopen⟩ := Scene.isOpen_iff.1 (hquiet.isOpen_iff.2 s.isOpen_addPage)
    rw [hclose, Page.close_run hp hopen]
    exact (Scene.writes_retire hp [.closed]).isFaithful (hquiet.isFaithful h.addPage)

/-- The events of the pages of a run tell their lives, whatever fails.  Each page that is opened
after the source has been obtained belongs to one address.  It is opened, set up, may show its
document, and is closed, and the outcome for the address agrees with this and with the states that
the page went through. -/
theorem run_chronicles {r : Run} (hvalid : r.config.validate = .ok ()) {s s₁ : Scene}
    (hfaithful : s.session.IsFaithful) {css : String} {source : Stylesheet}
    (hcss : r.sourceCss s = (.ok css, s₁)) (hsource : r.readSheet css = .ok source)
    (ownsSession : Bool) :
    ∃ (p : Pool) (pages : Nat → Option Nat) (notes : Nat → List TaskState)
      (outcome : Nat → Except PageError Split),
      ReflTransGen (Pool.NotedMove r source)
          ((.ofUrls r.config.urls r.config.concurrency, s₁), fun _ => [.pending])
          ((p, (r.evaluatePages source s₁).2), notes) ∧
        p.IsDone ∧
        (r.evaluatePages source s₁).1 =
          r.config.urls.zipIdx.map (fun e => ⟨e.1, outcome e.2⟩) ∧
        Pool.Allots r.config.urls.length s₁.session.pagesOpened
          (r.run ownsSession s).2.session.pagesOpened pages ∧
        ∀ url i, r.config.urls[i]? = some url →
          r.Chronicle url (r.run ownsSession s).2.session (pages i) (notes i) (outcome i) := by
  have hstart : s₁.session.IsFaithful := by
    have hkept := r.isFaithful_sourceCss hfaithful
    rwa [hcss] at hkept
  obtain ⟨p, hmoves, hdone, hresults⟩ :=
    Pool.exists_moves_run r source (.ofUrls r.config.urls r.config.concurrency) s₁
  obtain ⟨pages, notes, hnoted, hchronicled⟩ :=
    (Pool.Chronicled.ofUrls r r.config.urls (concurrency_pos_of_validate hvalid) hstart).of_moves
      hmoves
  have hidles := idles_run hcss hsource ownsSession
  have hnumber : (r.run ownsSession s).2.session.pagesOpened =
      (r.evaluatePages source s₁).2.session.pagesOpened := congrArg List.length hidles.pages
  obtain ⟨outcome, horder, htold⟩ := chronicle_of_isDone hchronicled hdone hidles.log
  refine ⟨p, pages, notes, outcome, hnoted, hdone, ?_, ?_, htold⟩
  · rw [← horder, ← hresults]
    rfl
  · rw [hnumber]
    exact hchronicled.allots

/-- The pages of the run belong to one address each, although no page can be opened at first. -/
theorem run_chronicles_givenSheetRun :
    givenSheetRun.config.validate = .ok () ∧ troubledOpening.session.IsFaithful ∧
      givenSheetRun.sourceCss troubledOpening = (.ok "nav{color:red}", troubledOpening) ∧
      givenSheetRun.readSheet "nav{color:red}" =
        .ok [.item (.style ["nav"] [⟨"color", "red"⟩]) (some ⟨1, 1⟩)] ∧
      ∃ (pages : Nat → Option Nat) (notes : Nat → List TaskState)
        (outcome : Nat → Except PageError Split),
        Pool.Allots 3 0 (givenSheetRun.run true troubledOpening).2.session.pagesOpened pages ∧
          ∀ url i, givenSheetRun.config.urls[i]? = some url →
            givenSheetRun.Chronicle url (givenSheetRun.run true troubledOpening).2.session (pages i)
              (notes i) (outcome i) := by
  have hvalid : givenSheetRun.config.validate = .ok () := by decide +kernel
  have hfaithful : troubledOpening.session.IsFaithful := nofun
  have hcss : givenSheetRun.sourceCss troubledOpening =
      (.ok "nav{color:red}", troubledOpening) := rfl
  have hsource : givenSheetRun.readSheet "nav{color:red}" =
      .ok [.item (.style ["nav"] [⟨"color", "red"⟩]) (some ⟨1, 1⟩)] := by decide +kernel
  obtain ⟨-, pages, notes, outcome, -, -, -, hallots, hchronicle⟩ :=
    run_chronicles hvalid hfaithful hcss hsource true
  exact ⟨hvalid, hfaithful, hcss, hsource, pages, notes, outcome, hallots, hchronicle⟩

end Run

end CriticalCss
