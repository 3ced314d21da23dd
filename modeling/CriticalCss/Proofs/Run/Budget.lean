import CriticalCss.Proofs.Run.Acquiring
import CriticalCss.Proofs.Run.Chronicle
import CriticalCss.Proofs.Run.Fold

/-!
# Attempts that all pages share

The attempts to open a page that are to fail are counted for the session, while each page of a run has
four attempts of its own.  A pool begins with its pages in their order, whatever happens to the pages
that it began with before.  So the outcome of acquiring a page follows from its place in the run.

* `Prospects.verdict` is what acquiring the page at a place leads to, and `Prospects.acquire_after`
  derives it from one page to the next.
* `Pool.Turn` is a move of a pool in its own order, with the acquisitions that are made in it, and
  `Pool.exists_turns_run` finds the turns of a whole run.
* `Pool.Queues` is the invariant: the pages that are still to be begun with stand in their order behind
  each other.  `Queues.of_turn` is what one turn preserves, and `Queues.of_turns` what a run preserves.
* `evaluatePages_acquires` reads the outcomes off the end of a run, and `run_shares_attempts` counts the
  pages that cannot be opened.
-/

namespace CriticalCss

namespace Prospects

variable {x : Prospects}

/-- What opening a page depends on when the pages of some addresses have been acquired or given up. -/
def after (x : Prospects) (begun : Nat) : Prospects :=
  if x.closed = true then x
  else { x with
    failing := x.failing - 4 * begun
    opened := x.opened + (begun - x.failing / 4) }

/-- What acquiring a page for an address leads to, by the place of the address in a run. -/
def verdict (x : Prospects) (url : String) (place : Nat) : Except PageError Nat :=
  if x.closed = true then .error (.disconnected url 1)
  else if 4 * (place + 1) ≤ x.failing then .error (.crashed url 4)
  else .ok (x.opened + (place - x.failing / 4))

theorem after_zero (x : Prospects) : x.after 0 = x := by
  rw [after]
  split
  · rfl
  · simp

theorem after_of_closed (h : x.closed = true) (begun : Nat) : x.after begun = x :=
  if_pos h

theorem opened_after (h : x.closed = false) (begun : Nat) :
    (x.after begun).opened = x.opened + (begun - x.failing / 4) := by
  rw [after, if_neg (Bool.eq_false_iff.1 h)]

theorem verdict_of_closed (h : x.closed = true) (url : String) (place : Nat) :
    x.verdict url place = .error (.disconnected url 1) :=
  if_pos h

theorem verdict_of_open (h : x.closed = false) (url : String) (place : Nat) :
    x.verdict url place = if 4 * (place + 1) ≤ x.failing then .error (.crashed url 4)
      else .ok (x.opened + (place - x.failing / 4)) :=
  if_neg (Bool.eq_false_iff.1 h)

/-- From one page to the next. -/
theorem acquire_after (x : Prospects) (url : String) (place : Nat) :
    (x.after place).acquire url 0 Run.acquireRetries = (x.verdict url place, x.after (place + 1)) := by
  by_cases hclosed : x.closed = true
  · rw [after, after, verdict, if_pos hclosed, if_pos hclosed, if_pos hclosed,
      acquire_of_closed hclosed]
  · have hretries : Run.acquireRetries = 3 := rfl
    rw [after, after, verdict, if_neg hclosed, if_neg hclosed, if_neg hclosed, acquire,
      if_neg hclosed, hretries]
    by_cases hfails : 4 * (place + 1) ≤ x.failing
    · have hmany : 3 < x.failing - 4 * place := by omega
      have hleft : x.failing - 4 * place - (3 + 1) = x.failing - 4 * (place + 1) := by omega
      have hopened : place - x.failing / 4 = place + 1 - x.failing / 4 := by omega
      rw [if_pos hfails, if_pos hmany, hleft, hopened]
    · have hfew : ¬3 < x.failing - 4 * place := by omega
      have hleft : x.failing - 4 * (place + 1) = 0 := by omega
      have hopened : x.opened + (place + 1 - x.failing / 4) =
          x.opened + (place - x.failing / 4) + 1 := by
        omega
      rw [if_neg hfails, if_neg hfew, hleft, hopened]

/-- The outcome of an address agrees with what acquiring its page leads to: without a page it is the
error of acquiring it, and with a page it is no such error. -/
def Agrees (x : Prospects) (url : String) (place : Nat) (outcome : Except PageError Split) : Prop :=
  match x.verdict url place with
  | .error e => outcome = .error e
  | .ok _ => ∀ e, outcome = .error e → e.IsLater

namespace Agrees

variable {url : String} {place : Nat} {outcome : Except PageError Split}

theorem eq_disconnected (h : x.Agrees url place outcome) (hclosed : x.closed = true) :
    outcome = .error (.disconnected url 1) := by
  rwa [Agrees, verdict_of_closed hclosed] at h

theorem eq_crashed (h : x.Agrees url place outcome) (hopen : x.closed = false)
    (hfails : 4 * (place + 1) ≤ x.failing) : outcome = .error (.crashed url 4) := by
  rwa [Agrees, verdict_of_open hopen, if_pos hfails] at h

/-- The pages that cannot be opened are those for which four more attempts were to fail. -/
theorem acquisition_iff (h : x.Agrees url place outcome) (hopen : x.closed = false) :
    (∃ e attempts, outcome = .error e ∧ e.phase = .acquisition attempts) ↔
      4 * (place + 1) ≤ x.failing := by
  refine ⟨?_, ?_⟩
  · intro hfailed
    obtain ⟨e, attempts, he, hphase⟩ := hfailed
    by_contra hready
    rw [Agrees, verdict_of_open hopen, if_neg hready] at h
    exact h e he attempts hphase
  · intro hfails
    exact ⟨_, 4, h.eq_crashed hopen hfails, rfl⟩

end Agrees

end Prospects

/-! ## A pool in its own order -/

/-- Whether the work on a page has not begun. -/
def Stage.isStart : Stage → Bool
  | .start => true
  | _ => false

/-- The first stage is the farthest from the end. -/
theorem Stage.rank_le_start (stage : Stage) (loadTimeout : Nat) :
    stage.rank loadTimeout ≤ Stage.start.rank loadTimeout := by
  cases stage <;> simp only [rank] <;> omega

/-- The acquisitions that are made when a task is taken up: one if it has not begun. -/
def Task.acquisitions (t : Task) (s : Scene) : List (Nat × Except PageError Nat) :=
  match t.stage with
  | .start => [(t.index, (Run.acquire t.url 0 Run.acquireRetries s).1)]
  | _ => []

namespace Pool

/-- A move of a pool in its own order, with the acquisitions that are made in it: the page that has been
ready longest is worked on, or time passes because none is ready. -/
inductive Turn (r : Run) (source : Stylesheet) :
    Pool × Scene → List (Nat × Except PageError Nat) → Pool × Scene → Prop where
  | finish {p : Pool} {s s' : Scene} {t : Task} {more : List Task}
    {result : Except PageError Split} (ready : p.ready = t :: more)
    (step : r.step source t.url t.stage s = (.done result, s')) :
    Turn r source (p, s) (t.acquisitions s) ({ p with ready := more }.finish t.index result, s')
  | putBack {p : Pool} {s s' : Scene} {t : Task} {more : List Task} {ms : Nat} {stage : Stage}
    (ready : p.ready = t :: more)
    (step : r.step source t.url t.stage s = (.wait ms stage, s')) :
    Turn r source (p, s) (t.acquisitions s)
      ({ p with ready := more }.putBack s'.now ms { t with stage }, s')
  | wake {p : Pool} {s : Scene} {time : Nat} (idle : p.ready = [])
    (first : p.firstWake? = some time) :
    Turn r source (p, s) [] (p.wake time, s.pass (time - s.now))

/-- The turns of a pool, with the acquisitions that are made in them one after the other. -/
inductive Turns (r : Run) (source : Stylesheet) :
    Pool × Scene → List (Nat × Except PageError Nat) → Pool × Scene → Prop where
  | stop {x : Pool × Scene} : Turns r source x [] x
  | turn {x y z : Pool × Scene} {made more : List (Nat × Except PageError Nat)}
    (first : Turn r source x made y) (rest : Turns r source y more z) :
    Turns r source x (made ++ more) z

variable {r : Run} {source : Stylesheet}

/-- A turn is a move. -/
theorem Turn.move {x y : Pool × Scene} {made : List (Nat × Except PageError Nat)}
    (h : Turn r source x made y) : Move r source x y := by
  cases h with
  | @finish p s s' t more result ready step =>
    have hready : p.ready = [] ++ t :: more := ready
    exact .finish hready step
  | @putBack p s s' t more ms stage ready step =>
    have hready : p.ready = [] ++ t :: more := ready
    exact .putBack hready step
  | wake idle first => exact .wake idle first

/-- A pool takes its turns until nothing is left to do. -/
theorem exists_turns_run (r : Run) (source : Stylesheet) (p : Pool) (s : Scene) :
    ∃ p' made, Turns r source (p, s) made (p', (run r source p s).2) ∧ p'.IsDone ∧
      (run r source p s).1 = p'.results := by
  induction p, s using run_induction r source with
  | done p s t more hready result s' hstep ih =>
    rw [run_of_done hready hstep]
    obtain ⟨p', made, hturns, hdone, hresults⟩ := ih
    exact ⟨p', _, .turn (.finish hready hstep) hturns, hdone, hresults⟩
  | wait p s t more hready ms stage s' hstep ih =>
    rw [run_of_wait hready hstep]
    obtain ⟨p', made, hturns, hdone, hresults⟩ := ih
    exact ⟨p', _, .turn (.putBack hready hstep) hturns, hdone, hresults⟩
  | asleep p s hready hfirst =>
    rw [run_of_asleep hready hfirst]
    exact ⟨p, [], .stop, isDone_of_firstWake hready hfirst, rfl⟩
  | wake p s hready time hfirst ih =>
    rw [run_of_wake hready hfirst]
    obtain ⟨p', made, hturns, hdone, hresults⟩ := ih
    exact ⟨p', _, .turn (.wake hready hfirst) hturns, hdone, hresults⟩

/-! ## Beginning with the pages in their order -/

/-- The tasks of a run at their start. -/
def startTasks (urls : List String) : List Task :=
  urls.zipIdx.map fun e => ⟨e.2, e.1, .start⟩

/-- The acquisitions of the tasks from a place on, as they follow from the places. -/
def dueFrom (x : Prospects) (urls : List String) (place : Nat) :
    List (Nat × Except PageError Nat) :=
  ((startTasks urls).drop place).map fun t => (t.index, x.verdict t.url t.index)

/-- The invariant of a pool in its own order.  The tasks that have not begun are ready or wait for room
in the order of their places, from the first one that has not begun.  What opening a page depends on
follows from how many have begun, and so do the results as far as acquiring pages is concerned. -/
structure Queues (x : Prospects) (urls : List String) (begun : Nat) (p : Pool) (s : Scene) :
    Prop where
  orderly : p.Orderly urls
  le : begun ≤ urls.length
  unbegun : p.ready.filter (·.stage.isStart) ++ p.waiting = (startTasks urls).drop begun
  sleeping : ∀ e ∈ p.sleeping, e.2.stage.isStart = false
  prospects : s.prospects = x.after begun
  underway : ∀ t ∈ p.tasks, t.stage.isStart = false → ∃ page, x.verdict t.url t.index = .ok page
  agrees : ∀ e ∈ p.results, x.Agrees (urls.getD e.1 "") e.1 e.2

theorem length_startTasks (urls : List String) : (startTasks urls).length = urls.length := by
  rw [startTasks, List.length_map, List.length_zipIdx]

/-- The first task that has not begun stands at its place. -/
theorem startTasks_of_drop {urls : List String} {begun : Nat} {t : Task} {rest : List Task}
    (h : (startTasks urls).drop begun = t :: rest) :
    begun < urls.length ∧ t.stage = .start ∧ t.index = begun ∧
      rest = (startTasks urls).drop (begun + 1) := by
  have hlt : begun < (startTasks urls).length := by
    by_contra hge
    rw [List.drop_eq_nil_of_le (Nat.not_lt.1 hge)] at h
    cases h
  rw [List.drop_eq_getElem_cons hlt] at h
  obtain ⟨ht, hrest⟩ := List.cons.inj h
  have hbegun : begun < urls.length := length_startTasks urls ▸ hlt
  have htask : t = ⟨begun, urls[begun], .start⟩ := by
    rw [← ht]
    simp [startTasks]
  rw [htask]
  exact ⟨hbegun, rfl, rfl, hrest.symm⟩

theorem filter_startTasks {urls : List String} {tasks : List Task}
    (h : ∀ t ∈ tasks, t ∈ startTasks urls) : tasks.filter (·.stage.isStart) = tasks := by
  apply List.filter_eq_self.2
  intro t ht
  obtain ⟨e, -, he⟩ := List.mem_map.1 (h t ht)
  rw [← he]
  rfl

/-- Before anything is done, no task has begun. -/
theorem Queues.ofUrls (urls : List String) {concurrency : Nat} (hpositive : 0 < concurrency)
    (s : Scene) : Queues s.prospects urls 0 (ofUrls urls concurrency) s where
  orderly := ⟨busy_ofUrls urls hpositive, places_ofUrls urls concurrency⟩
  le := Nat.zero_le _
  unbegun := by
    show ((startTasks urls).take concurrency).filter _ ++ (startTasks urls).drop concurrency = _
    rw [filter_startTasks fun t ht => List.mem_of_mem_take ht, List.take_append_drop, List.drop_zero]
  sleeping := nofun
  prospects := (Prospects.after_zero _).symm
  underway t ht hstage := by
    rw [start_of_mem_ofUrls ht] at hstage
    cases hstage
  agrees := nofun

/-- What is known when a task has been taken up: how many have begun now, and what comes of it. -/
structure Advances (x : Prospects) (urls : List String) (begun begun' : Nat) (t : Task) (s : Scene)
    (next : Next (Except PageError Split)) (s' : Scene) : Prop where
  le : begun' ≤ urls.length
  prospects : s'.prospects = x.after begun'
  due : dueFrom x urls begun = t.acquisitions s ++ dueFrom x urls begun'
  done : ∀ result, next = .done result → x.Agrees t.url t.index result
  wait : ∀ ms stage, next = .wait ms stage → ∃ page, x.verdict t.url t.index = .ok page

namespace Queues

variable {x : Prospects} {urls : List String} {begun : Nat} {p p' : Pool} {s s' : Scene} {t : Task}
  {more : List Task} {next : Next (Except PageError Split)}

/-- A task with a page goes on, and opening the next page depends on the same things. -/
theorem takeUp_underway (h : Queues x urls begun p s) (hready : p.ready = t :: more)
    (hstage : t.stage.isStart = false) (hstep : r.step source t.url t.stage s = (next, s')) :
    more.filter (·.stage.isStart) ++ p.waiting = (startTasks urls).drop begun ∧
      Advances x urls begun begun t s next s' := by
  have ht : t ∈ p.tasks := by
    rw [tasks, hready]
    simp
  obtain ⟨page, hverdict⟩ := h.underway t ht hstage
  have hne : t.stage ≠ .start := by
    intro heq
    rw [heq] at hstage
    cases hstage
  have hcontinues := r.step_continues source t.url hne s
  rw [hstep] at hcontinues
  have hqueue := h.unbegun
  rw [hready, List.filter_cons, if_neg (Bool.eq_false_iff.1 hstage)] at hqueue
  refine ⟨hqueue, h.le, hcontinues.prospects.trans h.prospects, ?_, ?_, ?_⟩
  · have hnone : t.acquisitions s = [] := by
      rw [Task.acquisitions]
      split
      · next heq =>
        exact absurd heq hne
      · rfl
    rw [hnone, List.nil_append]
  · intro result hresult
    rw [Prospects.Agrees, hverdict]
    intro e he
    rw [he] at hresult
    exact hcontinues.later e hresult
  · intro ms stage _
    exact ⟨page, hverdict⟩

/-- The task that begins is the first one that has not begun. -/
theorem takeUp_start (h : Queues x urls begun p s) (hready : p.ready = t :: more)
    (hstage : t.stage.isStart = true) (hstep : r.step source t.url t.stage s = (next, s')) :
    more.filter (·.stage.isStart) ++ p.waiting = (startTasks urls).drop (begun + 1) ∧
      Advances x urls begun (begun + 1) t s next s' := by
  have hqueue := h.unbegun
  rw [hready, List.filter_cons, if_pos hstage, List.cons_append] at hqueue
  obtain ⟨hlt, hstart, hindex, hrest⟩ := startTasks_of_drop hqueue.symm
  have hacquire : s.prospects.acquire t.url 0 Run.acquireRetries =
      (x.verdict t.url t.index, x.after (begun + 1)) := by
    rw [h.prospects, hindex]
    exact x.acquire_after t.url begun
  have hverdict := congrArg Prod.fst hacquire
  have hprospects := congrArg Prod.snd hacquire
  have hdue : dueFrom x urls begun = t.acquisitions s ++ dueFrom x urls (begun + 1) := by
    have hmade : t.acquisitions s = [(t.index, x.verdict t.url t.index)] := by
      rw [Task.acquisitions, hstart, Run.acquire_fst, hverdict]
    rw [dueFrom, ← hqueue, hmade, hrest]
    rfl
  rw [hstart] at hstep
  cases hpage : x.verdict t.url t.index with
  | error e =>
    rw [hpage] at hverdict
    obtain ⟨hdone, hafter⟩ := r.step_start_of_error source hverdict
    rw [hstep] at hdone hafter
    refine ⟨hrest, hlt, hafter.trans hprospects, hdue, ?_, ?_⟩
    · intro result hresult
      rw [Prospects.Agrees, hpage]
      exact Next.done.inj (hresult.symm.trans hdone)
    · intro ms stage hwait
      cases hwait.symm.trans hdone
  | ok page =>
    rw [hpage] at hverdict
    have hcontinues := r.step_start_of_ok source hverdict
    rw [hstep] at hcontinues
    refine ⟨hrest, hlt, hcontinues.prospects.trans hprospects, hdue, ?_, ?_⟩
    · intro result hresult
      rw [Prospects.Agrees, hpage]
      intro e he
      rw [he] at hresult
      exact hcontinues.later e hresult
    · intro ms stage _
      exact ⟨page, hpage⟩

/-- What taking up the task that has been ready longest does. -/
theorem takeUp (h : Queues x urls begun p s) (hready : p.ready = t :: more)
    (hstep : r.step source t.url t.stage s = (next, s')) :
    ∃ begun', more.filter (·.stage.isStart) ++ p.waiting = (startTasks urls).drop begun' ∧
      Advances x urls begun begun' t s next s' := by
  cases hstage : t.stage.isStart with
  | true => exact ⟨_, h.takeUp_start hready hstage hstep⟩
  | false => exact ⟨_, h.takeUp_underway hready hstage hstep⟩

/-- What the end of a task preserves. -/
theorem of_finish (h : Queues x urls begun p s) (hready : p.ready = t :: more)
    {result : Except PageError Split} (hstep : r.step source t.url t.stage s = (.done result, s')) :
    ∃ begun', Queues x urls begun' ({ p with ready := more }.finish t.index result) s' ∧
      dueFrom x urls begun = t.acquisitions s ++ dueFrom x urls begun' := by
  have hmove : Move r source (p, s) ({ p with ready := more }.finish t.index result, s') :=
    (Turn.finish hready hstep).move
  have hfirst : p.ready = [] ++ t :: more := hready
  have htasks := tasks_perm_of_ready hfirst
  have ht : t ∈ p.tasks := htasks.mem_iff.2 List.mem_cons_self
  obtain ⟨begun', hqueue, hadvances⟩ := h.takeUp hready hstep
  refine ⟨begun', ?_, hadvances.due⟩
  have hwaiting : ∀ t' ∈ p.waiting.take 1, t' ∈ startTasks urls := by
    intro t' ht'
    apply List.mem_of_mem_drop (i := begun')
    rw [← hqueue]
    exact List.mem_append_right _ (List.mem_of_mem_take ht')
  exact {
    orderly := h.orderly.of_move hmove
    le := hadvances.le
    unbegun := by
      show (more ++ p.waiting.take 1).filter _ ++ p.waiting.drop 1 = _
      rw [List.filter_append, filter_startTasks hwaiting, List.append_assoc,
        List.take_append_drop, hqueue]
    sleeping := h.sleeping
    prospects := hadvances.prospects
    underway := by
      intro t' ht' hstage
      have hmem : t' ∈ t :: { p with ready := more }.tasks :=
        List.mem_cons_of_mem _ ((tasks_finish _ _ _).mem_iff.1 ht')
      exact h.underway t' (htasks.mem_iff.2 hmem) hstage
    agrees := by
      intro e he
      rcases List.mem_append.1 he with he | he
      · exact h.agrees e he
      · rw [List.mem_singleton.1 he, h.orderly.getD_task ht]
        exact hadvances.done result rfl }

/-- What the wait of a task preserves. -/
theorem of_putBack (h : Queues x urls begun p s) (hready : p.ready = t :: more) {ms : Nat}
    {stage : Stage} (hstep : r.step source t.url t.stage s = (.wait ms stage, s')) :
    ∃ begun', Queues x urls begun'
        ({ p with ready := more }.putBack s'.now ms { t with stage }) s' ∧
      dueFrom x urls begun = t.acquisitions s ++ dueFrom x urls begun' := by
  have hmove : Move r source (p, s)
      ({ p with ready := more }.putBack s'.now ms { t with stage }, s') :=
    (Turn.putBack hready hstep).move
  have hfirst : p.ready = [] ++ t :: more := hready
  have htasks := tasks_perm_of_ready hfirst
  obtain ⟨begun', hqueue, hadvances⟩ := h.takeUp hready hstep
  refine ⟨begun', ?_, hadvances.due⟩
  -- no stage is further from the end than the first one, so the task has begun
  have hbegun : stage.isStart = false := by
    have hcloser := r.rank_lt_of_step source t.url (congrArg Prod.fst hstep)
    have hfarthest := t.stage.rank_le_start r.probe.loadTimeout
    cases stage with
    | start => omega
    | _ => rfl
  exact {
    orderly := h.orderly.of_move hmove
    le := hadvances.le
    unbegun := by
      rw [putBack]
      split
      · show (more ++ [{ t with stage }]).filter _ ++ p.waiting = _
        rw [List.filter_append, List.filter_cons, if_neg (Bool.eq_false_iff.1 hbegun),
          List.filter_nil, List.append_nil, hqueue]
      · exact hqueue
    sleeping := by
      intro e he
      rw [putBack] at he
      split at he
      · exact h.sleeping e he
      · rcases List.mem_append.1 he with he | he
        · exact h.sleeping e he
        · rw [List.mem_singleton.1 he]
          exact hbegun
    prospects := hadvances.prospects
    underway := by
      intro t' ht' hstage
      rcases List.mem_cons.1 ((tasks_putBack _ _ _ _).mem_iff.1 ht') with heq | ht'
      · rw [heq]
        exact hadvances.wait ms stage rfl
      · exact h.underway t' (htasks.mem_iff.2 (List.mem_cons_of_mem _ ht')) hstage
    agrees := by
      rw [results_putBack]
      exact h.agrees }

/-- What the passing of time preserves. -/
theorem of_wake (h : Queues x urls begun p s) (hidle : p.ready = []) {time : Nat}
    (hfirst : p.firstWake? = some time) :
    Queues x urls begun (p.wake time) (s.pass (time - s.now)) where
  orderly := ⟨fun _ => not_isDone_wake hfirst,
    (((tasks_wake p time).map _).append_left _).trans h.orderly.places⟩
  le := h.le
  unbegun := by
    have hnone : ((p.sleeping.filter fun e => decide (e.1 ≤ time)).map (·.2)).filter
        (·.stage.isStart) = [] := by
      rw [List.filter_eq_nil_iff]
      intro t ht
      obtain ⟨e, he, heq⟩ := List.mem_map.1 ht
      rw [← heq, h.sleeping e (List.mem_filter.1 he).1]
      exact Bool.false_ne_true
    have hqueue := h.unbegun
    rw [hidle] at hqueue
    show (p.ready ++ _).filter _ ++ p.waiting = _
    rw [hidle, List.nil_append, hnone]
    exact hqueue
  sleeping e he := h.sleeping e (List.mem_filter.1 he).1
  prospects := h.prospects
  underway t ht := h.underway t ((tasks_wake p time).mem_iff.1 ht)
  agrees := h.agrees

/-- What one turn preserves. -/
theorem of_turn (h : Queues x urls begun p s) {made : List (Nat × Except PageError Nat)}
    (hturn : Turn r source (p, s) made (p', s')) :
    ∃ begun', Queues x urls begun' p' s' ∧
      dueFrom x urls begun = made ++ dueFrom x urls begun' := by
  cases hturn with
  | finish ready step => exact h.of_finish ready step
  | putBack ready step => exact h.of_putBack ready step
  | wake idle first => exact ⟨begun, h.of_wake idle first, rfl⟩

/-- What the turns of a run preserve. -/
theorem of_turns (h : Queues x urls begun p s) {made : List (Nat × Except PageError Nat)}
    (hturns : Turns r source (p, s) made (p', s')) :
    ∃ begun', Queues x urls begun' p' s' ∧
      dueFrom x urls begun = made ++ dueFrom x urls begun' := by
  generalize hstart : (p, s) = start at hturns
  generalize hlast : (p', s') = last at hturns
  induction hturns generalizing p s begun with
  | stop =>
    obtain ⟨hp, hs⟩ := Prod.mk.inj (hlast.trans hstart.symm)
    rw [hp, hs]
    exact ⟨begun, h, rfl⟩
  | @turn start middle last made more first rest ih =>
    subst hstart
    obtain ⟨begun₁, h₁, hmade⟩ := h.of_turn first
    obtain ⟨begun₂, h₂, hmore⟩ := ih h₁ rfl hlast
    exact ⟨begun₂, h₂, by rw [hmade, hmore, List.append_assoc]⟩

/-- When nothing is left to do, all tasks have begun. -/
theorem begun_eq (h : Queues x urls begun p s) (hdone : p.IsDone) : begun = urls.length := by
  have hwaiting : p.waiting = [] := by
    by_contra hne
    exact h.orderly.busy hne hdone
  have hqueue := h.unbegun
  rw [hwaiting, hdone.1] at hqueue
  have hlength := congrArg List.length hqueue
  rw [List.length_drop, length_startTasks] at hlength
  have hle := h.le
  simp only [List.filter_nil, List.append_nil, List.length_nil] at hlength
  omega

end Queues

end Pool

/-! ## Outcomes and pages -/

namespace Run

variable {r : Run} {s s₁ : Scene} {css : String} {source : Stylesheet}

/-- A style sheet that is given is obtained without a page. -/
theorem eq_of_sourceCss {text : String} (hgiven : r.config.css = some text)
    (hcss : r.sourceCss s = (.ok css, s₁)) : s₁ = s := by
  have hget : (get : RunAct Scene) s = (.ok s, s) := rfl
  have hpage : (CssSource.ofOption (some text)).read s.files ≠ .ok none := by
    rw [CssSource.ofOption]
    split
    · rw [CssSource.read]
      split
      · nofun
      · split <;> nofun
    · nofun
  rw [sourceCss, bind_of_ok hget, hgiven] at hcss
  cases hread : (CssSource.ofOption (some text)).read s.files with
  | error e =>
    rw [hread] at hcss
    cases hcss
  | ok css? =>
    cases css? with
    | some css' =>
      rw [hread] at hcss
      cases hcss
      rfl
    | none => exact absurd hread hpage

/-- What a run ends with when its source has been obtained. -/
theorem run_fst (hcss : r.sourceCss s = (.ok css, s₁)) (hsource : r.readSheet css = .ok source)
    (ownsSession : Bool) : (r.run ownsSession s).1 = r.fold (r.evaluatePages source s₁).1 := by
  have houtput : (r.output s).1 = r.fold (r.evaluatePages source s₁).1 :=
    congrArg Prod.fst (output_run hcss hsource)
  rw [← houtput]
  cases ownsSession <;> rfl

/-- When every address has an error, the run fails with these errors in order. -/
theorem fold_of_errors (r : Run) {urls : List String} {outcome : Nat → Except PageError Split}
    {f : String → PageError} (h : ∀ url i, urls[i]? = some url → outcome i = .error (f url)) :
    r.fold (urls.zipIdx.map fun e => ⟨e.1, outcome e.2⟩) = .error (.allFailed (urls.map f)) := by
  have houtcome : ∀ e ∈ urls.zipIdx, outcome e.2 = .error (f e.1) := by
    intro e he
    exact h e.1 e.2 (List.mem_zipIdx_iff_getElem?.1 he)
  have hfailed : ¬∃ page ∈ urls.zipIdx.map fun e => PageResult.mk e.1 (outcome e.2),
      page.Succeeded := by
    intro hsome
    obtain ⟨page, hpage, split, hok⟩ := hsome
    obtain ⟨e, he, heq⟩ := List.mem_map.1 hpage
    rw [← heq] at hok
    cases (houtcome e he).symm.trans hok
  have herrors : (urls.zipIdx.map fun e => PageResult.mk e.1 (outcome e.2)).filterMap (·.error?) =
      urls.map f := by
    have herror : ∀ e ∈ urls.zipIdx,
        (PageResult.mk e.1 (outcome e.2)).error? = some (f e.1) := by
      intro e he
      rw [houtcome e he]
      rfl
    have hfirst : urls.zipIdx.map (·.1) = urls := List.zipIdx_map_fst 0 urls
    calc (urls.zipIdx.map fun e => PageResult.mk e.1 (outcome e.2)).filterMap (·.error?)
        = urls.zipIdx.filterMap fun e => (PageResult.mk e.1 (outcome e.2)).error? :=
          List.filterMap_map
      _ = urls.zipIdx.filterMap fun e => some (f e.1) := List.filterMap_congr herror
      _ = urls.zipIdx.map fun e => f e.1 := congrFun List.filterMap_eq_map' _
      _ = (urls.zipIdx.map (·.1)).map f := List.map_map.symm
      _ = urls.map f := by rw [hfirst]
  rw [fold, foldBy_of_failed r id hfailed, herrors]

/-- What becomes of the pages of a run as far as acquiring them is concerned. -/
theorem evaluatePages_acquires (hpositive : 0 < r.config.concurrency) (source : Stylesheet)
    (s : Scene) :
    ∃ (p : Pool) (made : List (Nat × Except PageError Nat))
      (outcome : Nat → Except PageError Split),
      Pool.Turns r source (.ofUrls r.config.urls r.config.concurrency, s) made
          (p, (r.evaluatePages source s).2) ∧
        p.IsDone ∧
        (r.evaluatePages source s).1 =
          r.config.urls.zipIdx.map (fun e => ⟨e.1, outcome e.2⟩) ∧
        made = r.config.urls.zipIdx.map (fun e => (e.2, s.prospects.verdict e.1 e.2)) ∧
        (r.evaluatePages source s).2.prospects = s.prospects.after r.config.urls.length ∧
        ∀ url i, r.config.urls[i]? = some url → s.prospects.Agrees url i (outcome i) := by
  obtain ⟨p, made, hturns, hdone, hresults⟩ :=
    Pool.exists_turns_run r source (.ofUrls r.config.urls r.config.concurrency) s
  obtain ⟨begun, hqueues, hdue⟩ := (Pool.Queues.ofUrls r.config.urls hpositive s).of_turns hturns
  obtain rfl := hqueues.begun_eq hdone
  obtain ⟨outcome, horder, houtcome⟩ := hqueues.orderly.exists_outcomes hdone
  refine ⟨p, made, outcome, hturns, hdone, ?_, ?_, hqueues.prospects, ?_⟩
  · rw [← horder, ← hresults]
    rfl
  · have hnone : Pool.dueFrom s.prospects r.config.urls r.config.urls.length = [] := by
      rw [Pool.dueFrom, List.drop_eq_nil_of_le (Pool.length_startTasks _).le, List.map_nil]
    rw [hnone, List.append_nil, Pool.dueFrom, List.drop_zero, Pool.startTasks, List.map_map] at hdue
    exact hdue.symm
  · intro url i hurl
    have hi := (List.getElem?_eq_some_iff.1 hurl).1
    have hagrees := hqueues.agrees _ (houtcome i hi)
    rwa [List.getD_eq_getElem?_getD, hurl] at hagrees

/-- The attempts that are to fail are shared by the pages of a run in the order of the addresses.
Exactly the first pages cannot be opened, one for each four such attempts, and each is given up after
its four attempts.  The others are opened in order, however many are worked on at a time.  In a session
that is closed no page is tried twice. -/
theorem run_shares_attempts {r : Run} (hvalid : r.config.validate = .ok ()) {text : String}
    (hgiven : r.config.css = some text) {s s₁ : Scene} {css : String} {source : Stylesheet}
    (hcss : r.sourceCss s = (.ok css, s₁)) (hsource : r.readSheet css = .ok source)
    (ownsSession : Bool) :
    ∃ (p : Pool) (made : List (Nat × Except PageError Nat))
      (outcome : Nat → Except PageError Split),
      Pool.Turns r source (.ofUrls r.config.urls r.config.concurrency, s) made
          (p, (r.evaluatePages source s).2) ∧
        p.IsDone ∧
        (r.evaluatePages source s).1 =
          r.config.urls.zipIdx.map (fun e => ⟨e.1, outcome e.2⟩) ∧
        (r.run ownsSession s).1 = r.fold (r.evaluatePages source s).1 ∧
        (s.session.closed = false →
          made = r.config.urls.zipIdx.map (fun e =>
              (e.2, if 4 * (e.2 + 1) ≤ s.session.failingOpens then .error (.crashed e.1 4)
                else .ok (s.session.pagesOpened + (e.2 - s.session.failingOpens / 4)))) ∧
            (∀ url i, r.config.urls[i]? = some url →
              ((∃ e attempts, outcome i = .error e ∧ e.phase = .acquisition attempts) ↔
                4 * (i + 1) ≤ s.session.failingOpens) ∧
              (4 * (i + 1) ≤ s.session.failingOpens → outcome i = .error (.crashed url 4))) ∧
            (r.run ownsSession s).2.session.pagesOpened = s.session.pagesOpened +
              (r.config.urls.length - min r.config.urls.length (s.session.failingOpens / 4)) ∧
            (4 * r.config.urls.length ≤ s.session.failingOpens →
              (r.run ownsSession s).1 =
                .error (.allFailed (r.config.urls.map (PageError.crashed · 4))))) ∧
        (s.session.closed = true →
          made = r.config.urls.zipIdx.map (fun e => (e.2, .error (.disconnected e.1 1))) ∧
            (∀ url i, r.config.urls[i]? = some url →
              outcome i = .error (.disconnected url 1)) ∧
            (r.run ownsSession s).2.session.pagesOpened = s.session.pagesOpened ∧
            (r.run ownsSession s).1 =
              .error (.allFailed (r.config.urls.map (PageError.disconnected · 1)))) := by
  obtain rfl := eq_of_sourceCss hgiven hcss
  obtain ⟨p, made, outcome, hturns, hdone, hresults, hmade, hprospects, hagrees⟩ :=
    r.evaluatePages_acquires (concurrency_pos_of_validate hvalid) source s₁
  have hrun := run_fst hcss hsource ownsSession
  have hpages : (r.run ownsSession s₁).2.session.pagesOpened =
      (s₁.prospects.after r.config.urls.length).opened := by
    rw [← hprospects]
    exact congrArg List.length (idles_run hcss hsource ownsSession).pages
  refine ⟨p, made, outcome, hturns, hdone, hresults, hrun, ?_, ?_⟩
  · intro (hopen : s₁.prospects.closed = false)
    have hcrashed : ∀ url i, r.config.urls[i]? = some url →
        4 * (i + 1) ≤ s₁.session.failingOpens → outcome i = .error (.crashed url 4) :=
      fun url i hurl => (hagrees url i hurl).eq_crashed hopen
    refine ⟨?_, ?_, ?_, ?_⟩
    · simp only [hmade, Prospects.verdict_of_open hopen]
      rfl
    · intro url i hurl
      exact ⟨(hagrees url i hurl).acquisition_iff hopen, hcrashed url i hurl⟩
    · have hopened : r.config.urls.length - s₁.session.failingOpens / 4 =
          r.config.urls.length - min r.config.urls.length (s₁.session.failingOpens / 4) :=
        Nat.sub_eq_sub_min _ _
      rw [hpages, Prospects.opened_after hopen, ← hopened]
      rfl
    · intro hmany
      rw [hrun, hresults]
      apply fold_of_errors
      intro url i hurl
      have hi := (List.getElem?_eq_some_iff.1 hurl).1
      exact hcrashed url i hurl (by omega)
  · intro (hclosed : s₁.prospects.closed = true)
    have hdisconnected : ∀ url i, r.config.urls[i]? = some url →
        outcome i = .error (.disconnected url 1) :=
      fun url i hurl => (hagrees url i hurl).eq_disconnected hclosed
    refine ⟨?_, hdisconnected, ?_, ?_⟩
    · simp only [hmade, Prospects.verdict_of_closed hclosed]
    · rw [hpages, Prospects.after_of_closed hclosed]
      rfl
    · rw [hrun, hresults]
      exact r.fold_of_errors hdisconnected

/-- The scene in which one page is late, one fails and one cannot be closed, when moreover the first
eight attempts to open a page fail. -/
def jammed : Scene :=
  troubled.onSession (·.failOpens 8)

/-- Two pages have four of the attempts each, and the third page is opened. -/
theorem run_shares_attempts_jammed :
    givenSheetRun.config.validate = .ok () ∧
      givenSheetRun.config.css = some "nav{color:red}" ∧
      givenSheetRun.sourceCss jammed = (.ok "nav{color:red}", jammed) ∧
      givenSheetRun.readSheet "nav{color:red}" =
        .ok [.item (.style ["nav"] [⟨"color", "red"⟩]) (some ⟨1, 1⟩)] ∧
      (∃ (p : Pool) (made : List (Nat × Except PageError Nat)),
        Pool.Turns givenSheetRun [.item (.style ["nav"] [⟨"color", "red"⟩]) (some ⟨1, 1⟩)]
            (.ofUrls givenSheetRun.config.urls 2, jammed) made
            (p, (givenSheetRun.evaluatePages
              [.item (.style ["nav"] [⟨"color", "red"⟩]) (some ⟨1, 1⟩)] jammed).2) ∧
          made.map (·.2.toOption) = [none, none, some 0]) ∧
      (givenSheetRun.run true jammed).2.session.pagesOpened = 1 := by
  have hvalid : givenSheetRun.config.validate = .ok () := by decide +kernel
  have hgiven : givenSheetRun.config.css = some "nav{color:red}" := rfl
  have hcss : givenSheetRun.sourceCss jammed = (.ok "nav{color:red}", jammed) := rfl
  have hsource : givenSheetRun.readSheet "nav{color:red}" =
      .ok [.item (.style ["nav"] [⟨"color", "red"⟩]) (some ⟨1, 1⟩)] := by decide +kernel
  obtain ⟨p, made, outcome, hturns, -, -, -, hopen, -⟩ :=
    run_shares_attempts hvalid hgiven hcss hsource true
  obtain ⟨hmade, -, hpages, -⟩ := hopen rfl
  have hacquired : made.map (·.2.toOption) = [none, none, some 0] := by
    rw [hmade]
    rfl
  exact ⟨hvalid, hgiven, hcss, hsource, ⟨p, made, hturns, hacquired⟩, hpages⟩

end Run

end CriticalCss
