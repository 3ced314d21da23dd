import CriticalCss.Run.Task

/-!
# Work on several pages

A pool works on the pages of a run, on no more than a given number at once.  The page that has been
ready longest is worked on up to its next wait; when none is ready, time passes until the first wait
is over.  A page that is finished makes room for the next one.  The work ends because every step
lowers `Pool.toDo`, and waking pages lowers the number of those that sleep.
-/

namespace CriticalCss

/-- The work on one page of a run. -/
structure Task where
  /-- The place of the page among the pages of the run. -/
  index : Nat
  url : String
  stage : Stage

/-- The work on the pages of a run. -/
structure Pool where
  /-- Tasks for which there is no room yet. -/
  waiting : List Task
  ready : List Task
  /-- Tasks and the times at which they go on. -/
  sleeping : List (Nat × Task)
  results : List (Nat × Except PageError Split)

namespace Pool

/-- The pool that begins with the first tasks. -/
def ofUrls (urls : List String) (concurrency : Nat) : Pool :=
  let tasks := urls.zipIdx.map fun (url, index) => ⟨index, url, .start⟩
  ⟨tasks.drop concurrency, tasks.take concurrency, [], []⟩

/-- What the stages of some tasks still need. -/
def toDoIn (loadTimeout : Nat) (tasks : List Task) : Nat :=
  tasks.foldr (fun t n => t.stage.rank loadTimeout + n) 0

/-- What the stages of all tasks still need. -/
def toDo (loadTimeout : Nat) (p : Pool) : Nat :=
  toDoIn loadTimeout p.waiting + toDoIn loadTimeout p.ready +
    toDoIn loadTimeout (p.sleeping.map (·.2))

/-- The earliest time at which a task goes on. -/
def firstWake? (p : Pool) : Option Nat :=
  (p.sleeping.map (·.1)).min?

/-- Wakes the tasks that go on by a point in time. -/
def wake (p : Pool) (time : Nat) : Pool :=
  { p with
    ready := p.ready ++ (p.sleeping.filter fun e => decide (e.1 ≤ time)).map (·.2)
    sleeping := p.sleeping.filter fun e => !decide (e.1 ≤ time) }

/-- Notes a result and makes room for a task. -/
def finish (p : Pool) (index : Nat) (result : Except PageError Split) : Pool :=
  { p with
    waiting := p.waiting.drop 1
    ready := p.ready ++ p.waiting.take 1
    results := p.results ++ [(index, result)] }

/-- Puts a task back that waits, at a point in time. -/
def putBack (p : Pool) (now ms : Nat) (t : Task) : Pool :=
  if ms = 0 then { p with ready := p.ready ++ [t] }
  else { p with sleeping := p.sleeping ++ [(now + ms, t)] }

@[simp] theorem toDoIn_append (t : Nat) (a b : List Task) :
    toDoIn t (a ++ b) = toDoIn t a + toDoIn t b := by
  induction a with
  | nil => exact (Nat.zero_add _).symm
  | cons task a ih =>
    show task.stage.rank t + toDoIn t (a ++ b) = task.stage.rank t + toDoIn t a + toDoIn t b
    rw [ih, Nat.add_assoc]

@[simp] theorem toDoIn_cons (t : Nat) (a : Task) (b : List Task) :
    toDoIn t (a :: b) = a.stage.rank t + toDoIn t b := rfl

@[simp] theorem toDoIn_nil (t : Nat) : toDoIn t [] = 0 := rfl

theorem toDo_finish (t : Nat) (p : Pool) (index : Nat) (result : Except PageError Split) :
    (p.finish index result).toDo t = p.toDo t := by
  have := congrArg (toDoIn t) (List.take_append_drop 1 p.waiting)
  rw [toDoIn_append] at this
  simp only [finish, toDo, toDoIn_append]
  omega

theorem toDo_putBack (t : Nat) (p : Pool) (now ms : Nat) (task : Task) :
    (p.putBack now ms task).toDo t = p.toDo t + task.stage.rank t := by
  unfold putBack
  split <;> simp [toDo] <;> omega

theorem toDoIn_filter (t : Nat) (keep : Nat × Task → Bool) (sleeping : List (Nat × Task)) :
    toDoIn t ((sleeping.filter keep).map (·.2)) +
      toDoIn t ((sleeping.filter (!keep ·)).map (·.2)) = toDoIn t (sleeping.map (·.2)) := by
  induction sleeping with
  | nil => rfl
  | cons e more ih => cases h : keep e <;> simp [h] <;> omega

theorem toDo_wake (t : Nat) (p : Pool) (time : Nat) : (p.wake time).toDo t = p.toDo t := by
  have := toDoIn_filter t (fun e => decide (e.1 ≤ time)) p.sleeping
  simp only [wake, toDo, toDoIn_append]
  omega

theorem length_sleeping_wake {p : Pool} {time : Nat} (h : p.firstWake? = some time) :
    (p.wake time).sleeping.length < p.sleeping.length := by
  obtain ⟨e, he, rfl⟩ := List.mem_map.1 (List.min?_mem h)
  exact List.length_filter_lt_length_iff_exists.2 ⟨e, he, by simp⟩

/-- Works on all tasks to their ends. -/
def run (r : Run) (source : Stylesheet) (p : Pool) (s : Scene) :
    List (Nat × Except PageError Split) × Scene :=
  match _hp : p.ready with
  | t :: more =>
    match _hn : r.step source t.url t.stage s with
    | (.done result, s') => run r source ({ p with ready := more }.finish t.index result) s'
    | (.wait ms stage, s') =>
      run r source ({ p with ready := more }.putBack s'.now ms { t with stage }) s'
  | [] =>
    match _ht : p.firstWake? with
    | none => (p.results, s)
    | some time => run r source (p.wake time) (s.pass (time - s.now))
termination_by (p.toDo r.probe.loadTimeout, p.sleeping.length)
decreasing_by
  · have := t.stage.rank_pos r.probe.loadTimeout
    refine Prod.Lex.left _ _ ?_
    rw [toDo_finish]
    simp only [toDo, _hp, toDoIn_cons]
    omega
  · have := r.rank_lt_of_step source t.url (by rw [_hn] : _ = Next.wait ms stage)
    refine Prod.Lex.left _ _ ?_
    rw [toDo_putBack]
    simp only [toDo, _hp, toDoIn_cons]
    omega
  · rw [toDo_wake]
    exact Prod.Lex.right _ (length_sleeping_wake _ht)

section Turns

variable {r : Run} {source : Stylesheet} {p : Pool} {s s' : Scene} {t : Task} {more : List Task}

theorem run_of_done {result : Except PageError Split} (hready : p.ready = t :: more)
    (hstep : r.step source t.url t.stage s = (.done result, s')) :
    run r source p s = run r source ({ p with ready := more }.finish t.index result) s' := by
  rw [run]
  split
  · next heq =>
    cases hready.symm.trans heq
    split
    · next heq => cases hstep.symm.trans heq; rfl
    · next heq => cases hstep.symm.trans heq
  · next heq => cases hready.symm.trans heq

theorem run_of_wait {ms : Nat} {stage : Stage} (hready : p.ready = t :: more)
    (hstep : r.step source t.url t.stage s = (.wait ms stage, s')) :
    run r source p s =
      run r source ({ p with ready := more }.putBack s'.now ms { t with stage }) s' := by
  rw [run]
  split
  · next heq =>
    cases hready.symm.trans heq
    split
    · next heq => cases hstep.symm.trans heq
    · next heq => cases hstep.symm.trans heq; rfl
  · next heq => cases hready.symm.trans heq

theorem run_of_asleep (hready : p.ready = []) (hfirst : p.firstWake? = none) :
    run r source p s = (p.results, s) := by
  rw [run]
  split
  · next heq => cases hready.symm.trans heq
  · split
    · rfl
    · next heq => cases hfirst.symm.trans heq

theorem run_of_wake {time : Nat} (hready : p.ready = []) (hfirst : p.firstWake? = some time) :
    run r source p s = run r source (p.wake time) (s.pass (time - s.now)) := by
  rw [run]
  split
  · next heq => cases hready.symm.trans heq
  · split
    · next heq => cases hfirst.symm.trans heq
    · next heq => cases hfirst.symm.trans heq; rfl

end Turns

/-- Induction along the turns of a pool. -/
@[elab_as_elim]
theorem run_induction (r : Run) (source : Stylesheet) {motive : Pool → Scene → Prop}
    (done : ∀ p s t more, p.ready = t :: more → ∀ result s',
      r.step source t.url t.stage s = (.done result, s') →
        motive ({ p with ready := more }.finish t.index result) s' → motive p s)
    (wait : ∀ p s t more, p.ready = t :: more → ∀ ms stage s',
      r.step source t.url t.stage s = (.wait ms stage, s') →
        motive ({ p with ready := more }.putBack s'.now ms { t with stage }) s' → motive p s)
    (asleep : ∀ p s, p.ready = [] → p.firstWake? = none → motive p s)
    (wake : ∀ p s, p.ready = [] → ∀ time, p.firstWake? = some time →
      motive (p.wake time) (s.pass (time - s.now)) → motive p s)
    (p : Pool) (s : Scene) : motive p s :=
  run.induct r source motive done wait asleep wake p s

end Pool

/-- The outcome of the work on one page. -/
structure PageResult where
  url : String
  outcome : Except PageError Split

/-- Splits a style sheet for every page of a run; the results come in the order of the pages. -/
def Run.evaluatePages (r : Run) (source : Stylesheet) : StateM Scene (List PageResult) := fun s =>
  let (results, s) := (Pool.ofUrls r.config.urls r.config.concurrency).run r source s
  (r.config.urls.zipIdx.filterMap fun (url, index) => (results.lookup index).map (⟨url, ·⟩), s)

end CriticalCss
