import CriticalCss.Proofs.Run.Release

/-!
# Acquiring pages

The work on a page begins with acquiring it: up to four attempts are made, and none after one that finds
the session closed.  The attempts that are to fail are counted for the whole session, so the outcome
depends on what was opened before, and on nothing else that other pages do.

* `closing_continues` says that the work on a page and its closing leave alone what opening a page
  depends on, and that their errors are not errors of opening one.
* `Prospects.acquire` is what acquiring a page leads to, and `acquire_run` says so of the attempts.
* `step_start_of_error`, `step_start_of_ok` and `step_continues` are what the stages of the work do.
-/

namespace CriticalCss

namespace Run

variable {r : Run} {source : Stylesheet} {url : String} {page : Nat}

/-! ## Stages that open no page -/

/-- What a stage that opens no page leads to: opening a page depends on the same things as before, and
no error of opening one comes up. -/
structure Continues (x : Prospects) (outcome : Next (Except PageError Split) × Scene) : Prop where
  prospects : outcome.2.prospects = x
  later : ∀ e, outcome.1 = .done (.error e) → e.IsLater

theorem closing_continues {work : Work (Next Split)}
    (hwork : Keeps work (Next.StaysOn page) PageError.IsLater) (s : Scene) :
    Continues s.prospects (closing url page work s) := by
  have hclose : ∀ {s₁ : Scene}, s.Rests s₁ → (Page.close page s₁).2.prospects = s.prospects :=
    fun hrests => (Page.prospects_close page _).trans hrests.prospects
  have hkept := hwork s
  generalize hrun : work s = result at hkept
  cases hkept with
  | error rests later =>
    rw [closing_of_error hrun]
    refine ⟨hclose rests, ?_⟩
    intro e' he'
    cases he'
    exact later
  | @ok next s₁ rests _ =>
    cases next with
    | wait ms stage =>
      rw [closing_of_wait hrun]
      refine ⟨rests.prospects, ?_⟩
      intro e' he'
      cases he'
    | done split =>
      have hclosed := hclose rests
      cases hended : Page.close page s₁ with
      | mk ended s₂ =>
        rw [hended] at hclosed
        cases ended with
        | ok v =>
          rw [closing_of_closed hrun hended]
          refine ⟨hclosed, ?_⟩
          intro e' he'
          cases he'
        | error e =>
          rw [closing_of_unclosed hrun hended]
          refine ⟨hclosed, ?_⟩
          intro e' he' attempts hphase
          cases he'
          cases hphase

/-- The stages after the first one open no page. -/
theorem step_continues (r : Run) (source : Stylesheet) (url : String) {stage : Stage}
    (hstage : stage ≠ .start) (s : Scene) : Continues s.prospects (r.step source url stage s) := by
  cases stage with
  | start => exact absurd rfl hstage
  | fetching page response => exact closing_continues (r.keeps_arrive response) s
  | reading page path => exact closing_continues (r.keeps_readFile path) s
  | resting page => exact closing_continues r.keeps_settle s
  | picturing page => exact closing_continues r.keeps_picture s
  | watching page frame => exact closing_continues (r.keeps_look frame) s

end Run

/-! ## Attempts to open a page -/

/-- The error of a page for which all attempts have failed. -/
def PageError.crashed (url : String) (attempts : Nat) : PageError :=
  ⟨url, .acquisition attempts, .pageCreation "target crashed"⟩

/-- The error of a page for which an attempt has found the session closed. -/
def PageError.disconnected (url : String) (attempts : Nat) : PageError :=
  ⟨url, .acquisition attempts, .sessionClosed⟩

namespace Prospects

/-- What comes of acquiring a page after some attempts that failed, when some more attempts may be made
after the next one: a page or an error, and what opening the next page depends on. -/
def acquire (x : Prospects) (url : String) (failed retries : Nat) :
    Except PageError Nat × Prospects :=
  if x.closed = true then (.error (.disconnected url (failed + 1)), x)
  else if retries < x.failing then
    (.error (.crashed url (failed + retries + 1)), { x with failing := x.failing - (retries + 1) })
  else (.ok x.opened, { x with failing := 0, opened := x.opened + 1 })

variable {x : Prospects} {url : String} {failed retries : Nat}

theorem acquire_of_closed (h : x.closed = true) :
    x.acquire url failed retries = (.error (.disconnected url (failed + 1)), x) :=
  if_pos h

/-- An attempt that fails leaves one attempt less. -/
theorem acquire_of_failing (h : ¬x.closed = true) (hfailing : 0 < x.failing) :
    x.acquire url failed (retries + 1) =
      { x with failing := x.failing - 1 }.acquire url (failed + 1) retries := by
  rw [acquire, acquire, if_neg h, if_neg h]
  by_cases hmany : retries + 1 < x.failing
  · have hmore : retries < x.failing - 1 := by omega
    have hcount : failed + (retries + 1) + 1 = failed + 1 + retries + 1 := by omega
    have hleft : x.failing - (retries + 1 + 1) = x.failing - 1 - (retries + 1) := by omega
    rw [if_pos hmany, if_pos hmore, hcount, hleft]
  · have hfew : ¬retries < x.failing - 1 := by omega
    rw [if_neg hmany, if_neg hfew]

theorem acquire_of_ready (h : ¬x.closed = true) (hready : ¬0 < x.failing) :
    x.acquire url failed retries = (.ok x.opened, { x with opened := x.opened + 1 }) := by
  have hzero : x.failing = 0 := by omega
  rw [acquire, if_neg h, hzero, if_neg (Nat.not_lt_zero _)]

end Prospects

namespace Run

/-- The attempts to open a page lead to what opening a page depends on. -/
theorem acquire_run (url : String) (failed retries : Nat) (s : Scene) :
    ∃ s', acquire url failed retries s = ((s.prospects.acquire url failed retries).1, s') ∧
      s'.prospects = (s.prospects.acquire url failed retries).2 := by
  induction retries generalizing failed s with
  | zero =>
    by_cases hclosed : s.prospects.closed = true
    · rw [Prospects.acquire_of_closed hclosed]
      exact ⟨s, during_of_error (Session.newPage_of_closed hclosed), rfl⟩
    · by_cases hfailing : 0 < s.prospects.failing
      · rw [Prospects.acquire, if_neg hclosed, if_pos hfailing]
        exact ⟨_, during_of_error (Session.newPage_of_failing hclosed hfailing), rfl⟩
      · rw [Prospects.acquire_of_ready hclosed hfailing]
        exact ⟨_, during_of_ok (Session.newPage_of_ready hclosed hfailing), s.prospects_addPage⟩
  | succ retries ih =>
    by_cases hclosed : s.prospects.closed = true
    · rw [Prospects.acquire_of_closed hclosed]
      exact ⟨s, bind_of_ok (lift_of_run (Session.newPage_of_closed hclosed)), rfl⟩
    · by_cases hfailing : 0 < s.prospects.failing
      · have hnew := Session.newPage_of_failing hclosed hfailing
        have hstep : acquire url failed (retries + 1) s = _ := bind_of_ok (lift_of_run hnew)
        rw [hstep, Prospects.acquire_of_failing hclosed hfailing]
        exact ih (failed + 1) (s.onSession fun t => { t with failingOpens := t.failingOpens - 1 })
      · have hnew := Session.newPage_of_ready hclosed hfailing
        rw [Prospects.acquire_of_ready hclosed hfailing]
        exact ⟨_, bind_of_ok (lift_of_run hnew), s.prospects_addPage⟩

/-! ## The first stage -/

variable (r : Run) (source : Stylesheet) {url : String} {s : Scene}

/-- The attempts of the first stage of a page. -/
theorem acquire_fst (url : String) (s : Scene) :
    (acquire url 0 acquireRetries s).1 = (s.prospects.acquire url 0 acquireRetries).1 := by
  obtain ⟨s', hacquire, -⟩ := acquire_run url 0 acquireRetries s
  rw [hacquire]

/-- Without a page the work on it ends at once. -/
theorem step_start_of_error {e : PageError}
    (h : (s.prospects.acquire url 0 acquireRetries).1 = .error e) :
    (r.step source url .start s).1 = .done (.error e) ∧
      (r.step source url .start s).2.prospects = (s.prospects.acquire url 0 acquireRetries).2 := by
  obtain ⟨s', hacquire, hprospects⟩ := acquire_run url 0 acquireRetries s
  rw [h] at hacquire
  rw [r.step_of_unacquired source hacquire]
  exact ⟨rfl, hprospects⟩

/-- With a page the work on it goes on. -/
theorem step_start_of_ok {page : Nat}
    (h : (s.prospects.acquire url 0 acquireRetries).1 = .ok page) :
    Continues (s.prospects.acquire url 0 acquireRetries).2 (r.step source url .start s) := by
  obtain ⟨s', hacquire, hprospects⟩ := acquire_run url 0 acquireRetries s
  rw [h] at hacquire
  rw [r.step_of_acquired source hacquire, ← hprospects]
  exact closing_continues r.keeps_navigate s'

end Run

end CriticalCss
