import CriticalCss.Proofs.Browser.Events
import Mathlib.Algebra.Order.Floor.Div

/-!
# How long a page is watched

A probe looks at a page at the moment of the call and then once in every frame.  The page may have
begun to load some time before, so the looks and the end of loading do not fall on the same grid.

* `Probe.Looks` is the trace of the looks that lead from one scene to another, and
  `Looks.watchFrom_run` says that watching the page is such a trace.
* `exists_looks` follows the looks from one frame to the last one and tells what they leave behind.
* `run_verdict` says what this means for a probe: how often it looks, when it stops the page, and in
  which document it evaluates a style sheet.
-/

namespace CriticalCss

/-! ## Whether a page has loaded -/

namespace Loaded

variable {l : Loaded} {now age : Nat}

/-- What is shown for some time has loaded when that is as long as it takes. -/
theorem isComplete_eq (h : now = l.started + age) :
    l.isComplete now = (!l.stopped && decide (l.snapshot.loadTime ≤ age)) := by
  rw [isComplete, h, Nat.add_sub_cancel_left]

theorem isLoading_iff (h : now = l.started + age) :
    l.isLoading now = true ↔ l.stopped = false ∧ age < l.snapshot.loadTime := by
  rw [isLoading, isComplete_eq h]
  cases l.stopped <;> simp

end Loaded

namespace Probe

/-! ## Looks -/

/-- The probe looks at a page in a frame, and again in every frame after it until there is no need
to: so many looks lead from one scene to another. -/
inductive Looks (probe : Probe) (id : Nat) : Nat → Nat → Scene → Scene → Prop where
  | last {frame : Nat} {s s' : Scene} (look : probe.look id frame s = (.ok false, s')) :
    Looks probe id frame 1 s s'
  | again {frame looks : Nat} {s s' s'' : Scene} (look : probe.look id frame s = (.ok true, s'))
    (more : Looks probe id (frame + 1) looks (s'.pass frameTime) s'') :
    Looks probe id frame (looks + 1) s s''

variable {probe : Probe} {id frame looks : Nat} {s s' : Scene}

/-- A page is looked at again only while the time for it has not passed. -/
theorem early_of_look (h : probe.look id frame s = (.ok true, s')) :
    frame * frameTime < probe.loadTimeout := by
  by_contra hlate
  replace hlate := Nat.le_of_not_lt hlate
  cases hloading : Page.isLoading id s with
  | mk result t =>
    cases result with
    | error e =>
      rw [look, bind_of_error hloading] at h
      cases h
    | ok loading =>
      rw [look, bind_of_ok hloading] at h
      cases loading with
      | false => cases h
      | true =>
        simp only [if_true, if_pos hlate] at h
        cases hstop : Page.stop id t with
        | mk stopped t' =>
          cases stopped with
          | error e =>
            rw [bind_of_error hstop] at h
            cases h
          | ok _ =>
            rw [bind_of_ok hstop] at h
            cases h

/-- To watch a page is to look at it as often as there is need to. -/
theorem Looks.watchFrom_run (h : probe.Looks id frame looks s s') :
    probe.watchFrom id frame s = (.ok (), s') := by
  induction h with
  | @last frame s s' look =>
    rw [watchFrom, bind_of_ok look]
    split <;> rfl
  | @again frame looks s s' s'' look more ih =>
    have hwait : Act.wait frameTime s' = (.ok (), s'.pass frameTime) := rfl
    rw [watchFrom, bind_of_ok look, dif_neg (Nat.not_le.2 (early_of_look look)), if_pos rfl,
      bind_of_ok hwait]
    exact ih

/-! ## What the looks leave behind -/

variable {page : Page} {l : Loaded} {d : Nat}

/-- Whether a page that began to load some time before the first look loads before the last one. -/
def loadsInTime (probe : Probe) (l : Loaded) (d : Nat) : Bool :=
  !l.stopped && decide (l.snapshot.loadTime ≤ d + frameTime * (probe.loadTimeout ⌈/⌉ frameTime))

theorem loadsInTime_eq (probe : Probe) (l : Loaded) (d : Nat) :
    probe.loadsInTime l d =
      (!l.stopped && decide (l.snapshot.loadTime ≤ d + probe.lastFrame * frameTime)) := by
  rw [Nat.mul_comm]
  rfl

/-- What a probe leaves behind that looks at a page from a scene on, some times after the first: a
page that loads before the last look is complete, any other page that was not stopped before is
stopped, and this is written. -/
structure Leaves (probe : Probe) (s s' : Scene) (id : Nat) (page : Page) (l : Loaded) (d looks : Nat) :
    Prop where
  now : s'.now = s.now + looks * frameTime
  log : s'.session.log = s.session.log ++
    if !l.stopped && !probe.loadsInTime l d then [(id, .stopped)] else []
  shows : ∃ l', s'.page? id = some { page with current := some l' } ∧ l'.snapshot = l.snapshot ∧
    l'.isComplete s'.now = probe.loadsInTime l d

/-- One look and a wait before the others. -/
theorem Leaves.of_pass (h : probe.Leaves (s.pass frameTime) s' id page l d looks) :
    probe.Leaves s s' id page l d (looks + 1) where
  now := by
    rw [h.now, Nat.succ_mul, Nat.add_comm _ frameTime, ← Nat.add_assoc]
    rfl
  log := h.log
  shows := h.shows

/-- A page that is not loading in some frame was stopped before or loads in time. -/
theorem leaves_of_loaded (h : s.page? id = some page) (hcurrent : page.current = some l)
    (hnow : s.now = l.started + (d + frame * frameTime)) (hframe : frame ≤ probe.lastFrame)
    (hloaded : l.isLoading s.now = false) : probe.Leaves s s id page l d 0 := by
  have hframes : frame * frameTime ≤ probe.lastFrame * frameTime := Nat.mul_le_mul_right _ hframe
  have hcomplete : l.isComplete s.now = probe.loadsInTime l d := by
    rw [Loaded.isComplete_eq hnow, loadsInTime_eq]
    rw [← Bool.not_eq_true, Loaded.isLoading_iff hnow] at hloaded
    cases hstopped : l.stopped with
    | true => rfl
    | false =>
      have htime : l.snapshot.loadTime ≤ d + frame * frameTime := by
        by_contra hlate
        exact hloaded ⟨hstopped, Nat.lt_of_not_le hlate⟩
      rw [decide_eq_true htime, decide_eq_true (by omega)]
  refine ⟨by rw [Nat.zero_mul, Nat.add_zero], ?_, l, ?_, rfl, hcomplete⟩
  · -- a page that is neither loading nor complete was stopped
    have hquiet : (!l.stopped && !probe.loadsInTime l d) = false := by
      rw [← hcomplete]
      exact hloaded
    rw [hquiet]
    exact (List.append_nil _).symm
  · rw [h, ← hcurrent]

/-- A page that is loading in the last frame is stopped, and did not load in time. -/
theorem leaves_of_stopped (hnow : s.now = l.started + (d + probe.lastFrame * frameTime))
    (hloading : l.isLoading s.now = true)
    (hwrites : s.Writes s' id { page with current := some (l.stop s.now) } [.stopped]) :
    probe.Leaves s s' id page l d 0 := by
  obtain ⟨hrunning, hlate⟩ := (Loaded.isLoading_iff hnow).1 hloading
  have hverdict : probe.loadsInTime l d = false := by
    rw [loadsInTime_eq, decide_eq_false (Nat.not_le.2 hlate), Bool.and_false]
  have hstop : l.stop s.now = { l with stopped := true } := by
    rw [Loaded.stop, Loaded.isComplete_eq hnow, ← loadsInTime_eq, hverdict]
    rfl
  refine ⟨?_, ?_, l.stop s.now, hwrites.page, ?_, ?_⟩
  · rw [hwrites.now, Nat.zero_mul, Nat.add_zero]
  · rw [hwrites.log, hrunning, hverdict]
    rfl
  · rw [hstop]
  · rw [hstop, hverdict]
    rfl

/-- A page is looked at from a frame on until it has loaded or is stopped. -/
theorem exists_looks (h : s.page? id = some page) (hopen : page.closed = false)
    (hcurrent : page.current = some l) (hnow : s.now = l.started + (d + frame * frameTime))
    (hframe : frame ≤ probe.lastFrame) :
    ∃ looks s', probe.Looks id frame (looks + 1) s s' ∧ frame + looks ≤ probe.lastFrame ∧
      probe.Leaves s s' id page l d looks := by
  -- the induction is on the number of frames up to the last one
  induction hleft : probe.lastFrame - frame using Nat.strongRecOn generalizing frame s with
  | _ left ih =>
    cases hloading : l.isLoading s.now with
    | false =>
      exact ⟨0, s, .last (look_run_of_loaded _ h hopen hcurrent hloading frame), hframe,
        leaves_of_loaded h hcurrent hnow hframe hloading⟩
    | true =>
      rcases Nat.eq_or_lt_of_le hframe with rfl | hlt
      · have hlook := look_run_of_late h hopen hcurrent hloading
          ((probe.lastFrame_le_iff _).1 (Nat.le_refl _))
        have hwrites := Scene.writes_edit h { page with current := some (l.stop s.now) } [.stopped]
        exact ⟨0, _, .last hlook, hframe, leaves_of_stopped hnow hloading hwrites⟩
      · have hearly : frame * frameTime < probe.loadTimeout := by
          rw [← Nat.not_le, ← lastFrame_le_iff]
          exact Nat.not_le.2 hlt
        have hnext : (s.pass frameTime).now = l.started + (d + (frame + 1) * frameTime) := by
          show s.now + frameTime = _
          rw [hnow, Nat.succ_mul]
          omega
        obtain ⟨looks, s', hlooks, hle, hleaves⟩ :=
          ih _ (by omega) (s := s.pass frameTime) h hnext hlt rfl
        exact ⟨looks + 1, s', .again (look_run_of_early h hopen hcurrent hloading hearly) hlooks,
          by omega, hleaves.of_pass⟩

/-! ## The verdict -/

/-- A probe that is run on an open page looks at it once in every frame, at most once more often
than frames begin before the load timeout.  A page that was not stopped before, has been loading for
some time at the call and is to load when the last of these frames has passed, or before, is
complete in the end and nothing is written; any later page is stopped, and this is written.  The
style sheet is evaluated in the layout with late elements exactly when the page is complete. -/
theorem run_verdict (probe : Probe) {s : Scene} {id d : Nat} {page : Page} {l : Loaded}
    (hpage : s.page? id = some page) (hopen : page.closed = false) (hcurrent : page.current = some l)
    (hnow : s.now = l.started + d) (sheet : Stylesheet) :
    ∃ looks s', probe.Looks id 0 looks s s' ∧
      looks ≤ probe.loadTimeout ⌈/⌉ frameTime + 1 ∧
      s'.now = s.now + (looks - 1) * frameTime ∧
      s'.session.log = s.session.log ++
        (if l.stopped = false ∧ d + frameTime * (probe.loadTimeout ⌈/⌉ frameTime) < l.snapshot.loadTime
          then [(id, .stopped)] else []) ∧
      probe.run id sheet s =
        (.ok (probe.evaluate (l.snapshot.layout page.device.viewport
          (decide (l.stopped = false ∧
            l.snapshot.loadTime ≤ d + frameTime * (probe.loadTimeout ⌈/⌉ frameTime)))) sheet), s') := by
  have hstart : s.now = l.started + (d + 0 * frameTime) := by
    rw [hnow, Nat.zero_mul, Nat.add_zero]
  obtain ⟨looks, s', hlooks, hle, hleaves⟩ :=
    exists_looks hpage hopen hcurrent hstart (Nat.zero_le probe.lastFrame)
  obtain ⟨l', hshown, hsnapshot, hcomplete⟩ := hleaves.shows
  refine ⟨looks + 1, s', hlooks, ?_, hleaves.now, ?_, ?_⟩
  · rw [Nat.zero_add] at hle
    exact Nat.succ_le_succ hle
  · rw [hleaves.log]
    refine congrArg _ (if_congr ?_ rfl rfl)
    cases hstopped : l.stopped <;> simp [loadsInTime, hstopped]
  · have hdocument := Page.document_run hshown hopen rfl
    have hverdict : probe.loadsInTime l d = decide (l.stopped = false ∧
        l.snapshot.loadTime ≤ d + frameTime * (probe.loadTimeout ⌈/⌉ frameTime)) := by
      cases hstopped : l.stopped <;> simp [loadsInTime, hstopped]
    rw [run, watch, bind_of_ok hlooks.watchFrom_run, bind_of_ok hdocument, hsnapshot, hcomplete,
      hverdict]
    rfl

/-- A page that shows a document from the start and has an element that appears late. -/
def slowPage : Page :=
  { Page.fresh with
    current := some ⟨"http://slow.test/", ⟨{ Element.named "html" with
      children := [{ Element.named "nav" with late := true }] }, [], [], 300⟩, 0, false⟩ }

/-- The page has been loading for a hundred milliseconds. -/
def slowScene : Scene :=
  ⟨{ Session.empty with pages := [slowPage], openPages := 1, peakPages := 1 }, .empty, 100⟩

/-- A probe that waits forty milliseconds looks at the page in four frames at most and stops it, so
that the late element is not found. -/
theorem run_verdict_slowScene :
    slowScene.page? 0 = some slowPage ∧ slowPage.closed = false ∧
      ∃ looks s', (ofTexts [] [] 40).Looks 0 0 looks slowScene s' ∧ looks ≤ 4 ∧
        s'.session.log = [(0, .stopped)] ∧
        (ofTexts [] [] 40).run 0 [.ofStyle ["nav", "html"] [⟨"color", "red"⟩]] slowScene =
          (.ok ⟨[("nav,html", ⟨["html"], .rule⟩)]⟩, s') := by
  have hpage : slowScene.page? 0 = some slowPage := rfl
  obtain ⟨looks, s', hlooks, hle, -, hlog, hrun⟩ := run_verdict (ofTexts [] [] 40) hpage rfl rfl
    (show slowScene.now = 0 + 100 from rfl) [.ofStyle ["nav", "html"] [⟨"color", "red"⟩]]
  refine ⟨hpage, rfl, looks, s', hlooks, hle, hlog, hrun.trans ?_⟩
  refine congrArg (fun found => (Except.ok found, s')) ?_
  decide +kernel

end Probe

end CriticalCss
