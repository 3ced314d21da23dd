import CriticalCss.Proofs.Browser.Endings

/-!
# What opening a page depends on

Whether a page can be opened, and which number it gets, depends on three things: whether the session is
closed, how many of the next attempts fail, and how many pages were opened so far.  `Scene.prospects` are
the three things.  Work on pages that are there changes none of them, whether or not these pages are open.
-/

namespace CriticalCss

/-- What opening a page depends on. -/
structure Prospects where
  closed : Bool
  /-- How many of the next attempts fail. -/
  failing : Nat
  /-- How many pages were opened, which is the number of the next page. -/
  opened : Nat
deriving DecidableEq

namespace Scene

/-- What opening a page depends on in a scene. -/
def prospects (s : Scene) : Prospects :=
  ⟨s.session.closed, s.session.failingOpens, s.session.pagesOpened⟩

variable {s s' : Scene} {id patience : Nat}

theorem prospects_edit (s : Scene) (id : Nat) (p : Page) (events : List PageEvent) :
    (s.edit id p events).prospects = s.prospects :=
  congrArg (Prospects.mk _ _) (pagesOpened_edit s id p events)

/-- A page that is opened counts. -/
theorem prospects_addPage (s : Scene) :
    (s.onSession (·.addPage)).prospects =
      { s.prospects with opened := s.prospects.opened + 1 } :=
  congrArg (Prospects.mk _ _) List.length_append

/-- An action on a page changes nothing on which opening a page depends. -/
theorem Ends.prospects {α : Type} {x : Except RenderError α × Scene} (h : s.Ends id patience x) :
    x.2.prospects = s.prospects := by
  cases h with
  | fails => rfl
  | @edits a s' p p' events _ session =>
    have hsame : s'.prospects = (s.edit id p' events).prospects := by
      rw [Scene.prospects, Scene.prospects, session]
    exact hsame.trans (prospects_edit s id p' events)

end Scene

/-- Neither does closing a page. -/
theorem Page.prospects_close (id : Nat) (s : Scene) :
    (Page.close id s).2.prospects = s.prospects := by
  by_cases hopen : s.IsOpen id
  · obtain ⟨p, hpage, hclosed⟩ := Scene.isOpen_iff.1 hopen
    rw [close_run hpage hclosed]
    exact s.prospects_edit id { p with closed := true } [.closed]
  · have hrun : Page.close id s = (.error .pageClosed, s) := Act.openPage_bind_of_not_isOpen hopen _
    rw [hrun]

end CriticalCss
