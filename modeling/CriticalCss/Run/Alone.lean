import CriticalCss.Run.Pool

/-!
# Work on one page alone

When nothing else is worked on, the stages of a page follow one another, and every wait lets its time
pass.  The work ends because every stage leads closer to the end.
-/

namespace CriticalCss.Run

/-- Works on a page from a stage to its end. -/
def workAlone (r : Run) (source : Stylesheet) (url : String) (stage : Stage) (s : Scene) :
    Except PageError Split × Scene :=
  match _h : r.step source url stage s with
  | (.done result, s') => (result, s')
  | (.wait ms next, s') => r.workAlone source url next (s'.pass ms)
termination_by stage.rank r.probe.loadTimeout
decreasing_by exact r.rank_lt_of_step source url (by rw [_h])

/-- Induction along the steps of the work on a page. -/
@[elab_as_elim]
theorem workAlone_induction (r : Run) (source : Stylesheet) (url : String)
    {motive : Stage → Scene → Prop}
    (done : ∀ stage s result s', r.step source url stage s = (.done result, s') → motive stage s)
    (wait : ∀ stage s ms next s', r.step source url stage s = (.wait ms next, s') →
      motive next (s'.pass ms) → motive stage s)
    (stage : Stage) (s : Scene) : motive stage s :=
  workAlone.induct r source url motive done wait stage s

/-- Splits a style sheet for one page. -/
def evaluatePage (r : Run) (source : Stylesheet) (url : String) : StateM Scene PageResult := fun s =>
  let (outcome, s) := r.workAlone source url .start s
  (⟨url, outcome⟩, s)

end CriticalCss.Run
