import CriticalCss.Browser.Page
import CriticalCss.Probe.Evaluate

/-!
# Watching a page load

A probe looks at a page once in every frame until the page has loaded.  A page that has not loaded when
the load timeout has passed is stopped, so that late elements never appear.
-/

namespace CriticalCss.Probe

/-- How many milliseconds a frame takes. -/
def frameTime : Nat := 16

/-- Looks at a page when some frames have passed; the result tells whether to look again. -/
def look (p : Probe) (id frame : Nat) : Act Bool := do
  if ← Page.isLoading id then
    if p.loadTimeout ≤ frame * frameTime then
      Page.stop id
      return false
    return true
  return false

/-- Watches a page, given how many frames have passed. -/
def watchFrom (p : Probe) (id frame : Nat) : Act Unit := do
  let again ← p.look id frame
  if _h : p.loadTimeout ≤ frame * frameTime then return
  if again then
    Act.wait frameTime
    p.watchFrom id (frame + 1)
termination_by p.loadTimeout - frame * frameTime
decreasing_by simp only [frameTime] at *; omega

/-- Watches a page until it has loaded or is stopped. -/
def watch (p : Probe) (id : Nat) : Act Unit :=
  p.watchFrom id 0

/-- The critical selectors of a style sheet on a page. -/
def run (p : Probe) (id : Nat) (sheet : Stylesheet) : Act CriticalMap := do
  p.watch id
  return p.evaluate (← Page.document id) sheet

end CriticalCss.Probe
