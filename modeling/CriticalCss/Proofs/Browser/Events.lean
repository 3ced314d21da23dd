import CriticalCss.Proofs.Browser.Openings

/-!
# What a page writes into the log

Every action on an open page says in the log what it did, under the number of the page, and leaves
the other pages alone.

* `Scene.Writes` says which events an action on a page adds to the log and what becomes of the page.
  `writes_edit` and `writes_retire` read this off the equations of the actions.
* `Writes.eventsOf_self` and `Writes.eventsOf_of_ne` say what this means for the events of the page
  and of the others.
-/

namespace CriticalCss

namespace Session

theorem eventsOf_append {s s' : Session} {more : List (Nat × PageEvent)}
    (h : s'.log = s.log ++ more) (id : Nat) :
    s'.eventsOf id = s.eventsOf id ++ (more.filter (·.1 = id)).map (·.2) := by
  rw [eventsOf, h, List.filter_append, List.map_append]
  rfl

/-- The log speaks only of pages that have been opened. -/
def IsFaithful (s : Session) : Prop :=
  ∀ e ∈ s.log, e.1 < s.pagesOpened

/-- A page that has not been opened has done nothing. -/
theorem IsFaithful.eventsOf_eq_nil {s : Session} (h : s.IsFaithful) {id : Nat}
    (hid : s.pagesOpened ≤ id) : s.eventsOf id = [] := by
  have hnone : s.log.filter (·.1 = id) = [] := by
    rw [List.filter_eq_nil_iff]
    intro e he hpage
    have := h e he
    rw [of_decide_eq_true hpage] at this
    omega
  rw [eventsOf, hnone]
  rfl

theorem IsFaithful.append {s s' : Session} (h : s.IsFaithful) {more : List (Nat × PageEvent)}
    (hlog : s'.log = s.log ++ more) (hnumber : s.pagesOpened ≤ s'.pagesOpened)
    (hmore : ∀ e ∈ more, e.1 < s'.pagesOpened) : s'.IsFaithful := by
  intro e he
  rw [hlog] at he
  rcases List.mem_append.1 he with he | he
  · exact Nat.lt_of_lt_of_le (h e he) hnumber
  · exact hmore e he

theorem IsFaithful.addPage {s : Session} (h : s.IsFaithful) : s.addPage.IsFaithful := by
  have hnumber : s.addPage.pagesOpened = s.pagesOpened + 1 := List.length_append
  refine h.append rfl (by omega) fun e he => ?_
  rw [List.mem_singleton.1 he, hnumber]
  exact Nat.lt_succ_self _

end Session

namespace Scene

/-- A scene goes on to another one in which one page has become the given one and has written some
events into the log.  The other pages are the same, and no page is opened. -/
structure Writes (s s' : Scene) (id : Nat) (p : Page) (events : List PageEvent) : Prop where
  page : s'.page? id = some p
  others : ∀ q, q ≠ id → s'.page? q = s.page? q
  number : s'.session.pagesOpened = s.session.pagesOpened
  log : s'.session.log = s.session.log ++ events.map (id, ·)
  now : s'.now = s.now

variable {s s' s'' : Scene} {id q : Nat} {p p' : Page} {events more : List PageEvent}

theorem Writes.refl (h : s.page? id = some p) : s.Writes s id p [] :=
  ⟨h, fun _ _ => rfl, rfl, (List.append_nil _).symm, rfl⟩

theorem Writes.trans (h : s.Writes s' id p events) (h' : s'.Writes s'' id p' more) :
    s.Writes s'' id p' (events ++ more) where
  page := h'.page
  others q hq := (h'.others q hq).trans (h.others q hq)
  number := h'.number.trans h.number
  log := by rw [h'.log, h.log, List.map_append, List.append_assoc]
  now := h'.now.trans h.now

/-- The events of the page that writes. -/
theorem Writes.eventsOf_self (h : s.Writes s' id p events) :
    s'.session.eventsOf id = s.session.eventsOf id ++ events := by
  rw [Session.eventsOf_append h.log]
  simp [List.filter_map, List.map_map, Function.comp_def]

/-- The events of any other page. -/
theorem Writes.eventsOf_of_ne (h : s.Writes s' id p events) (hq : q ≠ id) :
    s'.session.eventsOf q = s.session.eventsOf q := by
  rw [Session.eventsOf_append h.log]
  simp [List.filter_map, Function.comp_def, hq.symm]

theorem Writes.isFaithful (h : s.Writes s' id p events) (hfaithful : s.session.IsFaithful) :
    s'.session.IsFaithful := by
  refine hfaithful.append h.log (Nat.le_of_eq h.number.symm) fun e he => ?_
  obtain ⟨event, -, rfl⟩ := List.mem_map.1 he
  exact (List.getElem?_eq_some_iff.1 h.page).1

/-- Only pages that are there write while none is opened or closed. -/
theorem Quiet.isFaithful (h : s.Quiet s') (hfaithful : s.session.IsFaithful) :
    s'.session.IsFaithful := by
  obtain ⟨more, hlog, hmore⟩ := h.log
  have hsame : s.session.pagesOpened = s'.session.pagesOpened := by
    rw [← length_closedPages, ← length_closedPages, h.closedPages]
  refine hfaithful.append hlog (Nat.le_of_eq hsame) fun e he => ?_
  rw [← hsame]
  exact (hmore e he).1.lt_pagesOpened

theorem writes_edit (h : s.page? id = some p) (p' : Page) (events : List PageEvent) :
    s.Writes (s.edit id p' events) id p' events :=
  ⟨page_edit h p' events, fun _ hq => page_edit_of_ne hq p' events, pagesOpened_edit s id p' events,
    rfl, rfl⟩

/-- The files are not part of what pages notice. -/
theorem writes_files (h : s.page? id = some p) (files : Files) :
    s.Writes { s with files } id p [] :=
  ⟨h, fun _ _ => rfl, rfl, (List.append_nil _).symm, rfl⟩

theorem writes_retire (h : s.page? id = some p) (events : List PageEvent) :
    s.Writes (s.retire id p events) id { p with closed := true } events :=
  ⟨page_edit h _ events, fun _ hq => page_edit_of_ne hq _ events, pagesOpened_edit s id _ events,
    rfl, rfl⟩

end Scene

end CriticalCss
