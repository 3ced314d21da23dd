import CriticalCss.Proofs.Browser.Prospects
import Mathlib.Data.List.Nodup

/-!
# Opening and closing pages

A session counts its open pages, and every opening and closing stands in its log.  Here is what each
action does to the count, the log and the pages as far as they are open or closed.

* `Scene.Quiet` says that nothing was opened or closed, and `Scene.Rests` that opening a page depends on
  the same things as well.  Every action on a page but closing it and giving it up does so (`Ends.rests`).
* `Keeps` says of a sequence of actions that the scene rests and what the sequence may end with.
* `Page.close_closes` and `Session.newPage_cases` are the actions that close and open a page.
* `Accounts` is what a log says of the pages that are held, and `Scene.Holds` what a whole scene
  says.  `Holds.quiet`, `Holds.addPage` and `Holds.close` are what the actions do to it.
-/

namespace CriticalCss

namespace Scene

/-- A scene goes on to another one without any page being opened, closed or given up, and only open
pages write into the log. -/
structure Quiet (s s' : Scene) : Prop where
  closedPages : s'.closedPages = s.closedPages
  openPages : s'.session.openPages = s.session.openPages
  peakPages : s'.session.peakPages = s.session.peakPages
  log : ∃ events, s'.session.log = s.session.log ++ events ∧
    ∀ e ∈ events, s.IsOpen e.1 ∧ e.2 ≠ .opened ∧ e.2 ≠ .closed

/-- A scene goes on quietly to another one in which opening a page depends on the same things. -/
structure Rests (s s' : Scene) : Prop extends s.Quiet s' where
  prospects : s'.prospects = s.prospects

/-- A scene goes on to another one with the same pages and the same log. -/
structure Idles (s s' : Scene) : Prop where
  pages : s'.session.pages = s.session.pages
  openPages : s'.session.openPages = s.session.openPages
  peakPages : s'.session.peakPages = s.session.peakPages
  log : s'.session.log = s.session.log

/-- A scene goes on to another one in which a page has been closed. -/
structure Closes (s s' : Scene) (id : Nat) : Prop where
  closedPages : s'.closedPages = s.closedPages.set id true
  openPages : s'.session.openPages = s.session.openPages - 1
  peakPages : s'.session.peakPages = s.session.peakPages
  log : s'.session.log = s.session.log ++ [(id, .closed)]

variable {s s' s'' : Scene} {id : Nat}

theorem Quiet.isOpen_iff (h : s.Quiet s') : s'.IsOpen id ↔ s.IsOpen id := by
  rw [IsOpen, h.closedPages, IsOpen]

theorem Quiet.trans (h : s.Quiet s') (h' : s'.Quiet s'') : s.Quiet s'' where
  closedPages := h'.closedPages.trans h.closedPages
  openPages := h'.openPages.trans h.openPages
  peakPages := h'.peakPages.trans h.peakPages
  log := by
    obtain ⟨events, hlog, hquiet⟩ := h.log
    obtain ⟨events', hlog', hquiet'⟩ := h'.log
    refine ⟨events ++ events', by rw [hlog', hlog, List.append_assoc], ?_⟩
    intro e he
    rcases List.mem_append.1 he with he | he
    · exact hquiet e he
    · exact ⟨h.isOpen_iff.1 (hquiet' e he).1, (hquiet' e he).2⟩

theorem Idles.refl (s : Scene) : s.Idles s :=
  ⟨rfl, rfl, rfl, rfl⟩

theorem Idles.trans (h : s.Idles s') (h' : s'.Idles s'') : s.Idles s'' :=
  ⟨h'.pages.trans h.pages, h'.openPages.trans h.openPages, h'.peakPages.trans h.peakPages,
    h'.log.trans h.log⟩

theorem Idles.quiet (h : s.Idles s') : s.Quiet s' where
  closedPages := by rw [closedPages, h.pages, closedPages]
  openPages := h.openPages
  peakPages := h.peakPages
  log := ⟨[], by rw [h.log, List.append_nil], by simp⟩

theorem Rests.of_idles (h : s.Idles s') (hprospects : s'.prospects = s.prospects) : s.Rests s' :=
  ⟨h.quiet, hprospects⟩

theorem Rests.refl (s : Scene) : s.Rests s :=
  .of_idles (.refl s) rfl

theorem Rests.trans (h : s.Rests s') (h' : s'.Rests s'') : s.Rests s'' :=
  ⟨h.toQuiet.trans h'.toQuiet, h'.prospects.trans h.prospects⟩

/-- In a scene in which an action on a page has ended, only this page has written. -/
theorem Ends.rests {α : Type} {patience : Nat} {x : Except RenderError α × Scene}
    (h : s.Ends id patience x) : s.Rests x.2 := by
  have hprospects := h.prospects
  cases h with
  | fails => exact .of_idles ⟨rfl, rfl, rfl, rfl⟩ rfl
  | @edits a s' p p' events page session isOpen stays works =>
    refine ⟨⟨?_, ?_, ?_, events.map (id, ·), ?_, ?_⟩, hprospects⟩
    · have hedit := closedPages_edit page (stays.trans isOpen.symm) events
      rw [closedPages, session]
      exact hedit
    · rw [session]
      rfl
    · rw [session]
      rfl
    · rw [session]
      rfl
    · intro e he
      obtain ⟨event, hevent, rfl⟩ := List.mem_map.1 he
      exact ⟨isOpen_of_page page isOpen, works event hevent⟩

end Scene

/-! ## Sequences that keep the pages -/

/-- The scene has rested while something was done, and what it ended with satisfies a condition for
values or one for faults. -/
inductive Kept {ε α : Type} (s : Scene) (Q : α → Prop) (E : ε → Prop) :
    Except ε α × Scene → Prop where
  | ok {a : α} {s' : Scene} (rests : s.Rests s') (value : Q a) : Kept s Q E (.ok a, s')
  | error {e : ε} {s' : Scene} (rests : s.Rests s') (fault : E e) : Kept s Q E (.error e, s')

/-- In every scene something is done while the pages are kept as they are. -/
def Keeps {ε α : Type} (x : ExceptT ε (StateM Scene) α) (Q : α → Prop) (E : ε → Prop) : Prop :=
  ∀ s : Scene, Kept s Q E (x s)

section Keeping

variable {ε α β : Type} {x : ExceptT ε (StateM Scene) α} {f : α → ExceptT ε (StateM Scene) β}
  {Q : α → Prop} {R : β → Prop} {E : ε → Prop}

theorem Kept.rests {s : Scene} {y : Except ε α × Scene} (h : Kept s Q E y) : s.Rests y.2 := by
  cases h with
  | ok rests _ => exact rests
  | error rests _ => exact rests

/-- What is done may begin with something else during which the scene rests. -/
theorem Kept.of_rests {s s' : Scene} (hrests : s.Rests s') {y : Except ε α × Scene}
    (h : Kept s' Q E y) : Kept s Q E y := by
  cases h with
  | ok rests value => exact .ok (hrests.trans rests) value
  | error rests fault => exact .error (hrests.trans rests) fault

namespace Keeps

theorem pure {a : α} (h : Q a) : Keeps (pure a : ExceptT ε (StateM Scene) α) Q E :=
  fun s => .ok (.refl s) h

theorem throw {e : ε} (h : E e) : Keeps (throw e : ExceptT ε (StateM Scene) α) Q E :=
  fun s => .error (.refl s) h

theorem get : Keeps (get : ExceptT ε (StateM Scene) Scene) (fun _ => True) E :=
  fun s => .ok (.refl s) trivial

theorem modify {f : Scene → Scene} (h : ∀ s : Scene, s.Rests (f s)) :
    Keeps (modify f : ExceptT ε (StateM Scene) Unit) (fun _ => True) E :=
  fun s => .ok (h s) trivial

/-- A sequence of actions keeps the pages when each of them does. -/
theorem bind (hx : Keeps x Q E) (hf : ∀ a, Q a → Keeps (f a) R E) : Keeps (x >>= f) R E := by
  intro s
  have hkept := hx s
  generalize hrun : x s = y at hkept
  cases hkept with
  | error rests fault =>
    rw [bind_of_error hrun]
    exact .error rests fault
  | @ok a s' rests value =>
    rw [bind_of_ok hrun]
    exact .of_rests rests (hf a value s')

end Keeps

end Keeping

/-- An action on a page keeps all pages, whatever it ends with. -/
theorem Handles.keeps {α : Type} {id patience : Nat} {x : Act α} (h : Handles id patience x) :
    Keeps x (fun _ => True) fun _ => True := by
  intro s
  have hrests := (h s).rests
  cases hrun : x s with
  | mk result s' =>
    rw [hrun] at hrests
    cases result with
    | ok a => exact .ok hrests trivial
    | error e => exact .error hrests trivial

/-! ## Opening and closing -/

/-- Closing an open page closes it, also when closing fails. -/
theorem Page.close_closes {s : Scene} {id : Nat} (hopen : s.IsOpen id) :
    s.Closes (Page.close id s).2 id := by
  obtain ⟨p, hpage, hclosed⟩ := Scene.isOpen_iff.1 hopen
  rw [close_run hpage hclosed]
  exact ⟨s.closedPages_retire id p [.closed], rfl, rfl, rfl⟩

/-- Opening a page fails and does nothing to the pages, or it opens one with the next number. -/
theorem Session.newPage_idles (s : Scene) :
    (∃ e s', Session.newPage s = (.error e, s') ∧ s.Idles s') ∨
      Session.newPage s = (.ok s.session.pagesOpened, s.onSession (·.addPage)) := by
  by_cases hclosed : s.session.closed = true
  · exact .inl ⟨_, s, newPage_of_closed hclosed, .refl s⟩
  · by_cases hfailing : 0 < s.session.failingOpens
    · exact .inl ⟨_, _, newPage_of_failing hclosed hfailing, rfl, rfl, rfl, rfl⟩
    · exact .inr (newPage_of_ready hclosed hfailing)

/-- Closing a session leaves its pages, its counts and its log alone. -/
theorem Session.close_idles (s : Scene) : s.Idles (Session.close s).2 := by
  have hget : (get : Act Scene) s = (.ok s, s) := rfl
  rw [Session.close, bind_of_ok hget]
  by_cases hclosed : s.session.closed = true
  · rw [if_pos hclosed]
    exact .refl s
  · rw [if_neg hclosed]
    exact ⟨rfl, rfl, rfl, rfl⟩

/-- Opening a page fails and opens none, or it opens one with the next number. -/
theorem Session.newPage_cases (s : Scene) :
    (∃ e s', Session.newPage s = (.error e, s') ∧ s.Quiet s') ∨
      Session.newPage s = (.ok s.closedPages.length, s.onSession (·.addPage)) := by
  rcases newPage_idles s with ⟨e, s', hnew, hidles⟩ | hnew
  · exact .inl ⟨e, s', hnew, hidles.quiet⟩
  · rw [Scene.length_closedPages]
    exact .inr hnew

/-- A page that is opened is open. -/
theorem Scene.isOpen_addPage (s : Scene) :
    (s.onSession (·.addPage)).IsOpen s.closedPages.length := by
  have hpages : (s.onSession (·.addPage)).closedPages = s.closedPages ++ [false] := List.map_append
  rw [IsOpen, hpages]
  exact List.getElem?_concat_length

/-! ## What the log says of the pages that are held -/

/-- Part of a log in which the pages from one number up to another were opened.  Each of them was
opened once, and closed once unless it is held, no other page was opened or closed, and at no time
more pages were open than a bound allows. -/
structure Accounts (first next bound : Nat) (held : List Nat) (events : List (Nat × PageEvent)) :
    Prop where
  opened : ∀ id, events.count (id, .opened) = if first ≤ id ∧ id < next then 1 else 0
  closed : ∀ id, events.count (id, .closed) = if (first ≤ id ∧ id < next) ∧ id ∉ held then 1 else 0
  balance : events.countP (·.2 = .opened) = events.countP (·.2 = .closed) + held.length
  bounded : ∀ seen, seen <+: events →
    seen.countP (·.2 = .opened) ≤ seen.countP (·.2 = .closed) + bound

namespace Accounts

variable {first next bound id : Nat} {held : List Nat} {events : List (Nat × PageEvent)}

theorem nil (first bound : Nat) : Accounts first first bound [] [] where
  opened id := by
    rw [if_neg (by omega)]
    rfl
  closed id := by
    rw [if_neg (by omega)]
    rfl
  balance := rfl
  bounded seen hseen := by
    rw [List.prefix_nil.1 hseen]
    exact Nat.zero_le _

/-- A longer log keeps the bound when the pages that are held keep it. -/
theorem bounded_concat (h : Accounts first next bound held events) {e : Nat × PageEvent}
    {held' : List Nat} (hlength : held'.length ≤ bound)
    (hbalance : (events ++ [e]).countP (·.2 = .opened) =
      (events ++ [e]).countP (·.2 = .closed) + held'.length) :
    ∀ seen, seen <+: events ++ [e] →
      seen.countP (·.2 = .opened) ≤ seen.countP (·.2 = .closed) + bound := by
  intro seen hseen
  rcases List.prefix_concat_iff.1 hseen with rfl | hseen
  · rw [hbalance]
    omega
  · exact h.bounded seen hseen

theorem length_le (h : Accounts first next bound held events) : held.length ≤ bound := by
  have hall := h.bounded events List.prefix_rfl
  rw [h.balance] at hall
  omega

theorem perm (h : Accounts first next bound held events) {held' : List Nat}
    (hperm : held'.Perm held) : Accounts first next bound held' events where
  opened := h.opened
  closed id := by
    rw [h.closed]
    simp only [hperm.mem_iff]
  balance := by rw [h.balance, hperm.length_eq]
  bounded := h.bounded

theorem concat_quiet (h : Accounts first next bound held events) {e : Nat × PageEvent}
    (hopened : e.2 ≠ .opened) (hclosed : e.2 ≠ .closed) :
    Accounts first next bound held (events ++ [e]) := by
  have hbalance : (events ++ [e]).countP (·.2 = .opened) =
      (events ++ [e]).countP (·.2 = .closed) + held.length := by
    simp [List.countP_append, hopened, hclosed, h.balance]
  refine ⟨fun id => ?_, fun id => ?_, hbalance, h.bounded_concat h.length_le hbalance⟩
  · have hnone : [e].count (id, .opened) = 0 := List.count_eq_zero.2 fun hmem => by
      rw [← List.mem_singleton.1 hmem] at hopened
      exact hopened rfl
    rw [List.count_append, hnone, h.opened, Nat.add_zero]
  · have hnone : [e].count (id, .closed) = 0 := List.count_eq_zero.2 fun hmem => by
      rw [← List.mem_singleton.1 hmem] at hclosed
      exact hclosed rfl
    rw [List.count_append, hnone, h.closed, Nat.add_zero]

theorem append_quiet (h : Accounts first next bound held events) {more : List (Nat × PageEvent)}
    (hquiet : ∀ e ∈ more, e.2 ≠ .opened ∧ e.2 ≠ .closed) :
    Accounts first next bound held (events ++ more) := by
  induction more generalizing events with
  | nil => rwa [List.append_nil]
  | cons e more ih =>
    obtain ⟨hopened, hclosed⟩ := hquiet e List.mem_cons_self
    rw [List.append_cons]
    exact ih (h.concat_quiet hopened hclosed) fun e he => hquiet e (List.mem_cons_of_mem _ he)

/-- The next page is opened while there is room for it. -/
theorem concat_opened (h : Accounts first next bound held events) (hfirst : first ≤ next)
    (hroom : held.length < bound) :
    Accounts first (next + 1) bound (next :: held) (events ++ [(next, .opened)]) := by
  have hlength : (next :: held).length ≤ bound := hroom
  have hbalance : (events ++ [(next, PageEvent.opened)]).countP (·.2 = .opened) =
      (events ++ [(next, PageEvent.opened)]).countP (·.2 = .closed) + (next :: held).length := by
    simp [List.countP_append, h.balance, Nat.add_assoc]
  refine ⟨fun id => ?_, fun id => ?_, hbalance, h.bounded_concat hlength hbalance⟩
  · have hlast : [(next, PageEvent.opened)].count (id, .opened) = if next = id then 1 else 0 := by
      simp [List.count_singleton]
    rw [List.count_append, h.opened, hlast]
    split <;> split <;> split <;> omega
  · have hlast : [(next, PageEvent.opened)].count (id, .closed) = 0 := by simp
    rw [List.count_append, h.closed, hlast, Nat.add_zero]
    refine if_congr ?_ rfl rfl
    rw [List.mem_cons, not_or]
    by_cases hid : id = next
    · subst hid
      exact iff_of_false (fun h => by omega) fun h => h.2.1 rfl
    · have hnew : first ≤ id ∧ id < next ↔ first ≤ id ∧ id < next + 1 := by omega
      rw [hnew, and_iff_right hid]

/-- A page that is held is closed. -/
theorem concat_closed (h : Accounts first next bound (id :: held) events)
    (hid : first ≤ id ∧ id < next) (hother : id ∉ held) :
    Accounts first next bound held (events ++ [(id, .closed)]) := by
  have hbalance : (events ++ [(id, PageEvent.closed)]).countP (·.2 = .opened) =
      (events ++ [(id, PageEvent.closed)]).countP (·.2 = .closed) + held.length := by
    simp [List.countP_append, h.balance]
    omega
  have hlength : held.length ≤ bound := by
    have := h.length_le
    rw [List.length_cons] at this
    omega
  refine ⟨fun q => ?_, fun q => ?_, hbalance, h.bounded_concat hlength hbalance⟩
  · have hlast : [(id, PageEvent.closed)].count (q, .opened) = 0 := by simp
    rw [List.count_append, h.opened, hlast, Nat.add_zero]
  · have hlast : [(id, PageEvent.closed)].count (q, .closed) = if id = q then 1 else 0 := by
      simp [List.count_singleton]
    rw [List.count_append, h.closed, hlast]
    by_cases hq : q = id
    · subst hq
      rw [if_neg (by simp), if_pos rfl, if_pos ⟨hid, hother⟩]
    · rw [if_neg (Ne.symm hq), Nat.add_zero]
      refine if_congr ?_ rfl rfl
      rw [List.mem_cons, or_iff_right hq]

end Accounts

namespace Scene

/-- What has come to the log since a scene. -/
def since (s₀ s : Scene) : List (Nat × PageEvent) :=
  s.session.log.drop s₀.session.log.length

/-- Since a scene some pages were opened and closed, and those that are held are open.  The pages
that were there before are as they were, and at no time more than a bound were open besides them. -/
structure Holds (s₀ : Scene) (bound : Nat) (held : List Nat) (s : Scene) : Prop where
  log : s₀.session.log <+: s.session.log
  accounts : Accounts s₀.closedPages.length s.closedPages.length bound held (s₀.since s)
  before : s₀.closedPages.length ≤ s.closedPages.length
  old : ∀ id < s₀.closedPages.length, s.closedPages[id]? = s₀.closedPages[id]?
  new : ∀ id, s₀.closedPages.length ≤ id → id < s.closedPages.length →
    s.closedPages[id]? = some (decide (id ∉ held))
  among : ∀ id ∈ held, s₀.closedPages.length ≤ id ∧ id < s.closedPages.length
  nodup : held.Nodup
  openPages : s.session.openPages = s₀.session.openPages + held.length
  peakPages : s.session.peakPages ≤ max s₀.session.peakPages (s₀.session.openPages + bound)

variable {s₀ s s' : Scene} {bound id : Nat} {held : List Nat}

/-- What is added to the log has come since. -/
theorem since_append (h : s₀.session.log <+: s.session.log) {events : List (Nat × PageEvent)}
    (hlog : s'.session.log = s.session.log ++ events) : s₀.since s' = s₀.since s ++ events := by
  rw [since, since, hlog, List.drop_append_of_le_length h.length_le]

theorem Holds.refl (s : Scene) (bound : Nat) : s.Holds bound [] s where
  log := List.prefix_rfl
  accounts := by
    rw [since, List.drop_length]
    exact .nil _ _
  before := Nat.le_refl _
  old _ _ := rfl
  new id hle hlt := absurd hlt (Nat.not_lt.2 hle)
  among _ hid := absurd hid List.not_mem_nil
  nodup := List.nodup_nil
  openPages := rfl
  peakPages := Nat.le_max_left _ _

theorem Holds.perm (h : s₀.Holds bound held s) {held' : List Nat} (hperm : held'.Perm held) :
    s₀.Holds bound held' s where
  log := h.log
  accounts := h.accounts.perm hperm
  before := h.before
  old := h.old
  new id hle hlt := by simpa only [hperm.mem_iff] using h.new id hle hlt
  among id hid := h.among id (hperm.mem_iff.1 hid)
  nodup := hperm.nodup_iff.2 h.nodup
  openPages := by rw [h.openPages, hperm.length_eq]
  peakPages := h.peakPages

theorem Holds.quiet (h : s₀.Holds bound held s) (hquiet : s.Quiet s') :
    s₀.Holds bound held s' := by
  obtain ⟨events, hlog, hevents⟩ := hquiet.log
  have hpages := hquiet.closedPages
  constructor
  · rw [hlog]
    exact h.log.trans (List.prefix_append _ _)
  · rw [since_append h.log hlog, hpages]
    exact h.accounts.append_quiet fun e he => (hevents e he).2
  · rw [hpages]
    exact h.before
  · rw [hpages]
    exact h.old
  · rw [hpages]
    exact h.new
  · rw [hpages]
    exact h.among
  · exact h.nodup
  · rw [hquiet.openPages]
    exact h.openPages
  · rw [hquiet.peakPages]
    exact h.peakPages

/-- A page that is held is open. -/
theorem Holds.isOpen (h : s₀.Holds bound held s) (hid : id ∈ held) : s.IsOpen id := by
  obtain ⟨hle, hlt⟩ := h.among id hid
  rw [IsOpen, h.new id hle hlt]
  simpa using hid

/-- A page is opened and held, while there is room for it. -/
theorem Holds.addPage (h : s₀.Holds bound held s) (hroom : held.length < bound) :
    s₀.Holds bound (s.closedPages.length :: held) (s.onSession (·.addPage)) := by
  have hpages : (s.onSession (·.addPage)).closedPages = s.closedPages ++ [false] := List.map_append
  have hnext : (s.onSession (·.addPage)).closedPages.length = s.closedPages.length + 1 := by
    rw [hpages, List.length_append, List.length_singleton]
  have hlog : (s.onSession (·.addPage)).session.log =
      s.session.log ++ [(s.closedPages.length, .opened)] := by
    rw [length_closedPages]
    rfl
  have hnew : s.closedPages.length ∉ held := fun hmem => Nat.lt_irrefl _ (h.among _ hmem).2
  constructor
  · exact h.log.trans (List.prefix_append _ _)
  · rw [since_append h.log hlog, hnext]
    exact h.accounts.concat_opened h.before hroom
  · rw [hnext]
    exact Nat.le_succ_of_le h.before
  · intro id hid
    rw [hpages, List.getElem?_append_left (Nat.lt_of_lt_of_le hid h.before)]
    exact h.old id hid
  · intro id hle hlt
    rw [hnext] at hlt
    by_cases hid : id = s.closedPages.length
    · rw [hpages, hid, List.getElem?_append_right (Nat.le_refl _), Nat.sub_self]
      simp
    · have hlt' : id < s.closedPages.length := by omega
      rw [hpages, List.getElem?_append_left hlt', h.new id hle hlt']
      simp [hid]
  · intro id hid
    rw [hnext]
    rcases List.mem_cons.1 hid with rfl | hid
    · exact ⟨h.before, Nat.lt_succ_self _⟩
    · exact ⟨(h.among id hid).1, Nat.lt_succ_of_lt (h.among id hid).2⟩
  · exact List.nodup_cons.2 ⟨hnew, h.nodup⟩
  · show s.session.openPages + 1 = _
    rw [h.openPages, List.length_cons, Nat.add_assoc]
  · show max s.session.peakPages (s.session.openPages + 1) ≤ _
    rw [h.openPages]
    have hpeak := h.peakPages
    omega

/-- A page that is held is closed and held no longer. -/
theorem Holds.close (h : s₀.Holds bound (id :: held) s) (hcloses : s.Closes s' id) :
    s₀.Holds bound held s' := by
  obtain ⟨hpages, hopen, hpeak, hlog⟩ := hcloses
  have hlength : s'.closedPages.length = s.closedPages.length := by
    rw [hpages, List.length_set]
  obtain ⟨hother, hnodup⟩ := List.nodup_cons.1 h.nodup
  obtain ⟨hle, hlt⟩ := h.among id List.mem_cons_self
  constructor
  · rw [hlog]
    exact h.log.trans (List.prefix_append _ _)
  · rw [since_append h.log hlog, hlength]
    exact h.accounts.concat_closed ⟨hle, hlt⟩ hother
  · rw [hlength]
    exact h.before
  · intro q hq
    rw [hpages, List.getElem?_set_ne (by omega)]
    exact h.old q hq
  · intro q hq hq'
    rw [hlength] at hq'
    by_cases hid : q = id
    · subst hid
      rw [hpages, List.getElem?_set_self hlt]
      simp [hother]
    · rw [hpages, List.getElem?_set_ne (Ne.symm hid), h.new q hq hq']
      simp [hid]
  · intro q hq
    rw [hlength]
    exact h.among q (List.mem_cons_of_mem _ hq)
  · exact hnodup
  · rw [hopen, h.openPages, List.length_cons]
    omega
  · rw [hpeak]
    exact h.peakPages

end Scene

end CriticalCss
