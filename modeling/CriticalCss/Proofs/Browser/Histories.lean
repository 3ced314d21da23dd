import CriticalCss.Proofs.Browser.Events
import CriticalCss.Proofs.Browser.Operations
import Mathlib.Data.List.Infix

/-!
# The books of a session

Whatever is done with a session and its pages, in whatever order, the counts, the log and the pages
of the session agree with one another.

* An `Operation` is something that is done with a session, one of its pages, or the clock, and
  `Operation.performAll` performs several, whether they fail or not.  `opened` and `parted` are the
  pages that they open and that they close or give up.
* `Scene.Effect` is all that one operation can do to the books and `Operation.effect` says so.
  `Scene.Booked` says that the books are in order, and `Scene.booked_performAll` that they always are.
* `Operation.performAll_books` says what follows for the counts, the log, and the pages that are
  closed.
-/

namespace CriticalCss

/-! ## Histories -/

/-- Something that is done to a session beforehand. -/
inductive Preparation where
  | addDocument (url : String) (snapshot : Snapshot)
  | delayResponse (url : String) (milliseconds : Nat)
  | failNavigation (url : String)
  | failClose (url : String)
  | failOpens (count : Nat)

/-- Prepares a session. -/
def Preparation.apply : Preparation → Session → Session
  | addDocument url snapshot => (·.addDocument url snapshot)
  | delayResponse url milliseconds => (·.delayResponse url milliseconds)
  | failNavigation url => (·.failNavigation url)
  | failClose url => (·.failClose url)
  | failOpens count => (·.failOpens count)

/-- Something that happens to a session and its pages. -/
inductive Operation where
  | newPage
  | onPage (id : Nat) (o : PageOperation)
  /-- A page is given up without being closed. -/
  | drop (id : Nat)
  | closeSession
  | prepare (p : Preparation)
  | wait (milliseconds : Nat)

namespace Operation

/-- Performs an operation. -/
def perform : Operation → Act Answer
  | newPage => Session.newPage.answer .page
  | onPage id o => o.perform id
  | drop id => (Page.drop id).answer fun _ => .done
  | closeSession => Session.close.answer fun _ => .done
  | prepare p => (modify (·.onSession p.apply) : Act Unit).answer fun _ => .done
  | wait milliseconds => (Act.wait milliseconds).answer fun _ => .done

/-- Performs operations one after the other, whether they fail or not. -/
def performAll (ops : List Operation) (s : Scene) : Scene :=
  ops.foldl (fun s o => (o.perform s).2) s

/-- The number of the page that an operation opens. -/
def opens (o : Operation) (s : Scene) : List Nat :=
  match (o.perform s).1 with
  | .ok (.page id) => [id]
  | _ => []

/-- The number of the page that an operation closes or gives up, if the page is there.  Closing a
page counts also when it fails. -/
def parts (o : Operation) (s : Scene) : List Nat :=
  match o with
  | onPage id .close | drop id => if id < s.session.pagesOpened then [id] else []
  | _ => []

/-- Numbers that come up when operations are performed one after the other. -/
def gather (f : Operation → Scene → List Nat) : List Operation → Scene → List Nat
  | [], _ => []
  | o :: ops, s => f o s ++ gather f ops (o.perform s).2

/-- The numbers of the pages that are opened, in order. -/
def opened : List Operation → Scene → List Nat :=
  gather opens

/-- The numbers of the pages that are closed or given up. -/
def parted : List Operation → Scene → List Nat :=
  gather parts

/-- The numbers of the pages that are opened and neither closed nor given up. -/
def held (ops : List Operation) (s : Scene) : List Nat :=
  (opened ops s).filter (· ∉ parted ops s)

variable (f : Operation → Scene → List Nat) (ops : List Operation) (o : Operation) (s : Scene)

theorem performAll_concat : performAll (ops ++ [o]) s = (o.perform (performAll ops s)).2 :=
  List.foldl_append

theorem gather_concat :
    gather f (ops ++ [o]) s = gather f ops s ++ f o (performAll ops s) := by
  induction ops generalizing s with
  | nil => exact List.append_nil _
  | cons first ops ih =>
    show f first s ++ gather f (ops ++ [o]) (first.perform s).2 = _
    rw [ih, ← List.append_assoc]
    rfl

end Operation

/-! ## What one operation does to the books -/

namespace Scene

/-- A scene goes on to another one in which an open page has been closed or given up.  Only closing
is written into the log. -/
structure Parts (s s' : Scene) (id : Nat) : Prop where
  isOpen : s.IsOpen id
  closedPages : s'.closedPages = s.closedPages.set id true
  openPages : s'.session.openPages = s.session.openPages - 1
  peakPages : s'.session.peakPages = s.session.peakPages
  log : ∃ last : List PageEvent, s'.session.log = s.session.log ++ last.map (id, ·) ∧
    (last = [] ∨ last = [.closed])

/-- All that an operation can do to the books of a session, with the pages that it opens and the
pages that it closes or gives up.  What is closed already can be closed again, and nothing
happens. -/
inductive Effect (s : Scene) : Scene → List Nat → List Nat → Prop where
  | quiet {s' : Scene} {parted : List Nat} (h : s.Quiet s')
      (hparted : ∀ id ∈ parted, s.closedPages[id]? = some true) : Effect s s' [] parted
  | opens : Effect s (s.onSession (·.addPage)) [s.closedPages.length] []
  | parts {s' : Scene} {id : Nat} (h : s.Parts s' id) : Effect s s' [] [id]

variable {s s' : Scene} {id : Nat}

/-- An operation that opens no page, and neither closes one nor gives one up. -/
theorem Quiet.effect (h : s.Quiet s') : s.Effect s' [] [] :=
  .quiet h fun _ hid => absurd hid List.not_mem_nil

theorem parts_retire {p : Page} (h : s.page? id = some p) (hopen : p.closed = false)
    {last : List PageEvent} (hlast : last = [] ∨ last = [.closed]) :
    s.Parts (s.retire id p last) id :=
  ⟨isOpen_of_page h hopen, s.closedPages_retire id p last, rfl, rfl, last, rfl, hlast⟩

/-- A page that is there and not open is closed. -/
theorem closedPages_of_not_isOpen (hopen : ¬s.IsOpen id) (hthere : id < s.session.pagesOpened) :
    s.closedPages[id]? = some true := by
  rw [← length_closedPages] at hthere
  have hget := List.getElem?_eq_getElem hthere
  rw [IsOpen, hget] at hopen
  rw [hget]
  cases hflag : s.closedPages[id] with
  | true => rfl
  | false => exact absurd (congrArg some hflag) hopen

/-- A page that is closed is not open. -/
theorem not_isOpen_of_closed (h : s.closedPages[id]? = some true) : ¬s.IsOpen id := by
  rw [IsOpen, h]
  exact fun hopen => Bool.noConfusion (Option.some.inj hopen)

end Scene

theorem Act.answer_snd {α : Type} (x : Act α) (f : α → Answer) (s : Scene) :
    (x.answer f s).2 = (x s).2 := by
  rw [Act.answer]
  cases hrun : x s with
  | mk result s' =>
    cases result with
    | error e => rw [bind_of_error hrun]
    | ok a =>
      rw [bind_of_ok hrun]
      rfl

theorem Act.exists_of_answer_eq_ok {α : Type} {x : Act α} {f : α → Answer} {s : Scene} {b : Answer}
    (h : (x.answer f s).1 = .ok b) : ∃ a, f a = b := by
  rw [Act.answer] at h
  cases hrun : x s with
  | mk result s' =>
    cases result with
    | error e =>
      rw [bind_of_error hrun] at h
      cases h
    | ok a =>
      rw [bind_of_ok hrun] at h
      exact ⟨a, Except.ok.inj h⟩

namespace PageOperation

variable {id : Nat} (o : PageOperation)

/-- No operation on a page opens one. -/
theorem perform_ne_page (s : Scene) (number : Nat) : (o.perform id s).1 ≠ .ok (.page number) := by
  intro h
  cases o <;> obtain ⟨a, ha⟩ := Act.exists_of_answer_eq_ok h <;> cases ha

/-- An operation that is not closing is quiet, whether or not the page is open. -/
theorem quiet_perform (ho : o ≠ .close) (s : Scene) : s.Quiet (o.perform id s).2 := by
  by_cases haddress : o = .address
  · subst haddress
    exact (Scene.Rests.refl s).toQuiet
  · exact (ends_perform o id s ho haddress).rests.toQuiet

end PageOperation

/-- Preparing a session leaves its pages, its counts and its log alone. -/
theorem Preparation.idles (p : Preparation) (s : Scene) : s.Idles (s.onSession p.apply) := by
  cases p <;> exact ⟨rfl, rfl, rfl, rfl⟩

namespace Operation

variable {s : Scene}

theorem opens_of_ne_page {o : Operation} (h : ∀ number, (o.perform s).1 ≠ .ok (.page number)) :
    o.opens s = [] := by
  unfold opens
  split
  · next id hid => exact absurd hid (h id)
  · rfl

/-- What is left of the books when a page is closed or given up. -/
theorem effect_of_parts {o : Operation} {id : Nat}
    (hparts : o.parts s = if id < s.session.pagesOpened then [id] else [])
    (hopens : o.opens s = []) (hopen : s.IsOpen id → s.Parts (o.perform s).2 id)
    (hgone : ¬s.IsOpen id → (o.perform s).2 = s) :
    s.Effect (o.perform s).2 (o.opens s) (o.parts s) := by
  rw [hopens, hparts]
  by_cases hisOpen : s.IsOpen id
  · rw [if_pos hisOpen.lt_pagesOpened]
    exact .parts (hopen hisOpen)
  · rw [hgone hisOpen]
    refine .quiet (Scene.Idles.refl s).quiet fun q hq => ?_
    by_cases hthere : id < s.session.pagesOpened
    · rw [if_pos hthere] at hq
      rw [List.mem_singleton.1 hq]
      exact Scene.closedPages_of_not_isOpen hisOpen hthere
    · rw [if_neg hthere] at hq
      cases hq

/-- All that an operation does to the books. -/
theorem effect (o : Operation) (s : Scene) :
    s.Effect (o.perform s).2 (o.opens s) (o.parts s) := by
  cases o with
  | newPage =>
    rcases Session.newPage_idles s with ⟨e, s', hrun, hidles⟩ | hrun
    · have hnew : newPage.perform s = (.error e, s') := bind_of_error hrun
      have hopens : newPage.opens s = [] := opens_of_ne_page fun _ h => by
        rw [hnew] at h
        cases h
      rw [hopens, hnew]
      exact hidles.quiet.effect
    · have hnew : newPage.perform s =
          (.ok (.page s.session.pagesOpened), s.onSession (·.addPage)) := bind_of_ok hrun
      have hopens : newPage.opens s = [s.closedPages.length] := by
        rw [opens, hnew, Scene.length_closedPages]
      rw [hopens, hnew]
      exact .opens
  | onPage id o =>
    have hopens : (onPage id o).opens s = [] :=
      opens_of_ne_page (o.perform_ne_page s)
    by_cases ho : o = .close
    · subst ho
      refine effect_of_parts rfl hopens (fun hopen => ?_) fun hclosed => ?_
      · obtain ⟨p, hpage, hclosed⟩ := Scene.isOpen_iff.1 hopen
        rw [show ((onPage id .close).perform s).2 = _ from Act.answer_snd _ _ s,
          Page.close_run hpage hclosed]
        exact Scene.parts_retire hpage hclosed (.inr rfl)
      · obtain ⟨e, hrun⟩ := PageOperation.perform_of_not_isOpen (o := .close) hclosed (by simp)
        exact congrArg Prod.snd hrun
    · have hparts : (onPage id o).parts s = [] := by
        cases o <;> first | rfl | exact absurd rfl ho
      rw [hopens, hparts]
      exact (o.quiet_perform ho s).effect
  | drop id =>
    have hopens : (drop id).opens s = [] := opens_of_ne_page fun _ h => by
      obtain ⟨_, ha⟩ := Act.exists_of_answer_eq_ok h
      cases ha
    refine effect_of_parts rfl hopens (fun hopen => ?_) fun hclosed => ?_
    · obtain ⟨p, hpage, hclosed⟩ := Scene.isOpen_iff.1 hopen
      rw [show ((drop id).perform s).2 = _ from Act.answer_snd _ _ s, Page.drop_run hpage hclosed]
      exact Scene.parts_retire hpage hclosed (.inl rfl)
    · rw [show ((drop id).perform s).2 = _ from Act.answer_snd _ _ s, Page.drop,
        Act.openPage_bind_of_not_isOpen hclosed]
  | closeSession =>
    have hopens : closeSession.opens s = [] := opens_of_ne_page fun _ h => by
      obtain ⟨_, ha⟩ := Act.exists_of_answer_eq_ok h
      cases ha
    rw [hopens, show (closeSession.perform s).2 = _ from Act.answer_snd _ _ s]
    exact (Session.close_idles s).quiet.effect
  | prepare p => exact (p.idles s).quiet.effect
  | wait milliseconds =>
    have hidles : s.Idles ((wait milliseconds).perform s).2 := ⟨rfl, rfl, rfl, rfl⟩
    exact hidles.quiet.effect

end Operation

/-! ## The books -/

/-- The events of a page from its opening on, while it has not been closed. -/
def IsUnderway (events : List PageEvent) : Prop :=
  ∃ middle, events = .opened :: middle ∧ ∀ e ∈ middle, e ≠ .opened ∧ e ≠ .closed

/-- The events of a page: it is opened once, and this comes first; it is closed at most once, and
nothing comes after it. -/
def IsLife (events : List PageEvent) : Prop :=
  ∃ before, IsUnderway before ∧ (events = before ∨ events = before ++ [.closed])

theorem IsUnderway.isLife {events : List PageEvent} (h : IsUnderway events) : IsLife events :=
  ⟨events, h, .inl rfl⟩

theorem IsUnderway.append {events more : List PageEvent} (h : IsUnderway events)
    (hmore : ∀ e ∈ more, e ≠ .opened ∧ e ≠ .closed) : IsUnderway (events ++ more) := by
  obtain ⟨middle, rfl, hmiddle⟩ := h
  refine ⟨middle ++ more, rfl, fun e he => ?_⟩
  rcases List.mem_append.1 he with he | he
  · exact hmiddle e he
  · exact hmore e he

theorem isUnderway_opened : IsUnderway [.opened] :=
  ⟨[], rfl, nofun⟩

namespace Scene

/-- The books of a session are in order, for the pages that were opened and the pages that were
closed or given up. -/
structure Booked (opened parted : List Nat) (s : Scene) : Prop where
  opened : opened = List.range s.closedPages.length
  parted : ∀ id, s.closedPages[id]? = some true ↔ id ∈ parted
  openPages : s.session.openPages = s.closedPages.count false
  openings : (s.session.log.filter (·.2 = .opened)).map (·.1) = List.range s.closedPages.length
  underway : ∀ id, s.IsOpen id → IsUnderway (s.session.eventsOf id)
  lives : ∀ id, s.closedPages[id]? = some true → IsLife (s.session.eventsOf id)
  faithful : s.session.IsFaithful

variable {s s' : Scene} {opened parted : List Nat}

theorem booked_empty (files : Files) (now : Nat) : Booked [] [] ⟨.empty, files, now⟩ where
  opened := rfl
  parted id := by simp [closedPages, Session.empty]
  openPages := rfl
  openings := rfl
  underway id hopen := by simp [IsOpen, closedPages, Session.empty] at hopen
  lives id hclosed := by simp [closedPages, Session.empty] at hclosed
  faithful := nofun

/-- Books in order stay so while nothing is opened, closed or given up. -/
theorem Booked.quiet (h : s.Booked opened parted) (hs : s.Quiet s') :
    s'.Booked opened parted := by
  obtain ⟨events, hlog, hevents⟩ := hs.log
  have hflag : ∀ id : Nat, s'.closedPages[id]? = s.closedPages[id]? :=
    fun id => by rw [hs.closedPages]
  constructor
  · rw [hs.closedPages]
    exact h.opened
  · intro id
    rw [hflag]
    exact h.parted id
  · rw [hs.openPages, hs.closedPages]
    exact h.openPages
  · have hnone : events.filter (·.2 = .opened) = [] := by
      rw [List.filter_eq_nil_iff]
      intro e he
      simpa using (hevents e he).2.1
    rw [hlog, List.filter_append, hnone, List.append_nil, hs.closedPages]
    exact h.openings
  · intro id hopen
    rw [IsOpen, hflag] at hopen
    rw [Session.eventsOf_append hlog]
    refine (h.underway id hopen).append fun e he => ?_
    obtain ⟨event, hevent, rfl⟩ := List.mem_map.1 he
    exact (hevents event (List.mem_filter.1 hevent).1).2
  · intro id hclosed
    rw [hflag] at hclosed
    -- A page that is closed writes no more, since only open pages write.
    have hnone : events.filter (·.1 = id) = [] := by
      rw [List.filter_eq_nil_iff]
      intro e he hpage
      have hopen := (hevents e he).1
      rw [of_decide_eq_true hpage] at hopen
      exact not_isOpen_of_closed hclosed hopen
    rw [Session.eventsOf_append hlog, hnone, List.map_nil, List.append_nil]
    exact h.lives id hclosed
  · have hsame : s'.session.pagesOpened = s.session.pagesOpened := by
      rw [← length_closedPages, ← length_closedPages, hs.closedPages]
    refine h.faithful.append hlog (Nat.le_of_eq hsame.symm) fun e he => ?_
    rw [hsame]
    exact (hevents e he).1.lt_pagesOpened

/-- Opening a page keeps the books in order. -/
theorem Booked.addPage (h : s.Booked opened parted) :
    (s.onSession (·.addPage)).Booked (opened ++ [s.closedPages.length]) parted := by
  have hpages : (s.onSession (·.addPage)).closedPages = s.closedPages ++ [false] := List.map_append
  have hlength : (s.onSession (·.addPage)).closedPages.length = s.closedPages.length + 1 := by
    rw [hpages, List.length_append, List.length_singleton]
  have hlog : (s.onSession (·.addPage)).session.log =
      s.session.log ++ [(s.closedPages.length, .opened)] := by
    rw [length_closedPages]
    rfl
  have hclosed : ∀ id : Nat, (s.onSession (·.addPage)).closedPages[id]? = some true ↔
      s.closedPages[id]? = some true := by
    intro id
    rw [hpages]
    grind
  have hfresh : s.session.eventsOf s.closedPages.length = [] := by
    apply h.faithful.eventsOf_eq_nil
    rw [length_closedPages]
  have hother : ∀ id, id ≠ s.closedPages.length →
      (s.onSession (·.addPage)).session.eventsOf id = s.session.eventsOf id := by
    intro id hid
    rw [Session.eventsOf_append hlog]
    simp [hid.symm]
  constructor
  · rw [hlength, List.range_succ, h.opened]
  · intro id
    rw [hclosed]
    exact h.parted id
  · show s.session.openPages + 1 = _
    rw [hpages, List.count_append, h.openPages]
    rfl
  · rw [hlog, hlength, List.filter_append, List.map_append, h.openings, List.range_succ]
    rfl
  · intro id hopen
    by_cases hid : id = s.closedPages.length
    · rw [hid, Session.eventsOf_append hlog, hfresh]
      simpa using isUnderway_opened
    · rw [hother id hid]
      apply h.underway
      rw [IsOpen, hpages] at hopen
      rw [IsOpen]
      grind
  · intro id hid
    have hid' := (hclosed id).1 hid
    rw [hother id (Nat.ne_of_lt (List.getElem?_eq_some_iff.1 hid').1)]
    exact h.lives id hid'
  · exact h.faithful.addPage

/-- Closing or giving up a page keeps the books in order. -/
theorem Booked.parts (h : s.Booked opened parted) {id : Nat} (hs : s.Parts s' id) :
    s'.Booked opened (parted ++ [id]) := by
  obtain ⟨last, hlog, hlast⟩ := hs.log
  have hlt : id < s.closedPages.length := (List.getElem?_eq_some_iff.1 hs.isOpen).1
  have hlength : s'.closedPages.length = s.closedPages.length := by
    rw [hs.closedPages, List.length_set]
  have hself : s'.session.eventsOf id = s.session.eventsOf id ++ last := by
    rw [Session.eventsOf_append hlog]
    simp [List.filter_map, List.map_map, Function.comp_def]
  have hother : ∀ q, q ≠ id → s'.session.eventsOf q = s.session.eventsOf q := by
    intro q hq
    rw [Session.eventsOf_append hlog]
    simp [List.filter_map, Function.comp_def, hq.symm]
  have hflag : ∀ q, q ≠ id → s'.closedPages[q]? = s.closedPages[q]? := by
    intro q hq
    rw [hs.closedPages, List.getElem?_set_ne hq.symm]
  have hset : s'.closedPages[id]? = some true := by
    rw [hs.closedPages, List.getElem?_set_self hlt]
  constructor
  · rw [hlength]
    exact h.opened
  · intro q
    by_cases hq : q = id
    · simp [hq, hset]
    · rw [hflag q hq, h.parted q]
      simp [hq]
  · have hget : s.closedPages[id] = false := (List.getElem?_eq_some_iff.1 hs.isOpen).2
    rw [hs.openPages, h.openPages, hs.closedPages, List.count_set hlt, hget]
    rfl
  · have hnone : (last.map (id, ·)).filter (·.2 = .opened) = [] := by
      rcases hlast with rfl | rfl <;> rfl
    rw [hlog, List.filter_append, hnone, List.append_nil, hlength]
    exact h.openings
  · intro q hopen
    have hq : q ≠ id := by
      rintro rfl
      exact not_isOpen_of_closed hset hopen
    rw [IsOpen, hflag q hq] at hopen
    rw [hother q hq]
    exact h.underway q hopen
  · intro q hclosed
    by_cases hq : q = id
    · rw [hq, hself]
      refine ⟨_, h.underway id hs.isOpen, ?_⟩
      rcases hlast with rfl | rfl
      · exact .inl (List.append_nil _)
      · exact .inr rfl
    · rw [hother q hq]
      exact h.lives q (hflag q hq ▸ hclosed)
  · have hsame : s'.session.pagesOpened = s.session.pagesOpened := by
      rw [← length_closedPages, ← length_closedPages, hlength]
    refine h.faithful.append hlog (Nat.le_of_eq hsame.symm) fun e he => ?_
    obtain ⟨event, -, rfl⟩ := List.mem_map.1 he
    rw [hsame]
    exact hs.isOpen.lt_pagesOpened

/-- Whatever an operation does, the books stay in order. -/
theorem Booked.effect (h : s.Booked opened parted) {new gone : List Nat}
    (heffect : s.Effect s' new gone) : s'.Booked (opened ++ new) (parted ++ gone) := by
  cases heffect with
  | quiet hs hparted =>
    have hs' := h.quiet hs
    rw [List.append_nil]
    refine { hs' with parted := fun id => (hs'.parted id).trans ?_ }
    rw [List.mem_append]
    exact ⟨.inl, fun hid => hid.elim (fun hid => hid) fun hid => (h.parted id).1 (hparted id hid)⟩
  | opens =>
    rw [List.append_nil]
    exact h.addPage
  | parts hs =>
    rw [List.append_nil]
    exact h.parts hs

/-- Whatever is done with a session, its books are in order. -/
theorem booked_performAll (ops : List Operation) (files : Files) (now : Nat) :
    (Operation.performAll ops ⟨.empty, files, now⟩).Booked
      (Operation.opened ops ⟨.empty, files, now⟩) (Operation.parted ops ⟨.empty, files, now⟩) := by
  induction ops using List.reverseRecOn with
  | nil => exact booked_empty files now
  | append_singleton ops o ih =>
    rw [Operation.performAll_concat, Operation.opened, Operation.gather_concat, Operation.parted,
      Operation.gather_concat]
    exact ih.effect (o.effect _)

/-- The most pages that were open at once: an operation only raises it to the number of open
pages. -/
theorem Effect.peakPages {new gone : List Nat} (heffect : s.Effect s' new gone)
    (hpeak : s.session.openPages ≤ s.session.peakPages) :
    s'.session.peakPages = max s.session.peakPages s'.session.openPages := by
  cases heffect with
  | quiet hs _ =>
    rw [hs.peakPages, hs.openPages]
    omega
  | opens => rfl
  | parts hs =>
    rw [hs.peakPages, hs.openPages]
    omega

/-- The pages that are open are those that were opened and neither closed nor given up. -/
theorem Booked.length_filter (h : s.Booked opened parted) :
    (opened.filter (· ∉ parted)).length = s.session.openPages := by
  have hcount : ∀ flags : List Bool,
      ((List.range flags.length).filter fun id => ¬flags[id]? = some true).length =
        flags.count false := by
    intro flags
    induction flags using List.reverseRecOn with
    | nil => rfl
    | append_singleton flags flag ih =>
      have hbefore : ((List.range flags.length).filter fun id =>
          ¬(flags ++ [flag])[id]? = some true) =
            (List.range flags.length).filter fun id => ¬flags[id]? = some true := by
        apply List.filter_congr
        intro id hid
        rw [List.getElem?_append_left (List.mem_range.1 hid)]
      rw [List.length_append, List.length_singleton, List.range_succ, List.filter_append, hbefore,
        List.length_append, ih, List.count_append]
      cases flag <;> simp
  rw [h.openPages, ← hcount, h.opened]
  refine congrArg List.length (List.filter_congr fun id _ => ?_)
  rw [decide_eq_decide, not_iff_not]
  exact (h.parted id).symm

end Scene

namespace Operation

/-- At no time are more pages open than the session says it were at most, and at some time as many
are. -/
theorem peakPages_performAll (ops : List Operation) (files : Files) (now : Nat) :
    (∀ before, before <+: ops → (performAll before ⟨.empty, files, now⟩).session.openPages ≤
        (performAll ops ⟨.empty, files, now⟩).session.peakPages) ∧
      ∃ before, before <+: ops ∧ (performAll before ⟨.empty, files, now⟩).session.openPages =
        (performAll ops ⟨.empty, files, now⟩).session.peakPages := by
  induction ops using List.reverseRecOn with
  | nil =>
    refine ⟨fun before hbefore => ?_, [], List.prefix_rfl, rfl⟩
    rw [List.prefix_nil.1 hbefore]
    exact Nat.le_refl _
  | append_singleton ops o ih =>
    obtain ⟨hmost, before, hbefore, hreached⟩ := ih
    have hpeak := (o.effect _).peakPages (hmost ops List.prefix_rfl)
    rw [← performAll_concat] at hpeak
    refine ⟨fun earlier hearlier => ?_, ?_⟩
    · rcases List.prefix_concat_iff.1 hearlier with rfl | hearlier
      · omega
      · have := hmost earlier hearlier
        omega
    · rcases Nat.le_total (performAll (ops ++ [o]) ⟨.empty, files, now⟩).session.openPages
        (performAll ops ⟨.empty, files, now⟩).session.peakPages with hle | hle
      · exact ⟨before, hbefore.trans (List.prefix_append _ _), by omega⟩
      · exact ⟨ops ++ [o], List.prefix_rfl, by omega⟩

/-- Whatever is done with a session and its pages, its books are right.  The open pages are those
that were opened and neither closed nor given up, and the peak is the largest number of them that
there ever was.  The pages have the numbers from zero on in the order in which they were opened, and
the log has one opening for each of them, in this order.  The log of each page begins with its
opening, has at most one closing, and ends with it.  On a page that was closed or given up every
operation fails, except that its address can be asked for, and none does anything. -/
theorem performAll_books (ops : List Operation) (files : Files) (now : Nat) :
    let start : Scene := ⟨.empty, files, now⟩
    let s := performAll ops start
    s.session.openPages = (held ops start).length ∧
      (∀ before, before <+: ops → (held before start).length ≤ s.session.peakPages) ∧
      (∃ before, before <+: ops ∧ (held before start).length = s.session.peakPages) ∧
      opened ops start = List.range s.session.pagesOpened ∧
      (s.session.log.filter (·.2 = .opened)).map (·.1) = List.range s.session.pagesOpened ∧
      (∀ id < s.session.pagesOpened, IsLife (s.session.eventsOf id)) ∧
      ∀ id ∈ parted ops start, ∀ o : PageOperation,
        (o.perform id s).2 = s ∧ (o ≠ .address → ∃ e, (o.perform id s).1 = .error e) := by
  intro start s
  have hbooked : ∀ ops, (performAll ops start).Booked (opened ops start) (parted ops start) :=
    fun ops => Scene.booked_performAll ops files now
  have hheld : ∀ ops, (held ops start).length = (performAll ops start).session.openPages :=
    fun ops => (hbooked ops).length_filter
  obtain ⟨hmost, before, hbefore, hreached⟩ := peakPages_performAll ops files now
  refine ⟨(hheld ops).symm, fun earlier hearlier => ?_, ⟨before, hbefore, ?_⟩, ?_, ?_, ?_, ?_⟩
  · rw [hheld]
    exact hmost earlier hearlier
  · rw [hheld]
    exact hreached
  · rw [← Scene.length_closedPages]
    exact (hbooked ops).opened
  · rw [← Scene.length_closedPages]
    exact (hbooked ops).openings
  · intro id hid
    by_cases hopen : s.IsOpen id
    · exact ((hbooked ops).underway id hopen).isLife
    · exact (hbooked ops).lives id (Scene.closedPages_of_not_isOpen hopen hid)
  · intro id hid o
    have hclosed : ¬s.IsOpen id := Scene.not_isOpen_of_closed (((hbooked ops).parted id).2 hid)
    by_cases ho : o = .address
    · subst ho
      exact ⟨rfl, fun h => absurd rfl h⟩
    · obtain ⟨e, hrun⟩ := PageOperation.perform_of_not_isOpen hclosed ho
      exact ⟨congrArg Prod.snd hrun, fun _ => ⟨e, congrArg Prod.fst hrun⟩⟩

/-- A page that has been closed is still asked for its address, and answers. -/
theorem perform_address_of_closed :
    let start : Scene := ⟨.empty, .empty, 0⟩
    let document : Snapshot := ⟨Element.named "html", [], [], 0⟩
    let ops := [prepare (.addDocument "https://closed.example/" document), newPage,
      onPage 0 (.goto "https://closed.example/" 100), onPage 0 .close]
    0 ∈ parted ops start ∧ ¬∃ e, (PageOperation.perform 0 .address (performAll ops start)).1 = .error e := by
  intro start document ops
  have haddress : (PageOperation.perform 0 .address (performAll ops start)).1 =
      .ok (.address (some "https://closed.example/")) := rfl
  refine ⟨by decide +kernel, ?_⟩
  rintro ⟨e, he⟩
  rw [haddress] at he
  cases he

end Operation

end CriticalCss
