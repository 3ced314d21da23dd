import CriticalCss.Proofs.Browser.Endings

/-!
# An operation on a page that fails does nothing

Everything that can be done with a page is a `PageOperation`.  Each of them finds out what could go
wrong before it changes anything, except that a page is closed before it is found out that closing
fails.

* `PageOperation.ends_perform`: an operation ends as the action does that it stands for.
* `PageOperation.perform_error`: a failed operation leaves the scene as it was, only later.
* `PageOperation.perform_of_not_isOpen`: on a page that is not open every operation fails, except that
  the address can be asked for.
-/

namespace CriticalCss

/-! ## Operations -/

/-- What an operation ends with. -/
inductive Answer where
  | done
  | flag (b : Bool)
  | text (s : String)
  | address (url : Option String)
  | document (d : Document)
  | response (r : Response)
  /-- The number of a page that was opened. -/
  | page (id : Nat)

/-- Something that can be done with a page.  Going to an address can also be done in its two parts,
with other operations while the answer is awaited. -/
inductive PageOperation where
  | enableCache (on : Bool)
  | enableJavascript (on : Bool)
  | filter (blocklist : Blocklist)
  | emulate (device : Device) (userAgent : String)
  | goto (url : String) (timeout : Nat)
  | respond (url : String) (timeout : Nat)
  | arrive (r : Response)
  | setContent (content : String)
  | isLoading
  | stop
  | document
  | stylesheetText
  | screenshot (path : String)
  | address
  | close

/-- An action with its value as an answer. -/
def Act.answer {α : Type} (x : Act α) (f : α → Answer) : Act Answer :=
  x >>= fun a => pure (f a)

namespace PageOperation

/-- Performs an operation on a page. -/
def perform (id : Nat) : PageOperation → Act Answer
  | enableCache on => (Page.enableCache id on).answer fun _ => .done
  | enableJavascript on => (Page.enableJavascript id on).answer fun _ => .done
  | filter blocklist => (Page.filter id blocklist).answer fun _ => .done
  | emulate device userAgent => (Page.emulate id device userAgent).answer fun _ => .done
  | goto url timeout => (Page.goto id url timeout).answer fun _ => .done
  | respond url timeout => (Page.respond id url timeout).answer .response
  | arrive r => (Page.arrive id r).answer fun _ => .done
  | setContent content => (Page.setContent id content).answer fun _ => .done
  | isLoading => (Page.isLoading id).answer .flag
  | stop => (Page.stop id).answer fun _ => .done
  | document => (Page.document id).answer .document
  | stylesheetText => (Page.stylesheetText id).answer .text
  | screenshot path => (Page.screenshot id path).answer fun _ => .done
  | address => (Page.url id).answer .address
  | close => (Page.close id).answer fun _ => .done

/-- How many milliseconds an operation may take. -/
def patience : PageOperation → Nat
  | goto _ timeout => timeout
  | _ => 0

end PageOperation

/-- An action whose value becomes an answer ends as it does otherwise. -/
theorem Handles.answer {α : Type} {id patience : Nat} {x : Act α} (h : Handles id patience x)
    (f : α → Answer) : Handles id patience (x.answer f) := by
  intro s
  have hends := (h s).map f
  cases hrun : x s with
  | mk result s' =>
    rw [hrun] at hends
    rw [Act.answer]
    cases result with
    | error e =>
      rw [bind_of_error hrun]
      exact hends
    | ok a =>
      rw [bind_of_ok hrun]
      exact hends

/-! ## All operations -/

namespace PageOperation

variable {o : PageOperation} {id : Nat} {s : Scene} {e : RenderError}

/-- Every operation ends in one of the two ways in which actions on a page end, unless the page is closed
or its address is asked for, which can be done whether it is open or not. -/
theorem ends_perform (o : PageOperation) (id : Nat) (s : Scene) (hclose : o ≠ .close)
    (haddress : o ≠ .address) : s.Ends id o.patience (o.perform id s) := by
  cases o with
  | enableCache on => exact (Page.handles_enableCache on).answer _ s
  | enableJavascript on => exact (Page.handles_enableJavascript on).answer _ s
  | filter blocklist => exact (Page.handles_filter blocklist).answer _ s
  | emulate device userAgent => exact (Page.handles_emulate device userAgent).answer _ s
  | goto url timeout => exact (Page.handles_goto url timeout).answer _ s
  | respond url timeout => exact (Page.handles_respond url timeout).answer _ s
  | arrive r => exact (Page.handles_arrive r).answer _ s
  | setContent content => exact (Page.handles_setContent content).answer _ s
  | isLoading => exact Page.handles_isLoading.answer _ s
  | stop => exact Page.handles_stop.answer _ s
  | document => exact Page.handles_document.answer _ s
  | stylesheetText => exact Page.handles_stylesheetText.answer _ s
  | screenshot path => exact (Page.handles_screenshot path).answer _ s
  | address => exact absurd rfl haddress
  | close => exact absurd rfl hclose

/-- On a page that is not open every operation fails and does nothing.  Only its address can be asked
for. -/
theorem perform_of_not_isOpen (h : ¬s.IsOpen id) (ho : o ≠ .address) :
    ∃ e, o.perform id s = (.error e, s) := by
  by_cases hclose : o = .close
  · subst hclose
    exact ⟨_, bind_of_error (Act.openPage_bind_of_not_isOpen h _)⟩
  · exact (ends_perform o id s hclose ho).exists_error h

/-- An operation that fails does nothing but wait, unless it closes an open page. -/
theorem perform_snd_of_error (h : (o.perform id s).1 = .error e)
    (hclose : o = .close → ¬s.IsOpen id) :
    ∃ milliseconds ≤ o.patience, (o.perform id s).2 = s.pass milliseconds := by
  by_cases hends : o = .close ∨ o = .address
  · rcases hends with rfl | rfl
    · obtain ⟨e', hrun⟩ := perform_of_not_isOpen (o := .close) (hclose rfl) nofun
      rw [hrun]
      exact ⟨0, Nat.zero_le _, rfl⟩
    · exact ⟨0, Nat.zero_le _, rfl⟩
  · rw [not_or] at hends
    exact (ends_perform o id s hends.1 hends.2).exists_pass h

/-- The address of a page does not depend on the time. -/
theorem perform_address_pass (q milliseconds : Nat) :
    (perform q .address (s.pass milliseconds)).1 = (perform q .address s).1 :=
  rfl

/-- The style sheets of a page do not depend on the time. -/
theorem perform_stylesheetText_pass (q milliseconds : Nat) :
    (perform q .stylesheetText (s.pass milliseconds)).1 = (perform q .stylesheetText s).1 := by
  have hlater : ∀ {t : Scene} {e : RenderError}, Act.shown q t = (.error e, t) →
      (perform q .stylesheetText t).1 = .error e :=
    fun hshown => congrArg Prod.fst (bind_of_error (bind_of_error hshown))
  by_cases hopen : s.IsOpen q
  · obtain ⟨p, hpage, hclosed⟩ := Scene.isOpen_iff.1 hopen
    have hpage' : (s.pass milliseconds).page? q = some p := hpage
    cases hcurrent : p.current with
    | none =>
      rw [hlater (Act.shown_of_none hpage hclosed hcurrent),
        hlater (Act.shown_of_none hpage' hclosed hcurrent)]
    | some l =>
      have hperform : ∀ {t : Scene}, t.page? q = some p →
          (perform q .stylesheetText t).1 = .ok (.text l.snapshot.stylesheetText) :=
        fun ht => congrArg Prod.fst (bind_of_ok (Page.stylesheetText_run ht hclosed hcurrent))
      rw [hperform hpage, hperform hpage']
  · have hopen' : ¬(s.pass milliseconds).IsOpen q := hopen
    rw [hlater (Act.shown_of_not_isOpen hopen), hlater (Act.shown_of_not_isOpen hopen')]

/-- An operation on a page that fails leaves the scene as it was, with the settings and the document
of every page, the counts, the log and the files, and only time may pass, no more than the operation
may take; the first closing of an open page is the only exception.  Whatever is done with any page
afterwards goes as if nothing but time had passed, and the addresses and style sheets of all pages
are what they were. -/
theorem perform_error (hfails : (o.perform id s).1 = .error e)
    (hclose : o = .close → ¬s.IsOpen id) :
    ∃ milliseconds ≤ o.patience, (o.perform id s).2 = s.pass milliseconds ∧
      (∀ (later : PageOperation) (q : Nat),
        later.perform q (o.perform id s).2 = later.perform q (s.pass milliseconds)) ∧
      ∀ q, (perform q .address (o.perform id s).2).1 = (perform q .address s).1 ∧
        (perform q .stylesheetText (o.perform id s).2).1 = (perform q .stylesheetText s).1 := by
  obtain ⟨milliseconds, hle, hsame⟩ := perform_snd_of_error hfails hclose
  refine ⟨milliseconds, hle, hsame, fun later q => by rw [hsame], fun q => ?_⟩
  rw [hsame]
  exact ⟨perform_address_pass q milliseconds, perform_stylesheetText_pass q milliseconds⟩

/-- A page in a session whose only address answers after fifty milliseconds. -/
def lateScene : Scene :=
  ⟨{ Session.empty with
      documents := [("https://late.example/", ⟨Element.named "html", [], [], 0⟩)]
      delays := [("https://late.example/", 50)]
      pages := [.fresh]
      openPages := 1
      peakPages := 1 }, .empty, 7⟩

/-- A page that waits twenty milliseconds for an answer that takes fifty shows nothing afterwards,
as before. -/
theorem perform_error_lateScene :
    (perform 0 (.goto "https://late.example/" 20) lateScene).1 = .error (.timeout "navigation" 20) ∧
      ∃ milliseconds ≤ 20,
        (perform 0 (.goto "https://late.example/" 20) lateScene).2 = lateScene.pass milliseconds ∧
          (perform 0 .address (perform 0 (.goto "https://late.example/" 20) lateScene).2).1 =
            .ok (.address none) := by
  have hfails : (perform 0 (.goto "https://late.example/" 20) lateScene).1 =
      .error (.timeout "navigation" 20) := rfl
  obtain ⟨milliseconds, hle, hsame, -, hsee⟩ := perform_error hfails nofun
  exact ⟨hfails, milliseconds, hle, hsame, (hsee 0).1.trans rfl⟩

end PageOperation

end CriticalCss
