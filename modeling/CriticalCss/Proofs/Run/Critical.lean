import CriticalCss.Proofs.Probe.Findings
import CriticalCss.Proofs.Run.Fold
import CriticalCss.Proofs.Split.Parts

/-!
# Which selectors a run prints as critical

A run prints the selectors of a rule that are critical on some page, and no other ones, with the
declarations of the rule and under the condition of its media block.  The keys of rules, the walk of
the probe and the merging of pages have no part in the result.

* `styles_iff_slots` and `styles_iff_styleRules` tell the styles of a style sheet by its slots and
  by its style rules.
* `styles_splitFor_iff` is the result for one page.
* `foldBy_prints_critical` is the result for a whole run.
-/

namespace CriticalCss

/-! ## Styles -/

/-- A style sheet gives a selector some declarations: in a style rule at top level, or in one
directly inside a top-level media block whose condition is read by `canonical`. -/
def Stylesheet.Styles (sheet : Stylesheet) (canonical : String → String) (selector : String)
    (declarations : List Declaration) : Option String → Prop
  | none => ∃ selectors p, .item (.style selectors declarations) p ∈ sheet ∧ selector ∈ selectors
  | some condition => ∃ c rules q, .block (.media c) rules q ∈ sheet ∧ canonical c = condition ∧
      ∃ selectors p, .item (.style selectors declarations) p ∈ rules ∧ selector ∈ selectors

theorem Node.withoutPosition_eq_ofStyle_iff {n : Node} {selectors : List String}
    {declarations : List Declaration} :
    n.withoutPosition = .ofStyle selectors declarations ↔
      ∃ p, n = .item (.style selectors declarations) p := by
  constructor
  · intro h
    cases n with
    | item i p =>
      rw [Node.withoutPosition, Node.ofStyle, Node.item.injEq] at h
      exact ⟨p, by rw [h.1]⟩
    | block heading rules p =>
      rw [Node.withoutPosition, Node.ofStyle] at h
      cases h
  · intro hplace
    obtain ⟨p, rfl⟩ := hplace
    rfl

/-- The style rules among the slots of a node: the node itself, or one directly inside a media
block. -/
theorem Node.ofStyle_mem_slots_iff {n : Node} {canonical : String → String}
    {condition : Option String} {selectors : List String} {declarations : List Declaration} :
    (condition, .ofStyle selectors declarations) ∈ n.slots canonical ↔
      (condition = none ∧ ∃ p, n = .item (.style selectors declarations) p) ∨
        ∃ c rules q p, condition = some (canonical c) ∧ n = .block (.media c) rules q ∧
          .item (.style selectors declarations) p ∈ rules := by
  cases hcondition : n.condition? with
  | some c =>
    obtain ⟨rules, q, rfl⟩ := Node.eq_block_of_condition? hcondition
    rw [Node.slots, List.mem_map]
    constructor
    · intro hslot
      obtain ⟨rule, hrule, hslot⟩ := hslot
      rw [Prod.mk.injEq] at hslot
      obtain ⟨p, rfl⟩ := Node.withoutPosition_eq_ofStyle_iff.1 hslot.2
      exact .inr ⟨c, rules, q, p, hslot.1.symm, rfl, (List.mem_filter.1 hrule).1⟩
    · intro hstyle
      rcases hstyle with ⟨_, p, hn⟩ | ⟨c, rules, q, p, rfl, hn, hrule⟩
      · cases hn
      · cases hn
        exact ⟨_, List.mem_filter.2 ⟨hrule, rfl⟩, rfl⟩
  | none =>
    rw [Node.slots_of_condition?_eq_none canonical hcondition]
    constructor
    · intro hslot
      split at hslot
      · exact absurd hslot List.not_mem_nil
      · obtain ⟨hnone, hstyle⟩ := Prod.mk.inj (List.mem_singleton.1 hslot)
        exact .inl ⟨hnone, Node.withoutPosition_eq_ofStyle_iff.1 hstyle.symm⟩
    · intro hstyle
      rcases hstyle with ⟨rfl, p, rfl⟩ | ⟨c, rules, q, p, _, rfl, _⟩
      · exact List.mem_singleton.2 rfl
      · cases hcondition

namespace Stylesheet

variable {sheet : Stylesheet} {canonical : String → String} {selector : String}
  {declarations : List Declaration}

/-- The slots of a style sheet tell what it styles. -/
theorem styles_iff_slots {condition : Option String} :
    sheet.Styles canonical selector declarations condition ↔
      ∃ selectors, selector ∈ selectors ∧
        (condition, .ofStyle selectors declarations) ∈ sheet.slots canonical := by
  simp only [Stylesheet.slots, List.mem_flatMap, Node.ofStyle_mem_slots_iff]
  cases condition with
  | none =>
    constructor
    · intro hs
      obtain ⟨selectors, p, hn, hs⟩ := hs
      exact ⟨selectors, hs, _, hn, .inl ⟨rfl, p, rfl⟩⟩
    · intro hslot
      rcases hslot with ⟨selectors, hs, n, hn, ⟨_, p, rfl⟩ | ⟨c, rules, q, p, hc, _⟩⟩
      · exact ⟨selectors, p, hn, hs⟩
      · cases hc
  | some condition =>
    constructor
    · intro hs
      obtain ⟨c, rules, q, hblock, rfl, selectors, p, hn, hs⟩ := hs
      exact ⟨selectors, hs, _, hblock, .inr ⟨c, rules, q, p, rfl, rfl, hn⟩⟩
    · intro hslot
      rcases hslot with ⟨selectors, hs, n, hn, ⟨hc, _⟩ | ⟨c, rules, q, p, hc, rfl, hrule⟩⟩
      · cases hc
      · exact ⟨c, rules, q, hn, (Option.some.inj hc).symm, selectors, p, hrule, hs⟩

/-- The headings over a style rule that stands at top level, or directly inside a media block. -/
def pathOf (condition : Option String) : List Heading :=
  condition.toList.map .media

/-- A style rule has some declarations and stands where the styles under a condition do, as its
headings, its declarations and its place tell. -/
def StandsUnder (canonical : String → String) (condition : Option String)
    (declarations : List Declaration) (path : List Heading) (ds : List Declaration)
    (_ : Option Position) : Prop :=
  ds = declarations ∧ ∃ c : Option String, c.map canonical = condition ∧ path = pathOf c

/-- Such a rule stands in a media block at most. -/
theorem StandsUnder.inConditions {condition : Option String} {r : PlacedRule}
    (hr : StandsUnder canonical condition declarations r.path r.declarations r.position) :
    r.InConditions := by
  obtain ⟨_, c, _, hpath⟩ := hr
  intro h hh
  rw [hpath, pathOf, List.mem_map] at hh
  obtain ⟨c, _, rfl⟩ := hh
  exact .inl rfl

/-- The style rules of a style sheet tell what it styles. -/
theorem styles_iff_styleRules {condition : Option String} :
    sheet.Styles canonical selector declarations condition ↔
      ∃ r ∈ sheet.styleRules,
        StandsUnder canonical condition declarations r.path r.declarations r.position ∧
          selector ∈ r.selectors := by
  cases condition with
  | none =>
    constructor
    · intro hs
      obtain ⟨selectors, p, hn, hs⟩ := hs
      exact ⟨_, Node.mem_styleRulesOf_here.2 hn, ⟨rfl, none, rfl, rfl⟩, hs⟩
    · intro hs
      obtain ⟨⟨path, selectors, ds, p⟩, hr, ⟨rfl, c, hc, hpath⟩, hs⟩ := hs
      rw [Option.map_eq_none_iff] at hc
      subst hc
      replace hpath : path = [] := hpath
      subst hpath
      exact ⟨selectors, p, Node.mem_styleRulesOf_here.1 hr, hs⟩
  | some condition =>
    constructor
    · intro hs
      obtain ⟨c, rules, q, hblock, hc, selectors, p, hn, hs⟩ := hs
      have hr : ⟨[] ++ [.media c], selectors, declarations, p⟩ ∈ sheet.styleRules :=
        Node.mem_styleRulesOf_inside.2 ⟨rules, q, hblock, hn⟩
      exact ⟨_, hr, ⟨rfl, some c, by rw [Option.map_some, hc], rfl⟩, hs⟩
    · intro hs
      obtain ⟨⟨path, selectors, ds, p⟩, hr, ⟨rfl, c, hc, hpath⟩, hs⟩ := hs
      rw [Option.map_eq_some_iff] at hc
      obtain ⟨c, rfl, hc⟩ := hc
      replace hpath : path = [] ++ [.media c] := hpath
      subst hpath
      obtain ⟨rules, q, hblock, hn⟩ := Node.mem_styleRulesOf_inside.1 hr
      exact ⟨c, rules, q, hblock, hc, selectors, p, hn, hs⟩

/-- The critical part of a source style sheet styles what the source styles for the selectors that
are critical, when it is split by what a probe finds. -/
theorem styles_critical_iff {source : Stylesheet} {p : Probe} {d : Document} (retain : Bool)
    {condition : Option String} :
    (source.split (p.evaluate d source) retain).critical.Styles canonicalMedia selector declarations
        condition ↔
      source.Styles canonicalMedia selector declarations condition ∧ p.Critical d selector := by
  rw [styles_iff_styleRules, styles_iff_styleRules, critical_eq_tidyAll, styleRules,
    Node.exists_style_tidyAll_narrowAll_iff
      (StandsUnder canonicalMedia condition declarations) fun r _ hr => hr.inConditions]
  constructor
  · intro hkeep
    obtain ⟨r, hr, hstands, hs, hkeep⟩ := hkeep
    obtain ⟨_, _, _, _, _, hcritical⟩ := (p.isCritical_evaluate_iff d source _ _).1 hkeep
    exact ⟨⟨r, mem_styleRules_of_filter hr, hstands, hs⟩, hcritical⟩
  · intro hcritical
    obtain ⟨⟨r, hr, hstands, hs⟩, hcritical⟩ := hcritical
    have hconditions := hstands.inConditions
    have hkeep := (p.isCritical_evaluate_iff d source _ _).2
      ⟨r, hr, hconditions, rfl, hs, hcritical⟩
    exact ⟨r, mem_styleRules_candidates hconditions hr retain, hstands, hs, hkeep⟩

end Stylesheet

/-! ## The result of a run -/

/-- A page that was visited: its document, or why there is none. -/
structure Visit where
  url : String
  document : Except PageError Document

namespace Run

/-- The result of a page: the source is split by what the probe finds in its document. -/
def resultOf (r : Run) (source : Stylesheet) (v : Visit) : PageResult :=
  ⟨v.url, v.document.map (r.splitFor source)⟩

theorem outcome_resultOf_eq_ok_iff {r : Run} {source : Stylesheet} {v : Visit} {split : Split} :
    (r.resultOf source v).outcome = .ok split ↔
      ∃ d, v.document = .ok d ∧ r.splitFor source d = split := by
  rw [resultOf]
  cases hdocument : v.document with
  | error e => simp [Except.map]
  | ok d => simp [Except.map]

/-- The critical part of a page styles what the source styles for the selectors that are critical on
the page. -/
theorem styles_splitFor_iff {r : Run} {source : Stylesheet} {d : Document} {selector : String}
    {declarations : List Declaration} {condition : Option String} :
    (r.splitFor source d).critical.Styles canonicalMedia selector declarations condition ↔
      source.Styles canonicalMedia selector declarations condition ∧ r.probe.Critical d selector :=
  Stylesheet.styles_critical_iff _

variable {M : Type} [DecidableEq M] {mark : Node → M}

/-- The critical rules of a run style what the source styles for the selectors that are critical on
some page. -/
theorem someHas_critical_iff (r : Run) (source : Stylesheet) (visits : List Visit)
    (selector : String) (declarations : List Declaration) (condition : Option String) :
    (∃ selectors, selector ∈ selectors ∧
        PageResult.SomeHas Split.critical (visits.map (r.resultOf source))
          (condition, .ofStyle selectors declarations)) ↔
      source.Styles canonicalMedia selector declarations condition ∧
        ∃ v ∈ visits, ∃ d, v.document = .ok d ∧ r.probe.Critical d selector := by
  constructor
  · intro hslot
    obtain ⟨selectors, hs, page, hpage, split, hok, hslot⟩ := hslot
    obtain ⟨v, hv, rfl⟩ := List.mem_map.1 hpage
    obtain ⟨d, hd, rfl⟩ := outcome_resultOf_eq_ok_iff.1 hok
    have hpart := Stylesheet.styles_iff_slots.2 ⟨selectors, hs, hslot⟩
    obtain ⟨hstyles, hcritical⟩ := styles_splitFor_iff.1 hpart
    exact ⟨hstyles, v, hv, d, hd, hcritical⟩
  · intro hcritical
    obtain ⟨hstyles, v, hv, d, hd, hcritical⟩ := hcritical
    have hpart := styles_splitFor_iff.2 ⟨hstyles, hcritical⟩
    obtain ⟨selectors, hs, hslot⟩ := Stylesheet.styles_iff_slots.1 hpart
    have hok : (r.resultOf source v).outcome = _ :=
      outcome_resultOf_eq_ok_iff.2 ⟨d, hd, rfl⟩
    exact ⟨selectors, hs, _, List.mem_map_of_mem hv, _, hok, hslot⟩

/-- A run with a page that has a document prints a critical style sheet, when rules are left out
that cannot be printed.  It gives a selector declarations, under the condition of a media block or
under none, exactly when the source does and the selector is critical on some page. -/
theorem foldBy_prints_critical (r : Run) (hskip : r.config.invalidRules = .skip)
    (hmark : RuleMap.Distinguishes mark) (source : Stylesheet) {visits : List Visit}
    (hsome : ∃ v ∈ visits, ∃ d, v.document = .ok d) :
    (∃ output, r.foldBy mark (visits.map (r.resultOf source)) = .ok output ∧
        output.critical =
          (r.criticalSheet mark (visits.map (r.resultOf source))).print r.options) ∧
      ∀ selector declarations condition, declarations ≠ [] →
        ((r.criticalSheet mark (visits.map (r.resultOf source))).Styles id selector declarations
            condition ↔
          source.Styles canonicalMedia selector declarations condition ∧
            ∃ v ∈ visits, ∃ d, v.document = .ok d ∧ r.probe.Critical d selector) := by
  have hsucceeded : ∃ page ∈ visits.map (r.resultOf source), page.Succeeded := by
    obtain ⟨v, hv, d, hd⟩ := hsome
    exact ⟨_, List.mem_map_of_mem hv, _, outcome_resultOf_eq_ok_iff.2 ⟨d, hd, rfl⟩⟩
  refine ⟨⟨_, r.foldBy_of_succeeded mark hsucceeded, rfl⟩, ?_⟩
  intro selector declarations condition hne
  have hlists := listsOnce_criticalSheet hskip hmark (visits.map (r.resultOf source))
  have hemittable : ∀ selectors, (Node.ofStyle selectors declarations).isEmittable = true := by
    intro selectors
    simpa [Node.isEmittable, Node.ofStyle, Node.declarations?, Item.declarations?] using hne
  rw [Stylesheet.styles_iff_slots, ← someHas_critical_iff]
  refine exists_congr fun selectors => and_congr_right fun _ => ?_
  rw [hlists.mem_iff, and_iff_right (hemittable selectors)]

/-- A run that keeps the selector `nav` whatever the pages look like. -/
def keepingNav : Run :=
  { standard with probe := .ofTexts ["nav"] [] Probe.standardTimeout }

/-- A rule for two elements, and a rule for one of them in a media block. -/
def navSheet : Stylesheet :=
  [.item (.style ["nav", "p"] [⟨"color", "red"⟩]) (some ⟨1, 1⟩),
    .block (.media "all and print") [.item (.style ["nav"] [⟨"color", "blue"⟩]) (some ⟨2, 18⟩)]
      (some ⟨2, 1⟩)]

/-- A page that could not be loaded, and one without elements. -/
def twoVisits : List Visit :=
  [⟨"a", .error ⟨"a", .navigation, .noDocument⟩⟩, ⟨"b", .ok ⟨[], ⟨1200, 1080⟩⟩⟩]

/-- The selector that is kept is printed with both rules, the media block with the short condition,
and the other selector is not printed. -/
theorem foldBy_prints_critical_twoVisits :
    keepingNav.config.invalidRules = .skip ∧ RuleMap.Distinguishes id ∧
      (∃ v ∈ twoVisits, ∃ d, v.document = .ok d) ∧
      (∃ output, keepingNav.foldBy id (twoVisits.map (keepingNav.resultOf navSheet)) =
        .ok output) ∧
      (keepingNav.criticalSheet id (twoVisits.map (keepingNav.resultOf navSheet))).Styles id
        "nav" [⟨"color", "red"⟩] none ∧
      (keepingNav.criticalSheet id (twoVisits.map (keepingNav.resultOf navSheet))).Styles id
        "nav" [⟨"color", "blue"⟩] (some "print") ∧
      ¬ (keepingNav.criticalSheet id (twoVisits.map (keepingNav.resultOf navSheet))).Styles id
        "p" [⟨"color", "red"⟩] none := by
  have hmark : RuleMap.Distinguishes id := fun _ _ h => h
  have hvisit : (⟨"b", .ok ⟨[], ⟨1200, 1080⟩⟩⟩ : Visit) ∈ twoVisits :=
    List.mem_cons_of_mem _ List.mem_cons_self
  have hsome : ∃ v ∈ twoVisits, ∃ d, v.document = .ok d := ⟨_, hvisit, _, rfl⟩
  have hnav : ∃ v ∈ twoVisits, ∃ d, v.document = .ok d ∧ keepingNav.probe.Critical d "nav" :=
    ⟨_, hvisit, _, rfl, .inl ⟨_, List.mem_cons_self, by decide⟩⟩
  have hp : ¬ ∃ v ∈ twoVisits, ∃ d, v.document = .ok d ∧ keepingNav.probe.Critical d "p" := by
    intro hcritical
    obtain ⟨v, hv, d, hd, hcritical⟩ := hcritical
    have hboxes : d.boxes = [] := by
      rcases List.mem_cons.1 hv with rfl | hv
      · cases hd
      · rw [List.mem_singleton.1 hv] at hd
        cases hd
        rfl
    rcases hcritical with ⟨k, hk, haccepts⟩ | ⟨_, hpseudo | ⟨_, _, i, rect, _, hrect, _⟩⟩
    · rw [List.mem_singleton.1 hk] at haccepts
      simp [SelectorPattern.accepts, SelectorPattern.glob] at haccepts
    · exact absurd hpseudo (by decide)
    · simp [Document.rect?, Document.box?, hboxes] at hrect
  obtain ⟨⟨output, houtput, _⟩, hstyles⟩ :=
    foldBy_prints_critical keepingNav rfl hmark navSheet hsome
  refine ⟨rfl, hmark, hsome, ⟨output, houtput⟩, ?_, ?_, ?_⟩
  · refine (hstyles _ _ _ (by simp)).2 ⟨?_, hnav⟩
    exact ⟨_, _, List.mem_cons_self, List.mem_cons_self⟩
  · refine (hstyles _ _ _ (by simp)).2 ⟨?_, hnav⟩
    exact ⟨_, _, _, List.mem_cons_of_mem _ List.mem_cons_self, by decide, _, _, List.mem_cons_self,
      List.mem_cons_self⟩
  · intro h
    exact hp ((hstyles _ _ _ (by simp)).1 h).2

end Run

end CriticalCss
