import CriticalCss.Proofs.Run.Critical
import CriticalCss.Proofs.Split.Exact
import Mathlib.Tactic.FinCases

/-!
# Which selectors a run prints twice

Two pages may divide the selectors of one rule in different ways.  A run takes away from the rest
only lists of selectors that some page took as a whole, so what one page left of a rule can stay in
the rest although another page has taken some of it.

* `mem_slots_tidyAll_narrowAll_iff` and `mem_leaves_of_mem_styleRules` find the style rules of a
  narrowed tree among its slots and leaves.
* `mem_slots_critical_iff` and `mem_slots_rest_iff` say which lists of selectors a page takes and
  leaves, for a source whose keys stand for one thing each.
* `foldBy_styles_in_both_iff` is the exact condition for a selector to be in both style sheets of a
  run, and `navAndParagraph_styles_in_both` a run with such a selector.
-/

namespace CriticalCss

/-! ## Lists of selectors -/

/-- Whether a selector is critical in a document. -/
def Probe.isCritical (p : Probe) (d : Document) (selector : String) : Bool :=
  (p.judge d [] selector).1

theorem Probe.isCritical_iff {p : Probe} {d : Document} {selector : String} :
    p.isCritical d selector = true ↔ p.Critical d selector :=
  (p.judge_spec (by simp [Document.AllAboveFold]) selector).1

/-- A style rule in blocks that group rules is a leaf, with its key and its selectors. -/
theorem Node.mem_leaves_of_mem_styleRules {n : Node} {path : List Heading} {r : PlacedRule}
    (hr : r ∈ n.styleRules path) (hgroups : r.path.all Heading.groupsRules = true) :
    (r.key, some r.selectors) ∈ n.leaves (Heading.contextOf path) := by
  induction n generalizing path with
  | item i p =>
    cases i with
    | style selectors declarations =>
      rw [styleRules, List.mem_singleton] at hr
      rw [leaves_style, hr]
      exact List.mem_singleton.2 rfl
    | _ => simp [styleRules] at hr
  | block h rules p ih =>
    rw [styleRules_block, mem_styleRulesOf] at hr
    obtain ⟨n, hn, hr⟩ := hr
    have hmem : h ∈ r.path :=
      (path_prefix_of_mem_styleRules hr).subset (List.mem_append_right _ (by simp))
    have hgroup : h.groupsRules = true := List.all_eq_true.1 hgroups h hmem
    rw [leaves, if_pos hgroup, leavesOf_eq_flatMap, List.mem_flatMap, ← Heading.contextOf_append]
    exact ⟨n, hn, ih n hn hr⟩

namespace Stylesheet

variable {sheet source : Stylesheet} {canonical : String → String} {condition : Option String}
  {selectors : List String} {declarations : List Declaration}

/-- The style rules of a style sheet are found among its slots by their headings. -/
theorem ofStyle_mem_slots_iff_styleRules :
    (condition, .ofStyle selectors declarations) ∈ sheet.slots canonical ↔
      ∃ r ∈ sheet.styleRules,
        StandsUnder canonical condition declarations r.path r.declarations r.position ∧
          r.selectors = selectors := by
  rw [Stylesheet.slots, List.mem_flatMap]
  simp only [Node.ofStyle_mem_slots_iff]
  constructor
  · intro hslot
    rcases hslot with ⟨n, hn, ⟨rfl, p, rfl⟩ | ⟨c, rules, q, p, rfl, rfl, hrule⟩⟩
    · exact ⟨_, Node.mem_styleRulesOf_here.2 hn, ⟨rfl, none, rfl, rfl⟩, rfl⟩
    · have hr : ⟨[] ++ [.media c], selectors, declarations, p⟩ ∈ sheet.styleRules :=
        Node.mem_styleRulesOf_inside.2 ⟨rules, q, hn, hrule⟩
      exact ⟨_, hr, ⟨rfl, some c, rfl, rfl⟩, rfl⟩
  · intro hrule
    obtain ⟨⟨path, listed, ds, p⟩, hr, ⟨rfl, c, rfl, hpath⟩, rfl⟩ := hrule
    cases c with
    | none =>
      replace hpath : path = [] := hpath
      subst hpath
      exact ⟨_, Node.mem_styleRulesOf_here.1 hr, .inl ⟨rfl, p, rfl⟩⟩
    | some c =>
      replace hpath : path = [] ++ [.media c] := hpath
      subst hpath
      obtain ⟨rules, q, hblock, hrule⟩ := Node.mem_styleRulesOf_inside.1 hr
      exact ⟨_, hblock, .inr ⟨c, rules, q, p, rfl, rfl, hrule⟩⟩

/-- Narrowed and tidied nodes have a style rule with some selectors when one of the nodes comes down
to these selectors. -/
theorem mem_slots_tidyAll_narrowAll_iff {keep : String → String → Bool} (hne : selectors ≠ []) :
    (condition, .ofStyle selectors declarations) ∈
        slots canonical (Node.tidyAll (Node.narrowAll keep "" sheet)) ↔
      ∃ r ∈ sheet.styleRules,
        StandsUnder canonical condition declarations r.path r.declarations r.position ∧
          r.selectors.filter (keep r.key) = selectors := by
  rw [ofStyle_mem_slots_iff_styleRules]
  constructor
  · intro hrule
    obtain ⟨r, hr, hstands, hselectors⟩ := hrule
    obtain ⟨r₀, hr₀, rfl⟩ :=
      (Node.mem_styleRulesOf_tidyAll_narrowAll_iff (hselectors ▸ hne)).1 hr
    rw [PlacedRule.path_narrow, PlacedRule.declarations_narrow,
      PlacedRule.position_narrow] at hstands
    rw [PlacedRule.narrow, if_pos hstands.inConditions.groupsRules] at hselectors
    exact ⟨r₀, hr₀, hstands, hselectors⟩
  · intro hrule
    obtain ⟨r, hr, hstands, hselectors⟩ := hrule
    have hnarrow : (r.narrow keep).selectors = selectors := by
      rw [PlacedRule.narrow, if_pos hstands.inConditions.groupsRules]
      exact hselectors
    refine ⟨r.narrow keep, ?_, by simpa using hstands, hnarrow⟩
    exact (Node.mem_styleRulesOf_tidyAll_narrowAll_iff (hnarrow ▸ hne)).2 ⟨r, hr, rfl⟩

/-- A style sheet has a rule under a condition, with some declarations, that comes down to some
selectors when only those stay that `keep` approves of. -/
def ComesDownTo (source : Stylesheet) (keep : String → Bool) (condition : Option String)
    (declarations : List Declaration) (selectors : List String) : Prop :=
  ∃ listed, (condition, .ofStyle listed declarations) ∈ source.slots canonicalMedia ∧
    listed.filter keep = selectors

theorem comesDownTo_iff_styleRules {keep : String → Bool} :
    source.ComesDownTo keep condition declarations selectors ↔
      ∃ r ∈ source.styleRules,
        StandsUnder canonicalMedia condition declarations r.path r.declarations r.position ∧
          r.selectors.filter keep = selectors := by
  simp only [ComesDownTo, ofStyle_mem_slots_iff_styleRules]
  constructor
  · intro hrule
    obtain ⟨_, ⟨r, hr, hstands, rfl⟩, hkeep⟩ := hrule
    exact ⟨r, hr, hstands, hkeep⟩
  · intro hrule
    obtain ⟨r, hr, hstands, hkeep⟩ := hrule
    exact ⟨_, ⟨r, hr, hstands, rfl⟩, hkeep⟩

/-! ## What a page takes and leaves -/

variable {p : Probe} {d : Document} {retain : Bool}

/-- A selector of a rule in conditions is recorded under the key of the rule when it is critical. -/
theorem isCritical_evaluate_eq {r : PlacedRule} (hr : r ∈ source.styleRules)
    (hconditions : r.InConditions) {s : String} (hs : s ∈ r.selectors) :
    (p.evaluate d source).isCritical r.key s = p.isCritical d s := by
  rw [Bool.eq_iff_iff, p.isCritical_evaluate_iff, Probe.isCritical_iff]
  constructor
  · rintro ⟨_, _, _, _, _, hcritical⟩
    exact hcritical
  · intro hcritical
    exact ⟨r, hr, hconditions, rfl, hs, hcritical⟩

/-- The critical part of a page has the lists that the rules come down to when the critical
selectors stay. -/
theorem mem_slots_critical_iff (hne : selectors ≠ []) :
    (condition, .ofStyle selectors declarations) ∈
        (source.split (p.evaluate d source) retain).critical.slots canonicalMedia ↔
      source.ComesDownTo (p.isCritical d) condition declarations selectors := by
  rw [critical_eq_tidyAll, mem_slots_tidyAll_narrowAll_iff hne, comesDownTo_iff_styleRules]
  constructor
  · intro hrule
    obtain ⟨r, hr, hstands, hkeep⟩ := hrule
    have hmem := mem_styleRules_of_filter hr
    refine ⟨r, hmem, hstands, ?_⟩
    rw [← hkeep]
    exact List.filter_congr fun s hs =>
      (isCritical_evaluate_eq hmem hstands.inConditions hs).symm
  · intro hrule
    obtain ⟨r, hr, hstands, hkeep⟩ := hrule
    refine ⟨r, mem_styleRules_candidates hstands.inConditions hr retain, hstands, ?_⟩
    rw [← hkeep]
    exact List.filter_congr fun s hs => isCritical_evaluate_eq hr hstands.inConditions hs

/-- When keys stand for one thing each, a selector of a rule in conditions is left when it is not
critical. -/
theorem KeysApart.isLeft_eq (hkeys : KeysApart source retain) {r : PlacedRule}
    (hr : r ∈ source.styleRules) (hconditions : r.InConditions) {s : String}
    (hs : s ∈ r.selectors) :
    isLeft (takenOf (p.evaluate d source) "" (source.filter (isCandidate retain))) r.key s =
      !p.isCritical d s := by
  have hleaf : (r.key, some r.selectors) ∈
      Node.leavesOf "" (source.filter (isCandidate retain)) := by
    obtain ⟨n, hn, hr⟩ := Node.mem_styleRulesOf.1 (mem_styleRules_candidates hconditions hr retain)
    rw [Node.leavesOf_eq_flatMap, List.mem_flatMap]
    exact ⟨n, hn, Node.mem_leaves_of_mem_styleRules hr hconditions.groupsRules⟩
  rw [isLeft_takenOf, hkeys.lastLists_eq_true hleaf hs, isCritical_evaluate_eq hr hconditions hs,
    Bool.and_true]

/-- The rest of a page has the lists that the rules come down to when the critical selectors are
taken away. -/
theorem KeysApart.mem_slots_rest_iff (hkeys : KeysApart source retain) (hne : selectors ≠ []) :
    (condition, .ofStyle selectors declarations) ∈
        (source.split (p.evaluate d source) retain).rest.slots canonicalMedia ↔
      source.ComesDownTo (fun s => !p.isCritical d s) condition declarations selectors := by
  rw [rest_eq_tidyAll, mem_slots_tidyAll_narrowAll_iff hne, comesDownTo_iff_styleRules]
  refine exists_congr fun r => and_congr_right fun hr => and_congr_right fun hstands => ?_
  have hfilter : ∀ s ∈ r.selectors, isLeft
      (takenOf (p.evaluate d source) "" (source.filter (isCandidate retain))) r.key s =
        !p.isCritical d s := fun s hs => hkeys.isLeft_eq hr hstands.inConditions hs
  rw [List.filter_congr hfilter]

end Stylesheet

/-! ## What a run prints twice -/

namespace Run

variable {M : Type} [DecidableEq M] {mark : Node → M} {r : Run} {source : Stylesheet}
  {condition : Option String} {declarations : List Declaration}

/-- Some page takes a list of selectors as a whole: a rule under a condition and with some
declarations comes down to it when the critical selectors stay. -/
def Takes (r : Run) (source : Stylesheet) (visits : List Visit) (condition : Option String)
    (declarations : List Declaration) (selectors : List String) : Prop :=
  ∃ v ∈ visits, ∃ d, v.document = .ok d ∧
    source.ComesDownTo (r.probe.isCritical d) condition declarations selectors

/-- Some page leaves a list of selectors: a rule under a condition and with some declarations comes
down to it when the critical selectors are taken away. -/
def Leaves (r : Run) (source : Stylesheet) (visits : List Visit) (condition : Option String)
    (declarations : List Declaration) (selectors : List String) : Prop :=
  ∃ v ∈ visits, ∃ d, v.document = .ok d ∧
    source.ComesDownTo (fun s => !r.probe.isCritical d s) condition declarations selectors

/-- What some page has in a part of its split, read off the documents of the pages. -/
theorem someHas_resultOf_iff {part : Split → Stylesheet} {visits : List Visit} {slot : Slot} :
    PageResult.SomeHas part (visits.map (r.resultOf source)) slot ↔
      ∃ v ∈ visits, ∃ d, v.document = .ok d ∧
        slot ∈ (part (r.splitFor source d)).slots canonicalMedia := by
  constructor
  · intro hslot
    obtain ⟨page, hpage, split, hok, hslot⟩ := hslot
    obtain ⟨v, hv, rfl⟩ := List.mem_map.1 hpage
    obtain ⟨d, hd, rfl⟩ := outcome_resultOf_eq_ok_iff.1 hok
    exact ⟨v, hv, d, hd, hslot⟩
  · intro hslot
    obtain ⟨v, hv, d, hd, hslot⟩ := hslot
    exact ⟨_, List.mem_map_of_mem hv, _, outcome_resultOf_eq_ok_iff.2 ⟨d, hd, rfl⟩, hslot⟩

theorem someHas_critical_iff_takes {visits : List Visit} {selectors : List String}
    (hne : selectors ≠ []) :
    PageResult.SomeHas Split.critical (visits.map (r.resultOf source))
        (condition, .ofStyle selectors declarations) ↔
      r.Takes source visits condition declarations selectors := by
  rw [someHas_resultOf_iff, Takes]
  simp only [splitFor, Stylesheet.mem_slots_critical_iff hne]

theorem someHas_rest_iff_leaves (hkeys : source.KeysApart !r.config.dropKeyframes)
    {visits : List Visit} {selectors : List String} (hne : selectors ≠ []) :
    PageResult.SomeHas Split.rest (visits.map (r.resultOf source))
        (condition, .ofStyle selectors declarations) ↔
      r.Leaves source visits condition declarations selectors := by
  rw [someHas_resultOf_iff, Leaves]
  simp only [splitFor, hkeys.mem_slots_rest_iff hne]

/-- The rest of a run styles a selector when some page leaves a list with it that no page takes as a
whole. -/
theorem styles_restSheet_iff (hskip : r.config.invalidRules = .skip)
    (hmark : RuleMap.Distinguishes mark) (hkeys : source.KeysApart !r.config.dropKeyframes)
    {visits : List Visit} {selector : String} :
    (r.restSheet mark (visits.map (r.resultOf source))).Styles id selector declarations condition ↔
      declarations ≠ [] ∧ ∃ left, selector ∈ left ∧
        r.Leaves source visits condition declarations left ∧
          ¬ r.Takes source visits condition declarations left := by
  have hlists := listsOnce_restSheet hskip hmark (visits.map (r.resultOf source))
  have hemittable : ∀ left, (Node.ofStyle left declarations).isEmittable = true ↔
      declarations ≠ [] := by
    intro left
    simp [Node.isEmittable, Node.ofStyle, Node.declarations?, Item.declarations?]
  rw [Stylesheet.styles_iff_slots, ← exists_and_left]
  refine exists_congr fun left => ?_
  rw [hlists.mem_iff, hemittable, and_left_comm]
  refine and_congr_right fun _ => and_congr_right fun hs => ?_
  have hne : left ≠ [] := List.ne_nil_of_mem hs
  rw [someHas_critical_iff_takes hne, someHas_rest_iff_leaves hkeys hne]

/-- A list that is left and has a selector that is critical on no page is taken by no page. -/
theorem not_takes_of_not_critical {visits : List Visit} {selector : String} {left : List String}
    (hs : selector ∈ left)
    (hnone : ¬ ∃ v ∈ visits, ∃ d, v.document = .ok d ∧ r.probe.Critical d selector) :
    ¬ r.Takes source visits condition declarations left := by
  rintro ⟨v, hv, d, hd, listed, _, rfl⟩
  exact hnone ⟨v, hv, d, hd, Probe.isCritical_iff.1 (List.mem_filter.1 hs).2⟩

/-- For a source whose keys stand for one thing each, and when rules are left out that cannot be
printed: a selector that is critical on no page is in the rest with all that the source declares for
it.  A selector is in both style sheets, under one condition and with the same declarations, exactly
when it is critical on some page and some page leaves a list with it that no page takes as a whole.
-/
theorem foldBy_styles_in_both_iff (r : Run) (hskip : r.config.invalidRules = .skip)
    (hmark : RuleMap.Distinguishes mark) {source : Stylesheet}
    (hkeys : source.KeysApart !r.config.dropKeyframes) {visits : List Visit}
    (hsome : ∃ v ∈ visits, ∃ d, v.document = .ok d) (selector : String)
    {declarations : List Declaration} (hdeclares : declarations ≠ [])
    (condition : Option String) :
    (¬ (∃ v ∈ visits, ∃ d, v.document = .ok d ∧ r.probe.Critical d selector) →
        ((r.restSheet mark (visits.map (r.resultOf source))).Styles id selector declarations
            condition ↔
          source.Styles canonicalMedia selector declarations condition)) ∧
      ((r.criticalSheet mark (visits.map (r.resultOf source))).Styles id selector declarations
            condition ∧
          (r.restSheet mark (visits.map (r.resultOf source))).Styles id selector declarations
            condition ↔
        (∃ v ∈ visits, ∃ d, v.document = .ok d ∧ r.probe.Critical d selector) ∧
          ∃ left, selector ∈ left ∧ r.Leaves source visits condition declarations left ∧
            ¬ r.Takes source visits condition declarations left) := by
  have hlisted : ∀ left, selector ∈ left → r.Leaves source visits condition declarations left →
      source.Styles canonicalMedia selector declarations condition := by
    rintro left hs ⟨v, hv, d, hd, listed, hslot, rfl⟩
    exact Stylesheet.styles_iff_slots.2 ⟨listed, (List.mem_filter.1 hs).1, hslot⟩
  rw [styles_restSheet_iff hskip hmark hkeys, and_iff_right hdeclares]
  constructor
  · intro hnone
    constructor
    · rintro ⟨left, hs, hleaves, _⟩
      exact hlisted left hs hleaves
    · intro hstyles
      obtain ⟨listed, hs, hslot⟩ := Stylesheet.styles_iff_slots.1 hstyles
      obtain ⟨v, hv, d, hd⟩ := hsome
      have hnot : r.probe.isCritical d selector = false := by
        rw [Bool.eq_false_iff]
        exact fun h => hnone ⟨v, hv, d, hd, Probe.isCritical_iff.1 h⟩
      have hleft : selector ∈ listed.filter fun s => !r.probe.isCritical d s :=
        List.mem_filter.2 ⟨hs, by rw [hnot]; rfl⟩
      exact ⟨_, hleft, ⟨v, hv, d, hd, listed, hslot, rfl⟩, not_takes_of_not_critical hleft hnone⟩
  · have hcritical := (foldBy_prints_critical r hskip hmark source hsome).2 selector declarations
      condition hdeclares
    rw [hcritical]
    constructor
    · rintro ⟨⟨_, hcritical⟩, hleft⟩
      exact ⟨hcritical, hleft⟩
    · rintro ⟨hcritical, left, hs, hleaves, hnot⟩
      exact ⟨⟨hlisted left hs hleaves, hcritical⟩, left, hs, hleaves, hnot⟩

/-- A page with one element, at the top, and a page without elements. -/
def navVisits : List Visit :=
  [⟨"a", .ok ⟨[⟨"nav", none, [], [], .zero, false, none⟩], ⟨1200, 1080⟩⟩⟩,
    ⟨"b", .ok ⟨[], ⟨1200, 1080⟩⟩⟩]

/-- Two rules with one selector each and the same declarations. -/
def navThenParagraph : Stylesheet :=
  [.item (.style ["nav"] [⟨"color", "red"⟩]) (some ⟨1, 1⟩),
    .item (.style ["p"] [⟨"color", "red"⟩]) (some ⟨2, 1⟩)]

/-- When rules list one selector each, the selector that is critical on one of the pages is not in
the rest, and the other one is. -/
theorem foldBy_styles_in_both_iff_navThenParagraph :
    standard.config.invalidRules = .skip ∧ RuleMap.Distinguishes id ∧
      navThenParagraph.KeysApart !standard.config.dropKeyframes ∧
      (∃ v ∈ navVisits, ∃ d, v.document = .ok d) ∧
      (standard.restSheet id (navVisits.map (standard.resultOf navThenParagraph))).Styles id "p"
        [⟨"color", "red"⟩] none ∧
      ¬ ((standard.criticalSheet id (navVisits.map (standard.resultOf navThenParagraph))).Styles id
            "nav" [⟨"color", "red"⟩] none ∧
          (standard.restSheet id (navVisits.map (standard.resultOf navThenParagraph))).Styles id
            "nav" [⟨"color", "red"⟩] none) := by
  have hmark : RuleMap.Distinguishes id := fun _ _ h => h
  have hkeys : navThenParagraph.KeysApart !standard.config.dropKeyframes := ⟨by decide, by decide⟩
  have hsome : ∃ v ∈ navVisits, ∃ d, v.document = .ok d := ⟨_, List.mem_cons_self, _, rfl⟩
  have hp : ¬ ∃ v ∈ navVisits, ∃ d, v.document = .ok d ∧ standard.probe.Critical d "p" := by
    rintro ⟨v, hv, d, hd, hcritical⟩
    rw [← Probe.isCritical_iff] at hcritical
    fin_cases hv <;> cases hd <;> revert hcritical <;> decide +kernel
  have hred : [(⟨"color", "red"⟩ : Declaration)] ≠ [] := by simp
  have hboth := fun s => foldBy_styles_in_both_iff standard rfl hmark hkeys hsome s hred none
  refine ⟨rfl, hmark, hkeys, hsome, ?_, ?_⟩
  · refine ((hboth "p").1 hp).2 ⟨["p"], some ⟨2, 1⟩, ?_, by simp⟩
    exact List.mem_cons_of_mem _ List.mem_cons_self
  · intro h
    obtain ⟨_, left, hs, ⟨v, hv, d, hd, listed, hslot, rfl⟩, hnot⟩ := (hboth "nav").2.1 h
    have hlisted : listed = ["nav"] := by
      have hmem := (List.mem_filter.1 hs).1
      have hrules : listed = ["nav"] ∨ listed = ["p"] := by
        simpa [Stylesheet.slots, navThenParagraph, Node.slots, Node.isComment,
          Node.withoutPosition, Node.ofStyle] using hslot
      rcases hrules with rfl | rfl
      · rfl
      · simp at hmem
    have hleft : listed.filter (fun s => !standard.probe.isCritical d s) = ["nav"] := by
      rw [hlisted] at hs ⊢
      exact List.filter_eq_self.2 fun s hs' => by
        rw [List.mem_singleton.1 hs']
        exact (List.mem_filter.1 hs).2
    refine hnot ⟨_, List.mem_cons_self, _, rfl, ["nav"], ?_, ?_⟩
    · decide
    · rw [hleft]
      decide +kernel

/-- One rule with both selectors. -/
def navAndParagraph : Stylesheet :=
  [.item (.style ["nav", "p"] [⟨"color", "red"⟩]) (some ⟨1, 1⟩)]

/-- The first page takes one selector of the rule and leaves the other one; the second page leaves
both, which nothing takes away.  The selector that the first page takes is in both style sheets. -/
theorem navAndParagraph_styles_in_both :
    standard.config.invalidRules = .skip ∧ RuleMap.Distinguishes id ∧
      navAndParagraph.KeysApart !standard.config.dropKeyframes ∧
      (∀ v ∈ navVisits, ∃ d, v.document = .ok d) ∧
      (standard.criticalSheet id (navVisits.map (standard.resultOf navAndParagraph))).Styles id
        "nav" [⟨"color", "red"⟩] none ∧
      (standard.restSheet id (navVisits.map (standard.resultOf navAndParagraph))).Styles id
        "nav" [⟨"color", "red"⟩] none := by
  have hcritical : standard.criticalSheet id (navVisits.map (standard.resultOf navAndParagraph)) =
      [.ofStyle ["nav"] [⟨"color", "red"⟩]] := by decide +kernel
  have hrest : standard.restSheet id (navVisits.map (standard.resultOf navAndParagraph)) =
      [.ofStyle ["p"] [⟨"color", "red"⟩], .ofStyle ["nav", "p"] [⟨"color", "red"⟩]] := by
    decide +kernel
  refine ⟨rfl, fun _ _ h => h, ⟨by decide, by decide⟩, ?_, ?_, ?_⟩
  · intro v hv
    fin_cases hv <;> exact ⟨_, rfl⟩
  · rw [hcritical]
    exact ⟨["nav"], none, List.mem_cons_self, List.mem_cons_self⟩
  · rw [hrest]
    exact ⟨["nav", "p"], none, List.mem_cons_of_mem _ List.mem_cons_self, List.mem_cons_self⟩

end Run

end CriticalCss
