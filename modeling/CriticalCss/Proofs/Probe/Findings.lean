import CriticalCss.Probe.Evaluate
import CriticalCss.Proofs.Probe.Recording
import CriticalCss.Proofs.Tree.StyleRules

/-!
# What a probe finds

The evaluation of a style sheet remembers the elements that it found above the fold, and records
selectors under the keys of their rules.  Neither has an influence on what is found: a selector is
recorded under a key when some rule with that key lists it and it is critical by itself.

* `Critical` says what a critical selector is, and `judge_spec` that a judgement comes to that
  whatever it remembers.
* `findings` lists what there is to be found in some rules.
* `Evaluation.Records` is what a stretch of the evaluation does, and `visit_records` what the walk
  over a node does.
* `evaluate_eq_insertAll` is the whole evaluation, and `evaluate_critical_keys` says which selectors
  the map holds and in which order its keys stand.
-/

namespace CriticalCss

namespace Probe

/-- A selector is critical in a document: it matches a keep pattern, or else no remove pattern and
either begins with a pseudo-class or pseudo-element or selects an element whose top is less than the
height of the viewport. -/
def Critical (p : Probe) (d : Document) (selector : String) : Prop :=
  (∃ k ∈ p.keep, k.accepts selector = true) ∨
    (∀ k ∈ p.remove, k.accepts selector = false) ∧
      (isPurePseudo selector = true ∨
        ∃ selectors, Selector.readList (strip selector) = .ok selectors ∧
          ∃ i rect, d.someMatch selectors i = true ∧ d.rect? i = some rect ∧
            rect.top < Decimal.wholeToFloat32 d.viewport.height)

end Probe

/-! ## Judgements -/

namespace Document

/-- All of some elements begin above the fold. -/
def AllAboveFold (d : Document) (known : List Nat) : Prop :=
  ∀ i ∈ known, d.isAboveFold i = true

theorem allAboveFold_nil (d : Document) : d.AllAboveFold [] :=
  fun _ hi => absurd hi List.not_mem_nil

theorem isAboveFold_iff {d : Document} {i : Nat} :
    d.isAboveFold i = true ↔
      ∃ rect, d.rect? i = some rect ∧ rect.top < Decimal.wholeToFloat32 d.viewport.height := by
  rw [isAboveFold, Option.any_eq_true]
  simp only [decide_eq_true_eq]

/-- What is remembered does not change what is found. -/
theorem findAboveFold_spec {d : Document} {known : List Nat} (hknown : d.AllAboveFold known)
    (nodes : List Nat) :
    (d.findAboveFold known nodes).1 = nodes.any d.isAboveFold ∧
      d.AllAboveFold (d.findAboveFold known nodes).2 := by
  induction nodes with
  | nil => exact ⟨rfl, hknown⟩
  | cons i nodes ih =>
    rw [findAboveFold, List.any_cons]
    split
    · next hmem =>
      have habove : d.isAboveFold i = true := hknown i (by simpa using hmem)
      exact ⟨by rw [habove, Bool.true_or], hknown⟩
    · split
      · next habove =>
        refine ⟨by rw [habove, Bool.true_or], ?_⟩
        intro j hj
        rcases List.mem_cons.1 hj with rfl | hj
        · exact habove
        · exact hknown j hj
      · next hbelow =>
        rw [Bool.eq_false_iff.2 hbelow, Bool.false_or]
        exact ih

/-- An element of the document that begins above the fold is one that a query may find. -/
theorem any_select_iff {d : Document} {selectors : List Selector} :
    (d.select selectors).any d.isAboveFold = true ↔
      ∃ i rect, d.someMatch selectors i = true ∧ d.rect? i = some rect ∧
        rect.top < Decimal.wholeToFloat32 d.viewport.height := by
  rw [List.any_eq_true]
  constructor
  · intro habove
    obtain ⟨i, hi, habove⟩ := habove
    obtain ⟨rect, hrect, htop⟩ := isAboveFold_iff.1 habove
    exact ⟨i, rect, (List.mem_filter.1 hi).2, hrect, htop⟩
  · intro htop
    obtain ⟨i, rect, hmatch, hrect, htop⟩ := htop
    refine ⟨i, List.mem_filter.2 ⟨?_, hmatch⟩, isAboveFold_iff.2 ⟨rect, hrect, htop⟩⟩
    rw [rect?, Option.map_eq_some_iff] at hrect
    obtain ⟨box, hbox, _⟩ := hrect
    rw [box?, List.getElem?_eq_some_iff] at hbox
    exact List.mem_range.2 hbox.1

end Document

namespace Probe

/-- A selector that is looked up is judged by the elements that it selects. -/
theorem judge_query_spec {p : Probe} {d : Document} {known : List Nat}
    (hknown : d.AllAboveFold known) {selector q : String} (htriage : p.triage selector = .query q) :
    ((p.judge d known selector).1 = true ↔
        ∃ selectors, Selector.readList q = .ok selectors ∧
          ∃ i rect, d.someMatch selectors i = true ∧ d.rect? i = some rect ∧
            rect.top < Decimal.wholeToFloat32 d.viewport.height) ∧
      d.AllAboveFold (p.judge d known selector).2 := by
  simp only [judge, htriage, Document.query]
  cases hread : Selector.readList q with
  | error e =>
    refine ⟨iff_of_false Bool.false_ne_true ?_, hknown⟩
    intro hok
    obtain ⟨selectors, hok, _⟩ := hok
    cases hok
  | ok selectors =>
    obtain ⟨hfound, hknown'⟩ := Document.findAboveFold_spec hknown (d.select selectors)
    refine ⟨?_, hknown'⟩
    show (d.findAboveFold known (d.select selectors)).1 = true ↔ _
    rw [hfound, Document.any_select_iff]
    constructor
    · exact fun h => ⟨selectors, rfl, h⟩
    · intro h
      obtain ⟨selectors', hok, h⟩ := h
      cases hok
      exact h

/-- A judgement says whether the selector is critical, and what it remembers is above the fold. -/
theorem judge_spec (p : Probe) {d : Document} {known : List Nat} (hknown : d.AllAboveFold known)
    (selector : String) :
    ((p.judge d known selector).1 = true ↔ p.Critical d selector) ∧
      d.AllAboveFold (p.judge d known selector).2 := by
  rw [Critical]
  by_cases hkeep : p.keep.any (·.accepts selector) = true
  · have htriage : p.triage selector = .keep := by rw [triage, if_pos hkeep]
    rw [judge, htriage]
    exact ⟨iff_of_true rfl (.inl (List.any_eq_true.1 hkeep)), hknown⟩
  rw [or_iff_right fun h => hkeep (List.any_eq_true.2 h)]
  by_cases hremove : p.remove.any (·.accepts selector) = true
  · have htriage : p.triage selector = .remove := by rw [triage, if_neg hkeep, if_pos hremove]
    obtain ⟨k, hk, haccepts⟩ := List.any_eq_true.1 hremove
    rw [judge, htriage]
    refine ⟨iff_of_false Bool.false_ne_true fun h => ?_, hknown⟩
    rw [h.1 k hk] at haccepts
    exact Bool.false_ne_true haccepts
  have hnone : ∀ k ∈ p.remove, k.accepts selector = false := by simpa using hremove
  rw [and_iff_right hnone]
  by_cases hpseudo : isPurePseudo selector = true
  · have htriage : p.triage selector = .purePseudo := by
      rw [triage, if_neg hkeep, if_neg hremove, if_pos hpseudo]
    rw [judge, htriage]
    exact ⟨iff_of_true rfl (.inl hpseudo), hknown⟩
  · have htriage : p.triage selector = .query (strip selector) := by
      rw [triage, if_neg hkeep, if_neg hremove, if_neg hpseudo]
    rw [or_iff_right hpseudo]
    exact judge_query_spec hknown htriage

end Probe

/-! ## Evaluations -/

/-- One evaluation goes on to another: from elements above the fold to elements above the fold, and
it records some findings in order. -/
structure Evaluation.Records (d : Document) (e e' : Evaluation) (found : List Finding) : Prop where
  known : d.AllAboveFold e'.known
  critical : e'.critical = e.critical.insertAll found

namespace Evaluation

variable {d : Document} {e e' e'' : Evaluation} {found found' : List Finding}

/-- Nothing is recorded when nothing is looked at. -/
theorem Records.refl (hknown : d.AllAboveFold e.known) : Records d e e [] :=
  ⟨hknown, rfl⟩

/-- What is recorded one after the other is recorded together. -/
theorem Records.trans (h : Records d e e' found) (h' : Records d e' e'' found') :
    Records d e e'' (found ++ found') where
  known := h'.known
  critical := by rw [h'.critical, h.critical, CriticalMap.insertAll_append]

/-- A walk records what its steps record, when each step records something from wherever it starts.
-/
theorem Records.foldl {α : Type} {step : Evaluation → α → Evaluation} {found : α → List Finding}
    {xs : List α}
    (hstep : ∀ x ∈ xs, ∀ e, d.AllAboveFold e.known → Records d e (step e x) (found x))
    (hknown : d.AllAboveFold e.known) : Records d e (xs.foldl step e) (xs.flatMap found) := by
  induction xs generalizing e with
  | nil => exact .refl hknown
  | cons x xs ih =>
    have hfirst := hstep x List.mem_cons_self e hknown
    have hrest := ih (fun y hy => hstep y (List.mem_cons_of_mem _ hy)) hfirst.known
    rw [List.foldl_cons, List.flatMap_cons]
    exact hfirst.trans hrest

end Evaluation

namespace Probe

open Evaluation

/-- Whether a selector is critical is what a judgement says that remembers nothing. -/
instance (p : Probe) (d : Document) (selector : String) : Decidable (p.Critical d selector) :=
  decidable_of_iff ((p.judge d [] selector).1 = true) (p.judge_spec d.allAboveFold_nil selector).1

/-- What is found in a style rule. -/
def findingsIn (p : Probe) (d : Document) (r : PlacedRule) : List Finding :=
  (r.selectors.filter (p.Critical d ·)).map (⟨r.key, ·, .rule⟩)

/-- What is found in some style rules: the critical selectors of those that stand at top level or in
`@media` and `@supports` blocks. -/
def findings (p : Probe) (d : Document) (rules : List PlacedRule) : List Finding :=
  (rules.filter (·.InConditions)).flatMap (p.findingsIn d)

theorem findings_flatMap {α : Type} (p : Probe) (d : Document) (rules : α → List PlacedRule)
    (xs : List α) :
    p.findings d (xs.flatMap rules) = xs.flatMap fun x => p.findings d (rules x) := by
  rw [findings, List.filter_flatMap, List.flatMap_assoc]
  rfl

theorem mem_findings {p : Probe} {d : Document} {rules : List PlacedRule} {f : Finding} :
    f ∈ p.findings d rules ↔
      ∃ r ∈ rules, r.InConditions ∧ ∃ s ∈ r.selectors, p.Critical d s ∧ ⟨r.key, s, .rule⟩ = f := by
  simp only [findings, findingsIn, List.mem_flatMap, List.mem_map, List.mem_filter,
    decide_eq_true_eq, and_assoc]

/-- Considering a selector records it if it is critical. -/
theorem consider_records (p : Probe) {d : Document} (key : String) {e : Evaluation}
    (hknown : d.AllAboveFold e.known) (selector : String) :
    Records d e (p.consider d key e selector)
      (if p.Critical d selector then [⟨key, selector, .rule⟩] else []) := by
  obtain ⟨hverdict, hknown'⟩ := p.judge_spec hknown selector
  refine ⟨hknown', ?_⟩
  rw [consider]
  by_cases hcritical : p.Critical d selector
  · simp only [if_pos hcritical, if_pos (hverdict.2 hcritical)]
    rfl
  · simp only [if_neg hcritical, if_neg (mt hverdict.1 hcritical)]
    rfl

/-- Considering some selectors records those that are critical, in order. -/
theorem foldl_consider_records (p : Probe) {d : Document} (key : String) {e : Evaluation}
    (hknown : d.AllAboveFold e.known) (selectors : List String) :
    Records d e (selectors.foldl (p.consider d key) e)
      ((selectors.filter (p.Critical d ·)).map (⟨key, ·, .rule⟩)) := by
  induction selectors generalizing e with
  | nil => exact .refl hknown
  | cons s selectors ih =>
    have hfirst := p.consider_records key hknown s
    have hall := hfirst.trans (ih hfirst.known)
    rw [List.foldl_cons]
    by_cases hcritical : p.Critical d s
    · simpa [hcritical] using hall
    · simpa [hcritical] using hall

theorem visitAll_eq_foldl (p : Probe) (d : Document) (context : String) (e : Evaluation)
    (ns : List Node) : p.visitAll d context e ns = ns.foldl (p.visit d context) e := by
  induction ns generalizing e with
  | nil => rfl
  | cons n ns ih => rw [visitAll, ih, List.foldl_cons]

/-- Selectors are looked for in `@media` and `@supports` blocks. -/
theorem probedKinds_contains_iff (h : Heading) :
    probedKinds.contains h.kind = true ↔ h.kind = .media ∨ h.kind = .supports := by
  cases h <;> simp [probedKinds, Heading.kind]

/-- A walk over some nodes records what the walks over each of them record. -/
theorem visitAll_records {p : Probe} {d : Document} {ns : List Node} {path : List Heading}
    (hvisit : ∀ n ∈ ns, ∀ e, d.AllAboveFold e.known →
      Records d e (p.visit d (Heading.contextOf path) e n) (p.findings d (n.styleRules path)))
    {e : Evaluation} (hknown : d.AllAboveFold e.known) :
    Records d e (p.visitAll d (Heading.contextOf path) e ns)
      (p.findings d (Node.styleRulesOf path ns)) := by
  rw [visitAll_eq_foldl, Node.styleRulesOf_eq_flatMap, findings_flatMap]
  exact .foldl hvisit hknown

/-- The walk over a style rule in conditions records its critical selectors. -/
theorem visit_style_records (p : Probe) {d : Document} {path : List Heading}
    (hpath : ∀ h ∈ path, h.kind = .media ∨ h.kind = .supports) (selectors : List String)
    (declarations : List Declaration) (position : Option Position) {e : Evaluation}
    (hknown : d.AllAboveFold e.known) :
    Records d e
      (p.visit d (Heading.contextOf path) e (.item (.style selectors declarations) position))
      (p.findings d [⟨path, selectors, declarations, position⟩]) := by
  have hwalk : p.visit d (Heading.contextOf path) e
        (.item (.style selectors declarations) position) =
      selectors.foldl (p.consider d (styleKey (Heading.contextOf path) selectors)) e := by
    rw [visit, Node.key?_style]
    rfl
  have hin : PlacedRule.InConditions ⟨path, selectors, declarations, position⟩ := hpath
  rw [hwalk, findings, List.filter_singleton, decide_eq_true hin, cond_true, List.flatMap_singleton]
  exact p.foldl_consider_records _ hknown selectors

/-- Nothing is found inside a block unless it is a `@media` or `@supports` block. -/
theorem findings_eq_nil_of_block (p : Probe) (d : Document) {path : List Heading} {h : Heading}
    (hkind : ¬ (h.kind = .media ∨ h.kind = .supports)) (rules : List Node) :
    p.findings d (Node.styleRulesOf (path ++ [h]) rules) = [] := by
  refine List.flatMap_eq_nil_iff.2 fun r hr => ?_
  obtain ⟨hr, hin⟩ := List.mem_filter.1 hr
  obtain ⟨n, _, hr⟩ := Node.mem_styleRulesOf.1 hr
  -- The headings of a rule in the block begin with those over the block and its own.
  have hmem : h ∈ r.path :=
    (Node.path_prefix_of_mem_styleRules hr).subset (List.mem_append_right _ (by simp))
  exact absurd (of_decide_eq_true hin h hmem) hkind

/-- A walk over a node records the critical selectors of its style rules in conditions. -/
theorem visit_records (p : Probe) {d : Document} {n : Node} {path : List Heading}
    (hpath : ∀ h ∈ path, h.kind = .media ∨ h.kind = .supports) {e : Evaluation}
    (hknown : d.AllAboveFold e.known) :
    Records d e (p.visit d (Heading.contextOf path) e n) (p.findings d (n.styleRules path)) := by
  induction n generalizing path e with
  | item i position =>
    cases i with
    | style selectors declarations =>
      rw [Node.styleRules]
      exact p.visit_style_records hpath selectors declarations position hknown
    | _ => exact .refl hknown
  | block h rules position ih =>
    rw [visit, Node.innerContext_block, ← Heading.contextOf_append, Node.styleRules_block]
    split
    · next hprobed =>
      have hpath' : ∀ h' ∈ path ++ [h], h'.kind = .media ∨ h'.kind = .supports := by
        intro h' hh'
        rcases List.mem_append.1 hh' with hh' | hh'
        · exact hpath h' hh'
        · rw [List.mem_singleton.1 hh']
          exact (probedKinds_contains_iff h).1 hprobed
      exact visitAll_records (fun n hn e he => ih n hn hpath' he) hknown
    · next hskipped =>
      rw [p.findings_eq_nil_of_block d (mt (probedKinds_contains_iff h).2 hskipped) rules]
      exact .refl hknown

/-- The evaluation of a style sheet records what there is to be found in its style rules. -/
theorem evaluate_eq_insertAll (p : Probe) (d : Document) (sheet : Stylesheet) :
    p.evaluate d sheet = CriticalMap.empty.insertAll (p.findings d sheet.styleRules) := by
  have hvisit : ∀ n ∈ sheet, ∀ e, d.AllAboveFold e.known →
      Records d e (p.visit d (Heading.contextOf []) e n) (p.findings d (n.styleRules [])) :=
    fun n _ e he => p.visit_records (fun h hh => absurd hh List.not_mem_nil) he
  have hrecords : Records d ⟨[], .empty⟩ (p.visitAll d (Heading.contextOf []) ⟨[], .empty⟩ sheet)
      (p.findings d sheet.styleRules) := visitAll_records hvisit d.allAboveFold_nil
  exact hrecords.critical

/-- A selector is recorded under a key when some style rule with that key, at top level or in
`@media` and `@supports` blocks, lists it and it is critical. -/
theorem isCritical_evaluate_iff (p : Probe) (d : Document) (sheet : Stylesheet)
    (key selector : String) :
    (p.evaluate d sheet).isCritical key selector = true ↔
      ∃ r ∈ sheet.styleRules, r.InConditions ∧ r.key = key ∧ selector ∈ r.selectors ∧
        p.Critical d selector := by
  rw [evaluate_eq_insertAll, CriticalMap.isCritical_insertAll, CriticalMap.isCritical_empty,
    or_iff_right Bool.false_ne_true]
  constructor
  · intro hfound
    obtain ⟨f, hf, rfl, rfl⟩ := hfound
    obtain ⟨r, hr, hin, s, hs, hcritical, rfl⟩ := mem_findings.1 hf
    exact ⟨r, hr, hin, rfl, hs, hcritical⟩
  · intro hcritical
    obtain ⟨r, hr, hin, rfl, hs, hcritical⟩ := hcritical
    exact ⟨_, mem_findings.2 ⟨r, hr, hin, selector, hs, hcritical, rfl⟩, rfl, rfl⟩

/-- The keys of what is found in some style rules, each where it is found first. -/
theorem eraseDups_keys_findings (p : Probe) (d : Document) (rules : List PlacedRule) :
    ((p.findings d rules).map (·.key)).eraseDups =
      ((rules.filter fun r => r.InConditions ∧ ∃ s ∈ r.selectors, p.Critical d s).map
        (·.key)).eraseDups := by
  have hkeys : (p.findings d rules).map (·.key) =
      (rules.filter (·.InConditions)).flatMap fun r =>
        List.replicate (r.selectors.filter (p.Critical d ·)).length r.key := by
    rw [findings, List.map_flatMap]
    refine List.flatMap_congr fun r _ => ?_
    rw [findingsIn, List.map_map]
    exact List.map_const'
  have hsome : ∀ r : PlacedRule, 0 < (r.selectors.filter (p.Critical d ·)).length ↔
      ∃ s ∈ r.selectors, p.Critical d s := by
    intro r
    simp [List.length_pos_iff_exists_mem]
  rw [hkeys, eraseDups_flatMap_replicate, List.filter_filter]
  simp only [hsome, Bool.decide_and, Bool.and_comm]

/-- What is remembered after some selectors were judged. -/
def knownAfter (p : Probe) (d : Document) (judged : List String) : List Nat :=
  judged.foldl (fun known s => (p.judge d known s).2) []

theorem allAboveFold_knownAfter (p : Probe) (d : Document) (judged : List String) :
    d.AllAboveFold (p.knownAfter d judged) := by
  induction judged using List.reverseRecOn with
  | nil => exact d.allAboveFold_nil
  | append_singleton judged s ih =>
    rw [knownAfter, List.foldl_append]
    exact (p.judge_spec ih s).2

/-- The map that an evaluation returns holds a selector under a key when some style rule with that
key, at top level or in `@media` and `@supports` blocks, lists it and it is critical.  A judgement
says whether a selector is critical, whatever was judged before.  The keys stand in the order of the
first such rules that list a critical selector, and under each key stands some selector and none
twice. -/
theorem evaluate_critical_keys (p : Probe) (d : Document) (sheet : Stylesheet) :
    (∀ key selector, (p.evaluate d sheet).isCritical key selector = true ↔
        ∃ r ∈ sheet.styleRules, r.InConditions ∧ r.key = key ∧ selector ∈ r.selectors ∧
          p.Critical d selector) ∧
      (∀ judged selector,
        (p.judge d (p.knownAfter d judged) selector).1 = true ↔ p.Critical d selector) ∧
      (p.evaluate d sheet).entries.map (·.1) =
        ((sheet.styleRules.filter fun r => r.InConditions ∧ ∃ s ∈ r.selectors, p.Critical d s).map
          (·.key)).eraseDups ∧
      ∀ entry ∈ (p.evaluate d sheet).entries,
        entry.2.selectors ≠ [] ∧ entry.2.selectors.Nodup := by
  refine ⟨p.isCritical_evaluate_iff d sheet, fun judged selector => ?_, ?_, fun entry hentry => ?_⟩
  · exact (p.judge_spec (p.allAboveFold_knownAfter d judged) selector).1
  · rw [evaluate_eq_insertAll, CriticalMap.keys_insertAll, eraseDups_keys_findings]
  · rw [evaluate_eq_insertAll] at hentry
    exact CriticalMap.selectors_of_mem_insertAll hentry

end Probe

end CriticalCss
