import CriticalCss.Proofs.RuleMap.Slots
import CriticalCss.Run.Output

/-!
# What comes out of a run

`Run.foldBy` merges the parts of all pages into two style sheets.  What the style sheets hold is
told by their slots.

* `mem_slots_mergeAll_iff` says that merged style sheets have the slots of all of them.
* `mem_slots_criticalRules_iff` and `mem_slots_restRules_iff` read the slots of a run off the splits
  of its pages, and `Orderly.listsOnce` takes them to the style sheets that are printed.
* `foldBy_lists_slots` is the result for a whole run: when it fails, what errors it gives, and what
  it prints.
-/

namespace CriticalCss

/-- A style sheet lists the slots with a property and no other ones, none of them twice, and has one
media block for a condition at most. -/
structure Stylesheet.ListsOnce (sheet : Stylesheet) (p : Slot → Prop) : Prop where
  mem_iff : ∀ slot, slot ∈ sheet.slots id ↔ p slot
  nodup : (sheet.slots id).Nodup
  conditions : (sheet.filterMap Node.condition?).Nodup

/-- A map becomes a style sheet that lists the slots of the map that can be printed. -/
theorem RuleMap.Orderly.listsOnce {M : Type} {mark : Node → M} {m : RuleMap M}
    (h : m.Orderly mark) {p : Slot → Prop} (hslots : ∀ slot, slot ∈ m.slots ↔ p slot) :
    (m.assemble .skip).ListsOnce fun slot => slot.2.isEmittable = true ∧ p slot where
  mem_iff := by
    intro slot
    rw [h.slots_assemble, List.mem_filter, hslots, and_comm]
  nodup := by
    rw [h.slots_assemble]
    exact h.nodup_slots.filter _
  conditions := h.nodup_conditions_assemble

namespace PageResult

/-- The page has a split. -/
def Succeeded (page : PageResult) : Prop :=
  ∃ split, page.outcome = .ok split

/-- Some page has a split with a slot in the given part. -/
def SomeHas (part : Split → Stylesheet) (results : List PageResult) (slot : Slot) : Prop :=
  ∃ page ∈ results, ∃ split, page.outcome = .ok split ∧ slot ∈ (part split).slots canonicalMedia

theorem split?_eq_some_iff {page : PageResult} {split : Split} :
    page.split? = some split ↔ page.outcome = .ok split := by
  rw [split?]
  cases page.outcome with
  | ok split' => simp [Except.toOption]
  | error e => simp [Except.toOption]

theorem mem_splits_iff {results : List PageResult} {split : Split} :
    split ∈ results.filterMap (·.split?) ↔ ∃ page ∈ results, page.outcome = .ok split := by
  simp only [List.mem_filterMap, split?_eq_some_iff]

/-- There is no split when no page has one. -/
theorem isEmpty_splits_iff {results : List PageResult} :
    (results.filterMap (·.split?)).isEmpty = true ↔ ¬ ∃ page ∈ results, page.Succeeded := by
  rw [List.isEmpty_iff, List.eq_nil_iff_forall_not_mem]
  constructor
  · rintro hnone ⟨page, hpage, split, hok⟩
    exact hnone split (mem_splits_iff.2 ⟨page, hpage, hok⟩)
  · intro hnone split hsplit
    obtain ⟨page, hpage, hok⟩ := mem_splits_iff.1 hsplit
    exact hnone ⟨page, hpage, split, hok⟩

/-- What some page has depends only on which pages there are. -/
theorem someHas_congr {results results' : List PageResult}
    (hsame : ∀ page, page ∈ results' ↔ page ∈ results) (part : Split → Stylesheet) (slot : Slot) :
    SomeHas part results' slot ↔ SomeHas part results slot := by
  simp only [SomeHas, hsame]

end PageResult

namespace Run

variable {M : Type} [DecidableEq M] {mark : Node → M}

/-! ## Merging style sheets -/

theorem orderly_foldl_merge {m : RuleMap M} (h : m.Orderly mark) (sheets : List Stylesheet) :
    (sheets.foldl (RuleMap.merge mark) m).Orderly mark := by
  induction sheets generalizing m with
  | nil => exact h
  | cons sheet sheets ih => exact ih (h.merge sheet)

theorem mem_slots_foldl_merge_iff (hmark : RuleMap.Distinguishes mark) {m : RuleMap M}
    (h : m.Orderly mark) {sheets : List Stylesheet} {slot : Slot} :
    slot ∈ (sheets.foldl (RuleMap.merge mark) m).slots ↔
      slot ∈ m.slots ∨ ∃ sheet ∈ sheets, slot ∈ sheet.slots canonicalMedia := by
  induction sheets generalizing m with
  | nil => simp
  | cons sheet sheets ih =>
    rw [List.foldl_cons, ih (h.merge sheet), h.mem_slots_merge_iff hmark, List.exists_mem_cons_iff,
      or_assoc]

theorem orderly_mergeAll (mark : Node → M) (sheets : List Stylesheet) :
    (mergeAll mark sheets).Orderly mark :=
  orderly_foldl_merge (RuleMap.orderly_empty mark) sheets

/-- Merged style sheets have the slots of all of them. -/
theorem mem_slots_mergeAll_iff (hmark : RuleMap.Distinguishes mark) {sheets : List Stylesheet}
    {slot : Slot} :
    slot ∈ (mergeAll mark sheets).slots ↔ ∃ sheet ∈ sheets, slot ∈ sheet.slots canonicalMedia := by
  have hempty : slot ∉ (RuleMap.empty : RuleMap M).slots := List.not_mem_nil
  rw [mergeAll, mem_slots_foldl_merge_iff hmark (RuleMap.orderly_empty mark), or_iff_right hempty]

/-! ## The style sheets of a run -/

/-- The slots of one part of all splits of a run. -/
theorem mem_slots_mergeAll_part_iff (hmark : RuleMap.Distinguishes mark)
    (part : Split → Stylesheet) (results : List PageResult) (slot : Slot) :
    slot ∈ (mergeAll mark ((results.filterMap (·.split?)).map part)).slots ↔
      PageResult.SomeHas part results slot := by
  rw [mem_slots_mergeAll_iff hmark]
  constructor
  · intro hslot
    obtain ⟨sheet, hsheet, hslot⟩ := hslot
    obtain ⟨split, hsplit, rfl⟩ := List.mem_map.1 hsheet
    obtain ⟨page, hpage, hok⟩ := PageResult.mem_splits_iff.1 hsplit
    exact ⟨page, hpage, split, hok, hslot⟩
  · intro hslot
    obtain ⟨page, hpage, split, hok, hslot⟩ := hslot
    have hsplit := PageResult.mem_splits_iff.2 ⟨page, hpage, hok⟩
    exact ⟨part split, List.mem_map_of_mem hsplit, hslot⟩

/-- The critical rules of a run have the slots that are critical on some page. -/
theorem mem_slots_criticalRules_iff (hmark : RuleMap.Distinguishes mark)
    (results : List PageResult) (slot : Slot) :
    slot ∈ (criticalRules mark (results.filterMap (·.split?))).slots ↔
      PageResult.SomeHas Split.critical results slot :=
  mem_slots_mergeAll_part_iff hmark _ results slot

/-- The rest of a run has the slots that are left on some page and critical on none. -/
theorem mem_slots_restRules_iff (hmark : RuleMap.Distinguishes mark) (results : List PageResult)
    (slot : Slot) :
    slot ∈ (restRules mark (results.filterMap (·.split?))).slots ↔
      PageResult.SomeHas Split.rest results slot ∧
        ¬ PageResult.SomeHas Split.critical results slot := by
  have hcritical : (criticalRules mark (results.filterMap (·.split?))).Orderly mark :=
    orderly_mergeAll mark _
  rw [restRules, (orderly_mergeAll mark _).mem_slots_subtract_iff hcritical hmark]
  exact and_congr (mem_slots_mergeAll_part_iff hmark _ results slot)
    (not_congr (mem_slots_criticalRules_iff hmark results slot))

/-- The critical style sheet of a run lists what is critical on some page. -/
theorem listsOnce_criticalSheet {r : Run} (hskip : r.config.invalidRules = .skip)
    (hmark : RuleMap.Distinguishes mark) (results : List PageResult) :
    (r.criticalSheet mark results).ListsOnce fun slot =>
      slot.2.isEmittable = true ∧ PageResult.SomeHas Split.critical results slot := by
  rw [criticalSheet, hskip]
  exact (orderly_mergeAll mark _).listsOnce (mem_slots_criticalRules_iff hmark results)

/-- The other style sheet of a run lists what is left on some page and critical on none. -/
theorem listsOnce_restSheet {r : Run} (hskip : r.config.invalidRules = .skip)
    (hmark : RuleMap.Distinguishes mark) (results : List PageResult) :
    (r.restSheet mark results).ListsOnce fun slot =>
      slot.2.isEmittable = true ∧ PageResult.SomeHas Split.rest results slot ∧
        ¬ PageResult.SomeHas Split.critical results slot := by
  have hrest : (restRules mark (results.filterMap (·.split?))).Orderly mark :=
    (orderly_mergeAll mark _).subtract _
  rw [restSheet, hskip]
  exact hrest.listsOnce (mem_slots_restRules_iff hmark results)

/-! ## The result of a run -/

theorem foldBy_of_failed (r : Run) (mark : Node → M) {results : List PageResult}
    (hfailed : ¬ ∃ page ∈ results, page.Succeeded) :
    r.foldBy mark results = .error (.allFailed (results.filterMap (·.error?))) := by
  rw [foldBy, if_pos (PageResult.isEmpty_splits_iff.2 hfailed)]

theorem foldBy_of_succeeded (r : Run) (mark : Node → M) {results : List PageResult}
    (hsucceeded : ∃ page ∈ results, page.Succeeded) :
    r.foldBy mark results =
      .ok
        { critical := (r.criticalSheet mark results).print r.options
          rest :=
            if r.config.outputRest then (r.restSheet mark results).print r.options else ""
          errors := results.filterMap (·.error?) } := by
  rw [foldBy, if_neg fun hempty => PageResult.isEmpty_splits_iff.1 hempty hsucceeded]

/-- A run fails when no page has a split, and then only, with the errors of all pages in order.
Otherwise it prints two style sheets and gives the errors of the pages that have no split, in order.
When rules are left out that cannot be printed, the style sheets list the slots of the critical
parts, and the slots of the other parts that are in no critical part, each of them once; which slots
these are does not depend on the order of the pages. -/
theorem foldBy_lists_slots (r : Run) (hmark : RuleMap.Distinguishes mark)
    (results : List PageResult) :
    (r.foldBy mark results = .error (.allFailed (results.filterMap (·.error?))) ↔
        ¬ ∃ page ∈ results, page.Succeeded) ∧
      ((∃ page ∈ results, page.Succeeded) →
        r.foldBy mark results =
          .ok
            { critical := (r.criticalSheet mark results).print r.options
              rest :=
                if r.config.outputRest then (r.restSheet mark results).print r.options else ""
              errors := results.filterMap (·.error?) }) ∧
      (r.config.invalidRules = .skip →
        ((r.criticalSheet mark results).ListsOnce fun slot =>
          slot.2.isEmittable = true ∧ PageResult.SomeHas Split.critical results slot) ∧
        ((r.restSheet mark results).ListsOnce fun slot =>
          slot.2.isEmittable = true ∧ PageResult.SomeHas Split.rest results slot ∧
            ¬ PageResult.SomeHas Split.critical results slot) ∧
        ∀ results', (∀ page, page ∈ results' ↔ page ∈ results) → ∀ slot,
          (slot ∈ (r.criticalSheet mark results').slots id ↔
            slot ∈ (r.criticalSheet mark results).slots id) ∧
          (slot ∈ (r.restSheet mark results').slots id ↔
            slot ∈ (r.restSheet mark results).slots id)) := by
  refine ⟨⟨?_, r.foldBy_of_failed mark⟩, r.foldBy_of_succeeded mark, ?_⟩
  · intro herror hsucceeded
    rw [r.foldBy_of_succeeded mark hsucceeded] at herror
    cases herror
  · intro hskip
    have hcritical := listsOnce_criticalSheet hskip hmark results
    have hrest := listsOnce_restSheet hskip hmark results
    refine ⟨hcritical, hrest, ?_⟩
    intro results' hsame slot
    have hcritical' := listsOnce_criticalSheet hskip hmark results'
    have hrest' := listsOnce_restSheet hskip hmark results'
    constructor
    · rw [hcritical'.mem_iff, hcritical.mem_iff, PageResult.someHas_congr hsame]
    · rw [hrest'.mem_iff, hrest.mem_iff, PageResult.someHas_congr hsame,
        PageResult.someHas_congr hsame]

/-- A run with the standard configuration. -/
def standard : Run :=
  ⟨.standard, .desktop, "", .ofTexts [] [] Probe.standardTimeout, Stylesheet.read, .compressed⟩

/-- The rule of the media blocks of `threePages`. -/
def hiddenNav : Node :=
  .ofStyle ["nav"] [⟨"display", "none"⟩]

/-- A page without a split, a page on which the rule of a media block is critical, and one on which
it is not.  The condition of the block is written in two ways. -/
def threePages : List PageResult :=
  [⟨"a", .error ⟨"a", .navigation, .noDocument⟩⟩,
    ⟨"b", .ok ⟨[.block (.media "all and print") [hiddenNav] (some ⟨1, 1⟩)], []⟩⟩,
    ⟨"c", .ok ⟨[], [.block (.media "print") [hiddenNav] (some ⟨1, 1⟩)]⟩⟩]

/-- The rule is printed in the critical style sheet, under the short condition, and not in the other
one, in whatever order the pages come. -/
theorem foldBy_lists_slots_threePages :
    RuleMap.Distinguishes id ∧ (∃ page ∈ threePages, page.Succeeded) ∧
      standard.foldBy id threePages =
        .ok
          { critical := "@media print\x7bnav\x7bdisplay:none\x7d\x7d"
            rest := ""
            errors := [⟨"a", .navigation, .noDocument⟩] } ∧
      (some "print", hiddenNav) ∈ (standard.criticalSheet id threePages).slots id ∧
      (some "print", hiddenNav) ∉ (standard.restSheet id threePages).slots id ∧
      (some "print", hiddenNav) ∈ (standard.criticalSheet id threePages.reverse).slots id := by
  have hmark : RuleMap.Distinguishes id := fun _ _ h => h
  have hsucceeded : ∃ page ∈ threePages, page.Succeeded :=
    ⟨_, List.mem_cons_of_mem _ List.mem_cons_self, _, rfl⟩
  have hcritical : PageResult.SomeHas Split.critical threePages (some "print", hiddenNav) :=
    ⟨_, List.mem_cons_of_mem _ List.mem_cons_self, _, rfl, by decide⟩
  obtain ⟨_, houtput, hslots⟩ := foldBy_lists_slots standard hmark threePages
  obtain ⟨hlists, hrest, horder⟩ := hslots rfl
  have hmem := (hlists.mem_iff _).2 ⟨rfl, hcritical⟩
  refine ⟨hmark, hsucceeded, ?_, hmem, ?_, ?_⟩
  · rw [houtput hsucceeded]
    decide
  · intro hleft
    exact ((hrest.mem_iff _).1 hleft).2.2 hcritical
  · exact (horder threePages.reverse (fun _ => List.mem_reverse) _).1.2 hmem

end Run

end CriticalCss
