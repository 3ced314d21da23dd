import CriticalCss.Proofs.Split.Parts
import Mathlib.Data.List.Nodup

/-!
# Where a selector goes

In a style sheet whose style rules stand in `@media` and `@supports` blocks only, every selector of
a style rule goes to one of the two parts of a split at least.  It goes to both exactly when it is
critical and the last leaf with the key of its rule does not list it: keys are texts, and leaves
that have nothing else in common may share one.  `split_lists_iff` is the exact condition, and
`animatedMain_lists_in_both_parts` a style sheet in which an animation has the name of an element.
-/

namespace CriticalCss

namespace Stylesheet

/-- A style sheet lists a selector at a place when some style rule with that place lists it. -/
def Lists (sheet : Stylesheet) (p : Option Position) (selector : String) : Prop :=
  ∃ r ∈ sheet.styleRules, r.position = p ∧ selector ∈ r.selectors

instance (sheet : Stylesheet) (p : Option Position) (selector : String) :
    Decidable (sheet.Lists p selector) :=
  inferInstanceAs (Decidable (∃ r ∈ sheet.styleRules, r.position = p ∧ selector ∈ r.selectors))

/-- All style rules stand at top level or in `@media` and `@supports` blocks. -/
def RulesInConditions (sheet : Stylesheet) : Prop :=
  ∀ r ∈ sheet.styleRules, r.InConditions

instance (sheet : Stylesheet) : Decidable sheet.RulesInConditions :=
  inferInstanceAs (Decidable (∀ r ∈ sheet.styleRules, r.InConditions))

/-- Narrowed and tidied nodes list at a place what their style rules list there and keep. -/
theorem lists_tidyAll_iff {ns : Stylesheet} (hrules : ns.RulesInConditions)
    (keep : String → String → Bool) (p : Option Position) (s : String) :
    Lists (Node.tidyAll (Node.narrowAll keep "" ns)) p s ↔
      ∃ r ∈ ns.styleRules, r.position = p ∧ s ∈ r.selectors ∧ keep r.key s = true :=
  Node.exists_style_tidyAll_narrowAll_iff (fun _ _ p' => p' = p) fun r hr _ => hrules r hr

/-- Every selector of a style rule goes to one of the parts, and it goes to one of them only if and
only if it is not critical or the last leaf with the key of its rule lists it. -/
theorem split_lists_iff {source : Stylesheet} (hrules : source.RulesInConditions)
    (hplaces : (source.styleRules.map (·.position)).Nodup) (critical : CriticalMap) (retain : Bool)
    {r : PlacedRule} (hr : r ∈ source.styleRules) {s : String} (hs : s ∈ r.selectors) :
    ((source.split critical retain).critical.Lists r.position s ∨
        (source.split critical retain).rest.Lists r.position s) ∧
      (¬ ((source.split critical retain).critical.Lists r.position s ∧
          (source.split critical retain).rest.Lists r.position s) ↔
        (critical.isCritical r.key s = true → source.lastLists retain r.key s = true)) := by
  have hsame : ∀ r' ∈ source.styleRules, r'.position = r.position → r' = r :=
    fun r' hr' hp => List.inj_on_of_nodup_map hplaces hr' hr hp
  have hcandidates : RulesInConditions (source.filter (isCandidate retain)) :=
    fun r' hr' => hrules r' (mem_styleRules_of_filter hr')
  have hcritical : (source.split critical retain).critical.Lists r.position s ↔
      critical.isCritical r.key s = true := by
    rw [critical_eq_tidyAll, lists_tidyAll_iff hcandidates]
    constructor
    · intro hkeep
      obtain ⟨r', hr', hp, _, hkeep⟩ := hkeep
      replace hr' := mem_styleRules_of_filter hr'
      rwa [hsame r' hr' hp] at hkeep
    · intro hkeep
      exact ⟨r, mem_styleRules_candidates (hrules r hr) hr retain, rfl, hs, hkeep⟩
  have hrest : (source.split critical retain).rest.Lists r.position s ↔
      ¬ (critical.isCritical r.key s = true ∧ source.lastLists retain r.key s = true) := by
    rw [rest_eq_tidyAll, lists_tidyAll_iff hrules]
    have hleft : isLeft (takenOf critical "" (source.filter (isCandidate retain))) r.key s = true ↔
        ¬ (critical.isCritical r.key s = true ∧ source.lastLists retain r.key s = true) := by
      rw [isLeft_takenOf, Bool.not_eq_true', ← Bool.not_eq_true, Bool.and_eq_true]
    constructor
    · intro hkeep
      obtain ⟨r', hr', hp, _, hkeep⟩ := hkeep
      rw [hsame r' hr' hp] at hkeep
      exact hleft.1 hkeep
    · intro hkeep
      exact ⟨r, hr, rfl, hs, hleft.2 hkeep⟩
  rw [hcritical, hrest]
  constructor
  · by_cases hcrit : critical.isCritical r.key s = true
    · exact .inl hcrit
    · exact .inr fun hboth => hcrit hboth.1
  · constructor
    · intro hnot hcrit
      by_contra hlast
      exact hnot ⟨hcrit, fun hboth => hlast hboth.2⟩
    · rintro hlast ⟨hcrit, hleft⟩
      exact hleft ⟨hcrit, hlast hcrit⟩

/-- A style rule for an element, and an animation with the name of the element. -/
def animatedMain : Stylesheet :=
  [.item (.style ["main"] [⟨"color", "red"⟩]) (some ⟨1, 1⟩),
    .block (.keyframes none "main") [.item (.keyframe ["from"] [⟨"top", "0"⟩]) (some ⟨1, 32⟩)]
      (some ⟨1, 16⟩)]

/-- The element is critical. -/
def mainCritical : CriticalMap :=
  ⟨[("main", ⟨["main"], .rule⟩)]⟩

/-- When animations are left out of the critical part, the critical selector goes to one part only.
-/
theorem split_lists_iff_animatedMain :
    animatedMain.RulesInConditions ∧ (animatedMain.styleRules.map (·.position)).Nodup ∧
      ⟨[], ["main"], [⟨"color", "red"⟩], some ⟨1, 1⟩⟩ ∈ animatedMain.styleRules ∧
      ((animatedMain.split mainCritical false).critical.Lists (some ⟨1, 1⟩) "main" ∨
        (animatedMain.split mainCritical false).rest.Lists (some ⟨1, 1⟩) "main") ∧
      ¬ ((animatedMain.split mainCritical false).critical.Lists (some ⟨1, 1⟩) "main" ∧
        (animatedMain.split mainCritical false).rest.Lists (some ⟨1, 1⟩) "main") := by
  have hrules : animatedMain.RulesInConditions := by decide
  have hplaces : (animatedMain.styleRules.map (·.position)).Nodup := by decide
  have hr : ⟨[], ["main"], [⟨"color", "red"⟩], some ⟨1, 1⟩⟩ ∈ animatedMain.styleRules := by decide
  have hlists := split_lists_iff hrules hplaces mainCritical false hr (s := "main") (by decide)
  exact ⟨hrules, hplaces, hr, hlists.1, hlists.2.2 (by decide)⟩

/-- When animations are retained, the animation is the last leaf with the key of the style rule, and
the critical selector goes to both parts. -/
theorem animatedMain_lists_in_both_parts :
    animatedMain.RulesInConditions ∧ (animatedMain.styleRules.map (·.position)).Nodup ∧
      ⟨[], ["main"], [⟨"color", "red"⟩], some ⟨1, 1⟩⟩ ∈ animatedMain.styleRules ∧
      (animatedMain.split mainCritical true).critical.Lists (some ⟨1, 1⟩) "main" ∧
      (animatedMain.split mainCritical true).rest.Lists (some ⟨1, 1⟩) "main" := by
  decide

end Stylesheet

end CriticalCss
