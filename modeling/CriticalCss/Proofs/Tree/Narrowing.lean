import CriticalCss.Proofs.Tree.StyleRules
import Mathlib.Data.List.Basic

/-!
# Narrowing and tidying trees

`narrow` takes selectors away from style rules and changes nothing else.  `tidy` drops comments,
style rules without selectors and groups without rules, and changes nothing else; a group that loses
all of its rules counts as one without rules.  Both leave an animation as it is, with all that it
holds.

* `narrow_congr` says that a narrowing depends only on its answers for the keys and selectors of the
  leaves of the tree.
* `narrow_true` says that a narrowing that approves of everything changes nothing.
* `styleRules_narrow` and `mem_styleRulesOf_tidyAll_iff` say what becomes of the style rules, and
  `exists_style_tidyAll_narrowAll_iff` what becomes of a selector.
-/

namespace CriticalCss

namespace Node

/-! ## Definitions -/

mutual

/-- The node whose style rules keep the selectors that `keep` approves of under the key of the rule.
-/
def narrow (keep : String → String → Bool) (context : String) : Node → Node
  | .item (.style selectors declarations) p =>
    .item (.style (selectors.filter (keep (styleKey context selectors))) declarations) p
  | .item i p => .item i p
  | .block h rules p =>
    if h.groupsRules then .block h (narrowAll keep (h.innerContext context) rules) p
    else .block h rules p

/-- The nodes whose style rules keep the approved selectors. -/
def narrowAll (keep : String → String → Bool) (context : String) : List Node → List Node
  | [] => []
  | n :: ns => n.narrow keep context :: narrowAll keep context ns

end

mutual

/-- What is left of a node without comments, style rules without selectors and groups without rules.
-/
def tidy : Node → Option Node
  | .item (.comment _) _ => none
  | .item (.style [] _) _ => none
  | .item i p => some (.item i p)
  | .block h rules p =>
    if h.groupsRules then
      match tidyAll rules with
      | [] => none
      | left => some (.block h left p)
    else some (.block h rules p)

/-- What is left of some nodes. -/
def tidyAll : List Node → List Node
  | [] => []
  | n :: ns => n.tidy.toList ++ tidyAll ns

end

theorem narrowAll_eq_map (keep : String → String → Bool) (context : String) (ns : List Node) :
    narrowAll keep context ns = ns.map (narrow keep context) := by
  induction ns with
  | nil => rfl
  | cons n ns ih => rw [narrowAll, List.map_cons, ih]

theorem tidyAll_eq_filterMap (ns : List Node) : tidyAll ns = ns.filterMap tidy := by
  induction ns with
  | nil => rfl
  | cons n ns ih =>
    rw [tidyAll, ih]
    cases htidy : n.tidy with
    | none => rw [List.filterMap_cons_none htidy]; rfl
    | some left => rw [List.filterMap_cons_some htidy]; rfl

/-- Narrowing and tidying goes node by node. -/
theorem tidyAll_narrowAll (keep : String → String → Bool) (context : String) (ns : List Node) :
    tidyAll (narrowAll keep context ns) =
      ns.flatMap fun n => (n.narrow keep context).tidy.toList := by
  rw [tidyAll_eq_filterMap, narrowAll_eq_map, List.filterMap_map, List.filterMap_eq_flatMap_toList]
  rfl

/-! ## The leaves of a tree -/

mutual

/-- The key and the selectors of every node that is neither a group nor a comment and stands in
groups only, in document order; a node that is no style rule has no selectors. -/
def leaves (context : String) : Node → List (String × Option (List String))
  | .item i p => ((Node.item i p).key? context).toList.map fun key => (key, i.selectors?)
  | .block h rules p =>
    if h.groupsRules then leavesOf (h.innerContext context) rules
    else ((Node.block h rules p).key? context).toList.map fun key => (key, none)

/-- The leaves of some nodes. -/
def leavesOf (context : String) : List Node → List (String × Option (List String))
  | [] => []
  | n :: ns => n.leaves context ++ leavesOf context ns

end

theorem leavesOf_eq_flatMap (context : String) (ns : List Node) :
    leavesOf context ns = ns.flatMap (leaves context) := by
  induction ns with
  | nil => rfl
  | cons n ns ih => rw [leavesOf, List.flatMap_cons, ih]

theorem leaves_style (context : String) (selectors : List String)
    (declarations : List Declaration) (p : Option Position) :
    (Node.item (.style selectors declarations) p).leaves context =
      [(styleKey context selectors, some selectors)] := by
  rw [leaves, key?_style]
  rfl

/-- Two narrowings agree on a tree when they agree on the keys and selectors of its leaves. -/
theorem narrow_congr {keep keep' : String → String → Bool} {n : Node} {context : String}
    (hkeep : ∀ key selectors, (key, some selectors) ∈ n.leaves context →
      ∀ s ∈ selectors, keep key s = keep' key s) :
    n.narrow keep context = n.narrow keep' context := by
  induction n generalizing context with
  | item i p =>
    cases i with
    | style selectors declarations =>
      rw [leaves_style] at hkeep
      have hfilter : selectors.filter (keep (styleKey context selectors)) =
          selectors.filter (keep' (styleKey context selectors)) :=
        List.filter_congr fun s hs => hkeep _ _ (List.mem_singleton.2 rfl) s hs
      rw [narrow, narrow, hfilter]
    | _ => rfl
  | block h rules p ih =>
    rw [narrow, narrow]
    split
    · next hgroup =>
      rw [leaves, if_pos hgroup, leavesOf_eq_flatMap] at hkeep
      have hrules : ∀ n ∈ rules, n.narrow keep (h.innerContext context) =
          n.narrow keep' (h.innerContext context) := by
        intro n hn
        exact ih n hn fun key selectors hleaf =>
          hkeep key selectors (List.mem_flatMap.2 ⟨n, hn, hleaf⟩)
      rw [narrowAll_eq_map, narrowAll_eq_map, List.map_congr_left hrules]
    · rfl

/-- A narrowing that approves of every selector changes nothing. -/
theorem narrow_true (context : String) (n : Node) : n.narrow (fun _ _ => true) context = n := by
  induction n generalizing context with
  | item i p =>
    cases i with
    | style selectors declarations => rw [narrow, List.filter_true]
    | _ => rfl
  | block h rules p ih =>
    rw [narrow]
    split
    · have hrules : ∀ n ∈ rules, n.narrow (fun _ _ => true) (h.innerContext context) = id n :=
        fun n hn => ih n hn _
      rw [narrowAll_eq_map, List.map_congr_left hrules, List.map_id]
    · rfl

/-! ## What becomes of the style rules -/

end Node

/-- A style rule of a tree after narrowing.  The rules in an animation stay as they are. -/
def PlacedRule.narrow (keep : String → String → Bool) (r : PlacedRule) : PlacedRule :=
  if r.path.all Heading.groupsRules then { r with selectors := r.selectors.filter (keep r.key) }
  else r

namespace PlacedRule

@[simp]
theorem path_narrow (keep : String → String → Bool) (r : PlacedRule) :
    (r.narrow keep).path = r.path := by
  rw [narrow]
  split <;> rfl

@[simp]
theorem declarations_narrow (keep : String → String → Bool) (r : PlacedRule) :
    (r.narrow keep).declarations = r.declarations := by
  rw [narrow]
  split <;> rfl

@[simp]
theorem position_narrow (keep : String → String → Bool) (r : PlacedRule) :
    (r.narrow keep).position = r.position := by
  rw [narrow]
  split <;> rfl

theorem InConditions.mem_selectors_narrow {r : PlacedRule} (hr : r.InConditions)
    {keep : String → String → Bool} {s : String} :
    s ∈ (r.narrow keep).selectors ↔ s ∈ r.selectors ∧ keep r.key s = true := by
  rw [narrow, if_pos hr.groupsRules, List.mem_filter]

end PlacedRule

namespace Node

/-- Outside of groups no style rule is narrowed. -/
theorem map_narrow_styleRulesOf (keep : String → String → Bool) {path : List Heading}
    {ns : List Node} (hpath : path.all Heading.groupsRules = false) :
    (styleRulesOf path ns).map (PlacedRule.narrow keep) = styleRulesOf path ns := by
  have hsame : ∀ r ∈ styleRulesOf path ns, r.narrow keep = r := by
    intro r hr
    obtain ⟨n, _, hr⟩ := mem_styleRulesOf.1 hr
    obtain ⟨rest, hrest⟩ := path_prefix_of_mem_styleRules hr
    have hall : r.path.all Heading.groupsRules = false := by
      rw [← hrest, List.all_append, hpath, Bool.false_and]
    rw [PlacedRule.narrow, hall]
    rfl
  rw [List.map_congr_left hsame, List.map_id']

/-- Narrowing a node narrows its style rules one by one. -/
theorem styleRules_narrow (keep : String → String → Bool) {n : Node} {path : List Heading}
    (hpath : path.all Heading.groupsRules = true) :
    (n.narrow keep (Heading.contextOf path)).styleRules path =
      (n.styleRules path).map (PlacedRule.narrow keep) := by
  induction n generalizing path with
  | item i p =>
    cases i with
    | style selectors declarations =>
      simp [narrow, styleRules, PlacedRule.narrow, PlacedRule.key, hpath]
    | _ => rfl
  | block h rules p ih =>
    rw [narrow, styleRules_block]
    cases hgroup : h.groupsRules with
    | false =>
      have hall : (path ++ [h]).all Heading.groupsRules = false := by simp [hgroup]
      rw [map_narrow_styleRulesOf keep hall]
      exact styleRules_block ..
    | true =>
      have hall : (path ++ [h]).all Heading.groupsRules = true := by simp [hpath, hgroup]
      have hrules : ∀ n ∈ rules,
          (n.narrow keep (Heading.contextOf (path ++ [h]))).styleRules (path ++ [h]) =
            (n.styleRules (path ++ [h])).map (PlacedRule.narrow keep) :=
        fun n hn => ih n hn hall
      rw [if_pos rfl, styleRules_block, ← Heading.contextOf_append, narrowAll_eq_map,
        styleRulesOf_eq_flatMap, styleRulesOf_eq_flatMap, List.map_flatMap, List.flatMap_map]
      exact List.flatMap_congr hrules

theorem styleRulesOf_tidyAll (path : List Heading) (ns : List Node) :
    styleRulesOf path (tidyAll ns) = ns.flatMap fun n => styleRulesOf path n.tidy.toList := by
  induction ns with
  | nil => rfl
  | cons n ns ih =>
    rw [tidyAll, styleRulesOf_eq_flatMap, List.flatMap_append, ← styleRulesOf_eq_flatMap,
      ← styleRulesOf_eq_flatMap, ih, List.flatMap_cons]

/-- Tidying a node drops no style rule that has selectors, and brings in none. -/
theorem mem_styleRulesOf_tidy_iff {n : Node} {path : List Heading} {r : PlacedRule}
    (hr : r.selectors ≠ []) :
    r ∈ styleRulesOf path n.tidy.toList ↔ r ∈ n.styleRules path := by
  induction n generalizing path with
  | item i p =>
    cases i with
    | style selectors declarations =>
      cases selectors with
      | nil =>
        simp only [tidy, styleRules, Option.toList, styleRulesOf, List.mem_singleton,
          List.not_mem_nil, false_iff]
        intro hrule
        exact hr (by rw [hrule])
      | cons s rest => simp [tidy, styleRulesOf]
    | _ => simp [tidy, styleRulesOf, styleRules]
  | block h rules p ih =>
    have hrules : r ∈ styleRulesOf (path ++ [h]) (tidyAll rules) ↔
        r ∈ styleRulesOf (path ++ [h]) rules := by
      rw [styleRulesOf_tidyAll, List.mem_flatMap, mem_styleRulesOf]
      exact exists_congr fun n => and_congr_right fun hn => ih n hn
    rw [styleRules_block, tidy]
    split
    · rw [← hrules]
      split
      · next hnone =>
        rw [hnone]
        rfl
      · simp [styleRulesOf, styleRules_block]
    · simp [styleRulesOf, styleRules_block]

/-- Tidying some nodes drops no style rule that has selectors, and brings in none. -/
theorem mem_styleRulesOf_tidyAll_iff {ns : List Node} {path : List Heading} {r : PlacedRule}
    (hr : r.selectors ≠ []) :
    r ∈ styleRulesOf path (tidyAll ns) ↔ r ∈ styleRulesOf path ns := by
  rw [styleRulesOf_tidyAll, List.mem_flatMap, mem_styleRulesOf]
  exact exists_congr fun n => and_congr_right fun _ => mem_styleRulesOf_tidy_iff hr

/-- The style rules with selectors in narrowed and tidied nodes are narrowed style rules of these
nodes. -/
theorem mem_styleRulesOf_tidyAll_narrowAll_iff {keep : String → String → Bool} {ns : List Node}
    {r : PlacedRule} (hr : r.selectors ≠ []) :
    r ∈ styleRulesOf [] (tidyAll (narrowAll keep "" ns)) ↔
      ∃ r₀ ∈ styleRulesOf [] ns, r₀.narrow keep = r := by
  have hrules : styleRulesOf [] (narrowAll keep "" ns) =
      (styleRulesOf [] ns).map (PlacedRule.narrow keep) := by
    rw [narrowAll_eq_map, styleRulesOf_eq_flatMap, styleRulesOf_eq_flatMap, List.flatMap_map,
      List.map_flatMap]
    exact List.flatMap_congr fun n _ => styleRules_narrow keep rfl
  rw [mem_styleRulesOf_tidyAll_iff hr, hrules, List.mem_map]

/-- Narrowed and tidied nodes have a style rule that lists a selector when the nodes have one that
lists and keeps it.  Everything about the rule but its selectors may be asked for. -/
theorem exists_style_tidyAll_narrowAll_iff {keep : String → String → Bool} {ns : List Node}
    (asked : List Heading → List Declaration → Option Position → Prop)
    (hasked : ∀ r ∈ styleRulesOf [] ns, asked r.path r.declarations r.position → r.InConditions)
    {s : String} :
    (∃ r ∈ styleRulesOf [] (tidyAll (narrowAll keep "" ns)),
        asked r.path r.declarations r.position ∧ s ∈ r.selectors) ↔
      ∃ r ∈ styleRulesOf [] ns,
        asked r.path r.declarations r.position ∧ s ∈ r.selectors ∧ keep r.key s = true := by
  constructor
  · intro hs
    obtain ⟨r, hr, hasks, hs⟩ := hs
    obtain ⟨r₀, hr₀, rfl⟩ :=
      (mem_styleRulesOf_tidyAll_narrowAll_iff (List.ne_nil_of_mem hs)).1 hr
    rw [PlacedRule.path_narrow, PlacedRule.declarations_narrow, PlacedRule.position_narrow] at hasks
    exact ⟨r₀, hr₀, hasks, (hasked r₀ hr₀ hasks).mem_selectors_narrow.1 hs⟩
  · intro hs
    obtain ⟨r, hr, hasks, hs⟩ := hs
    have hs' : s ∈ (r.narrow keep).selectors := (hasked r hr hasks).mem_selectors_narrow.2 hs
    refine ⟨r.narrow keep, ?_, by simpa using hasks, hs'⟩
    exact (mem_styleRulesOf_tidyAll_narrowAll_iff (List.ne_nil_of_mem hs')).2 ⟨r, hr, rfl⟩

end Node

end CriticalCss
