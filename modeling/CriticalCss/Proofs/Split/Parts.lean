import CriticalCss.Proofs.Tree.Narrowing
import CriticalCss.Rule.Split

/-!
# The parts of a split

Both parts of a split are the source narrowed and tidied; they differ in the selectors that stay.
The critical part keeps what the critical map has, and the rest keeps what the critical part did not
take.

* `Narrows` lists what a walk does with each sort of node, and `Narrows.eq_tidy` turns that into
  narrowing and tidying, by one induction for both parts.
* `critical_eq_tidyAll` and `rest_eq_tidyAll` are the two parts.
* `takenOf_eq_map` and `isLeft_takenOf` say what is taken under a key: of the leaves with that
  key only the last one counts.
-/

namespace CriticalCss

open Stylesheet

/-! ## Walks that narrow and tidy -/

/-- A walk that narrows the style rules and drops what has become empty. -/
structure Narrows (keep : String → String → Bool) (part : String → Node → List Node) : Prop where
  group : ∀ context h rules p, h.groupsRules = true →
    part context (.block h rules p) =
      withChildren? (.block h rules p) (rules.flatMap (part (h.innerContext context)))
  animation : ∀ context h rules p, h.groupsRules = false →
    part context (.block h rules p) = [.block h rules p]
  style : ∀ context selectors declarations p,
    part context (.item (.style selectors declarations) p) =
      withSelectors? (.item (.style selectors declarations) p)
        (selectors.filter (keep (styleKey context selectors)))
  other : ∀ context i p, i.selectors? = none →
    part context (.item i p) = if i.kind = .comment then [] else [.item i p]

/-- A group with fewer rules, unless none is left, is the tidied group. -/
theorem withChildren?_tidyAll (h : Heading) (rules left : List Node) (p : Option Position)
    (hgroup : h.groupsRules = true) :
    withChildren? (.block h rules p) (Node.tidyAll left) =
      (Node.block h left p).tidy.toList := by
  rw [withChildren?, Node.tidy, if_pos hgroup]
  split
  · next hnone =>
    rw [hnone]
    rfl
  · next hsome =>
    split
    · next hnone =>
      exact absurd hnone hsome
    · rfl

/-- Such a walk narrows and tidies. -/
theorem Narrows.eq_tidy {keep : String → String → Bool} {part : String → Node → List Node}
    (hpart : Narrows keep part) (context : String) (n : Node) :
    part context n = (n.narrow keep context).tidy.toList := by
  induction n generalizing context with
  | item i p =>
    cases i with
    | style selectors declarations =>
      rw [hpart.style, Node.narrow]
      cases selectors.filter (keep (styleKey context selectors)) with
      | nil => rfl
      | cons s rest => rfl
    | _ =>
      rw [hpart.other _ _ _ rfl]
      rfl
  | block h rules p ih =>
    rw [Node.narrow]
    cases hgroup : h.groupsRules with
    | false =>
      rw [hpart.animation _ _ _ _ hgroup, if_neg (by simp), Node.tidy, hgroup]
      rfl
    | true =>
      have hrules : rules.flatMap (part (h.innerContext context)) =
          Node.tidyAll (Node.narrowAll keep (h.innerContext context) rules) := by
        rw [Node.tidyAll_narrowAll]
        exact List.flatMap_congr fun n hn => ih n hn _
      rw [hpart.group _ _ _ _ hgroup, hrules, if_pos rfl]
      exact withChildren?_tidyAll _ _ _ _ hgroup

/-- A walk over some nodes that narrows and tidies each of them. -/
theorem Narrows.flatMap_eq_tidyAll {keep : String → String → Bool}
    {part : String → Node → List Node} (hpart : Narrows keep part) (context : String)
    (ns : List Node) :
    ns.flatMap (part context) = Node.tidyAll (Node.narrowAll keep context ns) := by
  rw [Node.tidyAll_narrowAll]
  exact List.flatMap_congr fun n _ => hpart.eq_tidy context n

namespace Stylesheet

/-! ## The critical part -/

theorem criticalParts_eq_flatMap (critical : CriticalMap) (context : String) (ns : List Node) :
    criticalParts critical context ns = ns.flatMap (criticalPart critical context) := by
  induction ns with
  | nil => rfl
  | cons n ns ih => rw [criticalParts, List.flatMap_cons, ih]

theorem narrows_criticalPart (critical : CriticalMap) :
    Narrows critical.isCritical (criticalPart critical) where
  group context h rules p hgroup := by
    rw [criticalPart, if_pos hgroup, Node.innerContext_block, criticalParts_eq_flatMap]
  animation context h rules p hgroup := by
    rw [criticalPart, hgroup, if_neg (by simp), Node.isSome_key?]
    rfl
  style context selectors declarations p := by
    rw [criticalPart, Node.key?_style]
    rfl
  other context i p hnone := by
    cases i with
    | style selectors declarations => simp [Item.selectors?] at hnone
    | _ => rfl

/-- The critical part is the candidates, narrowed to their critical selectors and tidied. -/
theorem critical_eq_tidyAll (source : Stylesheet) (critical : CriticalMap) (retain : Bool) :
    (source.split critical retain).critical =
      Node.tidyAll
        (Node.narrowAll critical.isCritical "" (source.filter (isCandidate retain))) := by
  rw [split, criticalParts_eq_flatMap]
  exact (narrows_criticalPart critical).flatMap_eq_tidyAll "" _

theorem mem_styleRules_of_filter {source : Stylesheet} {p : Node → Bool} {r : PlacedRule}
    (hr : r ∈ styleRules (source.filter p)) : r ∈ source.styleRules := by
  obtain ⟨n, hn, hr⟩ := Node.mem_styleRulesOf.1 hr
  exact Node.mem_styleRulesOf.2 ⟨n, (List.mem_filter.1 hn).1, hr⟩

/-- The critical part is made from every style rule in `@media` and `@supports` blocks only. -/
theorem mem_styleRules_candidates {source : Stylesheet} {r : PlacedRule}
    (hconditions : r.InConditions) (hr : r ∈ source.styleRules) (retain : Bool) :
    r ∈ styleRules (source.filter (isCandidate retain)) := by
  obtain ⟨n, hn, hr⟩ := Node.mem_styleRulesOf.1 hr
  refine Node.mem_styleRulesOf.2 ⟨n, List.mem_filter.2 ⟨hn, ?_⟩, hr⟩
  rw [isCandidate, Node.kind_eq_outerKind hr]
  rcases hconditions.outerKind with hkind | hkind | hkind <;> rw [hkind] <;> rfl

/-! ## The rest -/

theorem restParts_eq_flatMap (taken : Taken) (context : String) (ns : List Node) :
    restParts taken context ns = ns.flatMap (restPart taken context) := by
  induction ns with
  | nil => rfl
  | cons n ns ih => rw [restParts, List.flatMap_cons, ih]

/-- Whether a selector is left when some are taken. -/
def isLeft (taken : Taken) (key selector : String) : Bool :=
  !(taken.get? key).any (·.contains selector)

theorem narrows_restPart (taken : Taken) : Narrows (isLeft taken) (restPart taken) where
  group context h rules p hgroup := by
    rw [restPart, if_pos hgroup, Node.innerContext_block, restParts_eq_flatMap]
  animation context h rules p hgroup := by
    rw [restPart, hgroup, if_neg (by simp), Node.isSome_key?]
    rfl
  style context selectors declarations p := by
    rw [restPart, Node.key?_style]
    rfl
  other context i p hnone := by
    cases i with
    | style selectors declarations => simp [Item.selectors?] at hnone
    | _ => rfl

/-- The rest is the source, narrowed to what the critical part did not take and tidied. -/
theorem rest_eq_tidyAll (source : Stylesheet) (critical : CriticalMap) (retain : Bool) :
    (source.split critical retain).rest =
      Node.tidyAll (Node.narrowAll
        (isLeft (takenOf critical "" (source.filter (isCandidate retain)))) "" source) := by
  rw [split, restParts_eq_flatMap]
  exact (narrows_restPart _).flatMap_eq_tidyAll "" source

/-! ## What the critical part takes -/

/-- What the critical part takes of a leaf. -/
def takenOfLeaf (critical : CriticalMap) (leaf : String × Option (List String)) :
    String × List String :=
  (leaf.1, criticalSelectors critical leaf.1 (leaf.2.getD []))

theorem takenOf_eq_flatMap (critical : CriticalMap) (context : String) (ns : List Node) :
    takenOf critical context ns = ns.flatMap (taken critical context) := by
  induction ns with
  | nil => rfl
  | cons n ns ih => rw [takenOf, List.flatMap_cons, ih]

/-- What is taken of a node is what is taken of its leaves. -/
theorem taken_eq_map (critical : CriticalMap) (context : String) (n : Node) :
    taken critical context n = (n.leaves context).map (takenOfLeaf critical) := by
  induction n generalizing context with
  | item i p =>
    rw [taken, Node.leaves, List.map_map]
    rfl
  | block h rules p ih =>
    rw [taken, Node.leaves]
    cases hgroup : h.groupsRules with
    | false =>
      rw [if_neg (by simp), if_neg (by simp), List.map_map]
      rfl
    | true =>
      rw [if_pos rfl, if_pos rfl, Node.innerContext_block, takenOf_eq_flatMap,
        Node.leavesOf_eq_flatMap, List.map_flatMap]
      exact List.flatMap_congr fun n hn => ih n hn _

/-- What is taken of some nodes is what is taken of their leaves. -/
theorem takenOf_eq_map (critical : CriticalMap) (context : String) (ns : List Node) :
    takenOf critical context ns = (Node.leavesOf context ns).map (takenOfLeaf critical) := by
  rw [takenOf_eq_flatMap, Node.leavesOf_eq_flatMap, List.map_flatMap]
  exact List.flatMap_congr fun n _ => taken_eq_map critical context n

/-- The last leaf with a key among the leaves that the critical part is made from. -/
def lastReached? (source : Stylesheet) (retain : Bool) (key : String) :
    Option (String × Option (List String)) :=
  (Node.leavesOf "" (source.filter (isCandidate retain))).reverse.find? (·.1 = key)

/-- Whether the last leaf with a key among those that the critical part is made from is a style rule
that lists a selector. -/
def lastLists (source : Stylesheet) (retain : Bool) (key selector : String) : Bool :=
  (lastReached? source retain key).any fun leaf => (leaf.2.getD []).contains selector

theorem lookup_map_takenOfLeaf (critical : CriticalMap) (key : String)
    (leaves : List (String × Option (List String))) :
    (leaves.map (takenOfLeaf critical)).lookup key =
      (leaves.find? (·.1 = key)).map fun leaf => (takenOfLeaf critical leaf).2 := by
  induction leaves with
  | nil => rfl
  | cons leaf leaves ih =>
    rw [List.map_cons, List.find?_cons]
    by_cases hkey : leaf.1 = key
    · simp [takenOfLeaf, hkey]
    · have hne : (key == leaf.1) = false := beq_eq_false_iff_ne.2 (Ne.symm hkey)
      simp [takenOfLeaf, List.lookup_cons, hne, hkey, ih]

/-- A selector is taken under a key when it is critical there and the last leaf with the key lists
it. -/
theorem isLeft_takenOf (source : Stylesheet) (critical : CriticalMap) (retain : Bool)
    (key s : String) :
    isLeft (takenOf critical "" (source.filter (isCandidate retain))) key s =
      !(critical.isCritical key s && lastLists source retain key s) := by
  have htaken : (takenOf critical "" (source.filter (isCandidate retain))).get? key =
      (lastReached? source retain key).map fun leaf => (takenOfLeaf critical leaf).2 := by
    rw [takenOf_eq_map, Taken.get?, ← List.map_reverse, lookup_map_takenOfLeaf]
    rfl
  rw [isLeft, htaken, lastLists]
  cases hlast : lastReached? source retain key with
  | none => simp
  | some leaf =>
    have hkey : leaf.1 = key := by simpa using List.find?_some hlast
    have hcontains : ((takenOfLeaf critical leaf).2).contains s =
        (critical.isCritical key s && (leaf.2.getD []).contains s) := by
      rw [takenOfLeaf, criticalSelectors, hkey, Bool.eq_iff_iff, List.contains_iff_mem,
        List.mem_filter, Bool.and_eq_true, List.contains_iff_mem, and_comm]
    rw [Option.map_some, Option.any_some, Option.any_some, hcontains]

end Stylesheet

end CriticalCss
