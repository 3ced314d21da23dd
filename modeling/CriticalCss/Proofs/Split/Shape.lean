import CriticalCss.Proofs.Split.Parts
import Mathlib.Data.List.Forall2

/-!
# The shape of a split

Both parts of a split come from the source by deletion: some selectors of style rules and some nodes
are missing, and everything else is as it was and where it was.  Nothing that is empty is left over.

* `Node.Remains` says what may be left of a node, and `remains_of_tidy_narrow` that narrowing and
  tidying leaves that.
* `Node.IsProper` lists what tidying drops, and `isProper_of_tidy` says that it drops it at every
  depth; animations are kept as they are.
-/

namespace CriticalCss

open List (SublistForall₂)

namespace Node

/-! ## Definitions -/

/-- What is left of a node when some of its selectors, or some of the nodes inside it, are deleted.
The nodes that stay inside it are in their order, and something is left of each of them in turn. -/
inductive Remains : Node → Node → Prop where
  | style {left selectors : List String} {declarations : List Declaration} {p : Option Position}
    (fewer : left.Sublist selectors) :
    Remains (.item (.style left declarations) p) (.item (.style selectors declarations) p)
  | block {h : Heading} {left rules : List Node} {p : Option Position}
    (groups : h.groupsRules = true) (fewer : SublistForall₂ Remains left rules) :
    Remains (.block h left p) (.block h rules p)
  | whole (n : Node) : Remains n n

mutual

/-- A node and the nodes inside it, except those inside animations. -/
def outsideAnimations : Node → List Node
  | .item i p => [.item i p]
  | .block h rules p =>
    .block h rules p :: if h.groupsRules then allOutsideAnimations rules else []

/-- Some nodes and the nodes inside them, except those inside animations. -/
def allOutsideAnimations : List Node → List Node
  | [] => []
  | n :: ns => n.outsideAnimations ++ allOutsideAnimations ns

end

/-- A node that is no comment, no style rule without selectors and no group without rules. -/
structure IsProper (n : Node) : Prop where
  noComment : n.isComment = false
  selectors : n.selectors? ≠ some []
  rules : n.isGroup = true → n.children? ≠ some []

/-! ## What remains -/

/-- A node has the same kind and name, the same criterion, the same declarations and the same place
as the node that it remains of, and its selectors are some of those of that node. -/
theorem Remains.same {m n : Node} (h : Remains m n) :
    m.kind = n.kind ∧ m.typeName = n.typeName ∧ m.criterion? = n.criterion? ∧
      m.declarations? = n.declarations? ∧ m.position = n.position ∧
      (m.selectors?.getD []).Sublist (n.selectors?.getD []) := by
  cases h with
  | style fewer => exact ⟨rfl, rfl, rfl, rfl, rfl, fewer⟩
  | @block h left rules p groups fewer => exact ⟨rfl, by cases h <;> rfl, rfl, rfl, rfl, .refl _⟩
  | whole n => exact ⟨rfl, rfl, rfl, rfl, rfl, .refl _⟩

/-- What a walk leaves of some nodes remains of them when this holds node by node. -/
theorem sublistForall₂_filterMap {part : Node → Option Node} {ns : List Node}
    (hpart : ∀ n ∈ ns, ∀ m, part n = some m → Remains m n) :
    SublistForall₂ Remains (ns.filterMap part) ns := by
  induction ns with
  | nil => exact .nil
  | cons n ns ih =>
    have hns := ih fun n hn => hpart n (List.mem_cons_of_mem _ hn)
    cases hn : part n with
    | none =>
      rw [List.filterMap_cons_none hn]
      exact .cons_right hns
    | some m =>
      rw [List.filterMap_cons_some hn]
      exact .cons (hpart n List.mem_cons_self m hn) hns

/-- Narrowing and tidying some nodes, one by one. -/
theorem tidyAll_narrowAll_eq_filterMap (keep : String → String → Bool) (context : String)
    (ns : List Node) :
    tidyAll (narrowAll keep context ns) = ns.filterMap fun n => (n.narrow keep context).tidy := by
  rw [tidyAll_narrowAll, List.filterMap_eq_flatMap_toList]

/-- Narrowing and tidying a node deletes selectors and nodes only. -/
theorem remains_of_tidy_narrow {keep : String → String → Bool} {context : String} {n m : Node}
    (h : (n.narrow keep context).tidy = some m) : Remains m n := by
  induction n generalizing context m with
  | item i p =>
    cases i with
    | style selectors declarations =>
      rw [narrow] at h
      cases hkept : selectors.filter (keep (styleKey context selectors)) with
      | nil =>
        rw [hkept, tidy] at h
        cases h
      | cons s rest =>
        rw [hkept, tidy, Option.some.injEq, ← hkept] at h
        · exact h ▸ .style List.filter_sublist
        · simp
        · simp
    | comment text => simp [narrow, tidy] at h
    | _ =>
      simp only [narrow, tidy, Option.some.injEq] at h
      exact h ▸ .whole _
  | block heading rules p ih =>
    rw [narrow] at h
    cases hgroup : heading.groupsRules with
    | false =>
      simp only [hgroup, Bool.false_eq_true, if_false, tidy, Option.some.injEq] at h
      exact h ▸ .whole _
    | true =>
      have hremains : ∀ n ∈ rules, ∀ m,
          (n.narrow keep (heading.innerContext context)).tidy = some m → Remains m n :=
        fun n hn m hm => ih n hn hm
      have hrules := sublistForall₂_filterMap hremains
      rw [← tidyAll_narrowAll_eq_filterMap] at hrules
      cases hleft : tidyAll (narrowAll keep (heading.innerContext context) rules) with
      | nil => simp [hgroup, hleft, tidy] at h
      | cons left rest =>
        simp only [hgroup, if_true, hleft, tidy, Option.some.injEq] at h
        rw [← h, ← hleft]
        exact .block hgroup hrules

/-- Narrowing and tidying some nodes deletes selectors and nodes only. -/
theorem remains_of_tidyAll_narrowAll (keep : String → String → Bool) (context : String)
    (ns : List Node) :
    SublistForall₂ Remains (tidyAll (narrowAll keep context ns)) ns := by
  rw [tidyAll_narrowAll_eq_filterMap]
  exact sublistForall₂_filterMap fun n _ m hm => remains_of_tidy_narrow hm

/-! ## What is dropped -/

theorem mem_allOutsideAnimations {k : Node} {ns : List Node} :
    k ∈ allOutsideAnimations ns ↔ ∃ n ∈ ns, k ∈ n.outsideAnimations := by
  induction ns with
  | nil => simp [allOutsideAnimations]
  | cons n ns ih => simp [allOutsideAnimations, ih]

/-- A tidy node is proper, and so are the nodes inside it outside animations. -/
theorem isProper_of_tidy {n m k : Node} (h : n.tidy = some m) (hk : k ∈ m.outsideAnimations) :
    k.IsProper := by
  induction n generalizing m k with
  | item i p =>
    cases i with
    | style selectors declarations =>
      cases selectors with
      | nil => simp [tidy] at h
      | cons s rest =>
        obtain rfl : Node.item (.style (s :: rest) declarations) p = m := by simpa [tidy] using h
        obtain rfl := List.mem_singleton.1 hk
        exact ⟨rfl, by simp [selectors?, Item.selectors?], by simp [isGroup]⟩
    | comment text => simp [tidy] at h
    | _ =>
      simp only [tidy, Option.some.injEq] at h
      subst h
      obtain rfl := List.mem_singleton.1 hk
      exact ⟨rfl, by simp [selectors?, Item.selectors?], by simp [isGroup]⟩
  | block heading rules p ih =>
    cases hgroup : heading.groupsRules with
    | false =>
      obtain rfl : Node.block heading rules p = m := by simpa [tidy, hgroup] using h
      obtain rfl : k = .block heading rules p := by simpa [outsideAnimations, hgroup] using hk
      exact ⟨rfl, by simp [selectors?], by simp [isGroup, hgroup]⟩
    | true =>
      rw [tidy, if_pos hgroup] at h
      cases hleft : tidyAll rules with
      | nil => simp [hleft] at h
      | cons left rest =>
        obtain rfl : Node.block heading (left :: rest) p = m := by simpa [hleft] using h
        rw [outsideAnimations, if_pos hgroup, List.mem_cons, ← hleft] at hk
        rcases hk with rfl | hk
        · exact ⟨rfl, by simp [selectors?], by simp [children?, hleft]⟩
        · obtain ⟨n', hn', hk⟩ := mem_allOutsideAnimations.1 hk
          rw [tidyAll_eq_filterMap] at hn'
          obtain ⟨n, hn, htidy⟩ := List.mem_filterMap.1 hn'
          exact ih n hn htidy hk

/-- Tidy nodes are proper at every depth outside animations. -/
theorem isProper_of_mem_tidyAll {ns : List Node} {k : Node}
    (hk : k ∈ allOutsideAnimations (tidyAll ns)) : k.IsProper := by
  obtain ⟨m, hm, hk⟩ := mem_allOutsideAnimations.1 hk
  rw [tidyAll_eq_filterMap] at hm
  obtain ⟨n, _, htidy⟩ := List.mem_filterMap.1 hm
  exact isProper_of_tidy htidy hk

end Node

namespace Stylesheet

/-- What remains of some of the nodes of a list remains of the list. -/
theorem sublistForall₂_of_filter {part source : List Node} {p : Node → Bool}
    (h : SublistForall₂ Node.Remains part (source.filter p)) :
    SublistForall₂ Node.Remains part source := by
  obtain ⟨kept, hkept, hsub⟩ := List.sublistForall₂_iff.1 h
  exact List.sublistForall₂_iff.2 ⟨kept, hkept, hsub.trans List.filter_sublist⟩

/-- A part of a style sheet: it is what remains of the style sheet, in order, and nothing that is
empty is left over. -/
structure IsPruned (part source : Stylesheet) : Prop where
  proper : ∀ n ∈ Node.allOutsideAnimations part, n.IsProper
  remains : SublistForall₂ Node.Remains part source

/-- Narrowing and tidying some of the nodes of a style sheet prunes it. -/
theorem isPruned_of_filter (keep : String → String → Bool) (source : Stylesheet)
    (p : Node → Bool) :
    IsPruned (Node.tidyAll (Node.narrowAll keep "" (source.filter p))) source where
  proper _ hn := Node.isProper_of_mem_tidyAll hn
  remains := sublistForall₂_of_filter (Node.remains_of_tidyAll_narrowAll keep "" _)

/-- Both parts of a split prune the source: they hold no comment, no style rule without selectors
and no group without rules outside animations, and every node of a part stands, in order and under
what remains of its parent, for a node of the source of the same kind and name with the same
criterion, declarations and place, whose selectors include its own in their order. -/
theorem isPruned_split (source : Stylesheet) (critical : CriticalMap) (retain : Bool) :
    IsPruned (source.split critical retain).critical source ∧
      IsPruned (source.split critical retain).rest source ∧
      ∀ m n, Node.Remains m n →
        m.kind = n.kind ∧ m.typeName = n.typeName ∧ m.criterion? = n.criterion? ∧
          m.declarations? = n.declarations? ∧ m.position = n.position ∧
          (m.selectors?.getD []).Sublist (n.selectors?.getD []) := by
  refine ⟨?_, ?_, fun m n => Node.Remains.same⟩
  · rw [critical_eq_tidyAll]
    exact isPruned_of_filter ..
  · have hall := isPruned_of_filter
      (isLeft (takenOf critical "" (source.filter (isCandidate retain)))) source fun _ => true
    rw [List.filter_true] at hall
    rwa [rest_eq_tidyAll]

end Stylesheet

end CriticalCss
