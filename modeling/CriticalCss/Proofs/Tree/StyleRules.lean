import CriticalCss.Rule.Key

/-!
# The style rules of a tree

A style rule stands in a tree under a chain of headings, and the headings decide the context that
its key begins with.  `styleRules` lists the style rules of a style sheet with their headings, in
document order, whatever blocks they stand in.

* `Node.inductionOn` is the induction on nodes: a block may use the statement for the nodes in it.
* `key?_style` says that the key of a style rule is its context followed by its selectors, and
  `innerContext_block` that the context inside a block depends on the heading only.
* `styleRulesOf_eq_flatMap` reads the rules of some nodes off the rules of each node.
* `kind_eq_outerKind` says that the first heading of a rule is that of the top-level node it stands
  in.
* `mem_styleRulesOf_here` and `mem_styleRulesOf_inside` find the rules that stand among some nodes,
  and those that stand directly inside a block of them.
-/

namespace CriticalCss

namespace Node

/-- Induction on nodes.  In the block case the statement may be used for every node of the block. -/
@[elab_as_elim, induction_eliminator]
theorem inductionOn {motive : Node → Prop}
    (item : ∀ i p, motive (.item i p))
    (block : ∀ h rules p, (∀ n ∈ rules, motive n) → motive (.block h rules p)) :
    ∀ n, motive n :=
  @Node.rec motive (fun ns => ∀ n ∈ ns, motive n) item block
    (fun _ hn => absurd hn List.not_mem_nil)
    (fun _ _ hn hns => List.forall_mem_cons.2 ⟨hn, hns⟩)

end Node

/-! ## Contexts and keys -/

/-- The context of the nodes inside a block with a heading. -/
def Heading.innerContext (context : String) (h : Heading) : String :=
  (Node.block h [] none).innerContext context

/-- The context of the nodes inside nested blocks, given the headings from the outermost one on. -/
def Heading.contextOf (path : List Heading) : String :=
  path.foldl Heading.innerContext ""

theorem Heading.contextOf_append (path : List Heading) (h : Heading) :
    Heading.contextOf (path ++ [h]) = h.innerContext (Heading.contextOf path) := by
  simp [Heading.contextOf, List.foldl_append]

/-- The rules and the place of a block have no part in the context inside it. -/
theorem Node.innerContext_block (context : String) (h : Heading) (rules : List Node)
    (p : Option Position) :
    (Node.block h rules p).innerContext context = h.innerContext context := by
  cases h <;> rfl

/-- The key of a style rule with some selectors in a context. -/
def styleKey (context : String) (selectors : List String) : String :=
  context ++ ",".intercalate selectors

theorem Node.key?_style (context : String) (selectors : List String)
    (declarations : List Declaration) (p : Option Position) :
    (Node.item (.style selectors declarations) p).key? context =
      some (styleKey context selectors) := by
  simp [Node.key?, Node.keyWith?, Node.ownKey?, styleKey]

/-! ## Style rules with their headings -/

/-- A style rule of a tree. -/
structure PlacedRule where
  /-- The headings of the blocks it stands in, the outermost one first. -/
  path : List Heading
  selectors : List String
  declarations : List Declaration
  position : Option Position
deriving DecidableEq

namespace PlacedRule

/-- The key of the rule. -/
def key (r : PlacedRule) : String :=
  styleKey (Heading.contextOf r.path) r.selectors

/-- The kind of the top-level node that the rule stands in, or that it is. -/
def outerKind (r : PlacedRule) : Kind :=
  match r.path with
  | [] => .rule
  | h :: _ => h.kind

/-- The rule stands at top level or in `@media` and `@supports` blocks. -/
def InConditions (r : PlacedRule) : Prop :=
  ∀ h ∈ r.path, h.kind = .media ∨ h.kind = .supports

instance (r : PlacedRule) : Decidable r.InConditions :=
  inferInstanceAs (Decidable (∀ h ∈ r.path, h.kind = .media ∨ h.kind = .supports))

/-- The blocks around such a rule group rules. -/
theorem InConditions.groupsRules {r : PlacedRule} (hr : r.InConditions) :
    r.path.all Heading.groupsRules = true := by
  rw [List.all_eq_true]
  intro h hh
  have hkind := hr h hh
  cases h with
  | keyframes vendor name => simp [Heading.kind] at hkind
  | _ => rfl

/-- Such a rule is a top-level rule, or it stands in a top-level `@media` or `@supports` block. -/
theorem InConditions.outerKind {r : PlacedRule} (hr : r.InConditions) :
    r.outerKind = .rule ∨ r.outerKind = .media ∨ r.outerKind = .supports := by
  rw [PlacedRule.outerKind]
  split
  · exact .inl rfl
  · next h rest hpath =>
    exact .inr (hr h (by simp [hpath]))

end PlacedRule

namespace Node

mutual

/-- The style rules of a node that stands under some headings. -/
def styleRules (path : List Heading) : Node → List PlacedRule
  | .item (.style selectors declarations) p => [⟨path, selectors, declarations, p⟩]
  | .item _ _ => []
  | .block h rules _ => styleRulesOf (path ++ [h]) rules

/-- The style rules of some nodes that stand under some headings. -/
def styleRulesOf (path : List Heading) : List Node → List PlacedRule
  | [] => []
  | n :: ns => n.styleRules path ++ styleRulesOf path ns

end

theorem styleRulesOf_eq_flatMap (path : List Heading) (ns : List Node) :
    styleRulesOf path ns = ns.flatMap (styleRules path) := by
  induction ns with
  | nil => rfl
  | cons n ns ih => rw [styleRulesOf, List.flatMap_cons, ih]

theorem mem_styleRulesOf {path : List Heading} {ns : List Node} {r : PlacedRule} :
    r ∈ styleRulesOf path ns ↔ ∃ n ∈ ns, r ∈ n.styleRules path := by
  rw [styleRulesOf_eq_flatMap, List.mem_flatMap]

theorem styleRules_block (path : List Heading) (h : Heading) (rules : List Node)
    (p : Option Position) :
    (Node.block h rules p).styleRules path = styleRulesOf (path ++ [h]) rules := by
  rw [styleRules]

/-- The headings of a rule begin with the headings that its node stands under. -/
theorem path_prefix_of_mem_styleRules {n : Node} {path : List Heading} {r : PlacedRule}
    (hr : r ∈ n.styleRules path) : path <+: r.path := by
  induction n generalizing path with
  | item i p =>
    cases i with
    | style selectors declarations =>
      rw [styleRules, List.mem_singleton] at hr
      subst hr
      exact List.prefix_rfl
    | _ => simp [styleRules] at hr
  | block h rules p ih =>
    rw [styleRules_block, mem_styleRulesOf] at hr
    obtain ⟨n, hn, hr⟩ := hr
    exact (List.prefix_append path [h]).trans (ih n hn hr)

/-- A top-level node and a style rule in it agree about the kind of the top-level node. -/
theorem kind_eq_outerKind {n : Node} {r : PlacedRule} (hr : r ∈ n.styleRules []) :
    n.kind = r.outerKind := by
  cases n with
  | item i p =>
    cases i with
    | style selectors declarations =>
      rw [styleRules, List.mem_singleton] at hr
      rw [hr]
      rfl
    | _ => simp [styleRules] at hr
  | block h rules p =>
    rw [styleRules_block, mem_styleRulesOf] at hr
    obtain ⟨n, _, hr⟩ := hr
    obtain ⟨rest, hpath⟩ := path_prefix_of_mem_styleRules hr
    have houter : r.path = h :: rest := by simpa using hpath.symm
    simp [PlacedRule.outerKind, houter, Node.kind]

/-- The style rules that stand under the same headings as some nodes are the ones among the nodes.
-/
theorem mem_styleRulesOf_here {path : List Heading} {ns : List Node} {selectors : List String}
    {declarations : List Declaration} {p : Option Position} :
    ⟨path, selectors, declarations, p⟩ ∈ styleRulesOf path ns ↔
      .item (.style selectors declarations) p ∈ ns := by
  constructor
  · intro hr
    obtain ⟨n, hn, hr⟩ := mem_styleRulesOf.1 hr
    cases n with
    | item i q =>
      cases i with
      | style selectors' declarations' =>
        rw [styleRules, List.mem_singleton] at hr
        cases hr
        exact hn
      | _ => simp [styleRules] at hr
    | block h rules q =>
      rw [styleRules_block, mem_styleRulesOf] at hr
      obtain ⟨m, _, hr⟩ := hr
      have hlength : (path ++ [h]).length ≤ path.length :=
        (path_prefix_of_mem_styleRules hr).length_le
      exact absurd hlength (by simp)
  · intro hn
    refine mem_styleRulesOf.2 ⟨_, hn, ?_⟩
    rw [styleRules, List.mem_singleton]

/-- The style rules that stand under one heading more than some nodes are the ones directly inside
the blocks with that heading. -/
theorem mem_styleRulesOf_inside {path : List Heading} {h : Heading} {ns : List Node}
    {selectors : List String} {declarations : List Declaration} {p : Option Position} :
    ⟨path ++ [h], selectors, declarations, p⟩ ∈ styleRulesOf path ns ↔
      ∃ rules q, .block h rules q ∈ ns ∧ .item (.style selectors declarations) p ∈ rules := by
  constructor
  · intro hr
    obtain ⟨n, hn, hr⟩ := mem_styleRulesOf.1 hr
    cases n with
    | item i q =>
      cases i with
      | style selectors' declarations' => simp [styleRules] at hr
      | _ => simp [styleRules] at hr
    | block h' rules q =>
      rw [styleRules_block] at hr
      obtain ⟨m, _, hm⟩ := mem_styleRulesOf.1 hr
      obtain ⟨rest, hrest⟩ := path_prefix_of_mem_styleRules hm
      have hsame : h' = h ∧ rest = [] := by simpa using hrest
      rw [hsame.1] at hr hn
      exact ⟨rules, q, hn, mem_styleRulesOf_here.1 hr⟩
  · intro hrule
    obtain ⟨rules, q, hblock, hrule⟩ := hrule
    refine mem_styleRulesOf.2 ⟨_, hblock, ?_⟩
    rw [styleRules_block]
    exact mem_styleRulesOf_here.2 hrule

end Node

/-- The style rules of a style sheet with their headings, in document order. -/
def Stylesheet.styleRules (sheet : Stylesheet) : List PlacedRule :=
  Node.styleRulesOf [] sheet

end CriticalCss
