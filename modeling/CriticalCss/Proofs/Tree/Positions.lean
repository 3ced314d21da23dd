import CriticalCss.Proofs.Probe.Findings
import CriticalCss.Proofs.RuleMap.Merging
import CriticalCss.Proofs.RuleMap.Slots
import CriticalCss.Proofs.Split.Parts
import CriticalCss.Stylesheet.Printer

/-!
# Places in the source text are never looked at

Two style sheets that differ in places at most, at whatever depth, cannot be told apart.  Every
function on trees either gives the same when the places are removed first, or gives a tree, and then
removing the places before or after makes no difference.

* `positions_withoutPosition` says that removing the places removes all of them.
* `printNode_withoutPosition`, `addresses_withoutPosition`, `leaves_withoutPosition` and
  `visit_withoutPosition` are functions of the first kind.
* `narrow_withoutPosition`, `tidy_withoutPosition` and `contributions_withoutPosition` are of the
  second kind.
* `agree_of_map_withoutPosition` puts them together for two style sheets.
-/

namespace CriticalCss

namespace Node

theorem withoutPosition_block (h : Heading) (rules : List Node) (p : Option Position) :
    (Node.block h rules p).withoutPosition = .block h (rules.map withoutPosition) none := by
  rw [withoutPosition, withoutPositions_eq_map]

@[simp]
theorem kind_withoutPosition (n : Node) : n.withoutPosition.kind = n.kind := by
  cases n <;> rfl

@[simp]
theorem keyWith?_withoutPosition (separator context : String) (n : Node) :
    n.withoutPosition.keyWith? separator context = n.keyWith? separator context := by
  cases n with
  | item i p => cases i <;> rfl
  | block h rules p => cases h <;> rfl

/-! ## The places of a tree -/

mutual

/-- The places that a node and the nodes in it carry, at every depth, in document order. -/
def positions : Node → List Position
  | .item _ p => p.toList
  | .block _ rules p => p.toList ++ positionsOf rules

/-- The places that some nodes and the nodes in them carry. -/
def positionsOf : List Node → List Position
  | [] => []
  | n :: ns => n.positions ++ positionsOf ns

end

theorem positionsOf_eq_flatMap (ns : List Node) : positionsOf ns = ns.flatMap positions := by
  induction ns with
  | nil => rfl
  | cons n ns ih => rw [positionsOf, List.flatMap_cons, ih]

/-- Where the places are removed, none is left at any depth. -/
@[simp]
theorem positions_withoutPosition (n : Node) : n.withoutPosition.positions = [] := by
  induction n with
  | item i p => rfl
  | block h rules p ih =>
    rw [withoutPosition_block, positions, positionsOf_eq_flatMap, List.flatMap_map]
    simpa using ih

/-! ## Contexts and keys -/

mutual

/-- The context and the key of every node, the node itself and those in it at every depth, in
document order. -/
def addresses (separator context : String) : Node → List (String × Option String)
  | .item i p => [(context, (Node.item i p).keyWith? separator context)]
  | .block h rules p =>
    let n := Node.block h rules p
    (context, n.keyWith? separator context) ::
      addressesOf separator (n.innerContext context) rules

/-- The contexts and the keys of some nodes and of those in them. -/
def addressesOf (separator context : String) : List Node → List (String × Option String)
  | [] => []
  | n :: ns => n.addresses separator context ++ addressesOf separator context ns

end

theorem addressesOf_eq_flatMap (separator context : String) (ns : List Node) :
    addressesOf separator context ns = ns.flatMap (addresses separator context) := by
  induction ns with
  | nil => rfl
  | cons n ns ih => rw [addressesOf, List.flatMap_cons, ih]

/-- Places have no part in contexts and keys, at any depth. -/
theorem addresses_withoutPosition (separator context : String) (n : Node) :
    n.withoutPosition.addresses separator context = n.addresses separator context := by
  induction n generalizing context with
  | item i p => cases i <;> rfl
  | block h rules p ih =>
    have hkey := keyWith?_withoutPosition separator context (.block h rules p)
    rw [withoutPosition_block] at hkey ⊢
    rw [addresses, addresses, hkey, innerContext_block, innerContext_block,
      addressesOf_eq_flatMap, addressesOf_eq_flatMap, List.flatMap_map]
    exact congrArg _ (List.flatMap_congr fun n hn => ih n hn _)

theorem addressesOf_map_withoutPosition (separator context : String) (ns : List Node) :
    addressesOf separator context (ns.map withoutPosition) = addressesOf separator context ns := by
  rw [addressesOf_eq_flatMap, addressesOf_eq_flatMap, List.flatMap_map]
  exact List.flatMap_congr fun n _ => addresses_withoutPosition separator context n

/-! ## Narrowing and tidying -/

theorem leaves_withoutPosition (context : String) (n : Node) :
    n.withoutPosition.leaves context = n.leaves context := by
  induction n generalizing context with
  | item i p => cases i <;> rfl
  | block h rules p ih =>
    have hkey := key?_withoutPosition context (.block h rules p)
    rw [withoutPosition_block] at hkey ⊢
    rw [leaves, leaves, hkey, leavesOf_eq_flatMap, leavesOf_eq_flatMap, List.flatMap_map]
    have hrules : (rules.flatMap fun n => n.withoutPosition.leaves (h.innerContext context)) =
        rules.flatMap (leaves (h.innerContext context)) :=
      List.flatMap_congr fun n hn => ih n hn _
    rw [hrules]

theorem narrow_withoutPosition (keep : String → String → Bool) (context : String) (n : Node) :
    n.withoutPosition.narrow keep context = (n.narrow keep context).withoutPosition := by
  induction n generalizing context with
  | item i p => cases i <;> rfl
  | block h rules p ih =>
    rw [withoutPosition_block, narrow, narrow]
    split
    · rw [withoutPosition_block, narrowAll_eq_map, narrowAll_eq_map, List.map_map, List.map_map]
      exact congrArg (Node.block h · none) (List.map_congr_left fun n hn => ih n hn _)
    · rw [withoutPosition_block]

theorem tidy_withoutPosition (n : Node) : n.withoutPosition.tidy = n.tidy.map withoutPosition := by
  induction n with
  | item i p =>
    cases i with
    | style selectors declarations => cases selectors <;> rfl
    | _ => rfl
  | block h rules p ih =>
    have hrules : tidyAll (rules.map withoutPosition) = (tidyAll rules).map withoutPosition := by
      rw [tidyAll_eq_filterMap, tidyAll_eq_filterMap, List.filterMap_map, List.map_filterMap]
      exact List.filterMap_congr fun n hn => ih n hn
    rw [withoutPosition_block, tidy, tidy, hrules]
    split
    · cases tidyAll rules with
      | nil => rfl
      | cons n left =>
        rw [Option.map_some, withoutPosition_block]
        rfl
    · rw [Option.map_some, withoutPosition_block]

theorem leavesOf_map_withoutPosition (context : String) (ns : List Node) :
    leavesOf context (ns.map withoutPosition) = leavesOf context ns := by
  rw [leavesOf_eq_flatMap, leavesOf_eq_flatMap, List.flatMap_map]
  exact List.flatMap_congr fun n _ => leaves_withoutPosition context n

theorem tidyAll_narrowAll_map_withoutPosition (keep : String → String → Bool) (context : String)
    (ns : List Node) :
    tidyAll (narrowAll keep context (ns.map withoutPosition)) =
      (tidyAll (narrowAll keep context ns)).map withoutPosition := by
  rw [tidyAll_narrowAll, tidyAll_narrowAll, List.flatMap_map, List.map_flatMap]
  refine List.flatMap_congr fun n _ => ?_
  rw [narrow_withoutPosition, tidy_withoutPosition, Option.toList_map]

end Node

/-! ## Printing -/

namespace Stylesheet

theorem printNodes_eq_filterMap (o : PrintOptions) (level : Nat) (ns : List Node) :
    printNodes o level ns = ns.filterMap (printNode o level) := by
  induction ns with
  | nil => rfl
  | cons n ns ih =>
    rw [printNodes, ih]
    cases htext : printNode o level n with
    | none => rw [List.filterMap_cons_none htext]
    | some text => rw [List.filterMap_cons_some htext]

/-- If the places in each of some nodes make no difference, they make none in all of them. -/
theorem printNodes_map_withoutPosition {o : PrintOptions} {level : Nat} {ns : List Node}
    (hns : ∀ n ∈ ns, printNode o level n.withoutPosition = printNode o level n) :
    printNodes o level (ns.map Node.withoutPosition) = printNodes o level ns := by
  rw [printNodes_eq_filterMap, printNodes_eq_filterMap, List.filterMap_map]
  exact List.filterMap_congr hns

theorem printNode_withoutPosition (o : PrintOptions) (level : Nat) (n : Node) :
    printNode o level n.withoutPosition = printNode o level n := by
  induction n generalizing level with
  | item i p => rfl
  | block h rules p ih =>
    rw [Node.withoutPosition_block, printNode, printNode,
      printNodes_map_withoutPosition fun n hn => ih n hn (level + 1)]

theorem print_map_withoutPosition (o : PrintOptions) (sheet : Stylesheet) :
    print o (sheet.map Node.withoutPosition) = print o sheet := by
  rw [print, print, printNodes_map_withoutPosition fun n _ => printNode_withoutPosition o 0 n]

/-! ## Splitting -/

/-- A split is taken of the candidates, whatever their places are. -/
theorem filter_isCandidate_map_withoutPosition (retain : Bool) (sheet : Stylesheet) :
    (sheet.map Node.withoutPosition).filter (isCandidate retain) =
      (sheet.filter (isCandidate retain)).map Node.withoutPosition := by
  rw [List.filter_map]
  refine congrArg _ (List.filter_congr fun n _ => ?_)
  rw [Function.comp_apply, isCandidate, isCandidate, Node.kind_withoutPosition]

theorem critical_split_map_withoutPosition (sheet : Stylesheet) (critical : CriticalMap)
    (retain : Bool) :
    (split (sheet.map Node.withoutPosition) critical retain).critical =
      (split sheet critical retain).critical.map Node.withoutPosition := by
  rw [critical_eq_tidyAll, critical_eq_tidyAll, filter_isCandidate_map_withoutPosition,
    Node.tidyAll_narrowAll_map_withoutPosition]

theorem rest_split_map_withoutPosition (sheet : Stylesheet) (critical : CriticalMap)
    (retain : Bool) :
    (split (sheet.map Node.withoutPosition) critical retain).rest =
      (split sheet critical retain).rest.map Node.withoutPosition := by
  rw [rest_eq_tidyAll, rest_eq_tidyAll, takenOf_eq_map, takenOf_eq_map,
    filter_isCandidate_map_withoutPosition, Node.leavesOf_map_withoutPosition,
    Node.tidyAll_narrowAll_map_withoutPosition]

end Stylesheet

/-! ## Evaluation -/

namespace Probe

theorem visit_withoutPosition (p : Probe) (d : Document) (context : String) (e : Evaluation)
    (n : Node) : p.visit d context e n.withoutPosition = p.visit d context e n := by
  induction n generalizing context e with
  | item i position => cases i <;> rfl
  | block h rules position ih =>
    rw [Node.withoutPosition_block, visit, visit, Node.innerContext_block, Node.innerContext_block,
      visitAll_eq_foldl, visitAll_eq_foldl, List.foldl_map,
      List.foldl_ext _ _ e fun e n hn => ih n hn _ e]

theorem evaluate_map_withoutPosition (p : Probe) (d : Document) (sheet : Stylesheet) :
    p.evaluate d (sheet.map Node.withoutPosition) = p.evaluate d sheet := by
  rw [evaluate, evaluate, visitAll_eq_foldl, visitAll_eq_foldl, List.foldl_map,
    List.foldl_ext _ _ _ fun e n _ => p.visit_withoutPosition d "" e n]

end Probe

/-! ## Merging -/

namespace RuleMap

variable {M : Type}

theorem ofNode_withoutPosition (mark : Node → M) (n : Node) :
    RuleEntry.ofNode mark n.withoutPosition = RuleEntry.ofNode mark n := by
  rw [RuleEntry.ofNode, RuleEntry.ofNode, Node.withoutPosition_withoutPosition]

/-- A node goes to the same buckets without its places. -/
theorem contributions_withoutPosition (n : Node) :
    contributions n.withoutPosition =
      (contributions n).map fun p => (p.1, p.2.withoutPosition) := by
  cases hcondition : n.condition? with
  | none =>
    have hcondition' := n.condition?_withoutPosition.trans hcondition
    rw [contributions_of_condition?_eq_none hcondition,
      contributions_of_condition?_eq_none hcondition', Node.key?_withoutPosition, List.map_map]
    rfl
  | some condition =>
    obtain ⟨rules, p, rfl⟩ := Node.eq_block_of_condition? hcondition
    rw [Node.withoutPosition_block, contributions, contributions, List.filter_map, List.map_map,
      List.map_map]
    refine congrArg _ (List.filter_congr fun n _ => ?_)
    rw [Function.comp_apply, Node.isComment_withoutPosition]

theorem merge_map_withoutPosition [DecidableEq M] (mark : Node → M) (m : RuleMap M)
    (sheet : Stylesheet) : m.merge mark (sheet.map Node.withoutPosition) = m.merge mark sheet := by
  have hrules : (sheet.map Node.withoutPosition).flatMap contributions =
      (sheet.flatMap contributions).map fun p => (p.1, p.2.withoutPosition) := by
    rw [List.flatMap_map, List.map_flatMap]
    exact List.flatMap_congr fun n _ => contributions_withoutPosition n
  rw [merge, merge, hrules, List.foldl_map]
  refine List.foldl_ext _ _ m fun m p _ => ?_
  rw [insert, insert, ofNode_withoutPosition]

end RuleMap

/-! ## Two style sheets -/

namespace Stylesheet

/-- Style sheets that are equal without their places agree in all that is made of them: their text,
the contexts and keys of their nodes at every depth, the maps that they are merged into, the
critical selectors in a document, and the parts they are split into, but for the places there.
Nodes that are equal without their places have the same mark and the same entry. -/
theorem agree_of_map_withoutPosition {a b : Stylesheet}
    (h : a.map Node.withoutPosition = b.map Node.withoutPosition) :
    (∀ o, print o a = print o b) ∧
      (∀ separator context,
        Node.addressesOf separator context a = Node.addressesOf separator context b) ∧
      (∀ (M : Type) [DecidableEq M] (mark : Node → M) (m m' : RuleMap M), m.keys.Nodup →
        m'.keys.Nodup → m.equal m' = true →
        (m.merge mark a).equal (m'.merge mark b) = true) ∧
      (∀ (p : Probe) (d : Document), p.evaluate d a = p.evaluate d b) ∧
      (∀ critical retain,
        (split a critical retain).critical.map Node.withoutPosition =
            (split b critical retain).critical.map Node.withoutPosition ∧
          (split a critical retain).rest.map Node.withoutPosition =
            (split b critical retain).rest.map Node.withoutPosition) ∧
      ∀ (M : Type) (mark : Node → M) (n n' : Node), n.withoutPosition = n'.withoutPosition →
        RuleEntry.ofNode mark n = RuleEntry.ofNode mark n' := by
  refine ⟨?print, ?addresses, ?merge, ?evaluate, ?split, ?mark⟩
  case print =>
    intro o
    rw [← print_map_withoutPosition, h, print_map_withoutPosition]
  case addresses =>
    intro separator context
    rw [← Node.addressesOf_map_withoutPosition, h, Node.addressesOf_map_withoutPosition]
  case merge =>
    intro M _ mark m m' hm hm' hequal
    rw [← RuleMap.merge_map_withoutPosition, h, RuleMap.merge_map_withoutPosition]
    exact RuleMap.equal_merge hm hm' hequal mark b
  case evaluate =>
    intro p d
    rw [← Probe.evaluate_map_withoutPosition, h, Probe.evaluate_map_withoutPosition]
  case split =>
    intro critical retain
    rw [← critical_split_map_withoutPosition, ← rest_split_map_withoutPosition, h,
      critical_split_map_withoutPosition, rest_split_map_withoutPosition]
    exact ⟨rfl, rfl⟩
  case mark =>
    intro M mark n n' hn
    rw [← RuleMap.ofNode_withoutPosition, hn, RuleMap.ofNode_withoutPosition]

/-- A style sheet in which a style rule, a condition, the rules in it at two depths and the steps of
an animation have places. -/
def placed (line : Nat) : Stylesheet :=
  [.item (.comment " top ") (some ⟨line, 1⟩),
    .block (.media "print")
      [.item (.style ["p", "nav"] [⟨"color", "red"⟩]) (some ⟨line + 1, 3⟩),
        .block (.supports "(top: 0)") [.item (.style ["p"] []) (some ⟨line + 2, 5⟩)]
          (some ⟨line + 2, 3⟩)] (some ⟨line + 1, 1⟩),
    .block (.keyframes none "spin") [.item (.keyframe ["to"] [⟨"top", "0"⟩]) (some ⟨line + 4, 3⟩)]
      (some ⟨line + 4, 1⟩),
    .item (.statement "layer" "base") none]

/-- The style sheet at the top of its text and further down. -/
theorem agree_placed :
    (placed 1).map Node.withoutPosition = (placed 7).map Node.withoutPosition ∧
      placed 1 ≠ placed 7 ∧
      (∀ o, print o (placed 1) = print o (placed 7)) ∧
      Node.addressesOf ruleSeparator "" (placed 7) =
        [("", none), ("", some "-#-media print"), ("mediaprint", some "mediaprint-#-p,nav"),
          ("mediaprint", some "mediaprint-#-supports (top: 0)"),
          ("mediaprint-##-supports(top: 0)", some "mediaprint-##-supports(top: 0)-#-p"),
          ("", some "-#-spin"), ("keyframesspin", some "keyframesspin-#-to"),
          ("", some "default")] := by
  have hsame : (placed 1).map Node.withoutPosition = (placed 7).map Node.withoutPosition := rfl
  obtain ⟨hprint, haddresses, _⟩ := agree_of_map_withoutPosition hsame
  refine ⟨hsame, by decide +kernel, hprint, ?_⟩
  rw [← haddresses]
  decide +kernel

end Stylesheet

end CriticalCss
