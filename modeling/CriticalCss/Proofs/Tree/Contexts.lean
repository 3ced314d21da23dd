import CriticalCss.Proofs.Stylesheet.Rejoining
import CriticalCss.Proofs.Tree.StyleRules
import Mathlib.Data.List.Basic

/-!
# Telling keys apart

The key of a style rule is written without escapes: the ids of the groups around the rule with a
separator between them, and the selectors with commas between them.  An id is a type name followed by
a criterion, with nothing between them.

* `groupNames_prefixFree` says that no type name of a group begins with another one, so an id can be
  read in one way only (`label_eq_of_idChars_eq`).
* `toList_contextOf_cons` writes the context inside a chain of groups out, and `labels_eq_of_append_eq`
  reads the ids back: the first `#` tells where the first of them ends.
* `styleRule_keys_distinct` puts this together with the joining of selectors.
-/

namespace CriticalCss

namespace Heading

/-! ## Ids of groups -/

/-- Whether a heading is that of a condition, or of another at-rule whose block holds rules. -/
def isRuleGroup : Heading → Bool
  | .media _ => true
  | .supports _ => true
  | .keyframes .. => false
  | .other name _ => Stylesheet.ruleBlockKeywords.contains (Text.lower name)

/-- A group of rules whose criterion has no mark of a separator in it. -/
structure IsTellable (h : Heading) : Prop where
  group : h.isRuleGroup = true
  unmarked : '#' ∉ h.criterion.toList

instance (h : Heading) : Decidable h.IsTellable :=
  decidable_of_iff (h.isRuleGroup = true ∧ '#' ∉ h.criterion.toList)
    ⟨fun hh => ⟨hh.1, hh.2⟩, fun hh => ⟨hh.group, hh.unmarked⟩⟩

/-- The type name and the criterion of a group. -/
def label (h : Heading) : String × String :=
  ((Node.block h [] none).typeName, h.criterion)

/-- The id of a group, as characters. -/
def idChars (h : Heading) : List Char :=
  h.label.1.toList ++ h.label.2.toList

theorem toList_groupId (h : Heading) : (Node.block h [] none).groupId.toList = h.idChars := by
  rw [Node.groupId, String.toList_append]
  rfl

/-- The type names of groups of rules, in lower case. -/
def groupNames : List String :=
  "media" :: "supports" :: Stylesheet.ruleBlockKeywords

theorem groupNames_prefixFree :
    ∀ a ∈ groupNames, ∀ b ∈ groupNames, a.toList <+: b.toList → a = b := by
  decide

theorem toList_lower (s : String) : (Text.lower s).toList = s.toList.map Char.toLower := by
  rw [Text.lower, String.toList_ofList]

theorem lower_mem_groupNames {h : Heading} (hgroup : h.isRuleGroup = true) :
    Text.lower h.label.1 ∈ groupNames := by
  cases h with
  | media condition =>
    show Text.lower "media" ∈ groupNames
    decide
  | supports condition =>
    show Text.lower "supports" ∈ groupNames
    decide
  | keyframes vendor name => cases hgroup
  | other name prelude =>
    apply List.mem_cons_of_mem
    apply List.mem_cons_of_mem
    exact List.contains_iff_mem.1 hgroup

/-- No type name begins with another one, whatever the case of their letters. -/
theorem eq_of_begins {a b : String} (ha : Text.lower a ∈ groupNames)
    (hb : Text.lower b ∈ groupNames) (hbegins : a.toList <+: b.toList) : a = b := by
  have hlower : Text.lower a = Text.lower b := by
    apply groupNames_prefixFree _ ha _ hb
    rw [toList_lower, toList_lower]
    exact hbegins.map _
  have hlength : a.toList.length = b.toList.length := by
    have hlower := congrArg (·.toList.length) hlower
    simpa only [toList_lower, List.length_map] using hlower
  exact String.toList_inj.1 (hbegins.eq_of_length hlength)

section Ids

variable {h h' : Heading}

theorem IsTellable.name_ne_nil (hh : h.IsTellable) : h.label.1.toList ≠ [] := by
  have hlong : ∀ a ∈ groupNames, a.toList ≠ [] := by decide
  intro hnil
  apply hlong _ (lower_mem_groupNames hh.group)
  rw [toList_lower, hnil, List.map_nil]

theorem IsTellable.idChars_ne_nil (hh : h.IsTellable) : h.idChars ≠ [] :=
  List.append_ne_nil_of_left_ne_nil hh.name_ne_nil _

/-- There is no mark of a separator in an id. -/
theorem IsTellable.mark_notMem (hh : h.IsTellable) : '#' ∉ h.idChars := by
  have hnames : ∀ a ∈ groupNames, '#' ∉ a.toList := by decide
  rw [idChars, List.mem_append, not_or]
  constructor
  · intro hmark
    apply hnames _ (lower_mem_groupNames hh.group)
    rw [toList_lower]
    exact List.mem_map_of_mem hmark
  · exact hh.unmarked

/-- An id can be read in one way only. -/
theorem label_eq_of_idChars_eq (hh : h.IsTellable) (hh' : h'.IsTellable)
    (heq : h.idChars = h'.idChars) : h.label = h'.label := by
  have hname : h.label.1 = h'.label.1 := by
    have hmem := lower_mem_groupNames hh.group
    have hmem' := lower_mem_groupNames hh'.group
    -- one of the names is not longer than the other one, so it stands at its beginning
    rcases List.append_eq_append_iff.1 heq with ⟨more, hmore, -⟩ | ⟨more, hmore, -⟩
    · exact eq_of_begins hmem hmem' ⟨more, hmore.symm⟩
    · exact (eq_of_begins hmem' hmem ⟨more, hmore.symm⟩).symm
  have hcriterion : h.label.2 = h'.label.2 := by
    rw [idChars, idChars, hname] at heq
    exact String.toList_inj.1 (List.append_cancel_left heq)
  exact Prod.ext hname hcriterion

end Ids

/-! ## Contexts -/

/-- The ids of groups with a separator before each of them. -/
def moreChars (path : List Heading) : List Char :=
  path.flatMap fun h => '-' :: '#' :: '#' :: '-' :: h.idChars

@[simp]
theorem moreChars_nil : moreChars [] = [] := rfl

theorem moreChars_cons (h : Heading) (path : List Heading) :
    moreChars (h :: path) = '-' :: '#' :: '#' :: '-' :: (h.idChars ++ moreChars path) := by
  rw [moreChars, List.flatMap_cons]
  rfl

theorem moreChars_congr {path path' : List Heading} (h : path.map label = path'.map label) :
    moreChars path = moreChars path' := by
  have hmap : ∀ path, moreChars path = (path.map label).flatMap fun l =>
      '-' :: '#' :: '#' :: '-' :: (l.1.toList ++ l.2.toList) := by
    intro path
    rw [List.flatMap_map]
    rfl
  rw [hmap, hmap, h]

theorem toList_foldl_innerContext {context : String} (hne : context ≠ "") (path : List Heading) :
    (path.foldl innerContext context).toList = context.toList ++ moreChars path := by
  induction path generalizing context with
  | nil => exact (List.append_nil _).symm
  | cons h path ih =>
    have hseparator : groupSeparator.toList = ['-', '#', '#', '-'] := by decide
    have hinner : (h.innerContext context).toList =
        context.toList ++ '-' :: '#' :: '#' :: '-' :: h.idChars := by
      rw [innerContext, Node.innerContext, if_neg hne, String.toList_append, String.toList_append,
        toList_groupId, hseparator, List.append_assoc]
      rfl
    have hnext : h.innerContext context ≠ "" := by
      intro hempty
      rw [hempty] at hinner
      simp at hinner
    rw [List.foldl_cons, ih hnext, hinner, List.append_assoc, moreChars_cons]
    rfl

/-- The context inside a chain of groups. -/
theorem toList_contextOf_cons {h : Heading} (hh : h.IsTellable) (path : List Heading) :
    (contextOf (h :: path)).toList = h.idChars ++ moreChars path := by
  have hfirst : (h.innerContext "").toList = h.idChars := toList_groupId h
  have hne : h.innerContext "" ≠ "" := by
    intro hempty
    rw [hempty] at hfirst
    exact hh.idChars_ne_nil hfirst.symm
  rw [contextOf, List.foldl_cons, toList_foldl_innerContext hne, hfirst]

/-- The first mark of a separator shows what stands before it. -/
theorem append_mark_inj {x y u v : List Char} (hx : '#' ∉ x) (hy : '#' ∉ y)
    (heq : x ++ '#' :: u = y ++ '#' :: v) : x = y ∧ u = v := by
  induction x generalizing y with
  | nil =>
    cases y with
    | nil => exact ⟨rfl, List.tail_eq_of_cons_eq heq⟩
    | cons d y =>
      have hd : '#' = d := List.head_eq_of_cons_eq heq
      rw [← hd] at hy
      exact absurd List.mem_cons_self hy
  | cons c x ih =>
    cases y with
    | nil =>
      have hc : c = '#' := List.head_eq_of_cons_eq heq
      rw [hc] at hx
      exact absurd List.mem_cons_self hx
    | cons d y =>
      rw [List.mem_cons, not_or] at hx hy
      have hcd : c = d := List.head_eq_of_cons_eq heq
      obtain ⟨hxy, huv⟩ := ih hx.2 hy.2 (List.tail_eq_of_cons_eq heq)
      rw [hcd, hxy]
      exact ⟨rfl, huv⟩

/-- The ids of a chain of groups can be read back. -/
theorem labels_eq_of_append_eq {h h' : Heading} {path path' : List Heading}
    (hpath : ∀ g ∈ h :: path, g.IsTellable) (hpath' : ∀ g ∈ h' :: path', g.IsTellable)
    (heq : h.idChars ++ moreChars path = h'.idChars ++ moreChars path') :
    (h :: path).map label = (h' :: path').map label := by
  -- where one chain ends the other one has to end, or there would be a mark in an id
  have hends : ∀ {h h' g : Heading} {path : List Heading}, h.IsTellable →
      h.idChars ++ moreChars [] ≠ h'.idChars ++ moreChars (g :: path) := by
    intro h h' g path hh heq
    rw [moreChars_nil, List.append_nil, moreChars_cons] at heq
    apply hh.mark_notMem
    rw [heq]
    simp
  induction path generalizing h h' path' with
  | nil =>
    rw [List.forall_mem_cons] at hpath hpath'
    cases path' with
    | nil =>
      rw [moreChars_nil, List.append_nil, List.append_nil] at heq
      rw [List.map_singleton, List.map_singleton, label_eq_of_idChars_eq hpath.1 hpath'.1 heq]
    | cons g' path' => exact absurd heq (hends hpath.1)
  | cons g path ih =>
    rw [List.forall_mem_cons] at hpath hpath'
    cases path' with
    | nil => exact absurd heq.symm (hends hpath'.1)
    | cons g' path' =>
      have hsplit : ∀ (h g : Heading) (path : List Heading),
          h.idChars ++ moreChars (g :: path) =
            (h.idChars ++ ['-']) ++ '#' :: '#' :: '-' :: (g.idChars ++ moreChars path) := by
        intro h g path
        rw [moreChars_cons, List.append_assoc]
        rfl
      have hfree : ∀ {h : Heading}, h.IsTellable → '#' ∉ h.idChars ++ ['-'] := by
        intro h hh
        rw [List.mem_append, not_or]
        exact ⟨hh.mark_notMem, by decide⟩
      rw [hsplit, hsplit] at heq
      obtain ⟨hfirst, hmore⟩ := append_mark_inj (hfree hpath.1) (hfree hpath'.1) heq
      have hlabel := label_eq_of_idChars_eq hpath.1 hpath'.1 (List.append_cancel_right hfirst)
      have hlabels := ih hpath.2 hpath'.2 (List.cons.inj (List.cons.inj hmore).2).2
      rw [List.map_cons, hlabel, hlabels]
      rfl

/-- The context inside a chain of groups tells their type names and criteria. -/
theorem contextOf_eq_iff {path path' : List Heading} (hpath : ∀ h ∈ path, h.IsTellable)
    (hpath' : ∀ h ∈ path', h.IsTellable) :
    contextOf path = contextOf path' ↔ path.map label = path'.map label := by
  have hnonempty : ∀ h path, h.IsTellable → contextOf (h :: path) ≠ contextOf [] := by
    intro h path hh hempty
    have hchars := toList_contextOf_cons hh path
    rw [hempty] at hchars
    exact hh.idChars_ne_nil (List.append_eq_nil_iff.1 hchars.symm).1
  cases path with
  | nil =>
    cases path' with
    | nil => exact iff_of_true rfl rfl
    | cons h' path' =>
      exact iff_of_false (hnonempty h' path' (hpath' h' List.mem_cons_self)).symm
        (List.cons_ne_nil _ _).symm
  | cons h path =>
    cases path' with
    | nil =>
      exact iff_of_false (hnonempty h path (hpath h List.mem_cons_self)) (List.cons_ne_nil _ _)
    | cons h' path' =>
      rw [← String.toList_inj, toList_contextOf_cons (hpath h List.mem_cons_self),
        toList_contextOf_cons (hpath' h' List.mem_cons_self)]
      constructor
      · exact labels_eq_of_append_eq hpath hpath'
      · intro hlabels
        obtain ⟨hlabel, hmore⟩ := List.cons.inj hlabels
        rw [idChars, idChars, hlabel, moreChars_congr hmore]

end Heading

/-! ## Keys of style rules -/

namespace Node

/-- The key of a style rule, with or without a separator before its selectors. -/
theorem keyWith?_style (separator context : String) (selectors : List String)
    (declarations : List Declaration) (p : Option Position) :
    (Node.item (.style selectors declarations) p).keyWith? separator context =
      some (context ++ separator ++ ",".intercalate selectors) := rfl

/-- The contexts inside two chains of groups are equal exactly if the groups have the same type names
and criteria; otherwise rules with the same selectors have different keys in them.  In one context,
rules have the same key exactly if they have the same selectors, as far as splitting gives them. -/
theorem styleRule_keys_distinct {path path' : List Heading} (hpath : ∀ h ∈ path, h.IsTellable)
    (hpath' : ∀ h ∈ path', h.IsTellable) :
    (Heading.contextOf path = Heading.contextOf path' ↔
        path.map Heading.label = path'.map Heading.label) ∧
      (path.map Heading.label ≠ path'.map Heading.label →
        ∀ separator selectors declarations declarations' p p',
          (Node.item (.style selectors declarations) p).keyWith? separator
              (Heading.contextOf path) ≠
            (Node.item (.style selectors declarations') p').keyWith? separator
              (Heading.contextOf path')) ∧
      ∀ separator context text text' declarations declarations' p p',
        (Node.item (.style (SelectorText.split text) declarations) p).keyWith? separator context =
            (Node.item (.style (SelectorText.split text') declarations') p').keyWith? separator
              context ↔
          SelectorText.split text = SelectorText.split text' := by
  have hcontext := Heading.contextOf_eq_iff hpath hpath'
  refine ⟨hcontext, ?_, ?_⟩
  · intro hlabels separator selectors declarations declarations' p p' hkeys
    rw [keyWith?_style, keyWith?_style, Option.some_inj, String.append_left_inj,
      String.append_left_inj] at hkeys
    exact hlabels (hcontext.1 hkeys)
  · intro separator context text text' declarations declarations' p p'
    rw [keyWith?_style, keyWith?_style, Option.some_inj, String.append_right_inj]
    constructor
    · intro hjoined
      have hjoint : ",".toList = ',' :: [] := by decide
      rw [← SelectorText.split_rejoined hjoint (List.forall_mem_nil _) text, hjoined,
        SelectorText.split_rejoined hjoint (List.forall_mem_nil _) text']
    · intro hsplit
      rw [hsplit]

/-- A layer in a condition. -/
def layeredPath : List Heading := [.supports "(gap: 1px)", .other "Layer" "base"]

/-- A condition that ends like the separator of groups, and a condition in it. -/
def nestedPath : List Heading := [.supports "(gap: 1px)-", .media "(width > 9px)"]

theorem styleRule_keys_distinct_layered :
    (∀ h ∈ layeredPath, h.IsTellable) ∧ (∀ h ∈ nestedPath, h.IsTellable) ∧
      Heading.contextOf layeredPath = "supports(gap: 1px)-##-Layerbase" ∧
      Heading.contextOf nestedPath = "supports(gap: 1px)--##-media(width > 9px)" ∧
      Heading.contextOf layeredPath ≠ Heading.contextOf nestedPath ∧
      (Node.item (.style [".a", "b"] []) none).key? (Heading.contextOf layeredPath) ≠
        (Node.item (.style [".a", "b"] []) none).key? (Heading.contextOf nestedPath) ∧
      (Node.item (.style (SelectorText.split ".a, :is(b, c)".toList) []) none).key?
          (Heading.contextOf layeredPath) ≠
        (Node.item (.style (SelectorText.split ".a, :is(b), c".toList) []) none).key?
          (Heading.contextOf layeredPath) := by
  have hlayered : ∀ h ∈ layeredPath, h.IsTellable := by decide
  have hnested : ∀ h ∈ nestedPath, h.IsTellable := by decide
  have hlabels : layeredPath.map Heading.label ≠ nestedPath.map Heading.label := by decide
  have hsplit : SelectorText.split ".a, :is(b, c)".toList ≠
      SelectorText.split ".a, :is(b), c".toList := by
    decide
  obtain ⟨hcontext, hkeys, hselectors⟩ := styleRule_keys_distinct hlayered hnested
  refine ⟨hlayered, hnested, by decide, by decide, ?_, hkeys hlabels "" _ _ _ _ _, ?_⟩
  · intro h
    exact hlabels (hcontext.1 h)
  · intro h
    exact hsplit ((hselectors "" _ _ _ _ _ _ _).1 h)

end Node

end CriticalCss
