import CriticalCss.Proofs.Stylesheet.Rules
import CriticalCss.Proofs.Tree.StyleRules
import Mathlib.Data.List.Forall2

/-!
# Reading back what was printed

`read_print` says that a printable style sheet is read back as it was, up to the places in the text,
in every layout.

* `ReadsAs` says that some text is read as some nodes, whatever stands after it.  Texts of this kind
  can be put one after the other, with white space between them.
* `readsAs_printItem` is about a single item, and `readsAs_printNode` the induction on nodes.
-/

namespace CriticalCss

open Token (isSpace isBreak ClosesOver)

namespace Stylesheet

/-! ## Texts that are read as nodes -/

/-- The nodes from a place on: steps directly inside an animation, and rules elsewhere. -/
def nodesFrom (inAnimation : Bool) (stops source cs : List Char) : List Node :=
  if inAnimation then steps source cs else rulesFrom stops source ⟨cs, false⟩

section NodesFrom

variable {stops w : List Char}

/-- White space stands before a node. -/
theorem nodesFrom_append_of_space (hstops : AreEnds stops) (hw : ∀ c ∈ w, isSpace c = true)
    (inAnimation : Bool) (source rest : List Char) :
    nodesFrom inAnimation stops source (w ++ rest) = nodesFrom inAnimation stops source rest := by
  cases inAnimation with
  | false => exact rulesFrom_append_of_space hstops hw rest
  | true => exact steps_append_of_space hw source rest

/-- The nodes of a block end at its brace. -/
theorem nodesFrom_end (inAnimation : Bool) (source more : List Char) :
    nodesFrom inAnimation ['\x7d'] source ('\x7d' :: more) = [] := by
  cases inAnimation with
  | false => exact rulesFrom_of_none rfl
  | true => exact steps_end source more

end NodesFrom

/-- Some text is read as some nodes, up to their places, whatever stands after it. -/
structure ReadsAs (inAnimation : Bool) (ns : List Node) (x : List Char) : Prop where
  read : ∀ stops, AreEnds stops → ∀ source more, ∃ ns',
    Node.withoutPositions ns' = Node.withoutPositions ns ∧
      nodesFrom inAnimation stops source (x ++ more) =
        ns' ++ nodesFrom inAnimation stops source more
  close : ∀ more, ClosesOver x more

namespace ReadsAs

variable {inAnimation : Bool} {ns ms : List Node} {x y w : List Char}

theorem spaces (hw : ∀ c ∈ w, isSpace c = true) : ReadsAs inAnimation [] w where
  read _ hstops source more :=
    ⟨[], rfl, nodesFrom_append_of_space hstops hw inAnimation source more⟩
  close more := (Token.passesOver_spaces hw more).close

theorem append (hx : ReadsAs inAnimation ns x) (hy : ReadsAs inAnimation ms y) :
    ReadsAs inAnimation (ns ++ ms) (x ++ y) where
  read stops hstops source more := by
    obtain ⟨ns', hns, hread⟩ := hx.read stops hstops source (y ++ more)
    obtain ⟨ms', hms, hread'⟩ := hy.read stops hstops source more
    refine ⟨ns' ++ ms', ?_, ?_⟩
    · simp only [Node.withoutPositions_eq_map, List.map_append] at hns hms ⊢
      rw [hns, hms]
    · rw [List.append_assoc, hread, hread', List.append_assoc]
  close more := (hx.close _).append (hy.close more)

/-- Texts with white space between them. -/
theorem intercalate {separator : String} (hseparator : ∀ c ∈ separator.toList, isSpace c = true)
    {texts : List String}
    (h : List.Forall₂ (fun n text => ReadsAs inAnimation [n] text.toList) ns texts) :
    ReadsAs inAnimation ns (separator.intercalate texts).toList := by
  induction h with
  | nil => exact spaces (List.forall_mem_nil _)
  | @cons n text ns texts hfirst hmore ih =>
    cases hmore with
    | nil =>
      rw [String.intercalate_singleton]
      exact hfirst
    | cons hnext hmore =>
      rw [String.intercalate_cons_cons, String.toList_append, String.toList_append]
      exact (hfirst.append (spaces hseparator)).append ih

end ReadsAs

/-! ## Items -/

section Items

variable {o : PrintOptions} {inAnimation : Bool} {i : Item}

/-- A printed block of declarations is read as an item if its header is. -/
theorem readsAs_printDeclarations (ho : o.IsBlank) (level : Nat) {header : String}
    {ds : List Declaration} (hds : ∀ d ∈ ds, d.isPrintable = true)
    (hheader : ∀ b more, isBreak b = true → ClosesOver header.toList (b :: more))
    (hread : ∀ stops source gap inner more, AreEnds stops → (∀ c ∈ gap, c = ' ') →
      HoldsDeclarations inner ds → ∃ position, nodesFrom inAnimation stops source
        (header.toList ++ (gap ++ '\x7b' :: (inner ++ '\x7d' :: more))) =
          .item i (some position) :: nodesFrom inAnimation stops source more)
    (p : Option Position) :
    ReadsAs inAnimation [.item i p] (printDeclarations o level header ds).toList := by
  obtain ⟨w, gap, inner, hw, hgap, hinner, htext⟩ :=
    exists_block_of_printDeclarations ho level header hds
  rw [htext]
  constructor
  · intro stops hstops source more
    obtain ⟨position, hitem⟩ := hread stops source gap inner more hstops hgap hinner
    refine ⟨[.item i (some position)], rfl, ?_⟩
    rw [List.append_assoc, nodesFrom_append_of_space hstops hw]
    simpa using hitem
  · exact closesOver_braces hw hheader hgap hinner.close

/-- A printed at-rule with declarations. -/
theorem readsAs_descriptors (ho : o.IsBlank) (level : Nat) {header name prelude : String}
    {ds : List Declaration} (hds : ∀ d ∈ ds, d.isPrintable = true)
    (h : IsHeading header.toList name prelude) (hcharset : Text.lower name ≠ "charset")
    (hrule : ∀ source position body, declarations body = ds →
      blockRule source name prelude position body = .node (.item i (some position)))
    (p : Option Position) :
    ReadsAs false [.item i p] (printDeclarations o level header ds).toList := by
  refine readsAs_printDeclarations ho level hds h.closesOver ?_ p
  intro stops source gap inner more hstops hgap hinner
  obtain ⟨position, hnext⟩ :=
    nextRule_of_block source hstops h hcharset hgap (inner ++ '\x7d' :: more)
  rw [hrule source position _ (hinner.read more),
    Token.closeBlock_of_closesOver (hinner.close more)] at hnext
  exact ⟨position, rulesFrom_of_node hnext⟩

/-- An at-rule without a block, after its indentation. -/
theorem readsAs_statement {w header : List Char} {name prelude : String}
    (hw : ∀ c ∈ w, isSpace c = true) (h : IsHeading header name prelude)
    (hrule : ∀ position, statementRule name prelude position = .node (.item i (some position)))
    (p : Option Position) : ReadsAs false [.item i p] (w ++ (header ++ [';'])) := by
  refine (ReadsAs.spaces hw).append ⟨?_, fun more => ?_⟩
  · intro stops hstops source more
    obtain ⟨position, hnext⟩ := nextRule_of_statement source hstops h more
    rw [hrule] at hnext
    refine ⟨[.item i (some position)], rfl, ?_⟩
    rw [List.append_assoc]
    exact rulesFrom_of_node hnext
  · exact (h.closesOver ';' more rfl).append (Token.closesOver_semicolon more)

/-- A printed style rule, whatever white space stands after its commas. -/
theorem readsAs_style (ho : o.IsBlank) (level : Nat) {joint : String} {w : List Char}
    (hjoint : joint.toList = ',' :: w) (hw : ∀ c ∈ w, isSpace c = true) {selectors : List String}
    {ds : List Declaration} (h : (Item.style selectors ds).isPrintable = true)
    (p : Option Position) :
    ReadsAs false [.item (.style selectors ds) p]
      (printDeclarations o level (joint.intercalate selectors) ds).toList := by
  simp only [Item.isPrintable, Bool.and_eq_true, List.all_eq_true] at h
  obtain ⟨⟨hall, hopens⟩, hds⟩ := h
  refine readsAs_printDeclarations ho level hds
    (fun b more hb => (passesOver_intercalate hjoint hw hall hb more).close) ?_ p
  intro stops source gap inner more hstops hgap hinner
  obtain ⟨position, hnext⟩ :=
    nextRule_of_selectors source hstops hjoint hw hall hopens hgap (hinner.close more)
  rw [hinner.read more] at hnext
  exact ⟨position, rulesFrom_of_node hnext⟩

/-- A printed step of an animation, whatever white space stands after its commas. -/
theorem readsAs_keyframe (ho : o.IsBlank) (level : Nat) {joint : String} {w : List Char}
    (hjoint : joint.toList = ',' :: w) (hw : ∀ c ∈ w, isSpace c = true) {values : List String}
    {ds : List Declaration} (h : (Item.keyframe values ds).isPrintable = true)
    (p : Option Position) :
    ReadsAs true [.item (.keyframe values ds) p]
      (printDeclarations o level (joint.intercalate values) ds).toList := by
  simp only [Item.isPrintable, Bool.and_eq_true, List.all_eq_true, Bool.not_eq_true',
    List.isEmpty_eq_false_iff] at h
  obtain ⟨⟨hall, hne⟩, hds⟩ := h
  refine readsAs_printDeclarations ho level hds
    (fun b more hb => (passesOver_intercalate hjoint hw hall hb more).close) ?_ p
  intro stops source gap inner more _ hgap hinner
  obtain ⟨position, hnext⟩ :=
    nextStep_eq hjoint hw hne hall hinner (List.forall_mem_nil _) hgap source more
  exact ⟨position, steps_cons hnext⟩

/-- What is printed of an item is read as the item. -/
theorem readsAs_printItem (ho : o.IsBlank) (level : Nat) (h : i.isPrintable = true)
    (p : Option Position) :
    ∃ text, printItem o level i = some text ∧ ReadsAs i.isStep [.item i p] text.toList := by
  have hpad := isSpace_of_mem_pad ho level
  cases i with
  | style selectors ds =>
    refine ⟨_, rfl, ?_⟩
    cases o.compress with
    | true => exact readsAs_style ho level (w := []) (by simp) (List.forall_mem_nil _) h p
    | false =>
      refine readsAs_style ho level (w := '\n' :: (o.pad level).toList) (by simp) ?_ h p
      exact List.forall_mem_cons.2 ⟨rfl, hpad⟩
  | keyframe values ds =>
    refine ⟨_, rfl, ?_⟩
    cases o.compress with
    | true => exact readsAs_keyframe ho level rfl (List.forall_mem_nil _) h p
    | false => exact readsAs_keyframe ho level (w := [' ']) rfl (List.all_eq_true.1 rfl) h p
  | fontFace ds =>
    have hheading : IsHeading "@font-face".toList "font-face" "" :=
      ⟨by decide, by decide, .inr ⟨rfl, rfl⟩⟩
    refine ⟨_, rfl,
      readsAs_descriptors ho level (List.all_eq_true.1 h) hheading (by decide) ?_ p⟩
    rintro source position body rfl
    exact blockRule_fontFace source position body
  | charset text =>
    refine ⟨_, rfl, ?_⟩
    have hheading : IsHeading ("@charset " ++ text).toList "charset" text :=
      ⟨by decide, h, .inl (by simp)⟩
    have hread := readsAs_statement hpad hheading (statementRule_charset text) p
    show ReadsAs false _ _
    simpa [String.append_assoc] using hread
  | comment text => cases h
  | statement name prelude =>
    simp only [Item.isPrintable, Bool.and_eq_true, Bool.not_eq_true'] at h
    obtain ⟨⟨hname, hkind⟩, hprelude⟩ := h
    refine ⟨_, rfl, ?_⟩
    have hread := readsAs_statement hpad (isHeading_keywordText hname hprelude)
      (statementRule_statement hkind prelude) p
    show ReadsAs false _ _
    simpa using hread
  | descriptors name prelude ds =>
    simp only [Item.isPrintable, Bool.and_eq_true, List.all_eq_true] at h
    obtain ⟨⟨⟨hname, hkind⟩, hprelude⟩, hds⟩ := h
    refine ⟨_, rfl, readsAs_descriptors ho level hds (isHeading_keywordText hname hprelude)
      (ne_charset_of_isDescriptorKeyword hkind) ?_ p⟩
    rintro source position body rfl
    exact blockRule_descriptors hkind prelude source position body

end Items

/-! ## Nodes -/

section Nodes

variable {o : PrintOptions}

/-- The block in what is printed of some rules. -/
theorem exists_block_of_printBlock (ho : o.IsBlank) (level : Nat) (header body : String) :
    ∃ w gap before after : List Char, (∀ c ∈ w, isSpace c = true) ∧ (∀ c ∈ gap, c = ' ') ∧
      (∀ c ∈ before, isSpace c = true) ∧ (∀ c ∈ after, isSpace c = true) ∧
      (printBlock o level header body).toList =
        w ++ (header.toList ++
          (gap ++ '\x7b' :: ((before ++ body.toList ++ after) ++ ['\x7d']))) := by
  have hpad := isSpace_of_mem_pad ho level
  rw [printBlock]
  split
  · exact ⟨[], [], [], [], by simp, by simp, by simp, by simp, by simp⟩
  split
  · next hempty =>
    refine ⟨(o.pad level).toList, [' '], [], [], hpad, by simp, by simp, by simp, ?_⟩
    simp [hempty]
  · refine ⟨(o.pad level).toList, [' '], ['\n'], '\n' :: (o.pad level).toList, hpad, by simp,
      List.all_eq_true.1 rfl, List.forall_mem_cons.2 ⟨rfl, hpad⟩, ?_⟩
    simp

/-- A block of nodes under a heading. -/
theorem ReadsAs.block {heading : Heading} (h : heading.isPrintable = true) {w gap inner : List Char}
    (hw : ∀ c ∈ w, isSpace c = true) (hgap : ∀ c ∈ gap, c = ' ') {rules : List Node}
    (hinner : ReadsAs (!heading.groupsRules) rules inner) (p : Option Position) :
    ReadsAs false [.block heading rules p]
      (w ++ ((headingText heading).toList ++ (gap ++ '\x7b' :: (inner ++ ['\x7d'])))) where
  read stops hstops source more := by
    have hends : AreEnds ['\x7d'] := fun c hc => List.mem_singleton.1 hc
    have hheading := isHeading_headingText h
    obtain ⟨position, hnext⟩ := nextRule_of_block source hstops hheading
      (lower_keyword_ne_charset h) hgap (inner ++ '\x7d' :: more)
    rw [blockRule_keyword h, Token.closeBlock_of_closesOver (hinner.close _)] at hnext
    obtain ⟨rules', hrules, hread⟩ := hinner.read _ hends source ('\x7d' :: more)
    rw [nodesFrom_end, List.append_nil] at hread
    refine ⟨[.block heading rules' (some position)], ?_, ?_⟩
    · simp [Node.withoutPositions, Node.withoutPosition, hrules]
    · have htext : w ++ ((headingText heading).toList ++ (gap ++ '\x7b' :: (inner ++ ['\x7d']))) ++
          more = w ++ ((headingText heading).toList ++
            (gap ++ '\x7b' :: (inner ++ '\x7d' :: more))) := by simp
      rw [htext, nodesFrom_append_of_space hstops hw, ← hread]
      cases hgroups : heading.groupsRules with
      | true =>
        rw [hgroups, if_pos rfl] at hnext
        exact rulesFrom_of_group hnext
      | false =>
        rw [hgroups, if_neg Bool.false_ne_true] at hnext
        exact rulesFrom_of_node hnext
  close := closesOver_braces hw (isHeading_headingText h).closesOver hgap fun more => hinner.close _

/-- What is printed of some nodes is read as the nodes if this holds of every one of them. -/
theorem forall₂_printNodes {inAnimation : Bool} {level : Nat} {ns : List Node}
    (h : ∀ n ∈ ns, ∃ text, printNode o level n = some text ∧ ReadsAs inAnimation [n] text.toList) :
    List.Forall₂ (fun n text => ReadsAs inAnimation [n] text.toList) ns
      (printNodes o level ns) := by
  induction ns with
  | nil => exact .nil
  | cons n ns ih =>
    obtain ⟨text, htext, hread⟩ := h n List.mem_cons_self
    rw [printNodes, htext]
    exact .cons hread (ih fun m hm => h m (List.mem_cons_of_mem _ hm))

theorem isSpace_of_mem_separator (o : PrintOptions) :
    ∀ c ∈ (separator o).toList, isSpace c = true := by
  rw [separator]
  cases o.compress <;> exact List.all_eq_true.1 rfl

/-- What is printed of a node is read as the node. -/
theorem readsAs_printNode (ho : o.IsBlank) (n : Node) (level : Nat) (inAnimation : Bool)
    (h : n.isPrintable inAnimation = true) :
    ∃ text, printNode o level n = some text ∧ ReadsAs inAnimation [n] text.toList := by
  induction n generalizing level inAnimation with
  | item i p =>
    simp only [Node.isPrintable, Bool.and_eq_true, beq_iff_eq] at h
    obtain ⟨rfl, hitem⟩ := h
    exact readsAs_printItem ho level hitem p
  | block heading rules p ih =>
    simp only [Node.isPrintable, Bool.and_eq_true, Bool.not_eq_true'] at h
    obtain ⟨⟨rfl, hheading⟩, hrules⟩ := h
    have hbody := ReadsAs.intercalate (isSpace_of_mem_separator o) (forall₂_printNodes fun n hn =>
      ih n hn (level + 1) _ (Node.arePrintable_iff.1 hrules n hn))
    obtain ⟨w, gap, before, after, hw, hgap, hbefore, hafter, htext⟩ :=
      exists_block_of_printBlock ho level (headingText heading)
        ((separator o).intercalate (printNodes o (level + 1) rules))
    refine ⟨_, rfl, ?_⟩
    rw [htext]
    have hinner := ((ReadsAs.spaces hbefore).append hbody).append (.spaces hafter)
    rw [List.nil_append, List.append_nil] at hinner
    exact .block hheading hw hgap hinner p

end Nodes

/-! ## Style sheets -/

/-- Without rules and without text there is no fault. -/
theorem read_empty : read "" = .ok [] := by
  have hrules : rulesFrom [] [] ⟨[], false⟩ = [] := rulesFrom_of_none rfl
  have hfault : firstFault? [] [] ⟨[], false⟩ = none := by
    rw [firstFault?]
    rfl
  rw [read, String.toList_empty, hrules, hfault]

/-- A text with rules is read as they are, whatever faults it has. -/
theorem read_of_rulesFrom {css : String} {rules : List Node} (hne : rules ≠ [])
    (h : rulesFrom [] css.toList ⟨css.toList, false⟩ = rules) : read css = .ok rules := by
  obtain ⟨n, ns, rfl⟩ := List.exists_cons_of_ne_nil hne
  simp only [read, h]

/-- A printable style sheet is read back as it was printed, in every layout. -/
theorem read_print {o : PrintOptions} (ho : o.IsBlank) {sheet : Stylesheet}
    (h : sheet.isPrintable = true) :
    (read (print o sheet)).map Node.withoutPositions = .ok (Node.withoutPositions sheet) := by
  cases sheet with
  | nil =>
    have hprint : print o [] = "" := by simp [print, printNodes]
    rw [hprint, read_empty]
    rfl
  | cons n sheet =>
    have hends : AreEnds [] := List.forall_mem_nil _
    have hnodes := Node.arePrintable_iff.1 h
    have hread := ReadsAs.intercalate (isSpace_of_mem_separator o) (forall₂_printNodes fun m hm =>
      readsAs_printNode ho m 0 false (hnodes m hm))
    obtain ⟨rules, hrules, heq⟩ := hread.read [] hends (print o (n :: sheet)).toList []
    have hend : nodesFrom false [] (print o (n :: sheet)).toList [] = [] := rulesFrom_of_none rfl
    rw [hend, List.append_nil, List.append_nil] at heq
    have hne : rules ≠ [] := by
      rintro rfl
      cases hrules
    rw [read_of_rulesFrom hne heq, Except.map, hrules]

/-- Every kind of node, and blocks in blocks. -/
def variedSheet : Stylesheet :=
  [.item (.charset "\"utf-8\"") (some ⟨1, 1⟩),
    .item (.statement "import" "\"base.css\" screen") none,
    .item (.style [".nav > li:not(.a, .b)", "a:hover"] [⟨"color", "red !important"⟩]) none,
    .block (.media "(min-width: 40em)")
      [.block (.supports "(display: grid) and (not (gap: 1px))")
        [.block (.other "layer" "base")
          [.item (.style ["-x", "h1::before"] [⟨"content", "\"a, b\""⟩, ⟨"--gap", "0 auto"⟩]) none]
          none,
          .block (.other "layer" "") [] none] none,
        .block (.keyframes (some "-webkit-") "spin")
          [.item (.keyframe ["from", "50%"] [⟨"left", "calc(1px + 2%)"⟩]) none,
            .item (.keyframe ["to"] []) none] none] (some ⟨7, 2⟩),
    .item (.fontFace [⟨"font-family", "Inter, sans-serif"⟩]) none,
    .item (.descriptors "page" ":first" [⟨"margin", "1in"⟩]) none]

theorem isPrintable_variedSheet : variedSheet.isPrintable = true := by
  decide +kernel

theorem read_print_variedSheet :
    PrintOptions.IsBlank ⟨" \t", false⟩ ∧ variedSheet.isPrintable = true ∧
      (read (print ⟨" \t", false⟩ variedSheet)).map Node.withoutPositions =
        .ok (Node.withoutPositions variedSheet) :=
  ⟨by decide, isPrintable_variedSheet, read_print (by decide) isPrintable_variedSheet⟩

end Stylesheet

end CriticalCss
