import CriticalCss.Proofs.Selector.Plain
import CriticalCss.Proofs.Stylesheet.Printable
import CriticalCss.Proofs.Token.Outline

/-!
# Rule trees that differ in the case of letters

When the case of some letters of a style sheet is changed, the texts that its tree keeps are found
at the same places and differ in the case of letters at most.

* `Node.recast` applies one function to the texts of a tree and another one to its vendor marks;
  names of at-rules without a kind of their own are put in lower case.  `Node.vendors` lists the
  marks, and `Node.recastAll_eq_iff` says that two trees which agree but for them are told apart by
  that list.
* `Recasing.Keeps` is the premise under which a function gives the same for a text after the change:
  it takes no notice of case, or nothing was changed in the text.
-/

namespace CriticalCss

/-! ## Trees -/

/-- The declaration with a function applied to its texts. -/
def Declaration.recast (f : String → String) (d : Declaration) : Declaration :=
  ⟨f d.property, f d.value⟩

/-- The heading with a function applied to its texts and another one to its vendor mark. -/
def Heading.recast (f : String → String) (mark : Option String → Option String) :
    Heading → Heading
  | .media condition => .media (f condition)
  | .supports condition => .supports (f condition)
  | .keyframes vendor name => .keyframes (mark vendor) (f name)
  | .other name prelude => .other (Text.lower name) (f prelude)

/-- The item with a function applied to its texts. -/
def Item.recast (f : String → String) : Item → Item
  | .style selectors declarations =>
    .style (selectors.map f) (declarations.map (Declaration.recast f))
  | .keyframe values declarations =>
    .keyframe (values.map f) (declarations.map (Declaration.recast f))
  | .fontFace declarations => .fontFace (declarations.map (Declaration.recast f))
  | .charset text => .charset (f text)
  | .comment text => .comment (f text)
  | .statement name prelude => .statement (Text.lower name) (f prelude)
  | .descriptors name prelude declarations =>
    .descriptors (Text.lower name) (f prelude) (declarations.map (Declaration.recast f))

namespace Node

variable (f : String → String) (mark : Option String → Option String)

mutual

/-- The node with a function applied to its texts and another one to its vendor marks, at every
depth.  Names of at-rules without a kind of their own are put in lower case. -/
def recast : Node → Node
  | .item i p => .item (i.recast f) p
  | .block h rules p => .block (h.recast f mark) (recastAll rules) p

/-- The same for several nodes. -/
def recastAll : List Node → List Node
  | [] => []
  | n :: ns => n.recast :: recastAll ns

end

mutual

/-- The vendor marks of the animations in a node, in the order of the text. -/
def vendors : Node → List (Option String)
  | .item .. => []
  | .block (.keyframes vendor _) rules _ => vendor :: vendorsAll rules
  | .block _ rules _ => vendorsAll rules

/-- The vendor marks of the animations in several nodes. -/
def vendorsAll : List Node → List (Option String)
  | [] => []
  | n :: ns => n.vendors ++ vendorsAll ns

end

mutual

theorem vendors_recast (n : Node) : (n.recast f mark).vendors = n.vendors.map mark := by
  match n with
  | .item .. => rfl
  | .block h rules p =>
    have ih := vendorsAll_recastAll rules
    cases h with
    | keyframes vendor name => exact congrArg (mark vendor :: ·) ih
    | media condition => exact ih
    | supports condition => exact ih
    | other name prelude => exact ih

theorem vendorsAll_recastAll (ns : List Node) :
    vendorsAll (recastAll f mark ns) = (vendorsAll ns).map mark := by
  match ns with
  | [] => rfl
  | n :: ns =>
    rw [recastAll, vendorsAll, vendorsAll, vendors_recast n, vendorsAll_recastAll ns,
      List.map_append]

end

variable {f mark}

/-- Headings that agree but for their vendor marks. -/
theorem block_recast_eq_iff {g k : Heading} {rules rules' : List Node} {p : Option Position}
    (hheading : g.recast f (fun _ => none) = k.recast f fun _ => none)
    (hrules : recastAll f mark rules = recastAll f mark rules' ↔
      (vendorsAll rules).map mark = (vendorsAll rules').map mark) :
    (Node.block g rules p).recast f mark = (Node.block k rules' p).recast f mark ↔
      (Node.block g rules p).vendors.map mark = (Node.block k rules' p).vendors.map mark := by
  have hsame : (Node.block g rules p).recast f mark = (Node.block k rules' p).recast f mark ↔
      g.recast f mark = k.recast f mark ∧ recastAll f mark rules = recastAll f mark rules' := by
    simp [recast]
  rw [hsame, hrules]
  cases g with
  | keyframes vendor name =>
    cases k with
    | keyframes vendor' name' =>
      have hname : f name = f name' := (Heading.keyframes.inj hheading).2
      simp [vendors, Heading.recast, hname]
    | media condition => cases hheading
    | supports condition => cases hheading
    | other name' prelude => cases hheading
  | media condition =>
    cases k with
    | media condition' => exact and_iff_right hheading
    | keyframes vendor name => cases hheading
    | supports condition' => cases hheading
    | other name prelude => cases hheading
  | supports condition =>
    cases k with
    | supports condition' => exact and_iff_right hheading
    | keyframes vendor name => cases hheading
    | media condition' => cases hheading
    | other name prelude => cases hheading
  | other name prelude =>
    cases k with
    | other name' prelude' => exact and_iff_right hheading
    | keyframes vendor name' => cases hheading
    | media condition => cases hheading
    | supports condition => cases hheading

mutual

theorem recast_eq_iff {n m : Node} (h : n.recast f (fun _ => none) = m.recast f fun _ => none) :
    n.recast f mark = m.recast f mark ↔ n.vendors.map mark = m.vendors.map mark := by
  match n, m with
  | .item .., .item .. => exact iff_of_true h rfl
  | .item .., .block .. => cases h
  | .block .., .item .. => cases h
  | .block g rules p, .block k rules' q =>
    obtain ⟨hheading, hrules, rfl⟩ := Node.block.inj h
    exact block_recast_eq_iff hheading (recastAll_eq_iff hrules)

/-- Trees that agree but for their vendor marks are told apart by the marks. -/
theorem recastAll_eq_iff {ns ms : List Node}
    (h : recastAll f (fun _ => none) ns = recastAll f (fun _ => none) ms) :
    recastAll f mark ns = recastAll f mark ms ↔
      (vendorsAll ns).map mark = (vendorsAll ms).map mark := by
  match ns, ms with
  | [], [] => exact iff_of_true rfl rfl
  | [], _ :: _ => cases h
  | _ :: _, [] => cases h
  | n :: ns, m :: ms =>
    obtain ⟨hnode, hnodes⟩ := List.cons.inj h
    have hmarks := congrArg (fun n : Node => n.vendors.length) hnode
    simp only [vendors_recast, List.length_map] at hmarks
    rw [recastAll, recastAll, List.cons.injEq, recast_eq_iff hnode, recastAll_eq_iff hnodes,
      vendorsAll, vendorsAll, List.map_append, List.map_append]
    constructor
    · rintro ⟨hfirst, hrest⟩
      rw [hfirst, hrest]
    · intro hall
      exact List.append_inj hall (by rw [List.length_map, List.length_map, hmarks])

end

end Node

/-! ## Texts -/

/-- The function takes no notice of the case of letters. -/
def IgnoresCase (f : String → String) : Prop :=
  ∀ s, f (Text.lower s) = f s

theorem ignoresCase_lower : IgnoresCase Text.lower :=
  Text.lower_lower

theorem IgnoresCase.eq_of_lower {f : String → String} (hf : IgnoresCase f) {s t : String}
    (h : Text.lower s = Text.lower t) : f s = f t := by
  rw [← hf s, h, hf t]

/-- All letters in lower case. -/
def Recasing.small : Recasing :=
  ⟨fun _ => Char.toLower, fun _ c => by simp⟩

theorem toLower_eq_iff {d : Char} (hd : d.isAlpha = false) (c : Char) : c.toLower = d ↔ c = d :=
  Recasing.small.change_eq_iff hd 0 c

namespace Text

theorem isBlank_toLower (c : Char) : isBlank c.toLower = isBlank c :=
  Recasing.small.eq_change isBlank false (by rfl) 0 c

theorem dropWhile_isBlank_map_toLower (cs : List Char) :
    (cs.map Char.toLower).dropWhile isBlank = (cs.dropWhile isBlank).map Char.toLower := by
  rw [List.dropWhile_map]
  have hblank : isBlank ∘ Char.toLower = isBlank := funext isBlank_toLower
  rw [hblank]

theorem trimChars_map_toLower (cs : List Char) :
    trimChars (cs.map Char.toLower) = (trimChars cs).map Char.toLower := by
  rw [trimChars, trimChars, dropBlanksRight, dropBlanksRight, dropWhile_isBlank_map_toLower,
    ← List.map_reverse, dropWhile_isBlank_map_toLower, List.map_reverse]

theorem wordChars_map_toLower (cs : List Char) :
    wordChars (cs.map Char.toLower) = (wordChars cs).map (List.map Char.toLower) := by
  induction cs with
  | nil => rfl
  | cons c cs ih =>
    rw [List.map_cons]
    cases hblank : isBlank c with
    | true =>
      rw [wordChars_of_blank hblank, wordChars_of_blank ((isBlank_toLower c).trans hblank), ih]
    | false =>
      rw [wordChars_of_not_blank hblank, wordChars_of_not_blank ((isBlank_toLower c).trans hblank),
        ih]
      cases cs with
      | nil => rfl
      | cons d cs =>
        rw [List.map_cons]
        generalize wordChars (d :: cs) = words
        cases words with
        | nil => rfl
        | cons w ws =>
          simp only [List.map_cons, isBlank_toLower]
          split <;> rfl

theorem collapse_map_toLower (cs : List Char) :
    collapse (cs.map Char.toLower) = (collapse cs).map Char.toLower := by
  rw [collapse, collapse, wordChars_map_toLower]
  induction wordChars cs with
  | nil => rfl
  | cons w ws ih =>
    cases ws with
    | nil => simp
    | cons v ws => simp_all [List.intercalate_cons_cons]

end Text

namespace SelectorText

/-- The quotation mark of a string is no letter. -/
def Mode.IsMark : Mode → Prop
  | .plain => True
  | .quoted quote => quote.isAlpha = false
  | .escaped quote => quote.isAlpha = false

theorem map_consHead (c : Char) (ps : List (List Char)) :
    consHead c.toLower (ps.map (List.map Char.toLower)) =
      (consHead c ps).map (List.map Char.toLower) := by
  cases ps <;> rfl

theorem pieces_map_toLower {mode : Mode} (hmode : mode.IsMark) (depth : Nat) (cs : List Char) :
    pieces mode depth (cs.map Char.toLower) =
      (pieces mode depth cs).map (List.map Char.toLower) := by
  induction cs generalizing mode depth with
  | nil => cases mode <;> rfl
  | cons c cs ih =>
    cases mode with
    | quoted quote =>
      have hafter : afterQuoted quote c.toLower = afterQuoted quote c := by
        simp only [afterQuoted, toLower_eq_iff (show '\\'.isAlpha = false by decide),
          toLower_eq_iff hmode]
      have hnext : (afterQuoted quote c).IsMark := by
        unfold afterQuoted
        split
        · exact hmode
        · split
          · trivial
          · exact hmode
      rw [List.map_cons, pieces, pieces, hafter, ih hnext, map_consHead]
    | escaped quote =>
      have hnext : (Mode.quoted quote).IsMark := hmode
      rw [List.map_cons, pieces, pieces, ih hnext, map_consHead]
    | plain =>
      have hafter : afterPlain c.toLower = afterPlain c := by
        unfold afterPlain
        simp only [toLower_eq_iff (show '"'.isAlpha = false by decide),
          toLower_eq_iff (show '\''.isAlpha = false by decide)]
        split
        · next hc => rcases hc with rfl | rfl <;> rfl
        · rfl
      have hnext : (afterPlain c).IsMark := by
        unfold afterPlain
        split
        · next hc => rcases hc with rfl | rfl <;> exact rfl
        · trivial
      have hdepth : depthAfter depth c.toLower = depthAfter depth c := by
        simp only [depthAfter, toLower_eq_iff (show '('.isAlpha = false by decide),
          toLower_eq_iff (show '['.isAlpha = false by decide),
          toLower_eq_iff (show ')'.isAlpha = false by decide),
          toLower_eq_iff (show ']'.isAlpha = false by decide)]
      rw [List.map_cons, pieces, pieces, hafter, hdepth, ih hnext, ih hmode, map_consHead]
      simp only [toLower_eq_iff (show ','.isAlpha = false by decide)]
      split <;> rfl

theorem split_map_toLower (cs : List Char) :
    split (cs.map Char.toLower) = (split cs).map Text.lower := by
  have hplain : Mode.plain.IsMark := trivial
  rw [split, split, pieces_map_toLower hplain]
  induction pieces .plain 0 cs with
  | nil => rfl
  | cons p ps ih =>
    rw [List.map_cons, List.map_cons, List.map_cons, Text.collapse_map_toLower]
    by_cases hempty : Text.collapse p = []
    · simpa [hempty] using ih
    · simpa [hempty, Text.lower] using ih

end SelectorText

theorem Position.after_map_toLower (p : Position) (cs : List Char) :
    p.after (cs.map Char.toLower) = p.after cs := by
  have hnewline (c : Char) : Token.isNewline c.toLower = Token.isNewline c :=
    Token.isNewline_change Recasing.small 0 c
  have hunits (c : Char) : Text.units16 c.toLower = Text.units16 c :=
    Recasing.small.eq_change Text.units16 1 (by rfl) 0 c
  have hhead (cs : List Char) : (cs.map Char.toLower).head? = some '\n' ↔ cs.head? = some '\n' := by
    cases cs with
    | nil => rfl
    | cons d cs =>
      simp only [List.map_cons, List.head?_cons, Option.some.injEq]
      exact toLower_eq_iff (by decide) d
  induction p, cs using Position.after_induction with
  | nil p => rfl
  | pair p cs ih => exact ih
  | single p c cs hsingle ih =>
    have hsingle' : ¬(c.toLower = '\r' ∧ (cs.map Char.toLower).head? = some '\n') := by
      rwa [toLower_eq_iff (by decide) c, hhead]
    rw [List.map_cons, Position.after_cons p hsingle', hnewline, hunits, ih,
      Position.after_cons p hsingle]

/-! ## Texts after a change -/

namespace Recasing

variable (r : Recasing)

/-- The function gives the same for the text from one place up to another after the change: it takes
no notice of case, or nothing is changed there. -/
def Keeps (f : String → String) (low high : Nat) : Prop :=
  IgnoresCase f ∨ r.Spares low high

variable {r}

theorem Keeps.mono {f : String → String} {low high low' high' : Nat} (h : r.Keeps f low high)
    (hlow : low ≤ low') (hhigh : high' ≤ high) : r.Keeps f low' high' :=
  h.imp_right fun hspares => hspares.mono hlow hhigh

/-- The name of a token that is kept. -/
theorem Keeps.name {f : String → String} {low high : Nat} {s t : String} (h : r.Keeps f low high)
    (hlower : Text.lower s = Text.lower t) (hsame : r.Spares low high → s = t) : f s = f t := by
  rcases h with hf | hspares
  · exact hf.eq_of_lower hlower
  · rw [hsame hspares]

variable (r)

theorem map_toLower_between_apply (start rest : List Char) :
    (Token.between (r.apply start) (r.apply rest)).map Char.toLower =
      (Token.between start rest).map Char.toLower := by
  rw [Token.between, Token.between, List.map_take, List.map_take, r.map_toLower_apply,
    r.length_apply, r.length_apply]

theorem take_apply {k : Nat} {cs : List Char} (h : r.Spares (cs.length - k) cs.length) :
    (r.apply cs).take k = cs.take k := by
  induction cs generalizing k with
  | nil => rfl
  | cons c cs ih =>
    cases k with
    | zero => rfl
    | succ k =>
      rw [List.length_cons] at h
      rw [apply_cons, List.take_succ_cons, List.take_succ_cons,
        h cs.length (by omega) (Nat.lt_succ_self _), ih (h.mono (by omega) (Nat.le_succ _))]

theorem between_apply {start rest : List Char} (h : r.Spares rest.length start.length) :
    Token.between (r.apply start) (r.apply rest) = Token.between start rest := by
  rw [Token.between, Token.between, r.length_apply, r.length_apply]
  exact r.take_apply fun n hlow hhigh => h n (by omega) hhigh

variable {r}

/-- What a kept text says is the same after the change, if it is said without notice of case where
the case may have changed. -/
theorem Keeps.between {α : Type} {f : String → String} {start rest : List Char}
    (h : r.Keeps f rest.length start.length) (g : List Char → α)
    (hg : IgnoresCase f → ∀ v w, v.map Char.toLower = w.map Char.toLower → g v = g w) :
    g (Token.between (r.apply start) (r.apply rest)) = g (Token.between start rest) := by
  rcases h with hf | hspares
  · exact hg hf _ _ (r.map_toLower_between_apply start rest)
  · rw [r.between_apply hspares]

end Recasing

namespace Stylesheet

open Token (between)

variable (r : Recasing) {f : String → String} {start rest : List Char}

theorem locate_apply (source rest : List Char) :
    Position.locate (r.apply source) (r.apply rest) = Position.locate source rest := by
  rw [Position.locate, Position.locate, ← Position.after_map_toLower,
    r.map_toLower_between_apply, Position.after_map_toLower]

theorem map_toLower_trimChars {v w : List Char} (h : v.map Char.toLower = w.map Char.toLower) :
    (Text.trimChars v).map Char.toLower = (Text.trimChars w).map Char.toLower := by
  rw [← Text.trimChars_map_toLower, h, Text.trimChars_map_toLower]

theorem lower_rawText_apply (start rest : List Char) :
    Text.lower (rawText (r.apply start) (r.apply rest)) = Text.lower (rawText start rest) :=
  Token.lower_ofList (map_toLower_trimChars (r.map_toLower_between_apply start rest))

theorem rawText_apply (h : r.Keeps f rest.length start.length) :
    f (rawText (r.apply start) (r.apply rest)) = f (rawText start rest) :=
  h.between (fun v => f (String.ofList (Text.trimChars v))) fun hf _ _ hvw =>
    hf.eq_of_lower (Token.lower_ofList (map_toLower_trimChars hvw))

/-- The entries of a list differ in case at most. -/
theorem map_lower_split {v w : List Char} (h : v.map Char.toLower = w.map Char.toLower) :
    (SelectorText.split v).map Text.lower = (SelectorText.split w).map Text.lower := by
  rw [← SelectorText.split_map_toLower, h, SelectorText.split_map_toLower]

theorem map_split {v w : List Char} (hf : IgnoresCase f)
    (h : v.map Char.toLower = w.map Char.toLower) :
    (SelectorText.split v).map f = (SelectorText.split w).map f := by
  have hlower := congrArg (List.map f) (map_lower_split h)
  simp only [List.map_map] at hlower
  have hsame : f ∘ Text.lower = f := funext hf
  rwa [hsame] at hlower

end Stylesheet

end CriticalCss
