import CriticalCss.Proofs.Stylesheet.Rereading

/-!
# The case of the keywords of at-rules

A style sheet in which the case of letters is changed can be read if and only if it could be read
before, and its tree has the same shape, the same positions and the same texts up to case.  If the
letters stand in keywords of at-rules or in portions that nobody reads, the texts are the same, names
of at-rules without a kind of their own up to case.  Vendor marks are another matter: the keyword of
an animation is recognized without notice of case, and its mark is not, so that a mark may appear or
get lost.

* `animationsFrom` lists the keywords of the animations, and `vendorsAll_rulesFrom` says that the
  marks in the tree are read off them.
* `SameButKeywords` compares two texts by the portions of the first one.
* `read_recased` is the result, and `read_capitals_loses_vendor` is a mark that gets lost.
-/

namespace CriticalCss

open Token (scan)

namespace Recasing

/-! ## From one text to another one -/

/-- The character of a text at a place, which is the number of characters after it. -/
def charAt? (cs : List Char) (n : Nat) : Option Char :=
  cs.reverse[n]?

theorem charAt?_cons (c : Char) (cs : List Char) (n : Nat) :
    charAt? (c :: cs) n = if n = cs.length then some c else charAt? cs n := by
  rw [charAt?, charAt?, List.reverse_cons]
  split
  · next heq => rw [heq, ← List.length_reverse, List.getElem?_concat_length]
  · next hne =>
    by_cases hlt : n < cs.length
    · rw [List.getElem?_append_left (by rwa [List.length_reverse])]
    · have hge : cs.reverse.length ≤ n := by
        rw [List.length_reverse]
        omega
      rw [List.getElem?_eq_none hge, List.getElem?_eq_none]
      rw [List.length_append, List.length_reverse, List.length_singleton]
      omega

/-- Where the texts agree nothing is changed. -/
theorem change_toward {cs cs' : List Char} (hlower : cs'.map Char.toLower = cs.map Char.toLower)
    {n : Nat} (h : charAt? cs' n = charAt? cs n) (d : Char) : (toward cs cs').change n d = d := by
  induction cs generalizing cs' with
  | nil => rfl
  | cons c cs ih =>
    cases cs' with
    | nil => rfl
    | cons c' cs' =>
      obtain ⟨-, hcs⟩ := List.cons.inj hlower
      have hlength : cs'.length = cs.length := by
        rw [← List.length_map (f := Char.toLower), hcs, List.length_map]
      rw [charAt?_cons, charAt?_cons, hlength] at h
      show (if n = cs.length ∧ d = c ∧ c'.toLower = c.toLower then c' else _) = d
      by_cases hn : n = cs.length
      · rw [if_pos hn, if_pos hn] at h
        split
        · next hchanged => rw [hchanged.2.1, Option.some.inj h]
        · exact change_toward_of_le (Nat.le_of_eq hn.symm) d
      · rw [if_neg hn, if_neg hn] at h
        rw [if_neg fun hchanged => hn hchanged.1]
        exact ih hcs h

end Recasing

namespace Stylesheet

/-! ## Keywords of animations -/

/-- The keyword of the at-rule at a place. -/
def keywordAt? (p : Place) : Option String :=
  (scan p.settled).bind fun first =>
    match first.1.lead with
    | .keyword name => some name
    | _ => none

/-- The keywords of the animations from a place on, at every depth. -/
def animationsFrom (stops source : List Char) (p : Place) : List String :=
  match _h : nextRule stops source p with
  | none => []
  | some (.nothing, next) => animationsFrom stops source next
  | some (.fault _, next) => animationsFrom stops source next
  | some (.node n, next) =>
    (if n.kind = .keyframes then (keywordAt? p).toList else []) ++ animationsFrom stops source next
  | some (.group _ _ body, next) =>
    animationsFrom ['}'] source ⟨body, false⟩ ++ animationsFrom stops source next
termination_by p.text.length
decreasing_by
  · exact nextRule_progress _h
  · exact nextRule_progress _h
  · exact nextRule_progress _h
  · exact nextRule_group_lt _h
  · exact nextRule_progress _h

theorem animationsFrom_eq (stops source : List Char) (p : Place) :
    animationsFrom stops source p =
      match nextRule stops source p with
      | none => []
      | some (.nothing, next) => animationsFrom stops source next
      | some (.fault _, next) => animationsFrom stops source next
      | some (.node n, next) => (if n.kind = .keyframes then (keywordAt? p).toList else []) ++
          animationsFrom stops source next
      | some (.group _ _ body, next) =>
        animationsFrom ['}'] source ⟨body, false⟩ ++ animationsFrom stops source next := by
  rw [animationsFrom]
  split <;> simp_all

theorem vendorsAll_steps (source cs : List Char) : Node.vendorsAll (steps source cs) = [] := by
  induction cs using steps_induction source with
  | ends cs h =>
    rw [steps_of_none h]
    rfl
  | goesOn cs n rest h ih =>
    rw [steps_cons h]
    rw [nextStep_eq_ite] at h
    dsimp only at h
    split at h
    · cases h
      exact ih
    · cases h

/-- The vendor mark of what is found is the one of the keyword, if there is one. -/
def Found.Marks (keyword : Option String) : Found → Prop
  | .node n => n.vendors = (if n.kind = .keyframes then keyword.toList else []).map vendor?
  | .group heading _ _ => heading.kind ≠ .keyframes
  | _ => True

theorem blockRule_marks (source : List Char) (keyword prelude : String) (position : Position)
    (body : List Char) : (blockRule source keyword prelude position body).Marks (some keyword) := by
  have hsteps (vendor : Option String) : Node.vendors (.block (.keyframes vendor prelude)
      (steps source body) (some position)) = [vendor] :=
    congrArg (vendor :: ·) (vendorsAll_steps source body)
  unfold blockRule
  dsimp only
  split
  · exact rfl
  split
  · exact nofun
  split
  · exact nofun
  split
  · exact hsteps (vendor? keyword)
  split
  · exact rfl
  split
  · exact nofun
  · exact rfl

theorem statementRule_marks (keyword prelude : String) (position : Position) :
    (statementRule keyword prelude position).Marks (some keyword) := by
  unfold statementRule
  dsimp only
  split
  · exact rfl
  split
  · exact trivial
  · exact rfl

theorem nextRule_marks {stops source : List Char} {p next : Place} {found : Found}
    (h : nextRule stops source p = some (found, next)) : found.Marks (keywordAt? p) := by
  unfold keywordAt?
  cases readsRule_of_nextRule h with
  | filler => exact trivial
  | comment starts leads =>
    simp only [starts, leads, Option.bind_some]
    exact rfl
  | block starts leads _ =>
    simp only [starts, leads, Option.bind_some]
    exact blockRule_marks source _ _ _ _
  | statement starts leads _ _ =>
    simp only [starts, leads, Option.bind_some]
    exact statementRule_marks _ _ _
  | style _ starts leads _ =>
    simp only [starts, leads, Option.bind_some]
    exact rfl
  | noSelector => exact trivial
  | noBlock => exact trivial

/-- The vendor marks of the tree are read off the keywords of its animations. -/
theorem vendorsAll_rulesFrom (stops source : List Char) (p : Place) :
    Node.vendorsAll (rulesFrom stops source p) =
      (animationsFrom stops source p).map vendor? := by
  induction stops, p using rules_induction source with
  | ends stops p hnext =>
    rw [rulesFrom_of_none hnext, animationsFrom_eq, hnext]
    rfl
  | nothing stops p next hnext ih => rw [rulesFrom_of_nothing hnext, animationsFrom_eq, hnext, ih]
  | fault stops p e next hnext ih => rw [rulesFrom_of_fault hnext, animationsFrom_eq, hnext, ih]
  | node stops p n next hnext ih =>
    have hmarks : n.vendors = _ := nextRule_marks hnext
    rw [rulesFrom_of_node hnext, animationsFrom_eq, hnext, Node.vendorsAll, ih, hmarks,
      List.map_append]
  | group stops p heading position body next hnext ihbody ih =>
    have hheading : heading.kind ≠ .keyframes := nextRule_marks hnext
    rw [rulesFrom_of_group hnext, animationsFrom_eq, hnext, Node.vendorsAll, ih, List.map_append,
      ← ihbody]
    cases heading with
    | keyframes vendor name => exact absurd rfl hheading
    | _ => rfl

theorem keywordAt?_apply (r : Recasing) (p : Place) :
    (keywordAt? (p.recast r)).map Text.lower = (keywordAt? p).map Text.lower := by
  unfold keywordAt?
  rw [Place.settled_recast]
  cases hscan : scan p.settled with
  | none => rw [Token.scan_apply_of_none r hscan]
  | some first =>
    obtain ⟨t, rest⟩ := first
    obtain ⟨t', hscan', houtline, -⟩ := Token.exists_scan_apply r hscan
    have halike := Token.Lead.alike_of_lower (Token.lead_of_outline houtline)
    rw [hscan', Option.bind_some, Option.bind_some]
    cases hlead : t.lead with
    | filler => rw [hlead] at halike; rw [halike]
    | selector => rw [hlead] at halike; rw [halike]
    | comment text =>
      rw [hlead] at halike
      obtain ⟨text', hlead', -⟩ := halike
      rw [hlead']
    | keyword name =>
      rw [hlead] at halike
      obtain ⟨name', hlead', hlower⟩ := halike
      rw [hlead']
      exact congrArg some hlower

theorem kind_recast (f : String → String) (mark : Option String → Option String) (n : Node) :
    (n.recast f mark).kind = n.kind := by
  cases n with
  | item i p => cases i <;> rfl
  | block h rules p => cases h <;> rfl

theorem keepsAll_lower (r : Recasing) (qs : List Portion) : r.KeepsAll Text.lower qs :=
  fun _ _ _ => .inl ignoresCase_lower

/-- The keywords of the animations after a change of case. -/
theorem animationsFrom_apply (r : Recasing) {stops : List Char} (hstops : AreEnds stops)
    (source : List Char) (p : Place) :
    (animationsFrom stops (r.apply source) (p.recast r)).map Text.lower =
      (animationsFrom stops source p).map Text.lower := by
  induction stops, p using rules_induction source with
  | ends stops p hnext =>
    rw [animationsFrom_eq, nextRule_apply_of_none r hstops hnext, animationsFrom_eq, hnext]
  | nothing stops p next hnext ih =>
    rw [animationsFrom_eq, nextRule_apply_of_nothing r hstops hnext,
      animationsFrom_eq stops source p, hnext]
    exact ih hstops
  | fault stops p e next hnext ih =>
    obtain ⟨e', hnext'⟩ := nextRule_apply_of_fault r hstops hnext
    rw [animationsFrom_eq, hnext', animationsFrom_eq stops source p, hnext]
    exact ih hstops
  | node stops p n next hnext ih =>
    obtain ⟨n', hnext', hnode⟩ := nextRule_apply_of_node r Text.lower hstops hnext
    have hkind := congrArg Node.kind (hnode (keepsAll_lower r _))
    rw [kind_recast, kind_recast] at hkind
    have hkeyword := congrArg Option.toList (keywordAt?_apply r p)
    rw [Option.toList_map, Option.toList_map] at hkeyword
    rw [animationsFrom_eq, hnext', animationsFrom_eq stops source p, hnext]
    dsimp only
    rw [hkind, List.map_append, List.map_append, ih hstops]
    split
    · rw [hkeyword]
    · rfl
  | group stops p heading position body next hnext ihbody ih =>
    obtain ⟨heading', hnext', -⟩ := nextRule_apply_of_group r Text.lower hstops hnext
    have hbody := ihbody (by simp [AreEnds])
    rw [Place.recast] at hbody
    rw [animationsFrom_eq, hnext', animationsFrom_eq stops source p, hnext]
    dsimp only
    rw [List.map_append, List.map_append, ih hstops, hbody]

/-! ## Vendor marks -/

theorem lower_take {s t : String} (h : Text.lower s = Text.lower t) (k : Nat) :
    Text.lower (String.ofList (s.toList.take k)) = Text.lower (String.ofList (t.toList.take k)) := by
  refine Token.lower_ofList ?_
  rw [List.map_take, List.map_take, String.ofList_injective h]

theorem length_eq_of_lower {s t : String} (h : Text.lower s = Text.lower t) :
    s.length = t.length := by
  have hlength := congrArg List.length (String.ofList_injective h)
  rwa [List.length_map, List.length_map, String.length_toList, String.length_toList] at hlength

/-- Two spellings of a keyword have the same vendor mark up to case if both or neither have one. -/
theorem lower_vendor?_eq_iff {k k' : String} (h : Text.lower k' = Text.lower k) :
    (vendor? k').map Text.lower = (vendor? k).map Text.lower ↔
      (vendor? k').isSome = (vendor? k).isSome := by
  constructor
  · intro heq
    have hisSome := congrArg Option.isSome heq
    rwa [Option.isSome_map, Option.isSome_map] at hisSome
  · intro hisSome
    unfold vendor? at hisSome ⊢
    split at hisSome
    · next hmark' =>
      split at hisSome
      · next hmark =>
        rw [if_pos hmark', if_pos hmark, length_eq_of_lower h]
        exact congrArg some (lower_take h _)
      · cases hisSome
    · next hmark' =>
      split at hisSome
      · cases hisSome
      · next hmark => rw [if_neg hmark', if_neg hmark]

theorem lower_vendors_eq_iff {ks ks' : List String}
    (h : ks'.map Text.lower = ks.map Text.lower) :
    (ks'.map vendor?).map (Option.map Text.lower) = (ks.map vendor?).map (Option.map Text.lower) ↔
      ∀ k ∈ ks'.zip ks, (vendor? k.1).isSome = (vendor? k.2).isSome := by
  induction ks generalizing ks' with
  | nil =>
    rw [List.map_nil, List.map_eq_nil_iff] at h
    rw [h]
    exact iff_of_true rfl nofun
  | cons k ks ih =>
    cases ks' with
    | nil => cases h
    | cons k' ks' =>
      obtain ⟨hk, hks⟩ := List.cons.inj h
      rw [List.zip_cons_cons, List.forall_mem_cons, ← ih hks, ← lower_vendor?_eq_iff hk]
      simp only [List.map_cons, List.cons.injEq]

/-! ## Whole style sheets -/

/-- The portions of a style sheet. -/
def portions (css : String) : List Portion :=
  portionsFrom [] css.toList ⟨css.toList, false⟩

/-- The keywords of the animations of a style sheet. -/
def animations (css : String) : List String :=
  animationsFrom [] css.toList ⟨css.toList, false⟩

/-- The second text has the characters of the first one, except in the keywords of its at-rules, at
any depth, and in portions that nobody reads. -/
def SameButKeywords (css css' : String) : Prop :=
  ∀ n < css.length, (∀ q ∈ portions css, q.role = .kept ∨ n < q.low ∨ q.high ≤ n) →
    Recasing.charAt? css'.toList n = Recasing.charAt? css.toList n

instance (css css' : String) : Decidable (SameButKeywords css css') :=
  inferInstanceAs (Decidable (∀ n < css.length, _ → _))

theorem keepsAll_of_sameButKeywords {css css' : String}
    (hlower : css'.toList.map Char.toLower = css.toList.map Char.toLower)
    (h : SameButKeywords css css') :
    (Recasing.toward css.toList css'.toList).KeepsAll id (portions css) := by
  have hfalls : Portion.Falls css.toList.length (portions css) _ :=
    portionsFrom_falls [] css.toList ⟨css.toList, false⟩
  intro q hq hkept
  refine .inr fun n hlow hhigh c => Recasing.change_toward hlower (h n ?_ fun q' hq' => ?_) c
  · have := hfalls.high_le hq
    rw [String.length_toList] at this
    omega
  · by_cases hrole : q'.role = .kept
    · exact .inl hrole
    · rcases hfalls.apart hq hq' (by rw [hkept]; exact fun heq => hrole heq.symm) with hle | hle
      · exact .inr (.inl (Nat.lt_of_lt_of_le hhigh hle))
      · exact .inr (.inr (Nat.le_trans hle hlow))

theorem toOption_read (css : String) :
    (read css).toOption =
      if rulesFrom [] css.toList ⟨css.toList, false⟩ = [] ∧
        (firstFault? [] css.toList ⟨css.toList, false⟩).isSome then none
      else some (rulesFrom [] css.toList ⟨css.toList, false⟩) := by
  unfold read
  dsimp only
  cases rulesFrom [] css.toList ⟨css.toList, false⟩ with
  | nil => cases firstFault? [] css.toList ⟨css.toList, false⟩ <;> rfl
  | cons n ns => rfl

theorem recastAll_eq_nil_iff (f : String → String) (mark : Option String → Option String)
    (ns : List Node) : Node.recastAll f mark ns = [] ↔ ns = [] := by
  cases ns <;> simp [Node.recastAll]

theorem areEnds_nil : AreEnds [] := nofun

/-- What a style sheet is read as, vendor marks apart, where the kept texts are the same to `f`. -/
theorem toOption_read_recast {f : String → String} {css css' : String}
    (hlower : css'.toList.map Char.toLower = css.toList.map Char.toLower)
    (hkeeps : (Recasing.toward css.toList css'.toList).KeepsAll f (portions css)) :
    (read css').toOption.map (Node.recastAll f fun _ => none) =
      (read css).toOption.map (Node.recastAll f fun _ => none) := by
  have hrules := rulesFrom_apply _ areEnds_nil css.toList ⟨css.toList, false⟩ hkeeps
  have hfault := firstFault?_apply (Recasing.toward css.toList css'.toList) areEnds_nil css.toList
    ⟨css.toList, false⟩
  rw [Place.recast, Recasing.apply_toward hlower] at hrules hfault
  have hnone := recastAll_eq_nil_iff f (fun _ => none)
    (rulesFrom [] css'.toList ⟨css'.toList, false⟩)
  rw [hrules, recastAll_eq_nil_iff] at hnone
  rw [toOption_read, toOption_read, hfault]
  simp only [← hnone]
  split
  · rfl
  · exact congrArg some hrules

/-- A style sheet that cannot be read has no animations. -/
theorem vendorsAll_read (css : String) :
    Node.vendorsAll ((read css).toOption.getD []) = (animations css).map vendor? := by
  rw [animations, ← vendorsAll_rulesFrom, toOption_read]
  split
  · next hfault => rw [hfault.1, Option.getD_none]
  · rw [Option.getD_some]

/-- Which vendor marks differ, where all else is the same. -/
theorem toOption_read_marks_iff {f : String → String} {css css' : String}
    (hlower : css'.toList.map Char.toLower = css.toList.map Char.toLower)
    (hrecast : (read css').toOption.map (Node.recastAll f fun _ => none) =
      (read css).toOption.map (Node.recastAll f fun _ => none)) :
    (read css').toOption.map (Node.recastAll f (Option.map Text.lower)) =
        (read css).toOption.map (Node.recastAll f (Option.map Text.lower)) ↔
      ∀ k ∈ (animations css').zip (animations css),
        (vendor? k.1).isSome = (vendor? k.2).isSome := by
  have happly := animationsFrom_apply (Recasing.toward css.toList css'.toList) areEnds_nil
    css.toList ⟨css.toList, false⟩
  rw [Place.recast, Recasing.apply_toward hlower] at happly
  have hanimations : (animations css').map Text.lower = (animations css).map Text.lower := happly
  rw [← lower_vendors_eq_iff hanimations, ← vendorsAll_read, ← vendorsAll_read]
  cases hread : (read css).toOption with
  | none =>
    cases hread' : (read css').toOption with
    | none => exact iff_of_true rfl rfl
    | some ns' => rw [hread, hread'] at hrecast; cases hrecast
  | some ns =>
    cases hread' : (read css').toOption with
    | none => rw [hread, hread'] at hrecast; cases hrecast
    | some ns' =>
      rw [hread, hread'] at hrecast
      rw [Option.map_some, Option.map_some, Option.some.injEq]
      exact Node.recastAll_eq_iff (Option.some.inj hrecast)

/-- Reading takes no notice of the case of letters, but for the texts that the tree keeps.  If the
case is changed in keywords of at-rules only, and in what nobody reads, then these texts are the same
as well, and the trees are the same up to the case of names and vendor marks if and only if the
keywords of the animations have a vendor mark in both texts or in neither. -/
theorem read_recased {css css' : String} (h : Text.sameLetters css css' = true) :
    (read css').toOption.map (Node.recastAll Text.lower fun _ => none) =
        (read css).toOption.map (Node.recastAll Text.lower fun _ => none) ∧
      (SameButKeywords css css' →
        (read css').toOption.map (Node.recastAll id fun _ => none) =
            (read css).toOption.map (Node.recastAll id fun _ => none) ∧
          ((read css').toOption.map (Node.recastAll id (Option.map Text.lower)) =
              (read css).toOption.map (Node.recastAll id (Option.map Text.lower)) ↔
            ∀ k ∈ (animations css').zip (animations css),
              (vendor? k.1).isSome = (vendor? k.2).isSome)) := by
  have hlower : css'.toList.map Char.toLower = css.toList.map Char.toLower :=
    String.ofList_injective (beq_iff_eq.1 h).symm
  refine ⟨toOption_read_recast hlower (keepsAll_lower _ _), fun hsame => ?_⟩
  have hrecast := toOption_read_recast hlower (keepsAll_of_sameButKeywords hlower hsame)
  exact ⟨hrecast, toOption_read_marks_iff hlower hrecast⟩

/-- Two keywords of at-rules, one of them inside the block of the other one. -/
theorem read_recased_nested :
    Text.sameLetters "@media x\x7b@-webkit-keyframes s\x7bto\x7btop:0\x7d\x7d\x7d"
        "@MEDIA x\x7b@-WebKit-keyframes s\x7bto\x7btop:0\x7d\x7d\x7d" = true ∧
      SameButKeywords "@media x\x7b@-webkit-keyframes s\x7bto\x7btop:0\x7d\x7d\x7d"
        "@MEDIA x\x7b@-WebKit-keyframes s\x7bto\x7btop:0\x7d\x7d\x7d" ∧
      (read "@MEDIA x\x7b@-WebKit-keyframes s\x7bto\x7btop:0\x7d\x7d\x7d").toOption.map
          (Node.recastAll id (Option.map Text.lower)) =
        (read "@media x\x7b@-webkit-keyframes s\x7bto\x7btop:0\x7d\x7d\x7d").toOption.map
          (Node.recastAll id (Option.map Text.lower)) := by
  have hletters : Text.sameLetters "@media x\x7b@-webkit-keyframes s\x7bto\x7btop:0\x7d\x7d\x7d"
      "@MEDIA x\x7b@-WebKit-keyframes s\x7bto\x7btop:0\x7d\x7d\x7d" = true := by
    decide +kernel
  have hsame : SameButKeywords "@media x\x7b@-webkit-keyframes s\x7bto\x7btop:0\x7d\x7d\x7d"
      "@MEDIA x\x7b@-WebKit-keyframes s\x7bto\x7btop:0\x7d\x7d\x7d" := by
    decide +kernel
  have hmarks := ((read_recased hletters).2 hsame).2
  exact ⟨hletters, hsame, hmarks.2 (by decide +kernel)⟩

/-- A vendor mark gets lost with the small letters of the keyword after it. -/
theorem read_capitals_loses_vendor :
    Text.sameLetters "@-webkit-keyframes spin\x7bfrom\x7btop:0\x7d\x7d"
        "@-webkit-KEYFRAMES spin\x7bfrom\x7btop:0\x7d\x7d" = true ∧
      SameButKeywords "@-webkit-keyframes spin\x7bfrom\x7btop:0\x7d\x7d"
        "@-webkit-KEYFRAMES spin\x7bfrom\x7btop:0\x7d\x7d" ∧
      (read "@-webkit-keyframes spin\x7bfrom\x7btop:0\x7d\x7d").toOption.map Node.vendorsAll =
        some [some "-webkit-"] ∧
      (read "@-webkit-KEYFRAMES spin\x7bfrom\x7btop:0\x7d\x7d").toOption.map Node.vendorsAll =
        some [none] := by
  decide +kernel

end Stylesheet

end CriticalCss
