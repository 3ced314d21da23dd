import CriticalCss.Proofs.Stylesheet.Splitting

/-!
# Joining a split list

The entries of a list are written one after the other with a comma between them.  Splitting that text
gives the entries again, because a comma inside an entry stands in brackets or in a string, and
collapsing white space does not change that.

* `Text.Worded` takes a text apart word by word, and `Text.collapse_word` collapses it so.
* `Point.through?` follows the splitter through a text without commas that separate pieces.
  `through?_collapse` says that collapsing white space leads it to the same point, up to a backslash
  at the very end.
* `IsCut` is the invariant of the pieces: all but the last one end outside brackets and strings.
  `isCut_pieces` establishes it, and `IsCut.collapsed` keeps it.
* `pieces_joined` takes such pieces apart again, and `split_rejoined` the entries of any text.
-/

namespace CriticalCss

/-! ## Word by word -/

namespace Text

/-- A text word by word: it is blank, or there are blanks, a word, and a text that begins with a blank
if it is not empty. -/
inductive Worded : List Char → Prop
  | blank {bs : List Char} (hbs : ∀ c ∈ bs, isBlank c = true) : Worded bs
  | word {bs w rest : List Char} (hbs : ∀ c ∈ bs, isBlank c = true) (hw : IsWord w)
      (hrest : ∀ c ∈ rest.head?, isBlank c = true) (more : Worded rest) :
      Worded (bs ++ (w ++ rest))

theorem worded (t : List Char) : Worded t := by
  induction t with
  | nil => exact .blank (List.forall_mem_nil _)
  | cons c t ih =>
    by_cases hc : isBlank c = true
    · cases ih with
      | blank hbs => exact .blank (List.forall_mem_cons.2 ⟨hc, hbs⟩)
      | word hbs hw hrest more =>
        exact .word (List.forall_mem_cons.2 ⟨hc, hbs⟩) hw hrest more
    · have hc : isBlank c = false := Bool.eq_false_iff.2 hc
      have hone : IsWord [c] := ⟨List.cons_ne_nil _ _, List.forall_mem_singleton.2 hc⟩
      have hnone : ∀ b ∈ ([] : List Char), isBlank b = true := List.forall_mem_nil _
      -- the character is a word of its own, unless a word follows at once
      cases ih with
      | blank hbs =>
        have hfirst : ∀ b ∈ t.head?, isBlank b = true := fun b hb =>
          hbs b (List.mem_of_mem_head? hb)
        exact .word hnone hone hfirst (.blank hbs)
      | @word bs w rest hbs hw hrest more =>
        cases bs with
        | nil =>
          have hlonger : IsWord (c :: w) :=
            ⟨List.cons_ne_nil _ _, List.forall_mem_cons.2 ⟨hc, hw.chars⟩⟩
          exact .word hnone hlonger hrest more
        | cons b bs =>
          have hfirst : ∀ d ∈ (b :: bs ++ (w ++ rest)).head?, isBlank d = true := by
            intro d hd
            cases hd
            exact hbs b List.mem_cons_self
          exact .word hnone hone hfirst (.word hbs hw hrest more)

theorem wordChars_eq_nil {bs : List Char} (hbs : ∀ c ∈ bs, isBlank c = true) :
    wordChars bs = [] := by
  have h := wordChars_append_of_blank hbs []
  rwa [List.append_nil] at h

theorem collapse_blank {bs : List Char} (hbs : ∀ c ∈ bs, isBlank c = true) : collapse bs = [] := by
  rw [collapse, wordChars_eq_nil hbs]
  rfl

/-- The first word stays, and one space stands before the others. -/
theorem collapse_word {bs w rest : List Char} (hbs : ∀ c ∈ bs, isBlank c = true) (hw : IsWord w)
    (hrest : ∀ c ∈ rest.head?, isBlank c = true) :
    collapse (bs ++ (w ++ rest)) =
      if collapse rest = [] then w else w ++ ' ' :: collapse rest := by
  rw [collapse, wordChars_append_of_blank hbs, wordChars_word_append hw hrest, collapse]
  cases hwords : wordChars rest with
  | nil => simp
  | cons v vs =>
    have hv : v ≠ [] := (isWord_of_mem_wordChars (hwords ▸ List.mem_cons_self)).ne_nil
    have hne : [' '].intercalate (v :: vs) ≠ [] := by
      intro hnil
      cases vs with
      | nil => exact hv (by simpa using hnil)
      | cons u us => simp [List.intercalate_cons_cons, hv] at hnil
    rw [if_neg hne, List.intercalate_cons_cons, List.append_assoc, List.singleton_append]

/-- Blanks before a text are dropped. -/
theorem collapse_blanks_append {bs : List Char} (hbs : ∀ c ∈ bs, isBlank c = true)
    (t : List Char) : collapse (bs ++ t) = collapse t := by
  rw [collapse, wordChars_append_of_blank hbs, collapse]

theorem eq_nil_of_collapse {t : List Char} (h : collapse t = []) : ∀ c ∈ t, isBlank c = true := by
  cases worded t with
  | blank hbs => exact hbs
  | word hbs hw hrest more =>
    rw [collapse_word hbs hw hrest] at h
    split at h
    · exact absurd h hw.ne_nil
    · simp at h

end Text

namespace SelectorText

open Text (isBlank collapse)

/-! ## The splitter on its way -/

/-- Where the splitter stands: the mode and the depth of brackets. -/
structure Point where
  mode : Mode
  depth : Nat

namespace Point

/-- Where a piece begins. -/
def start : Point := ⟨.plain, 0⟩

/-- The point after a character that separates no pieces. -/
def after? : Point → Char → Option Point
  | ⟨.quoted q, depth⟩, c => some ⟨afterQuoted q c, depth⟩
  | ⟨.escaped q, depth⟩, _ => some ⟨.quoted q, depth⟩
  | ⟨.plain, depth⟩, c =>
    if c = ',' ∧ depth = 0 then none else some ⟨afterPlain c, depthAfter depth c⟩

/-- The point after a text without commas that separate pieces. -/
def through? (s : Point) (t : List Char) : Option Point :=
  t.foldlM after? s

/-- The pieces of a text from a point on. -/
def pieces (s : Point) (t : List Char) : List (List Char) :=
  SelectorText.pieces s.mode s.depth t

/-- A string goes on after an escaped character. -/
def rested : Point → Point
  | ⟨.escaped q, depth⟩ => ⟨.quoted q, depth⟩
  | s => s

/-- No blank is the quote of a string. -/
def IsMarked : Point → Prop
  | ⟨.plain, _⟩ => True
  | ⟨.quoted q, _⟩ => isBlank q = false
  | ⟨.escaped q, _⟩ => isBlank q = false

variable {s s' : Point} {c : Char} {t u : List Char}

theorem through?_cons (s : Point) (c : Char) (t : List Char) :
    s.through? (c :: t) = (s.after? c).bind (·.through? t) := rfl

theorem through?_append (s : Point) (t u : List Char) :
    s.through? (t ++ u) = (s.through? t).bind (·.through? u) :=
  List.foldlM_append

/-- A piece ends at a comma outside brackets and strings only. -/
theorem eq_of_after?_eq_none (h : s.after? c = none) : s = start ∧ c = ',' := by
  obtain ⟨mode, depth⟩ := s
  cases mode with
  | plain =>
    rw [after?] at h
    split at h
    · next hcomma =>
      obtain ⟨hc, hdepth⟩ := hcomma
      rw [hdepth]
      exact ⟨rfl, hc⟩
    · cases h
  | quoted q => cases h
  | escaped q => cases h

theorem pieces_cons_of_some (h : s.after? c = some s') (t : List Char) :
    s.pieces (c :: t) = consHead c (s'.pieces t) := by
  obtain ⟨mode, depth⟩ := s
  cases mode with
  | plain =>
    rw [after?] at h
    split at h
    · cases h
    · next hcomma =>
      cases h
      exact if_neg hcomma
  | quoted q =>
    cases h
    rfl
  | escaped q =>
    cases h
    rfl

theorem pieces_ne_nil (s : Point) (t : List Char) : s.pieces t ≠ [] :=
  SelectorText.pieces_ne_nil s.mode s.depth t

/-- A text without commas that separate pieces stands in one piece with what comes up to the next such
comma. -/
theorem pieces_append (h : s.through? t = some s') (u : List Char) :
    s.pieces (t ++ u) = (s'.pieces u).modifyHead (t ++ ·) := by
  induction t generalizing s with
  | nil =>
    cases h
    exact (congrFun List.modifyHead_id _).symm
  | cons c t ih =>
    rw [through?_cons, Option.bind_eq_some_iff] at h
    obtain ⟨s₁, hc, ht⟩ := h
    rw [List.cons_append, pieces_cons_of_some hc, ih ht,
      consHead_modifyHead (pieces_ne_nil s' u)]

/-! ## Blanks on the way -/

theorem isMarked_start : start.IsMarked := trivial

theorem IsMarked.after (hs : s.IsMarked) (h : s.after? c = some s') : s'.IsMarked := by
  obtain ⟨mode, depth⟩ := s
  cases mode with
  | plain =>
    rw [after?] at h
    split at h
    · cases h
    · cases h
      show IsMarked ⟨afterPlain c, _⟩
      rw [afterPlain]
      split
      · next hquote =>
        show isBlank c = false
        rcases hquote with hc | hc
        · rw [hc]
          decide
        · rw [hc]
          decide
      · trivial
  | quoted q =>
    cases h
    show IsMarked ⟨afterQuoted q c, _⟩
    rw [afterQuoted]
    split
    · exact hs
    · split
      · trivial
      · exact hs
  | escaped q =>
    cases h
    exact hs

theorem IsMarked.through (hs : s.IsMarked) (h : s.through? t = some s') : s'.IsMarked := by
  induction t generalizing s with
  | nil =>
    cases h
    exact hs
  | cons c t ih =>
    rw [through?_cons, Option.bind_eq_some_iff] at h
    obtain ⟨s₁, hc, ht⟩ := h
    exact ih (hs.after hc) ht

@[simp]
theorem rested_rested (s : Point) : s.rested.rested = s.rested := by
  obtain ⟨mode, depth⟩ := s
  cases mode <;> rfl

theorem isMarked_rested (hs : s.IsMarked) : s.rested.IsMarked := by
  obtain ⟨mode, depth⟩ := s
  cases mode <;> exact hs

/-- A blank ends an escape and changes nothing else. -/
theorem after?_blank (hs : s.IsMarked) (hc : isBlank c = true) : s.after? c = some s.rested := by
  have hne : ∀ d, isBlank d = false → c ≠ d := by
    intro d hd heq
    rw [heq, hd] at hc
    cases hc
  obtain ⟨mode, depth⟩ := s
  cases mode with
  | plain =>
    have hcomma : ¬(c = ',' ∧ depth = 0) := fun h => hne ',' (by decide) h.1
    have hplain : afterPlain c = .plain := by
      simp [afterPlain, hne '"' (by decide), hne '\'' (by decide)]
    have hdepth : depthAfter depth c = depth := by
      simp [depthAfter, hne '(' (by decide), hne '[' (by decide), hne ')' (by decide),
        hne ']' (by decide)]
    rw [after?, if_neg hcomma, hplain, hdepth]
    rfl
  | quoted q =>
    have hquoted : afterQuoted q c = .quoted q := by
      rw [afterQuoted, if_neg (hne '\\' (by decide)), if_neg (hne q hs)]
    rw [after?, hquoted]
    rfl
  | escaped q => rfl

/-- Blanks change nothing unless the first of them is escaped. -/
theorem through?_blank (hs : s.IsMarked) (hrested : s.rested = s)
    (ht : ∀ c ∈ t, isBlank c = true) : s.through? t = some s := by
  induction t with
  | nil => rfl
  | cons c t ih =>
    rw [List.forall_mem_cons] at ht
    rw [through?_cons, after?_blank hs ht.1, hrested]
    exact ih ht.2

/-- From the first blank on it does not matter whether there was a backslash before it. -/
theorem through?_of_blank (hs : s.IsMarked) (hc : isBlank c = true) (t : List Char) :
    s.through? (c :: t) = s.rested.through? (c :: t) := by
  rw [through?_cons, through?_cons, after?_blank hs hc, after?_blank (isMarked_rested hs) hc,
    rested_rested]

/-- Collapsing white space leads to the same point, up to a backslash at the end. -/
theorem through?_collapse (hs : s.IsMarked) (hrested : s.rested = s) (h : s.through? t = some s') :
    ∃ s₁, s.through? (collapse t) = some s₁ ∧ s₁.rested = s'.rested := by
  induction Text.worded t generalizing s s' with
  | blank hbs =>
    rw [through?_blank hs hrested hbs] at h
    rw [Text.collapse_blank hbs]
    cases h
    exact ⟨s, rfl, rfl⟩
  | @word bs w rest hbs hw hrest more ih =>
    rw [through?_append, through?_blank hs hrested hbs, Option.bind_some, through?_append,
      Option.bind_eq_some_iff] at h
    obtain ⟨sw, hsw, h⟩ := h
    have hmarked : sw.IsMarked := hs.through hsw
    have hagain : ∀ u, sw.rested.through? (' ' :: u) = sw.rested.through? u := by
      intro u
      rw [through?_cons, after?_blank (isMarked_rested hmarked) (by decide), rested_rested]
      rfl
    rw [Text.collapse_word hbs hw hrest]
    split
    · next hnil =>
      refine ⟨sw, hsw, ?_⟩
      cases rest with
      | nil =>
        cases h
        rfl
      | cons b rest =>
        rw [through?_of_blank hmarked (hrest b rfl), through?_blank (isMarked_rested hmarked)
          (rested_rested sw) (Text.eq_nil_of_collapse hnil)] at h
        cases h
        exact (rested_rested sw).symm
    · next hne =>
      cases rest with
      | nil => exact absurd rfl hne
      | cons b rest =>
        rw [through?_of_blank hmarked (hrest b rfl)] at h
        obtain ⟨s₁, hs₁, heq⟩ := ih (isMarked_rested hmarked) (rested_rested sw) h
        refine ⟨s₁, ?_, heq⟩
        rw [through?_append, hsw, Option.bind_some, through?_of_blank hmarked (by decide), hagain]
        exact hs₁

end Point

/-! ## The pieces of a text -/

/-- Pieces that the splitter can leave, the first of them from a point on: a comma ends each of them
but the last one, outside brackets and strings. -/
inductive IsCut : Point → List (List Char) → Prop
  | nil {s : Point} : IsCut s []
  | last {s s' : Point} {p : List Char} (hp : s.through? p = some s') : IsCut s [p]
  | cons {s : Point} {p : List Char} {ps : List (List Char)} (hp : s.through? p = some .start)
      (hps : IsCut .start ps) : IsCut s (p :: ps)

theorem IsCut.exists_through? {s : Point} {p : List Char} {ps : List (List Char)}
    (hps : IsCut s (p :: ps)) : ∃ s', s.through? p = some s' := by
  cases hps with
  | last hp => exact ⟨_, hp⟩
  | cons hp hps => exact ⟨_, hp⟩

theorem IsCut.consHead {s s' : Point} {c : Char} {ps : List (List Char)} (hps : IsCut s' ps)
    (hc : s.after? c = some s') : IsCut s (consHead c ps) := by
  have hlonger : ∀ p, s.through? (c :: p) = s'.through? p := by
    intro p
    rw [Point.through?_cons, hc]
    rfl
  cases hps with
  | nil => exact .last (hlonger [])
  | last hp => exact .last ((hlonger _).trans hp)
  | cons hp hps => exact .cons ((hlonger _).trans hp) hps

theorem isCut_pieces (s : Point) (t : List Char) : IsCut s (s.pieces t) := by
  induction t generalizing s with
  | nil => exact .last rfl
  | cons c t ih =>
    cases hc : s.after? c with
    | none =>
      obtain ⟨hs, hcomma⟩ := Point.eq_of_after?_eq_none hc
      rw [hs, hcomma]
      exact .cons rfl (ih .start)
    | some s' =>
      rw [Point.pieces_cons_of_some hc]
      exact (ih s').consHead hc

/-- A point from which nothing is escaped is the only one that rests at it, outside strings. -/
theorem Point.eq_start_of_rested {s : Point} (h : s.rested = start) : s = start := by
  obtain ⟨mode, depth⟩ := s
  cases mode with
  | plain => exact h
  | quoted q => cases h
  | escaped q => cases h

/-- Collapsing the white space of the pieces and dropping those without text leaves such pieces. -/
theorem IsCut.collapsed {ps : List (List Char)} (hps : IsCut .start ps) :
    IsCut .start ((ps.map collapse).filter (· ≠ [])) := by
  induction ps with
  | nil => exact .nil
  | cons p ps ih =>
    have hcollapse : ∀ {s'}, Point.start.through? p = some s' →
        ∃ s₁, Point.start.through? (collapse p) = some s₁ ∧ s₁.rested = s'.rested :=
      Point.through?_collapse Point.isMarked_start rfl
    rw [List.map_cons, List.filter_cons]
    cases hps with
    | last hp =>
      obtain ⟨s₁, hs₁, -⟩ := hcollapse hp
      split
      · exact .last hs₁
      · exact .nil
    | cons hp hps =>
      obtain ⟨s₁, hs₁, hrested⟩ := hcollapse hp
      have hstart : s₁ = .start := Point.eq_start_of_rested hrested
      rw [hstart] at hs₁
      split
      · exact .cons hs₁ (ih hps)
      · exact ih hps

/-! ## Joining and splitting -/

variable {joint : String} {w : List Char}

/-- Splitting takes joined pieces apart, up to white space before them. -/
theorem pieces_joined (hjoint : joint.toList = ',' :: w) (hw : ∀ c ∈ w, isBlank c = true)
    {ps : List (List Char)} (hps : IsCut .start ps) (hne : ps ≠ []) {lead : List Char}
    (hlead : ∀ c ∈ lead, isBlank c = true) :
    (Point.start.pieces (lead ++ joint.toList.intercalate ps)).map collapse = ps.map collapse := by
  induction ps generalizing lead with
  | nil => exact absurd rfl hne
  | cons p ps ih =>
    obtain ⟨s', hp⟩ := hps.exists_through?
    have hpiece : ∀ u, Point.start.pieces (lead ++ (p ++ u)) =
        (s'.pieces u).modifyHead (lead ++ p ++ ·) := by
      intro u
      rw [← List.append_assoc]
      apply Point.pieces_append
      rw [Point.through?_append, Point.through?_blank Point.isMarked_start rfl hlead]
      exact hp
    cases ps with
    | nil =>
      have honly := hpiece []
      rw [List.append_nil] at honly
      rw [List.intercalate_singleton, honly]
      show [collapse (lead ++ p ++ [])] = [collapse p]
      rw [List.append_nil, Text.collapse_blanks_append hlead]
    | cons p' ps =>
      cases hps with
      | cons hclosed hps =>
        obtain rfl : s' = .start := Option.some.inj (hp.symm.trans hclosed)
        have hcomma : ∀ t, Point.start.pieces (',' :: t) = [] :: Point.start.pieces t :=
          fun _ => rfl
        have hrest := ih hps (List.cons_ne_nil _ _) hw
        rw [List.intercalate_cons_cons, List.append_assoc, hpiece, hjoint, List.cons_append,
          hcomma, List.modifyHead_cons, List.append_nil, List.map_cons, ← hjoint, hrest,
          Text.collapse_blanks_append hlead]
        rfl

/-- The entries of a list, as characters. -/
def entryChars (text : List Char) : List (List Char) :=
  ((pieces .plain 0 text).map collapse).filter (· ≠ [])

theorem split_eq_map_entryChars (text : List Char) :
    split text = (entryChars text).map String.ofList := rfl

theorem isCut_entryChars (text : List Char) : IsCut .start (entryChars text) :=
  (isCut_pieces .start text).collapsed

/-- Collapsing changes nothing about the entries, and none is empty. -/
theorem entryChars_collapsed (text : List Char) :
    ((entryChars text).map collapse).filter (· ≠ []) = entryChars text := by
  have hself : ∀ p ∈ entryChars text, collapse p = p := by
    intro p hp
    obtain ⟨q, -, hq⟩ := List.mem_map.1 (List.mem_filter.1 hp).1
    rw [← hq, Text.collapse_collapse]
  rw [(List.map_congr_left hself).trans (List.map_id _)]
  exact List.filter_eq_self.2 fun p hp => (List.mem_filter.1 hp).2

/-- Splitting gives the entries of a list again that were split and joined. -/
theorem split_rejoined (hjoint : joint.toList = ',' :: w) (hw : ∀ c ∈ w, isBlank c = true)
    (text : List Char) : split (joint.intercalate (split text)).toList = split text := by
  have hchars : ((entryChars text).map String.ofList).map String.toList = entryChars text := by
    rw [List.map_map]
    exact (List.map_congr_left fun p _ => String.toList_ofList).trans (List.map_id _)
  rw [split_eq_map_entryChars text, String.toList_intercalate, hchars]
  by_cases hnil : entryChars text = []
  · rw [hnil]
    rfl
  · have hpieces : (pieces .plain 0 (joint.toList.intercalate (entryChars text))).map collapse =
        (entryChars text).map collapse :=
      pieces_joined hjoint hw (isCut_entryChars text) hnil (List.forall_mem_nil _)
    rw [split, hpieces, entryChars_collapsed]

end SelectorText

end CriticalCss
