import CriticalCss.Probe.Pattern
import Mathlib.Data.List.Basic

/-!
# What patterns accept

A pattern is a row of literal texts with a gap at each percent sign.  It accepts the texts that come
from filling the gaps.

* `SelectorPattern.Fits` is the trace of a match: which characters of a text are literal, and which
  stretches fill the gaps.
* `glob_iff_fits` says that the search, which tries the shortest filling of a gap first, finds a
  trace when there is one.  `accepts_iff_fits` adds that a pattern fits itself.
* `fits_iff_filled` reads the fillings off a trace, and `accepts_iff_filled` is the result.
-/

namespace CriticalCss.SelectorPattern

/-! ## Literal texts and gaps -/

/-- The texts between the percent signs of a pattern. -/
def literals (p : SelectorPattern) : List (List Char) :=
  p.source.toList.splitOn '%'

/-- The first literal text, and each other one after the filling of the gap before it. -/
def filled : (literals fillings : List (List Char)) → List Char
  | [], _ => []
  | first :: others, fillings => first ++ (List.zipWith (· ++ ·) fillings others).flatten

/-- A text fits the characters of a pattern: literal characters stand for themselves, and each percent
sign takes characters of a line until its gap is closed. -/
inductive Fits : List Char → List Char → Prop where
  | nil : Fits [] []
  | literal {c : Char} {ps cs : List Char} (hc : c ≠ '%') (rest : Fits ps cs) :
    Fits (c :: ps) (c :: cs)
  | close {ps cs : List Char} (rest : Fits ps cs) : Fits ('%' :: ps) cs
  | take {c : Char} {ps cs : List Char} (hc : c ≠ '\n') (rest : Fits ('%' :: ps) cs) :
    Fits ('%' :: ps) (c :: cs)

namespace Fits

variable {ps cs : List Char} {c : Char}

theorem nil_iff : Fits [] cs ↔ cs = [] := by
  constructor
  · intro h
    cases h
    rfl
  · intro h
    rw [h]
    exact .nil

theorem literal_iff {p : Char} (hp : p ≠ '%') : Fits (p :: ps) (c :: cs) ↔ p = c ∧ Fits ps cs := by
  constructor
  · intro h
    cases h with
    | literal hc rest => exact ⟨rfl, rest⟩
    | close => exact absurd rfl hp
    | take => exact absurd rfl hp
  · intro h
    obtain ⟨rfl, hrest⟩ := h
    exact .literal hp hrest

/-- A literal character needs one in the text. -/
theorem not_literal_nil {p : Char} (hp : p ≠ '%') : ¬ Fits (p :: ps) [] := by
  intro h
  cases h with
  | close => exact hp rfl

/-- A gap is closed at once, or it takes a character. -/
theorem gap_cons_iff :
    Fits ('%' :: ps) (c :: cs) ↔ Fits ps (c :: cs) ∨ c ≠ '\n' ∧ Fits ('%' :: ps) cs := by
  constructor
  · intro h
    cases h with
    | literal hc => exact absurd rfl hc
    | close rest => exact .inl rest
    | take hc rest => exact .inr ⟨hc, rest⟩
  · intro h
    rcases h with h | ⟨hc, h⟩
    · exact .close h
    · exact .take hc h

theorem gap_nil_iff : Fits ('%' :: ps) [] ↔ Fits ps [] := by
  constructor
  · intro h
    cases h with
    | close rest => exact rest
  · exact .close

/-- A gap takes a stretch within a line. -/
theorem gap_iff : Fits ('%' :: ps) cs ↔
    ∃ filling rest, '\n' ∉ filling ∧ cs = filling ++ rest ∧ Fits ps rest := by
  constructor
  · intro h
    generalize hpattern : '%' :: ps = pattern at h
    induction h with
    | nil => cases hpattern
    | literal hc => exact absurd (List.cons.inj hpattern).1.symm hc
    | @close _ cs rest =>
      cases hpattern
      exact ⟨[], cs, List.not_mem_nil, rfl, rest⟩
    | @take c _ cs hc _ ih =>
      obtain ⟨filling, rest, hline, rfl, hrest⟩ := ih hpattern
      refine ⟨c :: filling, rest, ?_, rfl, hrest⟩
      rw [List.mem_cons, not_or]
      exact ⟨Ne.symm hc, hline⟩
  · intro h
    obtain ⟨filling, rest, hline, rfl, hrest⟩ := h
    induction filling with
    | nil => exact .close hrest
    | cons c filling ih =>
      rw [List.mem_cons, not_or] at hline
      exact .take (Ne.symm hline.1) (ih hline.2)

/-- Two gaps side by side are one. -/
theorem gap_gap_iff : Fits ('%' :: '%' :: ps) cs ↔ Fits ('%' :: ps) cs := by
  constructor
  · intro h
    obtain ⟨filling, more, hline, rfl, hmore⟩ := gap_iff.1 h
    obtain ⟨filling', rest, hline', rfl, hrest⟩ := gap_iff.1 hmore
    refine gap_iff.2 ⟨filling ++ filling', rest, ?_, (List.append_assoc _ _ _).symm, hrest⟩
    rw [List.mem_append, not_or]
    exact ⟨hline, hline'⟩
  · exact .close

/-- A pattern fits itself: a percent sign is a filling of its gap. -/
theorem self (ps : List Char) : Fits ps ps := by
  induction ps with
  | nil => exact .nil
  | cons p ps ih =>
    by_cases hp : p = '%'
    · rw [hp]
      exact .take (by decide) (.close ih)
    · exact .literal hp ih

end Fits

/-! ## The search -/

/-- Induction along the search. -/
@[elab_as_elim]
theorem glob_induction {motive : List Char → List Char → Prop} (nil : ∀ cs, motive [] cs)
    (gaps : ∀ ps cs, motive ('%' :: ps) cs → motive ('%' :: '%' :: ps) cs)
    (gapEnd : ∀ ps, ps.head? ≠ some '%' → motive ps [] → motive ('%' :: ps) [])
    (gap : ∀ ps c cs, ps.head? ≠ some '%' → motive ps (c :: cs) → motive ('%' :: ps) cs →
      motive ('%' :: ps) (c :: cs))
    (literalEnd : ∀ p ps, p ≠ '%' → motive (p :: ps) [])
    (literal : ∀ p ps c cs, p ≠ '%' → motive ps cs → motive (p :: ps) (c :: cs))
    (ps cs : List Char) : motive ps cs := by
  have hone {ps : List Char} (h : ∀ rest, ps = '%' :: rest → False) : ps.head? ≠ some '%' := by
    intro hhead
    obtain ⟨rest, hps⟩ := List.head?_eq_some_iff.1 hhead
    exact h rest hps
  exact glob.induct motive nil gaps (fun ps h => gapEnd ps (hone h))
    (fun ps c cs h => gap ps c cs (hone h)) (fun p ps _ h => literalEnd p ps h)
    (fun p ps c cs _ h => literal p ps c cs h) ps cs

theorem glob_gapEnd {ps : List Char} (h : ps.head? ≠ some '%') :
    glob ('%' :: ps) [] = glob ps [] := by
  rw [glob]
  rintro rest rfl
  exact h rfl

theorem glob_gap {ps : List Char} (h : ps.head? ≠ some '%') (c : Char) (cs : List Char) :
    glob ('%' :: ps) (c :: cs) = (glob ps (c :: cs) || (c ≠ '\n' && glob ('%' :: ps) cs)) := by
  rw [glob]
  rintro rest rfl
  exact h rfl

theorem glob_literalEnd {p : Char} (h : p ≠ '%') (ps : List Char) : glob (p :: ps) [] = false := by
  rw [glob]
  · exact fun _ hp _ => h hp
  · exact h

theorem glob_literal {p : Char} (h : p ≠ '%') (ps : List Char) (c : Char) (cs : List Char) :
    glob (p :: ps) (c :: cs) = (p = c && glob ps cs) := by
  rw [glob]
  · exact fun _ hp _ => h hp
  · exact h

/-- The search finds whether a text fits. -/
theorem glob_iff_fits (ps cs : List Char) : glob ps cs = true ↔ Fits ps cs := by
  induction ps, cs using glob_induction with
  | nil cs => rw [glob, List.isEmpty_iff, Fits.nil_iff]
  | gaps ps cs ih => rw [glob, ih, Fits.gap_gap_iff]
  | gapEnd ps hone ih => rw [glob_gapEnd hone, ih, Fits.gap_nil_iff]
  | gap ps c cs hone ih ih' =>
    rw [glob_gap hone, Bool.or_eq_true, Bool.and_eq_true, decide_eq_true_eq, ih, ih',
      Fits.gap_cons_iff]
  | literalEnd p ps hp => simp [glob_literalEnd hp, Fits.not_literal_nil hp]
  | literal p ps c cs hp ih =>
    rw [glob_literal hp, Bool.and_eq_true, decide_eq_true_eq, ih, Fits.literal_iff hp]

/-- Being equal to the pattern is one way to fit it. -/
theorem accepts_iff_fits (p : SelectorPattern) (s : String) :
    p.accepts s = true ↔ Fits p.source.toList s.toList := by
  rw [accepts, Bool.or_eq_true, decide_eq_true_eq, glob_iff_fits, or_iff_right_iff_imp]
  intro h
  rw [h]
  exact .self _

/-! ## Fillings -/

/-- A literal character belongs to the first literal text. -/
theorem filled_modifyHead (c : Char) {ls : List (List Char)} (hls : ls ≠ [])
    (fillings : List (List Char)) :
    filled (ls.modifyHead (List.cons c)) fillings = c :: filled ls fillings := by
  cases ls with
  | nil => exact absurd rfl hls
  | cons first others => rfl

/-- A gap at the beginning stands before all literal texts. -/
theorem filled_gap (filling : List Char) {ls : List (List Char)} (hls : ls ≠ [])
    (fillings : List (List Char)) :
    filled ([] :: ls) (filling :: fillings) = filling ++ filled ls fillings := by
  cases ls with
  | nil => exact absurd rfl hls
  | cons first others => simp [filled]

/-- A text fits a pattern when it comes from filling every gap with a stretch within a line. -/
theorem fits_iff_filled (ps cs : List Char) :
    Fits ps cs ↔ ∃ fillings, fillings.length + 1 = (ps.splitOn '%').length ∧
      (∀ filling ∈ fillings, '\n' ∉ filling) ∧ cs = filled (ps.splitOn '%') fillings := by
  induction ps generalizing cs with
  | nil =>
    rw [Fits.nil_iff]
    constructor
    · intro h
      exact ⟨[], rfl, List.forall_mem_nil _, h⟩
    · intro h
      obtain ⟨fillings, hlength, -, rfl⟩ := h
      obtain rfl : fillings = [] := List.eq_nil_of_length_eq_zero (Nat.succ.inj hlength)
      rfl
  | cons p ps ih =>
    have hne : ps.splitOn '%' ≠ [] := List.splitOnP_ne_nil _ _
    by_cases hp : p = '%'
    · subst hp
      have hsplit : ('%' :: ps).splitOn '%' = [] :: ps.splitOn '%' :=
        List.splitOnP_cons_eq_if_modifyHead _ _
      rw [hsplit, Fits.gap_iff]
      constructor
      · intro h
        obtain ⟨filling, rest, hline, rfl, hrest⟩ := h
        obtain ⟨fillings, hlength, hlines, rfl⟩ := (ih _).1 hrest
        refine ⟨filling :: fillings, ?_, List.forall_mem_cons.2 ⟨hline, hlines⟩, ?_⟩
        · rw [List.length_cons, List.length_cons, hlength]
        · rw [filled_gap filling hne]
      · intro h
        obtain ⟨fillings, hlength, hlines, rfl⟩ := h
        cases fillings with
        | nil => exact absurd (List.eq_nil_of_length_eq_zero (Nat.succ.inj hlength).symm) hne
        | cons filling fillings =>
          obtain ⟨hline, hlines⟩ := List.forall_mem_cons.1 hlines
          refine ⟨filling, _, hline, filled_gap filling hne fillings, (ih _).2 ?_⟩
          exact ⟨fillings, Nat.succ.inj hlength, hlines, rfl⟩
    · have hsplit : (p :: ps).splitOn '%' = (ps.splitOn '%').modifyHead (List.cons p) := by
        rw [List.splitOn, List.splitOnP_cons_eq_if_modifyHead, if_neg (by simpa using hp)]
        rfl
      rw [hsplit, List.length_modifyHead]
      constructor
      · intro h
        cases h with
        | literal hc rest =>
          obtain ⟨fillings, hlength, hlines, rfl⟩ := (ih _).1 rest
          exact ⟨fillings, hlength, hlines, (filled_modifyHead p hne fillings).symm⟩
        | close => exact absurd rfl hp
        | take => exact absurd rfl hp
      · intro h
        obtain ⟨fillings, hlength, hlines, rfl⟩ := h
        rw [filled_modifyHead p hne]
        exact .literal hp ((ih _).2 ⟨fillings, hlength, hlines, rfl⟩)

/-- The fillings are part of the text. -/
theorem subset_filled {ls fillings : List (List Char)} (hlength : fillings.length + 1 = ls.length)
    {filling : List Char} (hfilling : filling ∈ fillings) : filling ⊆ filled ls fillings := by
  induction fillings generalizing ls with
  | nil => cases hfilling
  | cons next fillings ih =>
    cases ls with
    | nil => cases hlength
    | cons first others =>
      cases others with
      | nil => cases hlength
      | cons second others =>
        have htext : filled (first :: second :: others) (next :: fillings) =
            first ++ (next ++ filled (second :: others) fillings) := by simp [filled]
        rw [htext]
        intro c hc
        rw [List.mem_append, List.mem_append]
        rcases List.mem_cons.1 hfilling with rfl | hfilling
        · exact .inr (.inl hc)
        · exact .inr (.inr (ih (Nat.succ.inj hlength) hfilling hc))

/-- A pattern accepts a selector on one line when the selector consists of the literal texts of the
pattern in their order, with any text in place of each percent sign. -/
theorem accepts_iff_filled (p : SelectorPattern) {s : String} (hline : '\n' ∉ s.toList) :
    p.accepts s = true ↔ ∃ fillings, fillings.length + 1 = p.literals.length ∧
      s.toList = filled p.literals fillings := by
  rw [accepts_iff_fits, fits_iff_filled]
  constructor
  · intro h
    obtain ⟨fillings, hlength, -, htext⟩ := h
    exact ⟨fillings, hlength, htext⟩
  · intro h
    obtain ⟨fillings, hlength, htext⟩ := h
    refine ⟨fillings, hlength, fun filling hfilling hmem => hline ?_, htext⟩
    rw [htext]
    exact subset_filled hlength hfilling hmem

/-- The dot and the bracket of the pattern are literal, the first `-` is not the one that counts, and
two percent signs side by side have empty fillings. -/
theorem accepts_iff_filled_buttons :
    '\n' ∉ ".btn-x-y[a]".toList ∧
      (⟨".btn%-y%%]"⟩ : SelectorPattern).literals = [".btn".toList, "-y".toList, [], "]".toList] ∧
      (⟨".btn%-y%%]"⟩ : SelectorPattern).accepts ".btn-x-y[a]" = true ∧
      (⟨".btn%-y%%]"⟩ : SelectorPattern).accepts "xbtn-y]" = false := by
  have hline : '\n' ∉ ".btn-x-y[a]".toList := by decide
  have hliterals : (⟨".btn%-y%%]"⟩ : SelectorPattern).literals =
      [".btn".toList, "-y".toList, [], "]".toList] := by decide
  refine ⟨hline, hliterals, ?_, ?_⟩
  · refine (accepts_iff_filled _ hline).2 ⟨["-x".toList, "[a".toList, []], ?_, ?_⟩
    · rw [hliterals]
      rfl
    · rw [hliterals]
      decide
  · rw [Bool.eq_false_iff, ne_eq, accepts_iff_filled _ (by decide)]
    intro h
    obtain ⟨fillings, hlength, htext⟩ := h
    rw [hliterals] at htext
    cases htext

end CriticalCss.SelectorPattern
