import CriticalCss.Probe.Basic
import CriticalCss.Proofs.Selector.Colons
import CriticalCss.Proofs.Selector.Spacing
import CriticalCss.Proofs.Token.Lexemes
import Mathlib.Data.List.Infix

/-!
# Queries for selectors

Before a selector is looked up, the names of pseudo-elements, of `:visited` and of what begins with a
dash are left out of its text, each with the colons before it.  The text is searched for them without
regard to tokens.

* `strip_eq_iff`: the pieces that are left out, told without the search.
* `dropsAt_colon`: at a colon token nothing is left out when another pseudo-class follows.
* `strip_eq_trim`: nothing is left out of a selector without such names, unless one of them is hidden
  in another token, such as a class name with an escaped colon.
* `triage_query`: the query of such a selector is read as the selector itself is.
-/

namespace CriticalCss

namespace Probe

open Token (lexemes scan takeName isNameChar)

/-! ## What is left out -/

section LeavingOut

variable {f : List Char → Option (List Char)} {c : Char} {cs : List Char}

theorem dropPseudo?_of_ne (hc : c ≠ ':') (cs : List Char) : dropPseudo? f (c :: cs) = none := by
  unfold dropPseudo?
  split
  · next heq => exact absurd (List.cons.inj heq).1 hc
  · next heq => exact absurd (List.cons.inj heq).1 hc
  · rfl

theorem dropPseudo?_colon (h : cs.head? ≠ some ':') : dropPseudo? f (':' :: cs) = f cs := by
  cases cs with
  | nil => rfl
  | cons c cs =>
    unfold dropPseudo?
    split
    · next heq =>
      rw [(List.cons.inj (List.cons.inj heq).2).1] at h
      exact absurd rfl h
    · next heq => rw [(List.cons.inj heq).2]
    · next hcolon => exact absurd rfl (hcolon (c :: cs))

/-- One or two colons and something that is dropped after them. -/
theorem dropPseudo?_eq_some_iff {after : List Char} (hf : ∀ cs, f (':' :: cs) = none) :
    dropPseudo? f cs = some after ↔
      ∃ rest, (cs = ':' :: rest ∨ cs = ':' :: ':' :: rest) ∧ f rest = some after := by
  constructor
  · intro h
    cases cs with
    | nil => cases h
    | cons c cs =>
      by_cases hc : c = ':'
      · subst hc
        by_cases hnext : cs.head? = some ':'
        · obtain ⟨rest, rfl⟩ := List.head?_eq_some_iff.1 hnext
          exact ⟨rest, .inr rfl, h⟩
        · rw [dropPseudo?_colon hnext] at h
          exact ⟨cs, .inl rfl, h⟩
      · rw [dropPseudo?_of_ne hc] at h
        cases h
  · rintro ⟨rest, rfl | rfl, h⟩
    · have hnext : rest.head? ≠ some ':' := by
        intro hhead
        obtain ⟨more, rfl⟩ := List.head?_eq_some_iff.1 hhead
        rw [hf] at h
        cases h
      rw [dropPseudo?_colon hnext, h]
    · exact h

end LeavingOut

/-- One or two colons and one of the names that are left out. -/
def IsNamedPseudo (piece : List Char) : Prop :=
  ∃ n ∈ unqueryableNames, piece = ':' :: n ∨ piece = ':' :: ':' :: n

/-- The characters of the names that begin with a dash. -/
def isVendorChar (c : Char) : Bool :=
  c.isLower || c = '-'

/-- One or two colons and a dash with all the small letters and dashes after it. -/
def IsVendorPseudo (piece after : List Char) : Prop :=
  ∃ run : List Char, (piece = ':' :: '-' :: run ∨ piece = ':' :: ':' :: '-' :: run) ∧
    (∀ c ∈ run, isVendorChar c = true) ∧ ∀ c ∈ after.head?, isVendorChar c = false

/-- Pieces of a kind, which may depend on what comes after them, are left out of a text: from the left on,
where one begins it is left out, and any other character stays. -/
inductive LeavesOut (pseudo : List Char → List Char → Prop) : List Char → List Char → Prop where
  | nil : LeavesOut pseudo [] []
  | drop {piece after left : List Char} (leaves : pseudo piece after)
    (rest : LeavesOut pseudo after left) : LeavesOut pseudo (piece ++ after) left
  | keep {c : Char} {cs left : List Char}
    (stays : ∀ piece after, c :: cs = piece ++ after → ¬pseudo piece after)
    (rest : LeavesOut pseudo cs left) : LeavesOut pseudo (c :: cs) (c :: left)

/-- A function drops the pieces of a kind, none of which is empty. -/
structure Drops (f : List Char → Option (List Char)) (pseudo : List Char → List Char → Prop) : Prop where
  eq_some_iff : ∀ cs after,
    dropPseudo? f cs = some after ↔ ∃ piece, cs = piece ++ after ∧ pseudo piece after
  ne_nil : ∀ after, ¬pseudo [] after

theorem dropName?_eq_some_iff {cs after : List Char} :
    dropName? cs = some after ↔ ∃ n ∈ unqueryableNames, cs = n ++ after := by
  rw [dropName?, Option.map_eq_some_iff]
  constructor
  · rintro ⟨n, hfind, rfl⟩
    have hprefix : n <+: cs := List.isPrefixOf_iff_prefix.1
      (List.find?_some (p := fun n : List Char => n.isPrefixOf cs) hfind)
    exact ⟨n, List.mem_of_find?_eq_some hfind, (List.prefix_iff_eq_append.1 hprefix).symm⟩
  · rintro ⟨n, hn, rfl⟩
    cases hfind : unqueryableNames.find? (·.isPrefixOf (n ++ after)) with
    | none =>
      have hnone := List.find?_eq_none.1 hfind n hn
      exact absurd (List.isPrefixOf_iff_prefix.2 (List.prefix_append n after)) hnone
    | some m =>
      -- of two names neither begins with the other
      have hall : ∀ m ∈ unqueryableNames, ∀ n ∈ unqueryableNames, m <+: n → m = n := by decide
      have hm : m <+: n ++ after := List.isPrefixOf_iff_prefix.1
        (List.find?_some (p := fun m : List Char => m.isPrefixOf (n ++ after)) hfind)
      have hmem := List.mem_of_find?_eq_some hfind
      have hsame : m = n := by
        rcases List.prefix_or_prefix_of_prefix hm (List.prefix_append n after) with h | h
        · exact hall m hmem n hn h
        · exact (hall n hn m hmem h).symm
      refine ⟨m, rfl, ?_⟩
      rw [hsame, List.drop_left]

theorem drops_named : Drops dropName? fun piece _ => IsNamedPseudo piece where
  eq_some_iff cs after := by
    have hcolon : ∀ cs, dropName? (':' :: cs) = none := by
      intro cs
      have hall : ∀ n ∈ unqueryableNames, n.head? ≠ some ':' ∧ n ≠ [] := by decide
      rw [dropName?, Option.map_eq_none_iff, List.find?_eq_none]
      intro n hn hprefix
      obtain ⟨hhead, hne⟩ := hall n hn
      obtain ⟨d, ds, rfl⟩ := List.exists_cons_of_ne_nil hne
      exact hhead (congrArg some (List.cons_prefix_cons.1 (List.isPrefixOf_iff_prefix.1 hprefix)).1)
    rw [dropPseudo?_eq_some_iff hcolon]
    constructor
    · rintro ⟨rest, hcs, hname⟩
      obtain ⟨n, hn, rfl⟩ := dropName?_eq_some_iff.1 hname
      rcases hcs with rfl | rfl
      · exact ⟨':' :: n, rfl, n, hn, .inl rfl⟩
      · exact ⟨':' :: ':' :: n, rfl, n, hn, .inr rfl⟩
    · rintro ⟨piece, rfl, n, hn, rfl | rfl⟩
      · exact ⟨n ++ after, .inl rfl, dropName?_eq_some_iff.2 ⟨n, hn, rfl⟩⟩
      · exact ⟨n ++ after, .inr rfl, dropName?_eq_some_iff.2 ⟨n, hn, rfl⟩⟩
  ne_nil _ := by
    rintro ⟨n, -, h | h⟩ <;> cases h

theorem dropVendorName?_eq_some_iff {cs after : List Char} :
    dropVendorName? cs = some after ↔
      ∃ run : List Char, cs = '-' :: run ++ after ∧ (∀ c ∈ run, isVendorChar c = true) ∧
        ∀ c ∈ after.head?, isVendorChar c = false := by
  have hdash : ∀ cs, dropVendorName? ('-' :: cs) = some (cs.dropWhile isVendorChar) := fun _ => rfl
  constructor
  · intro h
    obtain ⟨rest, rfl⟩ : ∃ rest, cs = '-' :: rest := by
      unfold dropVendorName? at h
      split at h
      · exact ⟨_, rfl⟩
      · cases h
    rw [hdash, Option.some.injEq] at h
    subst h
    refine ⟨rest.takeWhile isVendorChar, ?_, fun c hc => List.mem_takeWhile_imp hc, ?_⟩
    · exact congrArg ('-' :: ·) List.takeWhile_append_dropWhile.symm
    · intro c hc
      have hhead := List.head?_dropWhile_not isVendorChar rest
      rw [Option.mem_def.1 hc] at hhead
      exact hhead
  · rintro ⟨run, rfl, hrun, hafter⟩
    rw [List.cons_append, hdash, List.dropWhile_append_of_pos hrun]
    cases after with
    | nil => rfl
    | cons c after =>
      rw [List.dropWhile_cons_of_neg (by rw [hafter c rfl]; exact Bool.false_ne_true)]

theorem drops_vendor : Drops dropVendorName? IsVendorPseudo where
  eq_some_iff cs after := by
    rw [dropPseudo?_eq_some_iff fun _ => rfl]
    constructor
    · rintro ⟨rest, hcs, hname⟩
      obtain ⟨run, rfl, hrun, hafter⟩ := dropVendorName?_eq_some_iff.1 hname
      rcases hcs with rfl | rfl
      · exact ⟨':' :: '-' :: run, rfl, run, .inl rfl, hrun, hafter⟩
      · exact ⟨':' :: ':' :: '-' :: run, rfl, run, .inr rfl, hrun, hafter⟩
    · rintro ⟨piece, rfl, run, rfl | rfl, hrun, hafter⟩
      · exact ⟨_, .inl rfl, dropVendorName?_eq_some_iff.2 ⟨run, rfl, hrun, hafter⟩⟩
      · exact ⟨_, .inr rfl, dropVendorName?_eq_some_iff.2 ⟨run, rfl, hrun, hafter⟩⟩
  ne_nil _ := by
    rintro ⟨run, h | h, -⟩ <;> cases h

section Reading

variable {f : List Char → Option (List Char)} {pseudo : List Char → List Char → Prop}
  {cs left : List Char}

/-- What is dropped leaves less. -/
theorem Drops.length_lt (h : Drops f pseudo) {after : List Char}
    (hdrop : dropPseudo? f cs = some after) : after.length < cs.length := by
  obtain ⟨piece, rfl, hpiece⟩ := (h.eq_some_iff _ _).1 hdrop
  have hne : piece ≠ [] := by
    rintro rfl
    exact h.ne_nil _ hpiece
  have := List.length_pos_iff.2 hne
  rw [List.length_append]
  omega

theorem Drops.eq_none_iff (h : Drops f pseudo) (cs : List Char) :
    dropPseudo? f cs = none ↔ ∀ piece after, cs = piece ++ after → ¬pseudo piece after := by
  rw [Option.eq_none_iff_forall_ne_some]
  constructor
  · intro hnone piece after hcs hpiece
    exact hnone after ((h.eq_some_iff cs after).2 ⟨piece, hcs, hpiece⟩)
  · intro hnone after hdrop
    obtain ⟨piece, hcs, hpiece⟩ := (h.eq_some_iff cs after).1 hdrop
    exact hnone piece after hcs hpiece

/-- With enough steps all pieces of the kind are left out. -/
theorem leavesOut_withoutPseudoWithin (h : Drops f pseudo) {n : Nat} (hn : cs.length ≤ n) :
    LeavesOut pseudo cs (withoutPseudoWithin f n cs) := by
  induction n generalizing cs with
  | zero =>
    rw [List.length_eq_zero_iff.1 (Nat.le_zero.1 hn)]
    exact .nil
  | succ n ih =>
    cases cs with
    | nil => exact .nil
    | cons c cs =>
      rw [withoutPseudoWithin]
      cases hdrop : dropPseudo? f (c :: cs) with
      | none => exact .keep ((h.eq_none_iff _).1 hdrop) (ih (Nat.le_of_succ_le_succ hn))
      | some after =>
        have hlt := h.length_lt hdrop
        obtain ⟨piece, hcs, hpiece⟩ := (h.eq_some_iff _ _).1 hdrop
        rw [hcs]
        exact .drop hpiece (ih (by omega))

/-- There is only one way to leave them out. -/
theorem LeavesOut.withoutPseudoWithin_eq (h : Drops f pseudo) (hleaves : LeavesOut pseudo cs left)
    {n : Nat} (hn : cs.length ≤ n) : withoutPseudoWithin f n cs = left := by
  induction hleaves generalizing n with
  | nil => cases n <;> rfl
  | @drop piece after left hpiece rest ih =>
    have hdrop := (h.eq_some_iff (piece ++ after) after).2 ⟨piece, rfl, hpiece⟩
    have hlt := h.length_lt hdrop
    cases hcs : piece ++ after with
    | nil =>
      rw [hcs] at hlt
      exact absurd hlt (Nat.not_lt_zero _)
    | cons c cs =>
      rw [hcs] at hdrop hlt hn
      cases n with
      | zero => cases hn
      | succ n =>
        rw [withoutPseudoWithin, hdrop]
        exact ih (by omega)
  | @keep c cs left stays rest ih =>
    cases n with
    | zero => cases hn
    | succ n =>
      rw [withoutPseudoWithin, (h.eq_none_iff _).2 stays]
      exact congrArg (c :: ·) (ih (Nat.le_of_succ_le_succ hn))

theorem withoutPseudo_eq_iff (h : Drops f pseudo) :
    withoutPseudo f cs = left ↔ LeavesOut pseudo cs left := by
  constructor
  · rintro rfl
    exact leavesOut_withoutPseudoWithin h (Nat.le_refl _)
  · exact fun hleaves => hleaves.withoutPseudoWithin_eq h (Nat.le_refl _)

/-- Where no piece begins everything stays. -/
theorem LeavesOut.append {rest : List Char} (h : Drops f pseudo)
    (hnone : ∀ v, v ≠ [] → v <:+ cs → dropPseudo? f (v ++ rest) = none)
    (hrest : LeavesOut pseudo rest left) : LeavesOut pseudo (cs ++ rest) (cs ++ left) := by
  induction cs with
  | nil => exact hrest
  | cons c cs ih =>
    refine .keep ((h.eq_none_iff _).1 (hnone _ (List.cons_ne_nil c cs) List.suffix_rfl)) ?_
    exact ih fun v hne hv => hnone v hne (hv.trans (List.suffix_cons c cs))

theorem LeavesOut.self (h : Drops f pseudo)
    (hnone : ∀ v, v ≠ [] → v <:+ cs → dropPseudo? f v = none) : LeavesOut pseudo cs cs := by
  have hall : ∀ v, v ≠ [] → v <:+ cs → dropPseudo? f (v ++ []) = none := by
    simpa only [List.append_nil] using hnone
  have hself := LeavesOut.append h hall .nil
  rwa [List.append_nil] at hself

end Reading

/-! ## Names that stay -/

/-- The names of the pseudo-classes of elements, in lower case. -/
def queryNames : List String :=
  "any-link" :: (Condition.names.filter (·.1 ≠ .visited)).map (·.2) ++
    Counting.names.map (·.2) ++ ["not", "is", "where"]

/-- The beginnings of the names that are left out. -/
def droppedPrefixes : List (List Char) :=
  ['-'] :: unqueryableNames

theorem lower_mem_queryNames_of_ident {n : String} (h : (Token.ident n).IsQueryName) :
    Text.lower n ∈ queryNames := by
  obtain ⟨c, hc, hvisited⟩ := h
  unfold Condition.ofName? at hc
  dsimp only at hc
  split at hc
  · next hlink =>
    rw [hlink]
    decide
  · obtain ⟨entry, hfind, rfl⟩ := Option.map_eq_some_iff.1 hc
    have hname : entry.2 = Text.lower n := by simpa using List.find?_some hfind
    have hentry : entry ∈ Condition.names.filter (·.1 ≠ .visited) :=
      List.mem_filter.2 ⟨List.mem_of_find?_eq_some hfind, decide_eq_true hvisited⟩
    have hmem : Text.lower n ∈ (Condition.names.filter (·.1 ≠ .visited)).map (·.2) :=
      hname ▸ List.mem_map_of_mem hentry
    simp only [queryNames, List.mem_append, List.mem_cons]
    exact .inl (.inl (.inr hmem))

theorem lower_mem_queryNames_of_function {n : String} (h : (Token.function n).IsQueryName) :
    Text.lower n ∈ queryNames := by
  have hsame : ∀ m, Text.sameLetters n m = true → Text.lower n = Text.lower m := fun m hm =>
    beq_iff_eq.1 hm
  rcases h with ⟨counting, hcounting⟩ | hnot | his | hwhere
  · obtain ⟨entry, hfind, -⟩ := Option.map_eq_some_iff.1 hcounting
    have hname : entry.2 = Text.lower n := by simpa using List.find?_some hfind
    have hmem : Text.lower n ∈ Counting.names.map (·.2) :=
      hname ▸ List.mem_map_of_mem (List.mem_of_find?_eq_some hfind)
    simp only [queryNames, List.mem_append]
    exact .inl (.inr hmem)
  · rw [hsame _ hnot]
    decide
  · rw [hsame _ his]
    decide
  · rw [hsame _ hwhere]
    decide

/-- No name of a pseudo-class of elements begins like one that is left out. -/
theorem not_isPrefixOf_of_mem_queryNames {n : String} (hn : Text.lower n ∈ queryNames)
    {u : List Char} (hu : u ∈ droppedPrefixes) : ¬ u <+: n.toList := by
  intro hprefix
  have hall : ∀ m ∈ queryNames, ∀ u ∈ droppedPrefixes, ¬ u.map Char.toLower <+: m.toList := by
    decide
  refine hall _ hn u hu ?_
  rw [Text.lower, String.toList_ofList]
  exact hprefix.map Char.toLower

/-- Characters of a name at the start of a text are characters of the name that is read there. -/
theorem isPrefix_takeName {u cs : List Char}
    (hu : u.all (fun c => isNameChar c && c.toNat != 0) = true) (h : u <+: cs) :
    u <+: (takeName cs).1 := by
  induction u generalizing cs with
  | nil => exact List.nil_prefix
  | cons c u ih =>
    rw [List.all_cons, Bool.and_eq_true, Bool.and_eq_true, bne_iff_ne] at hu
    obtain ⟨⟨hc, hzero⟩, hu⟩ := hu
    obtain ⟨rest, rfl⟩ := h
    rw [List.cons_append, Token.takeName_cons hc, Token.visible_of_ne hzero]
    exact (List.prefix_cons_inj c).2 (ih hu (List.prefix_append u rest))

/-! ## Where a name is left out -/

/-- A name is left out at the start of a text. -/
def dropsAt (cs : List Char) : Bool :=
  (dropPseudo? dropName? cs).isSome || (dropPseudo? dropVendorName? cs).isSome

/-- A text that begins like none of the names loses nothing after a colon. -/
theorem dropsAt_colon_cons {c : Char} {cs : List Char} (hc : c ≠ ':')
    (h : ∀ u ∈ droppedPrefixes, ¬ u <+: c :: cs) : dropsAt (':' :: c :: cs) = false := by
  have hhead : (c :: cs).head? ≠ some ':' := fun h => hc (Option.some.inj h)
  have hname : dropName? (c :: cs) = none := by
    rw [dropName?, Option.map_eq_none_iff, List.find?_eq_none]
    intro u hu hprefix
    exact h u (List.mem_cons_of_mem _ hu) (List.isPrefixOf_iff_prefix.1 hprefix)
  have hvendor : dropVendorName? (c :: cs) = none := by
    have hdash : c ≠ '-' := by
      rintro rfl
      exact h ['-'] List.mem_cons_self (List.prefix_append ['-'] cs)
    exact Option.eq_none_iff_forall_ne_some.2 fun after hafter => by
      obtain ⟨run, heq, -⟩ := dropVendorName?_eq_some_iff.1 hafter
      exact hdash (List.cons.inj heq).1
  rw [dropsAt, dropPseudo?_colon hhead, dropPseudo?_colon hhead, hname, hvendor]
  rfl

/-- A name of a pseudo-class of elements stays. -/
theorem dropsAt_colon_name {rest : List Char} {n : String} (hn : Text.lower n ∈ queryNames)
    (hname : n.toList = (takeName rest).1) : dropsAt (':' :: rest) = false := by
  have hne : (takeName rest).1 ≠ [] := by
    rw [← hname]
    intro hnil
    rw [String.toList_eq_nil_iff.1 hnil] at hn
    exact absurd hn (by decide)
  cases rest with
  | nil => exact absurd (by rw [takeName]) hne
  | cons c cs =>
    have hc : c ≠ ':' := by
      rintro rfl
      refine hne ?_
      rw [takeName]
      rfl
    refine dropsAt_colon_cons hc fun u hu hprefix => ?_
    have hchars : ∀ u ∈ droppedPrefixes,
        u.all (fun c => isNameChar c && c.toNat != 0) = true := by decide
    have htaken := isPrefix_takeName (hchars u hu) hprefix
    rw [← hname] at htaken
    exact not_isPrefixOf_of_mem_queryNames hn hu htaken

/-- At a colon token nothing is left out before a comment or the name of another pseudo-class. -/
theorem dropsAt_colon {rest rest' : List Char} {t : Token} (hscan : scan rest = some (t, rest'))
    (ht : t.isComment = true ∨ t.IsQueryName) : dropsAt (':' :: rest) = false := by
  have hstands := Token.standsIn_of_scan hscan
  cases t with
  | comment text =>
    obtain ⟨tail, rfl⟩ : ∃ tail, rest = '/' :: tail := by
      cases rest with
      | nil => cases hstands
      | cons c tail =>
        cases hstands
        exact ⟨tail, rfl⟩
    exact dropsAt_colon_cons (by decide) fun u hu hprefix => by
      have hslash : ∀ u ∈ droppedPrefixes, u.head? ≠ some '/' ∧ u ≠ [] := by decide
      obtain ⟨hhead, hne⟩ := hslash u hu
      obtain ⟨c, v, rfl⟩ := List.exists_cons_of_ne_nil hne
      exact hhead (congrArg some (List.cons_prefix_cons.1 hprefix).1)
  | ident n =>
    rcases ht with ht | ht
    · cases ht
    · exact dropsAt_colon_name (lower_mem_queryNames_of_ident ht) hstands
  | function n =>
    rcases ht with ht | ht
    · cases ht
    · exact dropsAt_colon_name (lower_mem_queryNames_of_function ht) hstands
  | _ => rcases ht with ht | ht <;> cases ht

/-- A name that is left out is hidden in a token other than a colon, which stands before a text. -/
def hides (l : Lexeme) (after : List Char) : Bool :=
  l.token != .colon && l.text.tails.any fun v => v != [] && dropsAt (v ++ after)

/-- A name that is left out is hidden in some token. -/
def hidesName : List Lexeme → Bool
  | [] => false
  | l :: ls => hides l (ls.flatMap (·.text)) || hidesName ls

/-- After a colon stands a comment, the name of another pseudo-class, or nothing. -/
def ColonsFollowed : List Token → Prop
  | [] => True
  | t :: ts => (t = .colon → ∀ t' ∈ ts.head?, t'.isComment = true ∨ t'.IsQueryName) ∧
      ColonsFollowed ts

/-- Comments may stand between a colon and its name. -/
theorem colonsFollowed_of_colonsNamed {ts closers : List Token}
    (h : ColonsNamed ((ts.filter fun t => !t.isComment) ++ closers)) : ColonsFollowed ts := by
  induction ts with
  | nil => exact trivial
  | cons t ts ih =>
    cases hcomment : t.isComment with
    | true =>
      rw [List.filter_cons_of_neg (by simp [hcomment])] at h
      refine ⟨?_, ih h⟩
      rintro rfl
      cases hcomment
    | false =>
      rw [List.filter_cons_of_pos (by simp [hcomment])] at h
      refine ⟨fun ht t' ht' => ?_, ih h.2⟩
      cases ts with
      | nil => cases ht'
      | cons u ts =>
        cases ht'
        cases hnext : t'.isComment with
        | true => exact .inl rfl
        | false =>
          obtain ⟨next, after, heq, hname⟩ := h.1 ht
          rw [List.filter_cons_of_pos (by simp [hnext])] at heq
          cases heq
          exact .inr hname

/-- Where no name is hidden, nothing is left out anywhere. -/
theorem dropsAt_eq_false {cs : List Char} (hcolons : ColonsFollowed ((lexemes cs).map (·.token)))
    (hhidden : hidesName (lexemes cs) = false) {v : List Char} (hne : v ≠ []) (hv : v <:+ cs) :
    dropsAt v = false := by
  induction cs using Token.scan_induction with
  | nil => exact absurd (List.suffix_nil.1 hv) hne
  | token cs t rest hscan ih =>
    rw [Token.lexemes_of_scan hscan] at hcolons hhidden
    rw [hidesName, Bool.or_eq_false_iff, Token.flatMap_text_lexemes] at hhidden
    have hrest := Token.scan_suffix hscan
    rcases List.suffix_or_suffix_of_suffix hv hrest with hin | ⟨x, rfl⟩
    · exact ih rest (Nat.le_refl _) hcolons.2 hhidden.2 hin
    by_cases hx : x = []
    · subst hx
      exact ih rest (Nat.le_refl _) hcolons.2 hhidden.2 List.suffix_rfl
    by_cases ht : t = .colon
    · subst ht
      obtain rfl : cs = ':' :: rest := Token.standsIn_of_scan hscan
      have hall : x ++ rest = ':' :: rest := by
        rcases List.suffix_cons_iff.1 hv with heq | hin
        · exact heq
        · have hlength := hin.length_le
          rw [List.length_append] at hlength
          have hpos := List.length_pos_iff.2 hx
          omega
      rw [hall]
      cases hnext : scan rest with
      | none =>
        rw [Token.scan_eq_none_iff.1 hnext]
        rfl
      | some next =>
        refine dropsAt_colon hnext (hcolons.1 rfl next.1 ?_)
        rw [Token.map_token_lexemes, Token.scanAll_of_scan hnext]
        rfl
    · have hsuffix : x <:+ Token.between cs rest := by
        obtain ⟨front, hfront⟩ := hv
        have htext : front ++ x ++ rest = Token.between cs rest ++ rest := by
          rw [Token.between_append_suffix hrest, List.append_assoc, hfront]
        exact ⟨front, List.append_cancel_right htext⟩
      have hnone := hhidden.1
      rw [hides, bne_iff_ne.2 ht, Bool.true_and, List.any_eq_false] at hnone
      simpa [hx] using hnone x ((List.mem_tails _ _).2 hsuffix)

/-! ## Queries -/

/-- What is looked up for a selector: first the named pseudo-elements and `:visited` are left out, and then
what begins with a dash after one or two colons, and then the white space at the ends. -/
theorem strip_eq_iff {s q : String} :
    strip s = q ↔ ∃ cs left, LeavesOut (fun piece _ => IsNamedPseudo piece) s.toList cs ∧
      LeavesOut IsVendorPseudo cs left ∧ String.ofList (Text.trimChars left) = q := by
  constructor
  · intro h
    exact ⟨_, _, (withoutPseudo_eq_iff drops_named).1 rfl, (withoutPseudo_eq_iff drops_vendor).1 rfl, h⟩
  · rintro ⟨cs, left, hnamed, hvendor, rfl⟩
    rw [strip, (withoutPseudo_eq_iff drops_named).2 hnamed, (withoutPseudo_eq_iff drops_vendor).2 hvendor]

/-- A pseudo-element at the end of a selector is left out, whatever stands before it. -/
theorem strip_append {s piece : List Char} (hpiece : IsNamedPseudo piece)
    (hnamed : ∀ v, v ≠ [] → v <:+ s → dropPseudo? dropName? (v ++ piece) = none)
    (hvendor : ∀ v, v ≠ [] → v <:+ s → dropPseudo? dropVendorName? v = none) :
    strip (String.ofList (s ++ piece)) = String.ofList (Text.trimChars s) := by
  have hend : LeavesOut (fun piece _ => IsNamedPseudo piece) piece [] := by
    simpa only [List.append_nil] using LeavesOut.drop hpiece LeavesOut.nil
  refine strip_eq_iff.2 ⟨s, s, ?_, LeavesOut.self drops_vendor hvendor, rfl⟩
  rw [String.toList_ofList]
  simpa only [List.append_nil] using LeavesOut.append drops_named hnamed hend

example : strip "li::before, p:first-line > a:visited:hover::-moz-focus-inner.x" = "li, p > a:hover.x" := by
  decide +kernel

/-- Of a selector of elements nothing is left out but white space at its ends. -/
theorem strip_eq_trim {s : String} {ss : List Selector} (hread : Selector.readList s = .ok ss)
    (hss : ∀ selector ∈ ss, selector.IsQueryable)
    (hhidden : hidesName (lexemes s.toList) = false) : strip s = Text.trim s := by
  obtain ⟨-, hnamed⟩ := colonsNamed_of_readSelectors (mapError_eq_ok_iff.1 hread) hss
  obtain ⟨closers, htokens⟩ := Component.exists_tokensOf_ofTokens (Token.scanAll s.toList)
  rw [Component.ofText, htokens] at hnamed
  have hcolons := colonsFollowed_of_colonsNamed hnamed
  rw [← Token.map_token_lexemes] at hcolons
  have hnone : ∀ v, v ≠ [] → v <:+ s.toList →
      dropPseudo? dropName? v = none ∧ dropPseudo? dropVendorName? v = none := by
    intro v hne hv
    have hdrops := dropsAt_eq_false hcolons hhidden hne hv
    rwa [dropsAt, Bool.or_eq_false_iff, Option.isSome_eq_false_iff, Option.isSome_eq_false_iff,
      Option.isNone_iff_eq_none, Option.isNone_iff_eq_none] at hdrops
  have hnames : LeavesOut (fun piece _ => IsNamedPseudo piece) s.toList s.toList :=
    LeavesOut.self drops_named fun v hne hv => (hnone v hne hv).1
  have hvendors : LeavesOut IsVendorPseudo s.toList s.toList :=
    LeavesOut.self drops_vendor fun v hne hv => (hnone v hne hv).2
  exact strip_eq_iff.2 ⟨_, _, hnames, hvendors, rfl⟩

/-- Where no pattern decides, a selector is looked up unless it begins with a colon. -/
theorem triage_eq_query {p : Probe} {s : String} (hstart : s.toList.head? ≠ some ':')
    (hkeep : ∀ k ∈ p.keep, k.accepts s = false) (hremove : ∀ r ∈ p.remove, r.accepts s = false) :
    p.triage s = .query (strip s) := by
  have hpure : isPurePseudo s = false := by
    rw [isPurePseudo, decide_eq_false hstart, Bool.false_and]
  rw [triage, List.any_eq_false.2 (by simpa using hkeep),
    List.any_eq_false.2 (by simpa using hremove), hpure]
  rfl

/-- The tokens of a text that are not comments. -/
def tokensOf (text : String) : List Token :=
  (Token.scanAll text.toList).filter fun t => !t.isComment

/-- What trimming takes from the ends of a text is white space between tokens, and not white space
that belongs to a name, a string or an escape. -/
def TrimsSpaces (text : String) : Prop :=
  ∃ lead trail : List Token, (∀ t ∈ lead ++ trail, (Component.token t).isSpace = true) ∧
    tokensOf text = lead ++ (tokensOf (Text.trim text) ++ trail)

/-- White space at the ends of a selector list is no part of the selectors. -/
theorem readList_trim {s : String} {ss : List Selector} (hread : Selector.readList s = .ok ss)
    (htrims : TrimsSpaces s) : Selector.readList (Text.trim s) = .ok ss := by
  obtain ⟨lead, trail, hspaces, htokens⟩ := htrims
  obtain ⟨hlead, htrail⟩ := List.forall_mem_append.1 hspaces
  have hframed := mapError_eq_ok_iff.1 hread
  rw [Component.ofText, ← Component.ofTokens_filter, ← tokensOf, htokens] at hframed
  have htrimmed := readSelectors_of_framed hlead htrail hframed
  rw [tokensOf, Component.ofTokens_filter, ← Component.ofText] at htrimmed
  exact mapError_eq_ok_iff.2 htrimmed

/-- The query of a selector without pseudo-elements and `:visited` is read as the same selectors, as
far as no name that is left out is hidden in a token and no white space in a name is trimmed. -/
theorem triage_query {p : Probe} {s : String} {ss : List Selector}
    (hread : Selector.readList s = .ok ss) (hstart : s.toList.head? ≠ some ':')
    (hss : ∀ selector ∈ ss, selector.IsQueryable)
    (hkeep : ∀ k ∈ p.keep, k.accepts s = false) (hremove : ∀ r ∈ p.remove, r.accepts s = false)
    (hhidden : hidesName (lexemes s.toList) = false) (htrims : TrimsSpaces s) :
    ∃ q, p.triage s = .query q ∧ Selector.readList q = .ok ss := by
  refine ⟨Text.trim s, ?_, readList_trim hread htrims⟩
  rw [triage_eq_query hstart hkeep hremove, strip_eq_trim hread hss hhidden]

/-- A class name with an escaped colon, a comment between a colon and its name, a colon in a string, and
selectors inside of selectors. -/
def colonsText : String :=
  " LI.sm\\:flex:/*:*/Hover > a:Not([title=\"x:y\"], :nth-child( 2n ))\n"

/-- The tokens of `colonsText`. -/
def colonsTokens : List Token :=
  [.space " ", .ident "LI", .delim '.', .ident "sm:flex", .colon, .comment ":", .ident "Hover",
    .space " ", .delim '>', .space " ", .ident "a", .colon, .function "Not", .opening .square,
    .ident "title", .delim '=', .string "x:y", .closing .square, .comma, .space " ", .colon,
    .function "nth-child", .space " ", .dimension ⟨false, false, [2], [], none⟩ "n", .space " ",
    .closing .round, .closing .round, .space "\n"]

/-- What `colonsText` is read as. -/
def colonsSelectors : List Selector :=
  [.combined (.compound ⟨some (.name "li"), none, ["sm:flex"], [], [.condition .hover], none⟩) .child
    ⟨some (.name "a"), none, [], [],
      [.not [.compound ⟨none, none, [], [.compare "title" .equals "x:y"], [], none⟩,
        .compound ⟨none, none, [], [], [.nth .child ⟨2, 0⟩], none⟩]], none⟩]

theorem isQueryable_colonsSelectors : ∀ selector ∈ colonsSelectors, selector.IsQueryable := by
  intro selector hselector part hpart
  obtain rfl := List.mem_singleton.1 hselector
  have hhover : (PseudoClass.condition .hover).IsQueryable := .condition (by decide)
  have hnot : (PseudoClass.not [.compound ⟨none, none, [], [.compare "title" .equals "x:y"], [], none⟩,
      .compound ⟨none, none, [], [], [.nth .child ⟨2, 0⟩], none⟩]).IsQueryable :=
    .not (by simp [SelectorOf.parts]) (by simpa [SelectorOf.parts] using .nth _ _)
  rcases List.mem_append.1 hpart with hpart | hpart
  · obtain rfl := List.mem_singleton.1 hpart
    exact ⟨rfl, fun q hq => List.mem_singleton.1 hq ▸ hhover⟩
  · obtain rfl := List.mem_singleton.1 hpart
    exact ⟨rfl, fun q hq => List.mem_singleton.1 hq ▸ hnot⟩

theorem triage_query_colonsText :
    Selector.readList colonsText = .ok colonsSelectors ∧
      (∀ selector ∈ colonsSelectors, selector.IsQueryable) ∧
      hidesName (lexemes colonsText.toList) = false ∧ TrimsSpaces colonsText ∧
      ∃ q, (Probe.ofTexts ["nav%"] [".ad%"] 0).triage colonsText = .query q ∧
        Selector.readList q = .ok colonsSelectors := by
  have hread : Selector.readList colonsText = .ok colonsSelectors :=
    Selector.readList_of_tokens colonsTokens (by decide +kernel) rfl
  have hhidden : hidesName (lexemes colonsText.toList) = false := by decide +kernel
  have htrims : TrimsSpaces colonsText :=
    ⟨[.space " "], [.space "\n"], by decide, by decide +kernel⟩
  exact ⟨hread, isQueryable_colonsSelectors, hhidden, htrims,
    triage_query hread (by decide) isQueryable_colonsSelectors (by decide +kernel)
      (by decide +kernel) hhidden htrims⟩

/-- A class name with an escaped colon and a dash after it loses all up to the next digit. -/
theorem triage_escapedColon :
    Selector.readList ".sm\\:-mt-2" = .ok [.compound (.withClass .empty "sm:-mt-2")] ∧
      (SelectorOf.compound (.withClass .empty "sm:-mt-2")).IsQueryable ∧
      ¬ ∃ q, (Probe.ofTexts [] [] 0).triage ".sm\\:-mt-2" = .query q ∧
        Selector.readList q = .ok [.compound (.withClass .empty "sm:-mt-2")] := by
  refine ⟨Selector.readList_of_tokens [.delim '.', .ident "sm:-mt-2"] (by decide +kernel) rfl, ?_, ?_⟩
  · intro part hpart
    obtain rfl := List.mem_singleton.1 hpart
    exact ⟨rfl, nofun⟩
  · rintro ⟨q, hq, hread⟩
    have htriage : (Probe.ofTexts [] [] 0).triage ".sm\\:-mt-2" = .query ".sm\\2" := by
      decide +kernel
    obtain rfl := Triage.query.inj (htriage.symm.trans hq)
    have hother : Selector.readList ".sm\\2" = .ok [.compound (.withClass .empty "sm\x02")] :=
      Selector.readList_of_tokens [.delim '.', .ident "sm\x02"] (by decide +kernel) rfl
    rw [hother] at hread
    have hclasses := congrArg CompoundOf.classes
      (SelectorOf.compound.inj (List.cons.inj (Except.ok.inj hread)).1)
    exact absurd hclasses (by decide)

end Probe

end CriticalCss
