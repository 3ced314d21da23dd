import CriticalCss.Proofs.Selector.Steps
import CriticalCss.Proofs.Token.Forming

/-!
# Positions of the form `an+b` read and written

The numbers of an expression that is read are numbers of 32 bits (`Nth.isHeld_of_read`), and the
text of every expression with such numbers is read as the same expression again
(`Nth.exists_read_text`).

The text of an expression has one of three shapes: a keyword, a number, or a multiple of `n` with an
offset.  A negative offset is a part of the name that begins with `n`, so that `n-3` is one token
and `2n-3` is a number with the unit `n-3`.  A positive offset is a number of its own.
-/

namespace CriticalCss

/-- An integer of 32 bits. -/
def Numeral.Holds (i : Int) : Prop :=
  least ≤ i ∧ i ≤ greatest

instance (i : Int) : Decidable (Numeral.Holds i) :=
  inferInstanceAs (Decidable (_ ∧ _))

theorem Numeral.holds_of_int? {n : Numeral} {i : Int} (h : n.int? = some i) : Holds i := by
  unfold int? at h
  split at h
  · cases h
    simp only [Holds, least, greatest]
    omega
  · cases h

/-- A number without a minus sign is not negative. -/
theorem Numeral.int?_nonneg {n : Numeral} {i : Int} (hn : n.negative = false)
    (h : n.int? = some i) : 0 ≤ i := by
  unfold int? at h
  split at h
  · cases h
    simp only [hn, Bool.false_eq_true, if_false, least, greatest]
    omega
  · cases h

theorem Component.dropSpaces_cons {c : Component} (h : c.isSpace = false) (cs : List Component) :
    dropSpaces (c :: cs) = c :: cs :=
  List.dropWhile_cons_of_neg (by simp [h])

namespace Nth

/-- Both numbers are integers of 32 bits. -/
structure IsHeld (e : Nth) : Prop where
  step : Numeral.Holds e.step
  offset : Numeral.Holds e.offset

theorem isHeld_even : even.IsHeld := ⟨by decide, by decide⟩

theorem isHeld_odd : odd.IsHeld := ⟨by decide, by decide⟩

/-! ## The numbers of an expression that is read -/

variable {cs : List Component} {r : Nth × List Component} {step : Int}

theorem isHeld_of_readUnsigned (hcs : ∀ c ∈ cs, c.IsPlain) (hstep : Numeral.Holds step) {sign : Int}
    (hsign : sign = 1 ∨ sign = -1) (h : readUnsigned step sign cs = .ok r) : r.1.IsHeld := by
  unfold readUnsigned at h
  split at h
  · cases h
  · next c rest heq =>
    split at h
    · next n =>
      split at h
      · next b hsigned hint =>
        cases h
        refine ⟨hstep, ?_⟩
        have hplain : (Component.token (.number n)).IsPlain :=
          hcs _ ((List.dropWhile_sublist _).subset (heq ▸ List.mem_cons_self))
        have hnegative : n.negative = false := by
          cases hplain with
          | token plain => exact plain hsigned
        have hnonneg := Numeral.int?_nonneg hnegative hint
        have hholds := Numeral.holds_of_int? hint
        simp only [Numeral.Holds, Numeral.least, Numeral.greatest] at hholds ⊢
        rcases hsign with rfl | rfl <;> omega
      · cases h
    · cases h

theorem holds_zero : Numeral.Holds 0 := by decide

theorem isHeld_of_readOffset (hcs : ∀ c ∈ cs, c.IsPlain) (hstep : Numeral.Holds step)
    (h : readOffset step cs = .ok r) : r.1.IsHeld := by
  have hrest : ∀ {c rest}, Component.dropSpaces cs = c :: rest → ∀ d ∈ rest, d.IsPlain := by
    intro c rest heq d hd
    exact hcs d ((List.dropWhile_sublist _).subset (heq ▸ List.mem_cons_of_mem _ hd))
  unfold readOffset at h
  split at h
  · next heq =>
    exact isHeld_of_readUnsigned (hrest heq) hstep (.inl rfl) h
  · next heq =>
    exact isHeld_of_readUnsigned (hrest heq) hstep (.inr rfl) h
  · split at h
    · next hint =>
      cases h
      exact ⟨hstep, Numeral.holds_of_int? hint⟩
    · cases h
      exact ⟨hstep, holds_zero⟩
  · cases h
    exact ⟨hstep, holds_zero⟩

theorem holds_of_dashedOffset? {name : List Char} {b : Int} (h : dashedOffset? name = some b) :
    Numeral.Holds b := by
  unfold dashedOffset? at h
  split at h
  · split at h
    · obtain ⟨digits, -, rfl⟩ := Option.map_eq_some_iff.1 h
      simp only [Numeral.Holds, Numeral.least, Numeral.greatest]
      omega
    · cases h
  · cases h

theorem isHeld_of_readAfterStep (hcs : ∀ c ∈ cs, c.IsPlain) (hstep : Numeral.Holds step)
    {name whole : String} (h : readAfterStep step name whole cs = .ok r) : r.1.IsHeld := by
  unfold readAfterStep at h
  split at h
  · exact isHeld_of_readOffset hcs hstep h
  split at h
  · exact isHeld_of_readUnsigned hcs hstep (.inr rfl) h
  split at h
  · next b hoffset =>
    cases h
    exact ⟨hstep, holds_of_dashedOffset? hoffset⟩
  · cases h

theorem isHeld_of_readName (hcs : ∀ c ∈ cs, c.IsPlain) {name : String}
    (h : readName name cs = .ok r) : r.1.IsHeld := by
  unfold readName at h
  split at h
  · cases h
    exact isHeld_even
  split at h
  · cases h
    exact isHeld_odd
  split at h
  · exact isHeld_of_readAfterStep hcs (by decide) h
  · exact isHeld_of_readAfterStep hcs (by decide) h

theorem isHeld_of_readStart (hcs : ∀ c ∈ cs, c.IsPlain) (h : readStart cs = .ok r) :
    r.1.IsHeld := by
  unfold readStart at h
  split at h
  · cases h
  · next c rest heq =>
    have hrest : ∀ d ∈ rest, d.IsPlain := fun d hd =>
      hcs d ((List.dropWhile_sublist _).subset (heq ▸ List.mem_cons_of_mem _ hd))
    split at h
    · split at h
      · next hint =>
        cases h
        exact ⟨holds_zero, Numeral.holds_of_int? hint⟩
      · cases h
    · split at h
      · next hint =>
        exact isHeld_of_readAfterStep hrest (Numeral.holds_of_int? hint) h
      · cases h
    · exact isHeld_of_readName hrest h
    · split at h
      · exact isHeld_of_readAfterStep (fun d hd => hrest d (List.mem_cons_of_mem _ hd)) (by decide) h
      · cases h
      · cases h
    · cases h

/-- The numbers of an expression that is read are integers of 32 bits. -/
theorem isHeld_of_read (hcs : ∀ c ∈ cs, c.IsPlain) {e : Nth} (h : Nth.read cs = .ok e) :
    e.IsHeld := by
  obtain ⟨⟨e', rest⟩, hstart, h⟩ := exists_of_bind_eq_ok h
  dsimp only at h
  split at h
  · cases h
    exact isHeld_of_readStart hcs hstart
  · cases h

end Nth

/-! ## The text of an expression -/

namespace Numeral

open Token

/-- A number that is written with its sign, or without one where it is not negative. -/
def written (signed : Bool) (i : Int) : Numeral :=
  numeral (signed || i < 0) (i < 0) i.natAbs

/-- The characters of such a number. -/
def chars (signed : Bool) (i : Int) : List Char :=
  signOf (signed || i < 0) (i < 0) ++ Nat.toDigits 10 i.natAbs

theorem isSign (signed : Bool) (i : Int) : IsSign (signed || i < 0) (i < 0) := by
  cases signed <;> simp [IsSign]

theorem toList_repr (i : Int) : i.repr.toList = chars false i := by
  cases i with
  | ofNat n => simp [chars, signOf, Int.repr, Nat.repr]
  | negSucc n =>
    have hsign : Int.negSucc n < 0 := by simp
    simp [chars, signOf, hsign, Int.repr, Nat.repr]

theorem chars_true {i : Int} (h : 0 < i) : chars true i = '+' :: chars false i := by
  have hsign : ¬(i < 0) := by omega
  simp [chars, signOf, hsign]

theorem int?_written {i : Int} (hi : Holds i) (signed : Bool) :
    (written signed i).int? = some i := by
  have hsize : (if i < 0 then -(i.natAbs : Int) else i.natAbs) = i := by
    split <;> omega
  simp only [int?, written, numeral, List.isEmpty_nil, Option.isNone_none, Bool.and_self, if_true,
    ofDigits_digitsOf, decide_eq_true_eq, hsize, Option.some.injEq]
  simp only [Holds] at hi
  omega

end Numeral

namespace Nth

open Token

/-- The name that begins with `n`, with a negative offset in it. -/
def unit (offset : Int) : List Char :=
  'n' :: if offset < 0 then Numeral.chars false offset else []

/-- A positive offset. -/
def tail (offset : Int) : List Char :=
  if 0 < offset then Numeral.chars true offset else []

/-- The shapes of the text of an expression. -/
theorem text_cases (e : Nth) :
    (e = odd ∧ e.text = "odd") ∨ (e = even ∧ e.text = "even") ∨
      (e.step = 0 ∧ e.text.toList = Numeral.chars false e.offset) ∨
      (e.step ≠ 0 ∧ e.text.toList = (if e.step = 1 then [] else Numeral.chars false e.step) ++
        (unit e.offset ++ tail e.offset)) := by
  by_cases hodd : e = odd
  · exact .inl ⟨hodd, by rw [text, if_pos hodd]⟩
  by_cases heven : e = even
  · exact .inr (.inl ⟨heven, by rw [text, if_neg hodd, if_pos heven]⟩)
  by_cases hstep : e.step = 0
  · refine .inr (.inr (.inl ⟨hstep, ?_⟩))
    rw [text, if_neg hodd, if_neg heven, if_pos hstep, Int.toString_eq_repr, Numeral.toList_repr]
  refine .inr (.inr (.inr ⟨hstep, ?_⟩))
  rw [text, if_neg hodd, if_neg heven, if_neg hstep]
  have hmultiple : (if e.step = 1 then "n" else toString e.step ++ "n").toList =
      (if e.step = 1 then [] else Numeral.chars false e.step) ++ ['n'] := by
    split
    · rfl
    · simp [Numeral.toList_repr]
  generalize (if e.step = 1 then "n" else toString e.step ++ "n") = multiple at hmultiple
  rcases Int.lt_trichotomy e.offset 0 with hneg | hzero | hpos
  · have hpos : ¬(0 < e.offset) := by omega
    have hzero : e.offset ≠ 0 := by omega
    simp [hneg, hpos, hzero, unit, tail, hmultiple, Numeral.toList_repr]
  · simp [hzero, unit, tail, hmultiple]
  · have hneg : ¬(e.offset < 0) := by omega
    have hzero : e.offset ≠ 0 := by omega
    simp [hneg, hpos, hzero, unit, tail, hmultiple, Numeral.toList_repr, Numeral.chars_true hpos]

/-- The component of a positive offset. -/
def tailComponents (offset : Int) : List Component :=
  if 0 < offset then [.token (.number (.written true offset))] else []

/-- The component of a multiple of `n`, with a negative offset in it. -/
def headComponent (e : Nth) : Component :=
  if e.step = 1 then .token (.ident (String.ofList (unit e.offset)))
  else .token (.dimension (.written false e.step) (String.ofList (unit e.offset)))

/-- A name that begins with `n` is not a part of a number. -/
theorem endsNumber_unit (offset : Int) (rest : List Char) : EndsNumber (unit offset ++ rest) := by
  intro c hc
  cases hc
  decide

theorem isName_unit (offset : Int) : isName (unit offset) = true := by
  rw [isName, Bool.and_eq_true]
  refine ⟨rfl, List.all_eq_true.2 fun c hc => ?_⟩
  rcases List.mem_cons.1 hc with rfl | hc
  · decide
  · split at hc
    · next hneg =>
      have hchars : Numeral.chars false offset = '-' :: Nat.toDigits 10 offset.natAbs := by
        simp [Numeral.chars, signOf, hneg]
      rw [hchars] at hc
      rcases List.mem_cons.1 hc with rfl | hc
      · decide
      · have hdigit := isDigit_of_mem_toDigits hc
        have hzero : c.toNat ≠ 0 := by
          intro hzero
          rw [(Char.toNat_inj.1 hzero : c = '\x00')] at hdigit
          cases hdigit
        simp [isNameChar, hdigit, hzero]
    · cases hc

theorem forms_number {rest : List Char} (signed : Bool) (i : Int) :
    Component.Forms (Numeral.chars signed i) [.token (.number (.written signed i))]
      (')' :: rest) := by
  refine .token ?_ rfl
  rw [Numeral.chars, List.append_assoc]
  exact scan_number (Numeral.isSign signed i) _ (fun c hc => by cases hc; decide) (by simp) rfl

theorem forms_tail (offset : Int) (rest : List Char) :
    Component.Forms (tail offset) (tailComponents offset) (')' :: rest) := by
  unfold tail tailComponents
  split
  · exact forms_number true offset
  · exact .nil _

theorem endsName_tail (offset : Int) (rest : List Char) :
    EndsName (tail offset ++ ')' :: rest) := by
  unfold tail
  split
  · next hpos =>
    rw [Numeral.chars_true hpos]
    exact .cons (by decide) _
  · exact .cons (by decide) _

theorem forms_head (e : Nth) (rest : List Char) :
    Component.Forms ((if e.step = 1 then [] else Numeral.chars false e.step) ++ unit e.offset)
      [headComponent e] (tail e.offset ++ ')' :: rest) := by
  have hends := endsName_tail e.offset rest
  unfold headComponent
  split
  · exact .token (scan_ident (isName_unit _) hends) rfl
  · refine .token ?_ rfl
    rw [Numeral.chars, List.append_assoc, List.append_assoc]
    exact scan_dimension (Numeral.isSign false _) _ (isName_unit _) (endsNumber_unit _ _) hends

theorem readAfterStep_unit {step offset : Int} (hoffset : Numeral.Holds offset) (whole : String) :
    readAfterStep step (String.ofList (unit offset)) whole (tailComponents offset) =
      .ok (⟨step, offset⟩, []) := by
  rcases Int.lt_trichotomy offset 0 with hneg | rfl | hpos
  · obtain ⟨d, ds, hdigits, -⟩ := exists_toDigits offset.natAbs
    have hunit : unit offset = 'n' :: '-' :: d :: ds := by
      simp [unit, Numeral.chars, signOf, hneg, hdigits]
    have hletters : ∀ v : List Char, v.length < 3 →
        Text.sameLetters (String.ofList (unit offset)) (String.ofList v) = false := by
      intro v hv
      refine Bool.eq_false_iff.2 fun hsame => ?_
      have hlength := congrArg (·.toList.length) (eq_of_beq hsame)
      simp only [Text.lower, hunit, String.toList_ofList, List.length_map, List.length_cons]
        at hlength
      omega
    have hdashed : dashedOffset? (unit offset) = some offset := by
      rw [hunit, dashedOffset?, if_pos (by decide), ← hdigits, mapM_digit?_toDigits,
        Option.map_some, ofDigits_digitsOf]
      simp only [Numeral.Holds] at hoffset
      congr 1
      omega
    rw [readAfterStep, hletters ['n'] (by decide), hletters ['n', '-'] (by decide),
      String.toList_ofList, hdashed]
    simp [tailComponents, show ¬(0 < offset) by omega]
  · rfl
  · have hunit : unit offset = ['n'] := by simp [unit, show ¬(offset < 0) by omega]
    have htail : tailComponents offset = [.token (.number (.written true offset))] := if_pos hpos
    have hsigned : (Numeral.written true offset).signed = true := rfl
    have hsame : Text.sameLetters (String.ofList ['n']) "n" = true := by decide
    rw [hunit, htail, readAfterStep, if_pos hsame, readOffset, Component.dropSpaces_cons rfl]
    simp only [hsigned, Numeral.int?_written hoffset]

/-- A name that begins with `n` is no keyword and has no sign. -/
theorem readName_unit (offset : Int) (cs : List Component) :
    readName (String.ofList (unit offset)) cs =
      readAfterStep 1 (String.ofList (unit offset)) (String.ofList (unit offset)) cs := by
  have hletters : ∀ s : String, s.toList.head?.map Char.toLower ≠ some 'n' →
      Text.sameLetters (String.ofList (unit offset)) s = false := by
    refine fun s hs => Bool.eq_false_iff.2 fun hsame => ?_
    have hhead := congrArg (·.toList.head?) (eq_of_beq hsame)
    simp only [Text.lower, String.toList_ofList, List.head?_map] at hhead
    exact hs hhead.symm
  rw [readName, hletters "even" (by decide), hletters "odd" (by decide), String.toList_ofList]
  rfl

theorem read_head {e : Nth} (he : e.IsHeld) :
    read (headComponent e :: tailComponents e.offset) = .ok e := by
  have hafter : readStart (headComponent e :: tailComponents e.offset) = .ok (e, []) := by
    unfold headComponent
    split
    · next hone =>
      show readName _ _ = _
      rw [readName_unit, readAfterStep_unit he.offset, ← hone]
    · rw [readStart, Component.dropSpaces_cons rfl]
      simp only [Numeral.int?_written he.step]
      exact readAfterStep_unit he.offset _
  rw [read, hafter]
  rfl

/-- The text of an expression is read as the same expression. -/
theorem exists_read_text {e : Nth} (he : e.IsHeld) (rest : List Char) :
    ∃ cs, Component.Forms e.text.toList cs (')' :: rest) ∧ read cs = .ok e := by
  have hkeyword : ∀ name : String, isName name.toList = true →
      Component.Forms name.toList [.token (.ident name)] (')' :: rest) := by
    intro name hname
    have hscan := scan_ident hname (.cons (by decide) rest : EndsName (')' :: rest))
    rw [String.ofList_toList] at hscan
    exact .token hscan rfl
  rcases text_cases e with ⟨rfl, htext⟩ | ⟨rfl, htext⟩ | ⟨hstep, htext⟩ | ⟨hstep, htext⟩
  · rw [htext]
    exact ⟨_, hkeyword "odd" (by decide), rfl⟩
  · rw [htext]
    exact ⟨_, hkeyword "even" (by decide), rfl⟩
  · rw [htext]
    refine ⟨_, forms_number false e.offset, ?_⟩
    have hstart :
        readStart [.token (.number (.written false e.offset))] = .ok (⟨0, e.offset⟩, []) := by
      rw [readStart, Component.dropSpaces_cons rfl]
      simp only [Numeral.int?_written he.offset]
    rw [read, hstart, ← hstep]
    rfl
  · rw [htext, ← List.append_assoc]
    exact ⟨_, (forms_head e rest).append (forms_tail e.offset rest), read_head he⟩

end Nth

end CriticalCss
