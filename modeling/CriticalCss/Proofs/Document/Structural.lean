import CriticalCss.Proofs.Document.Matching
import CriticalCss.Proofs.Document.Preorder
import CriticalCss.Proofs.Selector.Positions
import Mathlib.Algebra.Order.Ring.Int

/-!
# Structural pseudo-classes

A structural pseudo-class asks for the number of an element among its siblings, counted from the first or
from the last one, all of them or those with the name of the element.

* `Nth.describes_iff` says which numbers an expression describes, for steps of any sign, and
  `Nth.describes64?_eq` that integers of 64 bits are enough to find out.
* `Document.sides_of_siblings` finds the siblings on both sides of an element where its siblings are split
  at it.
* `Document.IsPlaced` says which number an element has among its siblings and among those with its name;
  `Document.exists_isPlaced` finds these numbers, and `Document.rank_add_one` compares them with the
  ranks.
* `Document.structural_matches` puts this together for the selectors that have one pseudo-class each.
-/

namespace CriticalCss

/-! ## Positions that an expression describes -/

namespace Nth

/-- A difference is a natural multiple of a step exactly if it has the sign of the step and is divisible
by it. -/
theorem exists_step_mul_eq_iff {step distance : Int} (hstep : step ≠ 0) :
    (∃ j : Nat, step * j = distance) ↔
      (if 0 < step then 0 ≤ distance else distance ≤ 0) ∧ step ∣ distance := by
  constructor
  · intro h
    obtain ⟨j, hj⟩ := h
    refine ⟨?_, j, hj.symm⟩
    have hj0 : (0 : Int) ≤ j := Int.natCast_nonneg j
    split
    · next hpos =>
      rw [← hj]
      exact Int.mul_nonneg (Int.le_of_lt hpos) hj0
    · next hpos =>
      rw [← hj]
      exact Int.mul_nonpos_of_nonpos_of_nonneg (Int.not_lt.1 hpos) hj0
  · intro h
    obtain ⟨hsign, k, hk⟩ := h
    have hk0 : 0 ≤ k := by
      by_contra hneg
      have hneg : k < 0 := Int.not_le.1 hneg
      split at hsign
      · next hpos =>
        have := Int.mul_neg_of_pos_of_neg hpos hneg
        omega
      · next hpos =>
        have hstep : step < 0 := by omega
        have := Int.mul_pos_of_neg_of_neg hstep hneg
        omega
    refine ⟨k.toNat, ?_⟩
    rw [Int.toNat_of_nonneg hk0, hk]

/-- An expression describes the numbers that it takes for natural numbers. -/
theorem describes_iff (e : Nth) (index : Nat) :
    e.describes index = true ↔ ∃ j : Nat, e.step * j + e.offset = index + 1 := by
  have hmove : ∀ j : Nat, e.step * j + e.offset = index + 1 ↔
      e.step * j = index + 1 - e.offset := by
    intro j
    omega
  simp only [hmove]
  by_cases hstep : e.step = 0
  · simp [describes, hstep, eq_comm]
  · rw [exists_step_mul_eq_iff hstep, describes]
    by_cases hpos : 0 < e.step
    · simp [hstep, hpos]
    · simp [hstep, hpos]

/-! ## Integers of 64 bits -/

/-- A number, if it is an integer of 64 bits. -/
def int64? (n : Int) : Option Int :=
  if -2 ^ 63 ≤ n ∧ n < 2 ^ 63 then some n else none

/-- The remainder with the sign of the dividend, unless the division has no result of 64 bits. -/
def remainder64? (x y : Int) : Option Int :=
  if y = 0 ∨ x = -2 ^ 63 ∧ y = -1 then none else some (x.tmod y)

/-- Whether a difference is a multiple of a step, by its remainder. -/
def divides64? (step distance : Int) : Option Bool :=
  (remainder64? distance step).map (· = 0)

/-- Whether the expression describes the position with an index counted from zero, where every number on
the way has to be an integer of 64 bits. -/
def describes64? (e : Nth) (index : Nat) : Option Bool := do
  let first ← int64? index
  let position ← int64? (first + 1)
  if e.step = 0 then
    return position = e.offset
  let distance ← int64? (position - e.offset)
  if 0 < e.step then
    if 0 ≤ distance then divides64? e.step distance else return false
  else
    if distance ≤ 0 then divides64? e.step distance else return false

theorem int64?_eq_some {n : Int} (hlow : -2 ^ 63 ≤ n) (hhigh : n < 2 ^ 63) : int64? n = some n :=
  if_pos ⟨hlow, hhigh⟩

/-- The least dividend is not reached, so the remainder exists. -/
theorem divides64?_eq {step distance : Int} (hstep : step ≠ 0) (hlow : -2 ^ 63 < distance) :
    divides64? step distance = some (decide (step ∣ distance)) := by
  have hresult : ¬(step = 0 ∨ distance = -2 ^ 63 ∧ step = -1) := by omega
  rw [divides64?, remainder64?, if_neg hresult, Option.map_some]
  simp [Int.dvd_iff_tmod_eq_zero]

/-- No number on the way leaves the integers of 64 bits. -/
theorem describes64?_eq {e : Nth} (he : e.IsHeld) {index : Nat} (hindex : index < 2 ^ 62) :
    e.describes64? index = some (e.describes index) := by
  obtain ⟨-, hlow, hhigh⟩ := he
  simp only [Numeral.least, Numeral.greatest] at hlow hhigh
  have hfirst : int64? index = some (index : Int) := int64?_eq_some (by omega) (by omega)
  have hposition : int64? ((index : Int) + 1) = some ((index : Int) + 1) :=
    int64?_eq_some (by omega) (by omega)
  have hdistance : int64? ((index : Int) + 1 - e.offset) = some ((index : Int) + 1 - e.offset) :=
    int64?_eq_some (by omega) (by omega)
  have hdivides : e.step ≠ 0 → divides64? e.step ((index : Int) + 1 - e.offset) =
      some (decide (e.step ∣ (index : Int) + 1 - e.offset)) := fun hstep =>
    divides64?_eq hstep (by omega)
  rw [describes64?, hfirst, Option.bind_eq_bind, Option.bind_some, hposition, Option.bind_some,
    describes]
  by_cases hstep : e.step = 0
  · rw [if_pos hstep, if_pos hstep]
    simp [Int.sub_eq_zero]
  · rw [if_neg hstep, if_neg hstep, hdistance, Option.bind_some, hdivides hstep]
    -- where the sign is wrong there is no division
    by_cases hpos : 0 < e.step
    · rw [if_pos hpos, if_pos hpos]
      by_cases hsign : 0 ≤ (index : Int) + 1 - e.offset
      · rw [if_pos hsign]
        simp only [hsign, true_and]
      · rw [if_neg hsign]
        simp only [hsign, false_and, decide_false]
        rfl
    · rw [if_neg hpos, if_neg hpos]
      by_cases hsign : (index : Int) + 1 - e.offset ≤ 0
      · rw [if_pos hsign]
        simp only [hsign, true_and]
      · rw [if_neg hsign]
        simp only [hsign, false_and, decide_false]
        rfl

end Nth

/-! ## Numbers of elements -/

/-- An element of a list is the `p`-th of `m`, counted from one. -/
structure IsNth (l : List Nat) (i p m : Nat) : Prop where
  positive : 0 < p
  here : l[p - 1]? = some i
  total : l.length = m

theorem isNth_iff {l : List Nat} {i p m : Nat} : IsNth l i p m ↔
    ∃ before after, l = before ++ i :: after ∧ p = before.length + 1 ∧
      m = before.length + after.length + 1 := by
  constructor
  · intro h
    obtain ⟨hp, hhere, hm⟩ := h
    obtain ⟨hlt, hi⟩ := List.getElem?_eq_some_iff.1 hhere
    refine ⟨l.take (p - 1), l.drop p, ?_, ?_, ?_⟩
    · have hdrop := List.drop_eq_getElem_cons hlt
      rw [hi, Nat.sub_add_cancel hp] at hdrop
      rw [← hdrop, List.take_append_drop]
    · rw [List.length_take]
      omega
    · rw [List.length_take, List.length_drop]
      omega
  · intro h
    obtain ⟨before, after, hl, hp, hm⟩ := h
    refine ⟨by omega, ?_, ?_⟩
    · rw [hl, hp, Nat.add_sub_cancel]
      simp
    · rw [hl, hm, List.length_append, List.length_cons]
      omega

/-- In a list without repetitions an element has one number. -/
theorem IsNth.unique {l : List Nat} (hl : l.Nodup) {i p m q r : Nat} (h : IsNth l i p m)
    (h' : IsNth l i q r) : p = q ∧ m = r := by
  obtain ⟨hp, hi, hm⟩ := h
  obtain ⟨hq, hi', hr⟩ := h'
  have hlt : p - 1 < l.length := (List.getElem?_eq_some_iff.1 hi).1
  have hplace : p - 1 = q - 1 := (List.getElem?_inj hlt hl).1 (hi.trans hi'.symm)
  exact ⟨by omega, hm.symm.trans hr⟩

namespace Document

variable {d : Document} {i : Nat}

/-- The indices of an element and its siblings with the same name, in order. -/
def siblingsOfType (d : Document) (i : Nat) : List Nat :=
  (d.siblings i).filter (d.sameTag i)

theorem pairwise_lt_siblings (d : Document) (i : Nat) : (d.siblings i).Pairwise (· < ·) := by
  rw [siblings]
  split
  · exact List.pairwise_singleton _ _
  · exact pairwise_lt_children d _

/-- An element is among its siblings. -/
theorem mem_siblings (d : Document) (i : Nat) : i ∈ d.siblings i := by
  rw [siblings]
  split
  · exact List.mem_singleton_self i
  · next p hp =>
    exact mem_children_iff.2 hp

theorem sameTag_self (d : Document) (i : Nat) : d.sameTag i i = true := by
  simp [sameTag]

/-- The siblings on both sides of an element, when its siblings are split at it. -/
theorem sides_of_siblings {before after : List Nat} (h : d.siblings i = before ++ i :: after) :
    d.siblingsBefore i = before.reverse ∧ d.siblingsAfter i = after := by
  cases hparent : d.parent? i with
  | none =>
    have hone : d.siblings i = [i] := by rw [siblings, hparent]
    rw [hone] at h
    have hlength := congrArg List.length h
    rw [List.length_singleton, List.length_append, List.length_cons] at hlength
    have hbefore : before = [] := List.eq_nil_of_length_eq_zero (by omega)
    have hafter : after = [] := List.eq_nil_of_length_eq_zero (by omega)
    rw [siblingsBefore, siblingsAfter, hone, hbefore, hafter]
    simp
  | some p =>
    have hchildren : d.siblings i = d.children p := by rw [siblings, hparent]
    rw [hchildren] at h
    exact (siblings_of_children h).2.2

/-- The numbers of an element: it is the `p`-th of `m` siblings and the `q`-th of the `r` siblings with
its name. -/
structure IsPlaced (d : Document) (i p m q r : Nat) : Prop where
  child : IsNth (d.siblings i) i p m
  ofType : IsNth (d.siblingsOfType i) i q r

theorem siblingsOfType_eq {before after : List Nat} (h : d.siblings i = before ++ i :: after) :
    d.siblingsOfType i = before.filter (d.sameTag i) ++ i :: after.filter (d.sameTag i) := by
  rw [siblingsOfType, h, List.filter_append, List.filter_cons_of_pos (sameTag_self d i)]

theorem exists_isPlaced (d : Document) (i : Nat) : ∃ p m q r, d.IsPlaced i p m q r := by
  obtain ⟨before, after, h⟩ := List.append_of_mem (mem_siblings d i)
  exact ⟨_, _, _, _, isNth_iff.2 ⟨before, after, h, rfl, rfl⟩,
    isNth_iff.2 ⟨_, _, siblingsOfType_eq h, rfl, rfl⟩⟩

end Document

/-- The number that a way of counting gives to the `p`-th of `m` siblings, when it is the `q`-th of `r`
with its name. -/
def Counting.number (p m q r : Nat) : Counting → Int
  | .child => p
  | .lastChild => m - p + 1
  | .ofType => q
  | .lastOfType => r - q + 1

namespace Document

variable {d : Document} {i : Nat}

/-- The rank counts from zero what the number counts from one. -/
theorem rank_add_one {p m q r : Nat} (h : d.IsPlaced i p m q r) (counting : Counting) :
    (d.rank i counting : Int) + 1 = counting.number p m q r := by
  obtain ⟨before, after, hsiblings, hp, hm⟩ := isNth_iff.1 h.child
  obtain ⟨hbefore, hafter⟩ := sides_of_siblings hsiblings
  have hnodup : (d.siblingsOfType i).Nodup :=
    ((pairwise_lt_siblings d i).imp Nat.ne_of_lt).filter _
  have hsame : IsNth (d.siblingsOfType i) i (before.countP (d.sameTag i) + 1)
      (before.countP (d.sameTag i) + after.countP (d.sameTag i) + 1) := by
    apply isNth_iff.2
    refine ⟨_, _, siblingsOfType_eq hsiblings, ?_, ?_⟩
    · rw [List.countP_eq_length_filter]
    · rw [List.countP_eq_length_filter, List.countP_eq_length_filter]
  obtain ⟨hq, hr⟩ := h.ofType.unique hnodup hsame
  cases counting with
  | child =>
    rw [rank, hbefore, List.length_reverse]
    show _ = (p : Int)
    omega
  | lastChild =>
    rw [rank, hafter]
    show _ = (m : Int) - p + 1
    omega
  | ofType =>
    rw [rank, hbefore, List.countP_reverse]
    show _ = (q : Int)
    omega
  | lastOfType =>
    rw [rank, hafter]
    show _ = (r : Int) - q + 1
    omega

/-! ## Selectors with one pseudo-class -/

/-- The selector that has one pseudo-class and no other test. -/
def alone (q : PseudoClass) : Selector :=
  .compound (CompoundOf.empty.withPseudoClass q)

theorem selectorMatches_alone (d : Document) (q : PseudoClass) (i : Nat) :
    d.selectorMatches (alone q) i = (d.box? i).any (d.pseudoMatches q i) := by
  rw [alone, selectorMatches, CompoundOf.withPseudoClass, CompoundOf.empty, compoundMatches]
  cases d.box? i with
  | none => rfl
  | some b => simp [allPseudoMatch, Box.passesType, Box.passesId]

/-- The conditions on the place of an element, with the ways of counting by which it has to be the first
one. -/
def firstOnes : List (Condition × List Counting) :=
  [(.firstChild, [.child]), (.lastChild, [.lastChild]), (.onlyChild, [.child, .lastChild]),
    (.firstOfType, [.ofType]), (.lastOfType, [.lastOfType]),
    (.onlyOfType, [.ofType, .lastOfType])]

/-- The first number is the only one that the expression `1` describes. -/
theorem describes_one (index : Nat) : (Nth.mk 0 1).describes index = decide (index = 0) := by
  rw [Nth.describes, if_pos rfl]
  simp

theorem satisfies_firstOnes (d : Document) (i : Nat) (b : Box) :
    ∀ c ∈ firstOnes, d.satisfies i b c.1 =
      c.2.all fun counting => d.pseudoMatches (.nth counting ⟨0, 1⟩) i b := by
  simp [firstOnes, satisfies, pseudoMatches, describes_one, isFirst]

/-- Every element has a number among its siblings and one among those with its name, counted from both
ends.  A pseudo-class with an expression matches the elements whose number is described, and the other
structural pseudo-classes match those that are the first ones.  The numbers on the way to the answer are
integers of 64 bits. -/
theorem structural_matches (d : Document) {i : Nat} (hi : i < d.boxes.length) :
    (∃ p m q r, d.IsPlaced i p m q r) ∧
      (∀ p m q r, d.IsPlaced i p m q r → ∀ counting e,
        d.selectorMatches (alone (.nth counting e)) i = true ↔
          ∃ j : Nat, e.step * j + e.offset = counting.number p m q r) ∧
      (∀ c ∈ firstOnes, d.selectorMatches (alone (.condition c.1)) i =
        c.2.all fun counting => d.selectorMatches (alone (.nth counting ⟨0, 1⟩)) i) ∧
      ∀ e : Nth, e.IsHeld → ∀ index < 2 ^ 62, e.describes64? index = some (e.describes index) := by
  obtain ⟨b, hb⟩ : ∃ b, d.box? i = some b := ⟨_, List.getElem?_eq_getElem hi⟩
  have hone : ∀ q, d.selectorMatches (alone q) i = d.pseudoMatches q i b := by
    intro q
    rw [selectorMatches_alone, hb]
    rfl
  refine ⟨exists_isPlaced d i, ?_, ?_, fun e he index hindex => Nth.describes64?_eq he hindex⟩
  · intro p m q r h counting e
    rw [hone, pseudoMatches, Nth.describes_iff, rank_add_one h]
  · intro c hc
    simp only [hone]
    rw [pseudoMatches]
    exact satisfies_firstOnes d i b c hc

/-- The first of two paragraphs, which is the second of three children. -/
theorem structural_matches_nestedPage :
    4 < (nestedPage.layout ⟨800, 600⟩ true).boxes.length ∧
      (nestedPage.layout ⟨800, 600⟩ true).IsPlaced 4 2 3 1 2 ∧
      (nestedPage.layout ⟨800, 600⟩ true).selectorMatches (alone (.nth .child ⟨-3, 5⟩)) 4 = true ∧
      ¬(nestedPage.layout ⟨800, 600⟩ true).selectorMatches (alone (.nth .lastOfType ⟨2, 1⟩)) 4 =
        true ∧
      (nestedPage.layout ⟨800, 600⟩ true).selectorMatches (alone (.condition .firstOfType)) 4 =
        ([Counting.ofType].all fun counting =>
          (nestedPage.layout ⟨800, 600⟩ true).selectorMatches (alone (.nth counting ⟨0, 1⟩)) 4) ∧
      (Nth.mk (-2147483648) 2147483647).describes64? 4611686018427387903 =
        some ((Nth.mk (-2147483648) 2147483647).describes 4611686018427387903) := by
  have hlt : 4 < (nestedPage.layout ⟨800, 600⟩ true).boxes.length := by decide +kernel
  have hplaced : (nestedPage.layout ⟨800, 600⟩ true).IsPlaced 4 2 3 1 2 :=
    ⟨⟨by decide, by decide +kernel, by decide +kernel⟩,
      ⟨by decide, by decide +kernel, by decide +kernel⟩⟩
  obtain ⟨-, hnth, hfirst, hlarge⟩ := structural_matches (nestedPage.layout ⟨800, 600⟩ true) hlt
  refine ⟨hlt, hplaced, (hnth _ _ _ _ hplaced _ _).2 ⟨1, by decide⟩, ?_,
    hfirst (.firstOfType, [.ofType]) (by decide), hlarge _ ⟨by decide, by decide⟩ _ (by decide)⟩
  intro hmatch
  obtain ⟨j, hj⟩ := (hnth _ _ _ _ hplaced _ _).1 hmatch
  change (2 : Int) * j + 1 = 2 - 1 + 1 at hj
  omega

end Document

end CriticalCss
