import Mathlib.Data.List.Basic
import Mathlib.Data.Option.Basic
import CriticalCss.Proofs.Stylesheet.Progress

/-!
# Places follow the source

Every node of a style sheet that is read has a place, and the places come in the order of the nodes in
the text.  Lines end in four ways, one of them two characters long, so a place can only be told by its
line and column where this pair of characters is not cut in two.

* `Position.after_append` counts lines and columns over two texts one after another, and
  `before_locate` says that later places in a source have greater numbers.
* `Ordered` is the invariant of the nodes read between two places: their places lie between these and
  follow one another.  `ordered_steps` and `ordered_rulesFrom` establish it, by the rounds of reading.
-/

namespace CriticalCss

open Token (closeBlock skipBlanks between isNewline)

/-! ## Counting lines and columns -/

namespace Position

/-- Whether a place is on an earlier line than another one, or to the left of it on the same line. -/
def Before (p q : Position) : Prop :=
  p.line < q.line ∨ p.line = q.line ∧ p.column < q.column

theorem Before.trans {p q r : Position} (h : p.Before q) (h' : q.Before r) : p.Before r := by
  unfold Before at *
  omega

theorem Before.ne {p q : Position} (h : p.Before q) : p ≠ q := by
  rintro rfl
  unfold Before at h
  omega

/-- Lines and columns are counted from one. -/
def IsCounted (p : Position) : Prop :=
  1 ≤ p.line ∧ 1 ≤ p.column

theorem isCounted_after {p : Position} (h : p.IsCounted) (cs : List Char) :
    (after p cs).IsCounted := by
  have hline : ∀ p : Position, IsCounted ⟨p.line + 1, 1⟩ := fun p =>
    ⟨Nat.le_add_left 1 _, Nat.le_refl 1⟩
  induction p, cs using after_induction with
  | nil p => exact h
  | pair p cs ih => exact ih (hline p)
  | single p c cs hsingle ih =>
    rw [after_cons p hsingle]
    refine ih ?_
    split
    · exact hline p
    · exact ⟨h.1, Nat.le_trans h.2 (Nat.le_add_right _ _)⟩

theorem units16_pos (c : Char) : 0 < Text.units16 c := by
  unfold Text.units16
  split <;> omega

/-- Some text leads to a later place. -/
theorem before_after (p : Position) {cs : List Char} (hne : cs ≠ []) : p.Before (after p cs) := by
  have hline : ∀ p : Position, p.Before ⟨p.line + 1, 1⟩ := fun p => .inl (Nat.lt_succ_self _)
  have hmore : ∀ {p q : Position} (cs : List Char), p.Before q →
      (cs ≠ [] → q.Before (after q cs)) → p.Before (after q cs) := by
    intro p q cs hpq hrest
    cases cs with
    | nil => exact hpq
    | cons c cs => exact hpq.trans (hrest (List.cons_ne_nil c cs))
  induction p, cs using after_induction with
  | nil p => exact absurd rfl hne
  | pair p cs ih => exact hmore cs (hline p) ih
  | single p c cs hsingle ih =>
    rw [after_cons p hsingle]
    refine hmore cs ?_ ih
    split
    · exact hline p
    · exact .inr ⟨rfl, Nat.lt_add_of_pos_right (units16_pos c)⟩

/-- The two characters of one line end stand on the two sides of a place. -/
def CutsLineEnd (u v : List Char) : Prop :=
  u.getLast? = some '\r' ∧ v.head? = some '\n'

/-- The place after two texts, unless a line end is cut in two between them. -/
theorem after_append (p : Position) {u v : List Char} (h : ¬CutsLineEnd u v) :
    after p (u ++ v) = after (after p u) v := by
  induction p, u using after_induction with
  | nil p => rfl
  | pair p u ih =>
    rw [List.cons_append, List.cons_append, after]
    refine ih fun hcut => h ⟨?_, hcut.2⟩
    rw [List.getLast?_cons_cons, List.getLast?_cons, hcut.1]
    rfl
  | single p c u hsingle ih =>
    have hsingle' : ¬(c = '\r' ∧ (u ++ v).head? = some '\n') := by
      rintro ⟨rfl, hhead⟩
      cases u with
      | nil => exact h ⟨rfl, hhead⟩
      | cons d u => exact hsingle ⟨rfl, hhead⟩
    rw [List.cons_append, after_cons p hsingle', after_cons p hsingle]
    refine ih fun hcut => h ⟨?_, hcut.2⟩
    rw [List.getLast?_cons, hcut.1]
    rfl

theorem locate_append (u t : List Char) : locate (u ++ t) t = after ⟨1, 1⟩ u := by
  rw [locate, between]
  simp

end Position

namespace Stylesheet

open Position (Before CutsLineEnd locate)

/-! ## Places in a source -/

/-- Part of a source begins here, and no line end is cut in two. -/
def Begins (source t : List Char) : Prop :=
  ∃ u, u ++ t = source ∧ ¬CutsLineEnd u t

theorem Begins.of_head? {source t : List Char} (h : t <:+ source) (hhead : t.head? ≠ some '\n') :
    Begins source t := by
  obtain ⟨u, hu⟩ := h
  exact ⟨u, hu, fun hcut => hhead hcut.2⟩

theorem Begins.of_brace {source t : List Char} (h : '{' :: t <:+ source) : Begins source t := by
  obtain ⟨u, hu⟩ := h
  refine ⟨u ++ ['{'], by rw [← hu, List.append_assoc, List.singleton_append], fun hcut => ?_⟩
  have hlast := hcut.1
  rw [List.getLast?_concat] at hlast
  cases hlast

theorem isCounted_locate (source t : List Char) : (locate source t).IsCounted :=
  Position.isCounted_after ⟨Nat.le_refl 1, Nat.le_refl 1⟩ _

/-- What begins further on has a later place. -/
theorem before_locate {source t t' : List Char} (h : Begins source t) (h' : Begins source t')
    (hlt : t'.length < t.length) : (locate source t).Before (locate source t') := by
  obtain ⟨u, hu, hcut⟩ := h
  obtain ⟨u', hu', -⟩ := h'
  obtain ⟨v, rfl⟩ : t' <:+ t :=
    List.suffix_of_suffix_length_le ⟨u', hu'⟩ ⟨u, hu⟩ (Nat.le_of_lt hlt)
  obtain rfl : u' = u ++ v := by
    rw [← hu, ← List.append_assoc] at hu'
    exact List.append_cancel_right hu'
  have hne : v ≠ [] := by
    rintro rfl
    exact Nat.lt_irrefl _ hlt
  have hcut' : ¬CutsLineEnd u v := by
    intro hcut'
    refine hcut ⟨hcut'.1, ?_⟩
    rw [List.head?_append_of_ne_nil v hne]
    exact hcut'.2
  have hplace : locate source (v ++ t') = Position.after ⟨1, 1⟩ u := by
    rw [← hu, Position.locate_append]
  have hplace' : locate source t' = Position.after (Position.after ⟨1, 1⟩ u) v := by
    rw [← hu', Position.locate_append, Position.after_append _ hcut']
  rw [hplace, hplace']
  exact Position.before_after _ hne

/-- Some places of a source follow one another, between two places.  These are given by the number of
characters after them. -/
def Follow (source : List Char) (high : Nat) : List Position → Nat → Prop
  | [], low => low ≤ high
  | q :: qs, low => ∃ t, Begins source t ∧ locate source t = q ∧ t.length ≤ high ∧
      ∃ middle, middle < t.length ∧ Follow source middle qs low

namespace Follow

variable {source : List Char} {high middle low : Nat} {qs qs' : List Position}

theorem of_le (h : Follow source middle qs low) (hle : middle ≤ high) :
    Follow source high qs low := by
  cases qs with
  | nil => exact Nat.le_trans h hle
  | cons q qs =>
    obtain ⟨t, ht, hq, hmiddle, hqs⟩ := h
    exact ⟨t, ht, hq, Nat.le_trans hmiddle hle, hqs⟩

theorem append (h : Follow source high qs middle) (h' : Follow source middle qs' low) :
    Follow source high (qs ++ qs') low := by
  induction qs generalizing high with
  | nil => exact h'.of_le h
  | cons q qs ih =>
    obtain ⟨t, ht, hq, hhigh, next, hnext, hqs⟩ := h
    exact ⟨t, ht, hq, hhigh, next, hnext, ih hqs⟩

theorem exists_of_mem (h : Follow source high qs low) {q : Position} (hq : q ∈ qs) :
    ∃ t, Begins source t ∧ locate source t = q ∧ t.length ≤ high := by
  induction qs generalizing high with
  | nil => cases hq
  | cons first qs ih =>
    obtain ⟨t, ht, hfirst, hhigh, next, hnext, hqs⟩ := h
    rcases List.mem_cons.1 hq with rfl | hq
    · exact ⟨t, ht, hfirst, hhigh⟩
    · obtain ⟨t', ht', hq', hle⟩ := ih hqs hq
      exact ⟨t', ht', hq', by omega⟩

theorem pairwise (h : Follow source high qs low) : qs.Pairwise Before := by
  induction qs generalizing high with
  | nil => exact .nil
  | cons q qs ih =>
    obtain ⟨t, ht, rfl, -, next, hnext, hqs⟩ := h
    refine .cons (fun q' hq' => ?_) (ih hqs)
    obtain ⟨t', ht', rfl, hle⟩ := hqs.exists_of_mem hq'
    exact before_locate ht ht' (Nat.lt_of_le_of_lt hle hnext)

end Follow

end Stylesheet

/-! ## The nodes of a tree -/

namespace Node

mutual

/-- A node and the nodes in it, at every depth, in document order. -/
def inOrder : Node → List Node
  | .item i p => [.item i p]
  | .block h rules p => .block h rules p :: inOrderOf rules

/-- Some nodes and the nodes in them. -/
def inOrderOf : List Node → List Node
  | [] => []
  | n :: ns => n.inOrder ++ inOrderOf ns

end

theorem inOrderOf_append (ns ns' : List Node) :
    inOrderOf (ns ++ ns') = inOrderOf ns ++ inOrderOf ns' := by
  induction ns with
  | nil => rfl
  | cons n ns ih => rw [List.cons_append, inOrderOf, inOrderOf, ih, List.append_assoc]

end Node

namespace Stylesheet

open Position (Before locate)

/-- All nodes at every depth have places, and these follow one another between two places. -/
def Ordered (source : List Char) (high : Nat) (ns : List Node) (low : Nat) : Prop :=
  ∃ qs : List Position, (Node.inOrderOf ns).map Node.position = qs.map some ∧
    Follow source high qs low

namespace Ordered

variable {source t : List Char} {high middle low : Nat} {ns ns' : List Node}

theorem nil (hle : low ≤ high) : Ordered source high [] low :=
  ⟨[], rfl, hle⟩

theorem append (h : Ordered source high ns middle) (h' : Ordered source middle ns' low) :
    Ordered source high (ns ++ ns') low := by
  obtain ⟨qs, hqs, hfollow⟩ := h
  obtain ⟨qs', hqs', hfollow'⟩ := h'
  refine ⟨qs ++ qs', ?_, hfollow.append hfollow'⟩
  rw [Node.inOrderOf_append, List.map_append, List.map_append, hqs, hqs']

theorem cons {n : Node} (h : Ordered source high [n] middle) (h' : Ordered source middle ns low) :
    Ordered source high (n :: ns) low :=
  h.append h'

theorem of_le (h : Ordered source middle ns low) (hle : middle ≤ high) :
    Ordered source high ns low := by
  obtain ⟨qs, hqs, hfollow⟩ := h
  exact ⟨qs, hqs, hfollow.of_le hle⟩

theorem item (i : Item) (ht : Begins source t) (hlow : low < t.length) :
    Ordered source t.length [.item i (some (locate source t))] low :=
  ⟨[locate source t], rfl, t, ht, rfl, Nat.le_refl _, low, hlow, Nat.le_refl _⟩

/-- A block comes before the nodes in it. -/
theorem block (heading : Heading) (ht : Begins source t) (hmiddle : middle < t.length)
    (h : Ordered source middle ns low) :
    Ordered source t.length [.block heading ns (some (locate source t))] low := by
  obtain ⟨qs, hqs, hfollow⟩ := h
  refine ⟨locate source t :: qs, ?_, t, ht, rfl, Nat.le_refl _, middle, hmiddle, hfollow⟩
  rw [Node.inOrderOf, Node.inOrder, Node.inOrderOf, List.append_nil, List.map_cons, List.map_cons,
    hqs]
  rfl

end Ordered

/-! ## Animation steps -/

/-- No line ends where white space has been passed. -/
theorem head?_skipBlanks_ne (cs : List Char) : (skipBlanks cs).head? ≠ some '\n' := by
  induction cs using Token.scan_induction with
  | nil =>
    rw [Token.skipBlanks_empty]
    nofun
  | token cs t rest hscan ih =>
    rw [Token.skipBlanks_of_scan hscan]
    split
    · exact ih rest (Nat.le_refl _)
    · next hblank =>
      intro hhead
      obtain ⟨more, rfl⟩ := List.head?_eq_some_iff.1 hhead
      rw [Token.scan_space rfl] at hscan
      cases hscan
      exact hblank rfl

theorem ordered_steps {source cs : List Char} (hcs : cs <:+ source) :
    Ordered source cs.length (steps source cs) (closeBlock .curly cs).length := by
  induction cs using steps_induction source with
  | ends cs h =>
    rw [steps_of_none h]
    exact .nil (Token.closeBlock_suffix .curly cs).length_le
  | goesOn cs n rest h ih =>
    rw [steps_cons h]
    have hmore := ih ((nextStep_suffix h).trans hcs)
    rw [closeBlock_nextStep h] at hmore
    rw [nextStep_eq_ite] at h
    dsimp only at h
    split at h
    · next hopens =>
      obtain ⟨body, hbody⟩ := List.head?_eq_some_iff.1 hopens
      have hbegins : Begins source (skipBlanks cs) :=
        .of_head? ((Token.skipBlanks_suffix cs).trans hcs) (head?_skipBlanks_ne cs)
      have hblanks := (Token.skipBlanks_suffix cs).length_le
      have hstop := (Token.skipUntil_suffix ['{', '}'] (skipBlanks cs)).length_le
      have hclose := (Token.closeBlock_suffix .curly body).length_le
      rw [hbody, List.length_cons] at hstop
      rw [hbody, List.tail_cons] at h
      cases h
      have hlt : (closeBlock .curly body).length < (skipBlanks cs).length := by omega
      exact ((Ordered.item _ hbegins hlt).cons hmore).of_le hblanks
    · cases h

/-! ## Rules -/

/-- A place of a source where rules are read. -/
structure Place.Within (source : List Char) (p : Place) : Prop where
  suffix : p.text <:+ source
  inside : p.insideBlock = true → '{' :: p.text <:+ source

theorem Round.within {source : List Char} {p next : Place} {found : Found}
    (h : Round source p found next) (hp : p.Within source) : next.Within source :=
  ⟨h.suffix.trans hp.suffix, fun hinside => (h.inside hinside).trans hp.suffix⟩

/-- Where a rule begins, no line end is cut in two: white space is no rule, and before the inside of a
block there is a brace. -/
theorem begins_of_nextRule {stops source : List Char} {p next : Place} {found : Found}
    (h : nextRule stops source p = some (found, next)) (hp : p.Within source)
    (hfound : found ≠ .nothing) : Begins source p.text := by
  cases hinside : p.insideBlock with
  | true => exact .of_brace (hp.inside hinside)
  | false =>
    refine .of_head? hp.suffix fun hhead => hfound ?_
    obtain ⟨more, htext⟩ := List.head?_eq_some_iff.1 hhead
    have hsettled : p.settled = '\n' :: more := by
      rw [Place.settled, hinside, htext]
      rfl
    have hscan : Token.scan p.settled = some (.space _, _) :=
      hsettled ▸ Token.scan_space rfl more
    rw [nextRule_eq_ite, hscan] at h
    split at h
    · cases h
    · cases h
      rfl

/-- The rules from a place on, at every depth.  Each round contributes the nodes it gives, and those
inside of a block end where the next round begins. -/
theorem ordered_rulesFrom {stops source : List Char} {p : Place} (hp : p.Within source) :
    Ordered source p.text.length (rulesFrom stops source p) (floor stops p.settled) := by
  induction stops, p using rules_induction source with
  | ends stops p h =>
    rw [rulesFrom_of_none h]
    exact .nil (Nat.le_trans (floor_le_length stops _) p.settled_suffix.length_le)
  | node stops p n next h ih =>
    rw [rulesFrom_of_node h]
    have hround := nextRule_round h
    have hmore := ih (hround.within hp)
    rw [nextRule_floor h] at hmore
    have hbegins := begins_of_nextRule h hp nofun
    refine Ordered.cons ?_ hmore
    cases hround.stands with
    | item i => exact .item i hbegins (nextRule_progress h)
    | animation inside goesOn =>
      have hbody := inside.length_le
      rw [goesOn]
      exact .block _ hbegins hbody
        (ordered_steps (((List.suffix_cons _ _).trans inside).trans hp.suffix))
  | group stops p heading position body next h ihbody ih =>
    rw [rulesFrom_of_group h]
    have hround := nextRule_round h
    have hmore := ih (hround.within hp)
    rw [nextRule_floor h] at hmore
    have hbegins := begins_of_nextRule h hp nofun
    refine Ordered.cons ?_ hmore
    cases hround.stands with
    | group inside goesOn =>
      have hinner := ihbody ⟨((List.suffix_cons _ _).trans inside).trans hp.suffix, nofun⟩
      have hfloor : floor ['}'] (⟨body, false⟩ : Place).settled = next.text.length := by
        rw [goesOn]
        rfl
      rw [hfloor] at hinner
      exact .block heading hbegins inside.length_le hinner
  | nothing stops p next h ih =>
    rw [rulesFrom_of_nothing h]
    have hmore := ih ((nextRule_round h).within hp)
    rw [nextRule_floor h] at hmore
    exact hmore.of_le (Nat.le_of_lt (nextRule_progress h))
  | fault stops p e next h ih =>
    rw [rulesFrom_of_fault h]
    have hmore := ih ((nextRule_round h).within hp)
    rw [nextRule_floor h] at hmore
    exact hmore.of_le (Nat.le_of_lt (nextRule_progress h))

/-- Every node of a style sheet that is read, comments and animation steps included, has a place; its
line and column are counted from one.  In document order each place comes before all later ones, so
that no two nodes have the same place. -/
theorem read_in_order {css : String} {sheet : Stylesheet} (h : read css = .ok sheet) :
    ∃ qs : List Position, (Node.inOrderOf sheet).map Node.position = qs.map some ∧
      (∀ q ∈ qs, 1 ≤ q.line ∧ 1 ≤ q.column) ∧ qs.Pairwise Before ∧ qs.Nodup := by
  have hsheet : sheet = rulesFrom [] css.toList ⟨css.toList, false⟩ := by
    rw [read_eq_outcome] at h
    unfold outcome at h
    split at h <;> cases h
    rfl
  have hwhole : Place.Within css.toList ⟨css.toList, false⟩ := ⟨List.suffix_refl _, nofun⟩
  obtain ⟨qs, hqs, hfollow⟩ := ordered_rulesFrom hwhole
  refine ⟨qs, hsheet ▸ hqs, fun q hq => ?_, hfollow.pairwise, hfollow.pairwise.imp Before.ne⟩
  obtain ⟨t, -, rfl, -⟩ := hfollow.exists_of_mem hq
  exact isCounted_locate css.toList t

/-- Lines that end in all four ways, a comment with a character of two code units, and a charset whose
block begins with a line end and is part of the selector after it. -/
def mixedLines : String :=
  "/*\r\n😀*/@charset x\x7b\r\n\x7dé\x7b\x7d\r\n@media m\x7b\x0c/**/b\x7bc:d\x7d\r@keyframes k\x7b\nto\x7b\x7d\x7d\x7d"

/-- The places of the nodes of `mixedLines`. -/
def mixedPlaces : List Position :=
  [⟨1, 1⟩, ⟨2, 5⟩, ⟨2, 16⟩, ⟨4, 1⟩, ⟨5, 1⟩, ⟨5, 5⟩, ⟨6, 1⟩, ⟨7, 1⟩]

theorem read_in_order_mixedLines :
    ∃ sheet, read mixedLines = .ok sheet ∧
      (Node.inOrderOf sheet).map Node.position = mixedPlaces.map some ∧
      mixedPlaces.Pairwise Before := by
  have hplaces : (read mixedLines).toOption.map (fun sheet =>
      (Node.inOrderOf sheet).map Node.position) = some (mixedPlaces.map some) := by
    decide +kernel
  cases hread : read mixedLines with
  | error e =>
    rw [hread] at hplaces
    cases hplaces
  | ok sheet =>
    rw [hread] at hplaces
    have hsheet := Option.some.inj hplaces
    obtain ⟨qs, hqs, -, hpairwise, -⟩ := read_in_order hread
    obtain rfl : qs = mixedPlaces :=
      List.map_injective_iff.2 (Option.some_injective _) (hqs.symm.trans hsheet)
    exact ⟨sheet, rfl, hsheet, hpairwise⟩

end Stylesheet

end CriticalCss
