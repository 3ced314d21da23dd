import CriticalCss.Proofs.Data.Scalars

/-!
# JSON texts of values

Writing a value and reading the text gives the value again, but for numbers, which come back as what
their digits say, and if the reader allows as many open lists and records as the value is nested.

* `reread` is the value that comes back, and `nesting` how many lists and records are open at most.
* `marksOf` are the marks of the text of a value, and `marks?_writeValue` reads them off the text.
* `readsBack` reads the value off its marks, by induction on the value; `readValue?_marksOfItems`
  and `readValue?_marksOfMembers` are what happens inside an open list and an open record.
* `readWithin?_write` puts the two steps together.
-/

namespace CriticalCss.Data

namespace Value

/-- Induction on values.  For a list or a record the statement may be used for everything in it. -/
@[elab_as_elim, induction_eliminator]
theorem inductionOn {motive : Value → Prop} (null : motive .null) (bool : ∀ b, motive (.bool b))
    (number : ∀ n, motive (.number n)) (text : ∀ s, motive (.text s))
    (list : ∀ items, (∀ v ∈ items, motive v) → motive (.list items))
    (record : ∀ members, (∀ m ∈ members, motive m.2) → motive (.record members)) :
    ∀ v, motive v :=
  @Value.rec motive (fun vs => ∀ v ∈ vs, motive v) (fun ms => ∀ m ∈ ms, motive m.2)
    (fun m => motive m.2) null bool number text list record
    (fun _ hv => absurd hv List.not_mem_nil)
    (fun _ _ hv hvs => List.forall_mem_cons.2 ⟨hv, hvs⟩)
    (fun _ hm => absurd hm List.not_mem_nil)
    (fun _ _ hm hms => List.forall_mem_cons.2 ⟨hm, hms⟩)
    (fun _ _ hv => hv)

end Value

namespace Json

open Token (EndsNumber)

/-! ## What comes back -/

mutual

/-- The value that the text of a value is read as: all as it was, but for numbers. -/
def reread : Value → Value
  | .number n => rereadNumber n
  | .list items => .list (rereadItems items)
  | .record members => .record (rereadMembers members)
  | v => v

/-- The values that the texts of some items are read as. -/
def rereadItems : List Value → List Value
  | [] => []
  | v :: vs => reread v :: rereadItems vs

/-- The members that the texts of some members are read as. -/
def rereadMembers : List (String × Value) → List (String × Value)
  | [] => []
  | (k, v) :: ms => (k, reread v) :: rereadMembers ms

end

theorem rereadItems_eq_map (vs : List Value) : rereadItems vs = vs.map reread := by
  induction vs with
  | nil => rfl
  | cons v vs ih => rw [rereadItems, List.map_cons, ih]

theorem rereadMembers_eq_map (ms : List (String × Value)) :
    rereadMembers ms = ms.map fun m => (m.1, reread m.2) := by
  induction ms with
  | nil => rfl
  | cons m ms ih => rw [rereadMembers, List.map_cons, ih]

theorem rereadMembers_append (ms ns : List (String × Value)) :
    rereadMembers (ms ++ ns) = rereadMembers ms ++ rereadMembers ns := by
  rw [rereadMembers_eq_map, rereadMembers_eq_map, rereadMembers_eq_map, List.map_append]

mutual

/-- How many lists and records are open at most while a value is read. -/
def nesting : Value → Nat
  | .list items => nestingOfItems items + 1
  | .record members => nestingOfMembers members + 1
  | _ => 0

/-- The greatest nesting among items. -/
def nestingOfItems : List Value → Nat
  | [] => 0
  | v :: vs => max (nesting v) (nestingOfItems vs)

/-- The greatest nesting among members. -/
def nestingOfMembers : List (String × Value) → Nat
  | [] => 0
  | (_, v) :: ms => max (nesting v) (nestingOfMembers ms)

end

theorem nestingOfItems_le_iff {vs : List Value} {n : Nat} :
    nestingOfItems vs ≤ n ↔ ∀ v ∈ vs, nesting v ≤ n := by
  induction vs with
  | nil => simp [nestingOfItems]
  | cons v vs ih => rw [nestingOfItems, Nat.max_le, ih, List.forall_mem_cons]

theorem nestingOfMembers_append (ms ns : List (String × Value)) :
    nestingOfMembers (ms ++ ns) = max (nestingOfMembers ms) (nestingOfMembers ns) := by
  induction ms with
  | nil => rw [List.nil_append, nestingOfMembers, Nat.zero_max]
  | cons m ms ih => rw [List.cons_append, nestingOfMembers, nestingOfMembers, ih, Nat.max_assoc]

/-! ## The marks of a text -/

mutual

/-- The marks and scalars of the text of a value. -/
def marksOf : Value → List Mark
  | .list items => .openList :: marksOfItems items
  | .record members => .openRecord :: marksOfMembers members
  | v => [.scalar (reread v)]

/-- The marks of the items of a list and of its end. -/
def marksOfItems : List Value → List Mark
  | [] => [.closeList]
  | [v] => marksOf v ++ [.closeList]
  | v :: w :: vs => marksOf v ++ .comma :: marksOfItems (w :: vs)

/-- The marks of the members of a record and of its end. -/
def marksOfMembers : List (String × Value) → List Mark
  | [] => [.closeRecord]
  | [(k, v)] => .scalar (.text k) :: .colon :: (marksOf v ++ [.closeRecord])
  | (k, v) :: m :: ms =>
    .scalar (.text k) :: .colon :: (marksOf v ++ .comma :: marksOfMembers (m :: ms))

end

/-- White space begins no mark. -/
theorem readMark?_of_isSpace {c : Char} (hc : isSpace c = true) (cs : List Char) :
    readMark? (c :: cs) = none := by
  have hcases : ((c = ' ' ∨ c = '\n') ∨ c = '\t') ∨ c = '\r' := by simpa [isSpace] using hc
  rcases hcases with ((rfl | rfl) | rfl) | rfl <;> rfl

/-- A mark that is read at the beginning of a text is its first one. -/
theorem marks?_of_readMark? {cs rest : List Char} {m : Mark} (h : readMark? cs = some (m, rest)) :
    marks? cs = (marks? rest).map (m :: ·) := by
  cases cs with
  | nil => exact absurd (readMark?_length_lt h) (Nat.not_lt_zero _)
  | cons c cs =>
    have hspace : isSpace c = false := by
      refine Bool.eq_false_iff.2 fun hc => ?_
      rw [readMark?_of_isSpace hc] at h
      cases h
    rw [marks?, if_neg (by simp [hspace])]
    split
    · next hnone =>
      rw [h] at hnone
      cases hnone
    · next m' after hsome =>
      rw [h] at hsome
      cases hsome
      rfl

theorem marks?_text (s : String) (rest : List Char) :
    marks? (writeString s ++ rest) = (marks? rest).map (.scalar (.text s) :: ·) :=
  marks?_of_readMark? (readMark?_writeString s rest)

section Punctuation

variable (rest : List Char)

theorem marks?_openList : marks? ('[' :: rest) = (marks? rest).map (.openList :: ·) :=
  marks?_of_readMark? rfl

theorem marks?_closeList : marks? (']' :: rest) = (marks? rest).map (.closeList :: ·) :=
  marks?_of_readMark? rfl

theorem marks?_openRecord : marks? ('{' :: rest) = (marks? rest).map (.openRecord :: ·) :=
  marks?_of_readMark? rfl

theorem marks?_closeRecord : marks? ('}' :: rest) = (marks? rest).map (.closeRecord :: ·) :=
  marks?_of_readMark? rfl

theorem marks?_comma : marks? (',' :: rest) = (marks? rest).map (.comma :: ·) :=
  marks?_of_readMark? rfl

theorem marks?_colon : marks? (':' :: rest) = (marks? rest).map (.colon :: ·) :=
  marks?_of_readMark? rfl

end Punctuation

theorem endsNumber_nil : EndsNumber [] := by
  rintro c hc
  cases hc

/-- What follows a value in a list or a record belongs to no number. -/
theorem endsNumber_of_mem {c : Char} (hc : c ∈ [',', ']', '}']) (rest : List Char) :
    EndsNumber (c :: rest) := by
  rintro d hd
  rw [List.head?_cons, Option.mem_some_iff] at hd
  subst hd
  simp only [List.mem_cons, List.not_mem_nil, or_false] at hc
  rcases hc with rfl | rfl | rfl <;> decide

mutual

/-- The text of a value has the marks of the value in front of those of what follows. -/
theorem marks?_writeValue (v : Value) {rest : List Char} (hrest : EndsNumber rest) :
    marks? (writeValue v ++ rest) = (marks? rest).map (marksOf v ++ ·) := by
  match v with
  | .null => exact marks?_of_readMark? rfl
  | .bool true => exact marks?_of_readMark? rfl
  | .bool false => exact marks?_of_readMark? rfl
  | .number n => exact marks?_of_readMark? (readMark?_writeNumber n hrest)
  | .text s => exact marks?_text s rest
  | .list items =>
    rw [writeValue, List.cons_append, marks?_openList, marks?_writeItems items rest,
      Option.map_map, marksOf]
    rfl
  | .record members =>
    rw [writeValue, List.cons_append, marks?_openRecord, marks?_writeMembers members rest,
      Option.map_map, marksOf]
    rfl

theorem marks?_writeItems (items : List Value) (rest : List Char) :
    marks? (writeItems items ++ rest) = (marks? rest).map (marksOfItems items ++ ·) := by
  match items with
  | [] => exact marks?_closeList rest
  | [v] =>
    have hv := marks?_writeValue v (endsNumber_of_mem (c := ']') (by simp) rest)
    rw [writeItems, List.append_assoc, List.singleton_append, hv, marks?_closeList]
    simp only [Option.map_map, Function.comp_def, marksOfItems, List.append_assoc,
      List.singleton_append]
  | v :: w :: vs =>
    have hv := marks?_writeValue v (endsNumber_of_mem (c := ',') (by simp)
      (writeItems (w :: vs) ++ rest))
    rw [writeItems, List.append_assoc, List.cons_append, hv, marks?_comma,
      marks?_writeItems (w :: vs) rest]
    simp only [Option.map_map, Function.comp_def, marksOfItems, List.append_assoc,
      List.cons_append]

theorem marks?_writeMembers (members : List (String × Value)) (rest : List Char) :
    marks? (writeMembers members ++ rest) = (marks? rest).map (marksOfMembers members ++ ·) := by
  match members with
  | [] => exact marks?_closeRecord rest
  | [(k, v)] =>
    have hv := marks?_writeValue v (endsNumber_of_mem (c := '}') (by simp) rest)
    simp only [writeMembers, List.append_assoc, List.cons_append, List.nil_append]
    rw [marks?_text, marks?_colon, hv, marks?_closeRecord]
    simp only [Option.map_map, Function.comp_def, marksOfMembers, List.append_assoc,
      List.cons_append, List.nil_append]
  | (k, v) :: m :: ms =>
    have hv := marks?_writeValue v (endsNumber_of_mem (c := ',') (by simp)
      (writeMembers (m :: ms) ++ rest))
    simp only [writeMembers, List.append_assoc, List.cons_append]
    rw [marks?_text, marks?_colon, hv, marks?_comma, marks?_writeMembers (m :: ms) rest]
    simp only [Option.map_map, Function.comp_def, marksOfMembers, List.append_assoc,
      List.cons_append]

end

/-! ## Reading the marks -/

/-- The marks of a value do not begin with the end of a list. -/
theorem marksOf_append_ne (v : Value) (rest ms : List Mark) :
    marksOf v ++ rest ≠ .closeList :: ms := by
  cases v <;> simp [marksOf]

theorem marksOfItems_append_ne (v : Value) (vs : List Value) (rest ms : List Mark) :
    marksOfItems (v :: vs) ++ rest ≠ .closeList :: ms := by
  cases vs with
  | nil =>
    rw [marksOfItems, List.append_assoc]
    exact marksOf_append_ne v _ ms
  | cons w vs =>
    rw [marksOfItems, List.append_assoc]
    exact marksOf_append_ne v _ ms

/-- A value is read from its marks if the limit allows all lists and records that are open at one
time, and otherwise nothing is. -/
def ReadsBack (limit : Nat) (v : Value) : Prop :=
  ∀ (stack : List Frame) (rest : List Mark), stack.length ≤ limit →
    readValue? limit stack (marksOf v ++ rest) =
      if stack.length + nesting v ≤ limit then deliver? limit (reread v) stack rest else none

variable {limit : Nat}

/-- The marks of the items of an open list put them behind those that were read before. -/
theorem readValue?_marksOfItems {v : Value} {vs : List Value}
    (h : ∀ w ∈ v :: vs, ReadsBack limit w) (read : List Value) {stack : List Frame}
    (hstack : stack.length < limit) (rest : List Mark) :
    readValue? limit (.list read :: stack) (marksOfItems (v :: vs) ++ rest) =
      if stack.length + 1 + nestingOfItems (v :: vs) ≤ limit then
        deliver? limit (.list (read.reverse ++ rereadItems (v :: vs))) stack rest
      else none := by
  induction vs generalizing v read with
  | nil =>
    rw [marksOfItems, List.append_assoc, h v List.mem_cons_self (.list read :: stack) _ hstack,
      nestingOfItems, nestingOfItems, Nat.max_zero]
    simp only [List.length_cons, List.singleton_append, deliver?, List.reverse_cons, rereadItems]
  | cons w vs ih =>
    rw [marksOfItems, List.append_assoc, h v List.mem_cons_self (.list read :: stack) _ hstack,
      List.length_cons, nestingOfItems, List.cons_append]
    split
    · rw [deliver?, ih (List.forall_mem_cons.1 h).2 (reread v :: read), List.reverse_cons,
        List.append_assoc, List.singleton_append, ← rereadItems]
      exact if_congr (by omega) rfl rfl
    · rw [if_neg (by omega)]

/-- The marks of some members begin with the first key. -/
theorem exists_marksOfMembers (m : String × Value) (ms : List (String × Value)) :
    ∃ marks, marksOfMembers (m :: ms) = .scalar (.text m.1) :: .colon :: marks := by
  cases ms <;> exact ⟨_, by rw [marksOfMembers]⟩

/-- The marks of the members of an open record, from the value of the first one on, put them behind
those that were read before. -/
theorem readValue?_marksOfMembers {m : String × Value} {ms : List (String × Value)}
    {marks : List Mark} (hmarks : marksOfMembers (m :: ms) = .scalar (.text m.1) :: .colon :: marks)
    (h : ∀ w ∈ m :: ms, ReadsBack limit w.2) (read : List (String × Value))
    {stack : List Frame} (hstack : stack.length < limit) (rest : List Mark) :
    readValue? limit (.record read m.1 :: stack) (marks ++ rest) =
      if stack.length + 1 + nestingOfMembers (m :: ms) ≤ limit then
        deliver? limit (.record (read.reverse ++ rereadMembers (m :: ms))) stack rest
      else none := by
  induction ms generalizing m read marks with
  | nil =>
    obtain ⟨k, v⟩ := m
    have hv : ReadsBack limit v := h (k, v) List.mem_cons_self
    rw [marksOfMembers] at hmarks
    cases hmarks
    rw [List.append_assoc, hv (.record read k :: stack) _ hstack,
      nestingOfMembers, nestingOfMembers, Nat.max_zero]
    simp only [List.length_cons, List.singleton_append, deliver?, List.reverse_cons, rereadMembers]
  | cons next ms ih =>
    obtain ⟨k, v⟩ := m
    have hv : ReadsBack limit v := h (k, v) List.mem_cons_self
    obtain ⟨after, hafter⟩ := exists_marksOfMembers next ms
    rw [marksOfMembers] at hmarks
    cases hmarks
    rw [List.append_assoc, hv (.record read k :: stack) _ hstack,
      List.length_cons, nestingOfMembers, List.cons_append, hafter]
    split
    · rw [List.cons_append, List.cons_append, deliver?,
        ih hafter (List.forall_mem_cons.1 h).2 ((k, reread v) :: read), List.reverse_cons,
        List.append_assoc, List.singleton_append, ← rereadMembers]
      exact if_congr (by omega) rfl rfl
    · rw [if_neg (by omega)]

/-- Every value is read from its marks as far as the limit allows. -/
theorem readsBack (limit : Nat) (v : Value) : ReadsBack limit v := by
  intro stack rest hstack
  induction v generalizing stack rest with
  | null | bool b | number n | text s =>
    simp only [marksOf, nesting, List.singleton_append, readValue?, Nat.add_zero]
    exact (if_pos hstack).symm
  | list items ih =>
    cases items with
    | nil =>
      simp only [marksOf, marksOfItems, List.cons_append, List.nil_append, readValue?, nesting,
        nestingOfItems, reread, rereadItems]
      rfl
    | cons v vs =>
      rw [marksOf, List.cons_append, readValue?, nesting, reread]
      · split
        · next hlimit =>
          rw [readValue?_marksOfItems ih [] hlimit rest, Nat.add_assoc, Nat.add_comm 1]
          rfl
        · rw [if_neg (by omega)]
      · exact fun ms => marksOfItems_append_ne v vs rest ms
  | record members ih =>
    cases members with
    | nil =>
      simp only [marksOf, marksOfMembers, List.cons_append, List.nil_append, readValue?, nesting,
        nestingOfMembers, reread, rereadMembers]
      rfl
    | cons m ms =>
      obtain ⟨marks, hmarks⟩ := exists_marksOfMembers m ms
      rw [marksOf, List.cons_append, hmarks, List.cons_append, List.cons_append, readValue?,
        nesting, reread]
      split
      · next hlimit =>
        rw [readValue?_marksOfMembers hmarks ih [] hlimit rest, Nat.add_assoc, Nat.add_comm 1]
        rfl
      · rw [if_neg (by omega)]

/-- Reading what was written gives the value again, as far as numbers come back, if the limit allows
as many open lists and records, and nothing otherwise. -/
theorem readWithin?_write (limit : Nat) (v : Value) :
    readWithin? limit (write v) = if nesting v ≤ limit then some (reread v) else none := by
  have hmarks := marks?_writeValue v endsNumber_nil
  have hread := readsBack limit v [] [] (Nat.zero_le limit)
  rw [List.append_nil, marks?, Option.map_some] at hmarks
  rw [readWithin?, write, String.toList_ofList, hmarks, Option.bind_some, hread, List.length_nil,
    Nat.zero_add, deliver?]

end Json

end CriticalCss.Data
