import CriticalCss.Data.Decode
import CriticalCss.Proofs.Data.Documents

/-!
# Reading what was written as typed data

A type that is written as a record, a list or a scalar is read back field by field.  The lemmas here
say what the readers find in values of the forms that writers make.

* `Value.asNat?_ofNat`, `Value.asTexts?_ofTexts` and `Value.asList?_map` read scalars and lists.
* `Fields.of?_record` says that a record with some of the fields, in their order, is read as these
  fields; `Fields.get?_cons` and its companions look a field up in them.
* `Value.depth_lt_of_mem_items` and `Value.depth_lt_of_mem_members` say that what stands in a list
  or a record is less deep.
* `Json.reread_ofTexts` and its companions say which values come back unchanged from their text, and
  how many lists and records are open in it.
-/

namespace CriticalCss.Data

namespace Value

/-! ## Scalars and lists -/

theorem asNat?_ofNat {n bound : Nat} (h : n ≤ bound) : (ofNat n).asNat? bound = some n := by
  show (if n ≤ bound then some n else none) = some n
  rw [if_pos h]

/-- A list is read when each of its items is. -/
theorem asList?_map {α : Type} {write : α → Value} {read : Value → Option α} {xs : List α}
    (h : ∀ x ∈ xs, read (write x) = some x) : (list (xs.map write)).asList? read = some xs := by
  rw [asList?]
  induction xs with
  | nil => rfl
  | cons x xs ih =>
    obtain ⟨hx, hxs⟩ := List.forall_mem_cons.1 h
    rw [List.map_cons, List.mapM_cons, hx, ih hxs]
    rfl

@[simp]
theorem asTexts?_ofTexts (ss : List String) : (ofTexts ss).asTexts? = some ss :=
  asList?_map fun _ _ => rfl

/-! ## Depths -/

theorem depth_le_depthOfList {items : List Value} {v : Value} (hv : v ∈ items) :
    v.depth ≤ depthOfList items := by
  induction items with
  | nil => exact absurd hv List.not_mem_nil
  | cons w items ih =>
    rw [depthOfList]
    rcases List.mem_cons.1 hv with rfl | hv
    · exact Nat.le_max_left _ _
    · exact Nat.le_trans (ih hv) (Nat.le_max_right _ _)

theorem depth_le_depthOfMembers {members : List (String × Value)} {k : String} {v : Value}
    (hv : (k, v) ∈ members) : v.depth ≤ depthOfMembers members := by
  induction members with
  | nil => exact absurd hv List.not_mem_nil
  | cons m members ih =>
    rw [depthOfMembers]
    rcases List.mem_cons.1 hv with rfl | hv
    · exact Nat.le_max_left _ _
    · exact Nat.le_trans (ih hv) (Nat.le_max_right _ _)

/-- An item is less deep than its list. -/
theorem depth_lt_of_mem_items {items : List Value} {v : Value} (hv : v ∈ items) :
    v.depth < (list items).depth := by
  rw [depth]
  exact Nat.lt_succ_of_le (depth_le_depthOfList hv)

/-- A member is less deep than its record. -/
theorem depth_lt_of_mem_members {members : List (String × Value)} {k : String} {v : Value}
    (hv : (k, v) ∈ members) : v.depth < (record members).depth := by
  rw [depth]
  exact Nat.lt_succ_of_le (depth_le_depthOfMembers hv)

end Value

/-! ## Fields -/

namespace Fields

/-- A record with some of the fields in their order is read as these fields. -/
theorem of?_record {names : List String} {members : List (String × Value)}
    (h : (members.map (·.1)).Sublist names) (hnames : names.Nodup) :
    of? names (.record members) = some ⟨members, false⟩ := by
  have hfilter : (members.filter fun m => names.contains m.1) = members :=
    List.filter_eq_self.2 fun m hm =>
      List.contains_iff_mem.2 (h.subset (List.mem_map_of_mem hm))
  simp only [of?, hfilter, h.nodup hnames, if_true]

variable (name key : String) (v : Value) (rest : List (String × Value))

@[simp]
theorem get?_nil : get? ⟨[], false⟩ name = none := rfl

@[simp]
theorem get?_cons :
    get? ⟨(key, v) :: rest, false⟩ name =
      if name = key then some v else get? ⟨rest, false⟩ name := by
  rw [get?, List.lookup_cons]
  by_cases h : name = key
  · rw [if_pos h, beq_iff_eq.2 h]
  · rw [if_neg h, beq_eq_false_iff_ne.2 h]
    rfl

theorem get?_append (members : List (String × Value)) :
    get? ⟨members ++ rest, false⟩ name =
      (get? ⟨members, false⟩ name).or (get? ⟨rest, false⟩ name) :=
  List.lookup_append

end Fields

/-! ## Values that come back from their text -/

namespace Json

/-- A list comes back unchanged when each of its items does. -/
theorem rereadItems_map {α : Type} {write : α → Value} {xs : List α}
    (h : ∀ x ∈ xs, reread (write x) = write x) : rereadItems (xs.map write) = xs.map write := by
  rw [rereadItems_eq_map, List.map_map]
  exact List.map_congr_left h

@[simp]
theorem reread_ofTexts (ss : List String) : reread (.ofTexts ss) = .ofTexts ss := by
  rw [Value.ofTexts, reread, rereadItems_map fun _ _ => rfl]

@[simp]
theorem nesting_ofTexts (ss : List String) : nesting (.ofTexts ss) = 1 := by
  have hitems : nestingOfItems (ss.map Value.text) ≤ 0 :=
    nestingOfItems_le_iff.2 (List.forall_mem_map.2 fun _ _ => Nat.le_refl 0)
  rw [Value.ofTexts, nesting, Nat.le_zero.1 hitems]

@[simp]
theorem nesting_ofFloat32 (x : Float32) : nesting (.ofFloat32 x) = 0 := by
  rw [Value.ofFloat32]
  split <;> rfl

@[simp]
theorem reread_ofNat (n : Nat) : reread (.ofNat n) = .ofNat n := rfl

end Json

end CriticalCss.Data
