import CriticalCss.Proofs.RuleMap.Assembly
import CriticalCss.Proofs.Tree.Positions

/-!
# Rule maps that change

Rule maps stand under names and change one after the other: a rule is added to one of them, a style
sheet is merged into one, one is taken away from another, or one becomes a copy of another.
Whatever is done, and in whatever order, all maps stay sound, and a sound map is told by its marks
and their keys.

* `marks` are the marks of a map with their keys.  `Sound.mem_marks_iff` says that they are what
  look-up finds.
* `Sound.entries_subtract` and `Sound.keys_subtract` say what subtraction leaves, in which order,
  and `Sound.subtract_subtract` that it leaves nothing for a second time.
* `Change` is one change and `Change.applyAll` makes several; `Change.sound_applyAll` is the
  invariant of all maps that come about so.
* `Change.applyAll_told_by_marks` puts the results together.
-/

namespace CriticalCss.RuleMap

variable {M : Type}

/-! ## Marks and their keys -/

/-- The marks of a map with the keys of their buckets, in order. -/
def marks (m : RuleMap M) : List (BucketKey × M) :=
  m.entries.map fun p => (p.1, p.2.mark)

theorem mem_marks {m : RuleMap M} {key : BucketKey} {x : M} :
    (key, x) ∈ m.marks ↔ ∃ entries, (key, entries) ∈ m.buckets ∧ ∃ e ∈ entries, e.mark = x := by
  simp only [marks, entries, List.mem_map, List.mem_flatMap, Prod.mk.injEq]
  constructor
  · rintro ⟨_, ⟨⟨k, entries⟩, hb, e, he, rfl⟩, rfl, rfl⟩
    exact ⟨entries, hb, e, he, rfl⟩
  · rintro ⟨entries, hb, e, he, rfl⟩
    exact ⟨(key, e), ⟨(key, entries), hb, e, he, rfl⟩, rfl, rfl⟩

section Subtraction

variable [DecidableEq M] {mark : Node → M} {m : RuleMap M}

/-- The marks of a sound map are those that look-up finds under their keys. -/
theorem Sound.mem_marks_iff (h : m.Sound mark) {p : BucketKey × M} :
    p ∈ m.marks ↔ m.contains p.1 p.2 = true := by
  rw [h.contains_iff]
  exact mem_marks

/-- Two sound maps have the same content when they have the same marks. -/
theorem Sound.sameContent_iff_marks {other : RuleMap M} (h : m.Sound mark)
    (hother : other.Sound mark) :
    m.sameContent other = true ↔ ∀ p, p ∈ m.marks ↔ p ∈ other.marks := by
  rw [h.sameContent_iff hother, Prod.forall]
  refine forall_congr' fun key => forall_congr' fun x => ?_
  rw [h.mem_marks_iff, hother.mem_marks_iff, Bool.eq_iff_iff]

omit [DecidableEq M] in
/-- A rule in a sound map carries no place, at whatever depth. -/
theorem Sound.positions_eq_nil (h : m.Sound mark) {b : BucketKey × List (RuleEntry M)}
    (hb : b ∈ m.buckets) {e : RuleEntry M} (he : e ∈ b.2) : e.rule.positions = [] := by
  rw [h.entries b hb e he, RuleEntry.ofNode, Node.positions_withoutPosition]

/-! ## What subtraction leaves -/

/-- The entries of a bucket that are left are those whose mark the other map does not have. -/
theorem entries_bucketWithout (other : RuleMap M) (b : BucketKey × List (RuleEntry M)) :
    ((bucketWithout other b).toList.flatMap fun b => b.2.map (b.1, ·)) =
      (b.2.map (b.1, ·)).filter fun p => !other.contains p.1 p.2.mark := by
  have hfilter : (b.2.map (b.1, ·)).filter (fun p => !other.contains p.1 p.2.mark) =
      (b.2.filter fun e => !other.contains b.1 e.mark).map (b.1, ·) := List.filter_map
  rw [hfilter, bucketWithout]
  split
  · next hnil =>
    rw [hnil]
    rfl
  · rw [Option.toList_some, List.flatMap_singleton]

/-- Subtraction keeps the entries whose mark the other map does not have under the same key, in
their order. -/
theorem Sound.entries_subtract (h : m.Sound mark) (other : RuleMap M) :
    (m.subtract other).entries = m.entries.filter fun p => !other.contains p.1 p.2.mark := by
  rw [RuleMap.entries, RuleMap.entries, h.buckets_subtract, List.filter_flatMap]
  induction m.buckets with
  | nil => rfl
  | cons b buckets ih =>
    rw [List.flatMap_cons, ← ih, ← entries_bucketWithout]
    cases hb : bucketWithout other b with
    | none => rw [List.filterMap_cons_none hb]; rfl
    | some left => rw [List.filterMap_cons_some hb, List.flatMap_cons]; simp

/-- A list that was left of one without repetitions is found again by keeping its members. -/
theorem filter_mem_of_sublist {α : Type} [DecidableEq α] {xs ys : List α} (h : xs.Sublist ys)
    (hys : ys.Nodup) : ys.filter (· ∈ xs) = xs := by
  have hsub : xs.Sublist (ys.filter (· ∈ xs)) := by
    have := h.filter (· ∈ xs)
    rwa [List.filter_eq_self.2 fun x hx => decide_eq_true hx] at this
  have hperm : xs.Perm (ys.filter (· ∈ xs)) := by
    refine (List.perm_ext_iff_of_nodup (h.nodup hys) (hys.filter _)).2 fun x => ?_
    rw [List.mem_filter, decide_eq_true_eq]
    exact ⟨fun hx => ⟨h.subset hx, hx⟩, And.right⟩
  exact (hsub.eq_of_length hperm.length_eq).symm

/-- Subtraction keeps the keys under which a mark is left, in their order. -/
theorem Sound.keys_subtract (h : m.Sound mark) (other : RuleMap M) :
    (m.subtract other).keys =
      m.keys.filter fun key => ∃ p ∈ (m.subtract other).marks, p.1 = key := by
  have hleft := h.subtract other
  have hkeys : ∀ key, (∃ p ∈ (m.subtract other).marks, p.1 = key) ↔
      key ∈ (m.subtract other).keys := by
    intro key
    rw [hleft.mem_keys_iff]
    constructor
    · rintro ⟨p, hp, rfl⟩
      exact ⟨p.2, hleft.mem_marks_iff.1 hp⟩
    · rintro ⟨x, hx⟩
      exact ⟨(key, x), hleft.mem_marks_iff.2 hx, rfl⟩
  simp only [hkeys]
  exact (filter_mem_of_sublist (h.keys_subtract_sublist other) h.keys).symm

/-- Nothing that a map has in common with a difference is left to be taken away again. -/
theorem Sound.subtract_subtract (h : m.Sound mark) (other : RuleMap M) :
    (m.subtract other).subtract other = m.subtract other := by
  have hbuckets : ((m.subtract other).subtract other).buckets = (m.subtract other).buckets := by
    rw [(h.subtract other).buckets_subtract, h.buckets_subtract, List.filterMap_filterMap]
    refine List.filterMap_congr fun b _ => ?_
    cases hb : bucketWithout other b with
    | none => rfl
    | some left =>
      obtain ⟨hkey, hne, hleft⟩ := bucketWithout_eq_some_iff.1 hb
      refine bucketWithout_eq_some_iff.2 ⟨rfl, hne, ?_⟩
      rw [hleft, hkey, List.filter_filter]
      simp only [Bool.and_self]
  exact congrArg RuleMap.mk hbuckets

/-- A difference has no mark in common with what was taken away. -/
theorem Sound.not_mem_marks_of_subtract {other : RuleMap M} (h : m.Sound mark)
    (hother : other.Sound mark) {p : BucketKey × M} (hp : p ∈ (m.subtract other).marks) :
    p ∉ other.marks := by
  rw [(h.subtract other).mem_marks_iff, h.contains_subtract] at hp
  rw [hother.mem_marks_iff, hp.2]
  exact Bool.false_ne_true

end Subtraction

/-! ## Changes -/

/-- A change of one of several maps. -/
inductive Change where
  /-- A rule is added to a bucket, unless one with its mark is there. -/
  | insert (name : String) (key : BucketKey) (rule : Node)
  | merge (name : String) (sheet : Stylesheet)
  /-- What the other map has is taken away. -/
  | subtract (name other : String)
  /-- The map becomes a copy of the other one. -/
  | copy (name other : String)

namespace Change

variable [DecidableEq M]

/-- The name of the map that changes. -/
def target : Change → String
  | insert name _ _ | merge name _ | subtract name _ | copy name _ => name

/-- What becomes of the map that changes, given all maps by their names. -/
def result (mark : Node → M) (maps : String → RuleMap M) : Change → RuleMap M
  | insert name key rule => (maps name).insert mark key rule
  | merge name sheet => (maps name).merge mark sheet
  | subtract name other => (maps name).subtract (maps other)
  | copy _ other => maps other

/-- Makes a change. -/
def apply (mark : Node → M) (maps : String → RuleMap M) (c : Change) : String → RuleMap M :=
  Function.update maps c.target (c.result mark maps)

/-- The maps that come about by some changes, made one after the other.  At first every name stands
for the empty map. -/
def applyAll (mark : Node → M) (changes : List Change) : String → RuleMap M :=
  changes.foldl (apply mark) fun _ => .empty

variable {mark : Node → M}

/-- A change of sound maps gives a sound map. -/
theorem sound_result {maps : String → RuleMap M} (h : ∀ name, (maps name).Sound mark) (c : Change) :
    (c.result mark maps).Sound mark := by
  cases c with
  | insert name key rule => exact (h name).insert key rule
  | merge name sheet => exact (h name).merge sheet
  | subtract name other => exact (h name).subtract (maps other)
  | copy name other => exact h other

/-- A change keeps all maps sound. -/
theorem sound_apply {maps : String → RuleMap M} (h : ∀ name, (maps name).Sound mark) (c : Change)
    (name : String) : (apply mark maps c name).Sound mark := by
  rw [apply, Function.update_apply]
  split
  · exact sound_result h c
  · exact h name

/-- All maps are sound, whatever the changes were. -/
theorem sound_applyAll (mark : Node → M) (changes : List Change) (name : String) :
    (applyAll mark changes name).Sound mark := by
  have hall : ∀ maps : String → RuleMap M, (∀ name, (maps name).Sound mark) →
      ∀ name, (changes.foldl (apply mark) maps name).Sound mark := by
    induction changes with
    | nil => exact fun maps h => h
    | cons c changes ih => exact fun maps h => ih _ (sound_apply h c)
  exact hall _ (fun _ => sound_empty mark) name

/-- Whatever the changes were, a map has one bucket for every key, no bucket is empty, the marks in
a bucket are distinct, and every entry is the mark of its rule and a rule without places.  Taking
another map away leaves the entries whose mark the other map does not have under the same key, in
the order in which they and their keys stood, so that a second time nothing is left to be taken
away and no mark is left in common.  And two maps have the same content exactly when they have the
same marks under the same keys. -/
theorem applyAll_told_by_marks (mark : Node → M) (changes : List Change) (name name' : String) :
    let m := applyAll mark changes name
    let other := applyAll mark changes name'
    let rest := m.subtract other
    m.keys.Nodup ∧
      (∀ b ∈ m.buckets, b.2 ≠ [] ∧ (b.2.map (·.mark)).Nodup ∧
        ∀ e ∈ b.2, e.mark = mark e.rule.withoutPosition ∧ e.rule.positions = []) ∧
      rest.entries = m.entries.filter (fun p => (p.1, p.2.mark) ∉ other.marks) ∧
      rest.keys = m.keys.filter (fun key => ∃ p ∈ rest.marks, p.1 = key) ∧
      rest.subtract other = rest ∧
      (∀ p ∈ rest.marks, p ∉ other.marks) ∧
      (m.sameContent other = true ↔ ∀ p, p ∈ m.marks ↔ p ∈ other.marks) := by
  intro m other rest
  have hm : m.Sound mark := sound_applyAll mark changes name
  have hother : other.Sound mark := sound_applyAll mark changes name'
  refine ⟨hm.keys, ?_, ?_, hm.keys_subtract other, hm.subtract_subtract other,
    fun p hp => hm.not_mem_marks_of_subtract hother hp, hm.sameContent_iff_marks hother⟩
  · intro b hb
    refine ⟨hm.nonempty b hb, hm.marks b hb, fun e he => ⟨?_, hm.positions_eq_nil hb he⟩⟩
    exact congrArg RuleEntry.mark (hm.entries b hb e he)
  · rw [hm.entries_subtract]
    refine List.filter_congr fun p _ => ?_
    simp only [hother.mem_marks_iff, Bool.not_eq_true, Bool.decide_eq_false]

end Change

end CriticalCss.RuleMap
