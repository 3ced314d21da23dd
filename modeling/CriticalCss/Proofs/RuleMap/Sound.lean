import CriticalCss.Rule.RuleMap
import Mathlib.Data.List.Nodup

/-!
# Rule maps that are sound

`Sound` is the invariant of rule maps: every key has one bucket, no bucket is empty, the marks in a
bucket are distinct, and every entry is a rule without places together with its mark.  The lemmas
here hold for every function that marks rules.

* `sound_empty`, `Sound.insert` and `Sound.subtract` say that the operations keep the invariant.
* `contains_merge` and `contains_subtract` say which marks a map has under which keys afterwards.
-/

namespace CriticalCss.RuleMap

variable {M : Type} [DecidableEq M]

/-- The invariant of rule maps. -/
structure Sound (mark : Node → M) (m : RuleMap M) : Prop where
  keys : m.keys.Nodup
  nonempty : ∀ b ∈ m.buckets, b.2 ≠ []
  marks : ∀ b ∈ m.buckets, (b.2.map (·.mark)).Nodup
  entries : ∀ b ∈ m.buckets, ∀ e ∈ b.2, e = .ofNode mark e.rule

/-! ## Buckets and look-up -/

omit [DecidableEq M] in
/-- Where every key has one bucket, a bucket is found under its key. -/
theorem get?_eq_some_of_mem {m : RuleMap M} (hkeys : m.keys.Nodup) {key : BucketKey}
    {entries : List (RuleEntry M)} (hmem : (key, entries) ∈ m.buckets) :
    m.get? key = some entries := by
  obtain ⟨before, after, hsplit⟩ := List.append_of_mem hmem
  refine List.lookup_eq_some_iff.2 ⟨before, after, hsplit, ?_⟩
  intro b hb
  rw [RuleMap.keys, hsplit, List.map_append, List.nodup_append] at hkeys
  rw [bne_iff_ne]
  exact (hkeys.2.2 b.1 (List.mem_map_of_mem hb) key (by simp)).symm

omit [DecidableEq M] in
/-- A bucket is found under its key. -/
theorem Sound.get?_eq_some {mark : Node → M} {m : RuleMap M} (h : m.Sound mark) {key : BucketKey}
    {entries : List (RuleEntry M)} (hmem : (key, entries) ∈ m.buckets) :
    m.get? key = some entries :=
  get?_eq_some_of_mem h.keys hmem

omit [DecidableEq M] in
/-- What is found under a key is a bucket with that key. -/
theorem mem_of_get?_eq_some {m : RuleMap M} {key : BucketKey} {entries : List (RuleEntry M)}
    (h : m.get? key = some entries) : (key, entries) ∈ m.buckets := by
  obtain ⟨before, after, hsplit, _⟩ := List.lookup_eq_some_iff.1 h
  rw [hsplit]
  simp

/-- A map has a mark under a key when the bucket of the key has an entry with the mark. -/
theorem Sound.contains_iff {mark : Node → M} {m : RuleMap M} (h : m.Sound mark) {key : BucketKey}
    {x : M} :
    m.contains key x = true ↔
      ∃ entries, (key, entries) ∈ m.buckets ∧ ∃ e ∈ entries, e.mark = x := by
  rw [contains, Option.any_eq_true]
  constructor
  · intro hmark
    obtain ⟨entries, hget, hmark⟩ := hmark
    exact ⟨entries, mem_of_get?_eq_some hget, by simpa [hasMark] using hmark⟩
  · intro hmark
    obtain ⟨entries, hmem, hmark⟩ := hmark
    exact ⟨entries, h.get?_eq_some hmem, by simpa [hasMark] using hmark⟩

/-! ## Insertion -/

/-- The entries of a bucket after an entry was added, unless its mark was there. -/
def addEntry (entries : List (RuleEntry M)) (e : RuleEntry M) : List (RuleEntry M) :=
  if hasMark entries e.mark then entries else entries ++ [e]

/-- A bucket after an insertion is an old one, or the one that the entry went to. -/
theorem mem_insertInto {key : BucketKey} {e : RuleEntry M}
    {buckets : List (BucketKey × List (RuleEntry M))} {b : BucketKey × List (RuleEntry M)}
    (hb : b ∈ insertInto key e buckets) :
    b ∈ buckets ∨
      ∃ entries, (entries = [] ∨ (key, entries) ∈ buckets) ∧ b = (key, addEntry entries e) := by
  induction buckets with
  | nil =>
    rw [insertInto, List.mem_singleton] at hb
    exact .inr ⟨[], .inl rfl, by rw [hb]; rfl⟩
  | cons old buckets ih =>
    obtain ⟨k, entries⟩ := old
    rw [insertInto] at hb
    split at hb
    · next hkey =>
      rcases List.mem_cons.1 hb with hb | hb
      · exact .inr ⟨entries, .inr (by simp [hkey]), by rw [hb, hkey]; rfl⟩
      · exact .inl (List.mem_cons_of_mem _ hb)
    · rcases List.mem_cons.1 hb with hb | hb
      · exact .inl (by simp [hb])
      · rcases ih hb with hold | ⟨entries', hentries, heq⟩
        · exact .inl (List.mem_cons_of_mem _ hold)
        · exact .inr ⟨entries', hentries.imp_right (List.mem_cons_of_mem _), heq⟩

/-- An insertion keeps the keys, and adds its own at the end if it is new. -/
theorem map_fst_insertInto (key : BucketKey) (e : RuleEntry M)
    (buckets : List (BucketKey × List (RuleEntry M))) :
    (insertInto key e buckets).map (·.1) =
      if key ∈ buckets.map (·.1) then buckets.map (·.1) else buckets.map (·.1) ++ [key] := by
  induction buckets with
  | nil => rfl
  | cons old buckets ih =>
    rw [insertInto, List.map_cons]
    by_cases hkey : old.1 = key
    · have hold : key ∈ old.1 :: buckets.map (·.1) := by simp [hkey]
      rw [if_pos hkey, if_pos hold, List.map_cons]
    · rw [if_neg hkey, List.map_cons, ih]
      by_cases hmem : key ∈ buckets.map (·.1)
      · rw [if_pos hmem, if_pos (List.mem_cons_of_mem _ hmem)]
      · rw [if_neg hmem, if_neg (by simp [hmem, Ne.symm hkey]), List.cons_append]

theorem nodup_marks_addEntry {entries : List (RuleEntry M)} (e : RuleEntry M)
    (h : (entries.map (·.mark)).Nodup) : ((addEntry entries e).map (·.mark)).Nodup := by
  rw [addEntry]
  split
  · exact h
  · next hnew =>
    have hfresh : e.mark ∉ entries.map (·.mark) := by simpa [hasMark] using hnew
    rw [List.map_append, List.nodup_append]
    refine ⟨h, by simp, ?_⟩
    intro x hx y hy hxy
    rw [List.map_singleton, List.mem_singleton] at hy
    exact hfresh (hy ▸ hxy ▸ hx)

theorem mem_addEntry {entries : List (RuleEntry M)} {e e' : RuleEntry M}
    (h : e' ∈ addEntry entries e) : e' ∈ entries ∨ e' = e := by
  rw [addEntry] at h
  split at h
  · exact .inl h
  · simpa using h

theorem addEntry_ne_nil (entries : List (RuleEntry M)) (e : RuleEntry M) :
    addEntry entries e ≠ [] := by
  rw [addEntry]
  split
  · next hmark =>
    rintro rfl
    simp [hasMark] at hmark
  · simp

omit [DecidableEq M] in
theorem sound_empty (mark : Node → M) : Sound mark empty where
  keys := List.nodup_nil
  nonempty := by simp [empty]
  marks := by simp [empty]
  entries := by simp [empty]

omit [DecidableEq M] in
theorem ofNode_rule_ofNode (mark : Node → M) (n : Node) :
    RuleEntry.ofNode mark (RuleEntry.ofNode mark n).rule = RuleEntry.ofNode mark n := by
  simp [RuleEntry.ofNode]

/-- Insertion keeps one bucket for every key. -/
theorem nodup_keys_insert {m : RuleMap M} (h : m.keys.Nodup) (mark : Node → M) (key : BucketKey)
    (n : Node) : (m.insert mark key n).keys.Nodup := by
  rw [RuleMap.insert, RuleMap.keys, map_fst_insertInto]
  split
  · exact h
  · next hnew =>
    rw [List.nodup_append]
    refine ⟨h, by simp, ?_⟩
    intro x hx y hy hxy
    rw [List.mem_singleton] at hy
    exact hnew (hy ▸ hxy ▸ hx)

/-- Insertion keeps the invariant. -/
theorem Sound.insert {mark : Node → M} {m : RuleMap M} (h : m.Sound mark) (key : BucketKey)
    (n : Node) : (m.insert mark key n).Sound mark where
  keys := nodup_keys_insert h.keys mark key n
  nonempty := by
    intro b hb
    rcases mem_insertInto hb with hold | ⟨entries, _, rfl⟩
    · exact h.nonempty b hold
    · exact addEntry_ne_nil _ _
  marks := by
    intro b hb
    rcases mem_insertInto hb with hold | ⟨entries, hentries, rfl⟩
    · exact h.marks b hold
    · refine nodup_marks_addEntry _ ?_
      rcases hentries with rfl | hmem
      · exact List.nodup_nil
      · exact h.marks _ hmem
  entries := by
    intro b hb e he
    rcases mem_insertInto hb with hold | ⟨entries, hentries, rfl⟩
    · exact h.entries b hold e he
    · rcases mem_addEntry he with he | rfl
      · rcases hentries with rfl | hmem
        · exact absurd he List.not_mem_nil
        · exact h.entries _ hmem e he
      · exact (ofNode_rule_ofNode mark n).symm

/-! ## Merging -/

theorem contains_foldl_insert (mark : Node → M) (m : RuleMap M)
    (rules : List (BucketKey × Node)) (key : BucketKey) (x : M) :
    (rules.foldl (fun m p => m.insert mark p.1 p.2) m).contains key x = true ↔
      m.contains key x = true ∨ ∃ p ∈ rules, p.1 = key ∧ mark p.2.withoutPosition = x := by
  induction rules generalizing m with
  | nil => simp
  | cons p rules ih =>
    rw [List.foldl_cons, ih, contains_insert, Bool.or_eq_true, decide_eq_true_iff]
    constructor
    · intro hhas
      rcases hhas with (⟨hkey, hmark⟩ | hold) | ⟨q, hq, hnew⟩
      · exact .inr ⟨p, List.mem_cons_self, hkey.symm, hmark⟩
      · exact .inl hold
      · exact .inr ⟨q, List.mem_cons_of_mem _ hq, hnew⟩
    · intro hhas
      rcases hhas with hold | ⟨q, hq, hkey, hmark⟩
      · exact .inl (.inr hold)
      · rcases List.mem_cons.1 hq with rfl | hq
        · exact .inl (.inl ⟨hkey.symm, hmark⟩)
        · exact .inr ⟨q, hq, hkey, hmark⟩

/-- Merging adds the marks of the rules of the style sheet under their keys. -/
theorem contains_merge (mark : Node → M) (m : RuleMap M) (sheet : Stylesheet) (key : BucketKey)
    (x : M) :
    (m.merge mark sheet).contains key x = true ↔
      m.contains key x = true ∨
        ∃ p ∈ sheet.flatMap contributions, p.1 = key ∧ mark p.2.withoutPosition = x :=
  contains_foldl_insert mark m _ key x

/-! ## Subtraction -/

/-- What becomes of a bucket when the entries are taken away whose mark another map has under the
same key. -/
def bucketWithout (other : RuleMap M) (b : BucketKey × List (RuleEntry M)) :
    Option (BucketKey × List (RuleEntry M)) :=
  match b.2.filter fun e => !other.contains b.1 e.mark with
  | [] => none
  | left => some (b.1, left)

theorem bucketWithout_eq_some_iff {other : RuleMap M} {b b' : BucketKey × List (RuleEntry M)} :
    bucketWithout other b = some b' ↔
      b'.1 = b.1 ∧ b'.2 ≠ [] ∧ b'.2 = b.2.filter fun e => !other.contains b.1 e.mark := by
  rw [bucketWithout]
  constructor
  · intro h
    split at h
    · simp at h
    · next hne =>
      cases h
      exact ⟨rfl, hne, rfl⟩
  · intro hleft
    obtain ⟨hkey, hne, hleft⟩ := hleft
    rw [← hleft]
    split
    · next hnil =>
      exact absurd hnil hne
    · rw [← hkey]

/-- Subtraction goes bucket by bucket. -/
theorem Sound.buckets_subtract {mark : Node → M} {m : RuleMap M} (h : m.Sound mark)
    (other : RuleMap M) :
    (m.subtract other).buckets = m.buckets.filterMap (bucketWithout other) := by
  rw [subtract]
  refine List.filterMap_congr fun b hb => ?_
  obtain ⟨key, entries⟩ := b
  have hne : entries ≠ [] := h.nonempty _ hb
  cases hget : other.get? key with
  | none =>
    have hall : ∀ x, other.contains key x = false := fun x => by rw [contains, hget]; rfl
    simp only [bucketWithout, hget, hall, Bool.not_false, List.filter_true]
  | some theirs =>
    have hall : ∀ x, other.contains key x = hasMark theirs x := fun x => by
      rw [contains, hget]; rfl
    cases hleft : entries.filter fun e => !hasMark theirs e.mark with
    | nil => simp only [bucketWithout, hget, hall, hleft]
    | cons e rest => simp only [bucketWithout, hget, hall, hleft]

theorem Sound.mem_subtract_iff {mark : Node → M} {m : RuleMap M} (h : m.Sound mark)
    {other : RuleMap M} {b : BucketKey × List (RuleEntry M)} :
    b ∈ (m.subtract other).buckets ↔
      ∃ entries, (b.1, entries) ∈ m.buckets ∧ b.2 ≠ [] ∧
        b.2 = entries.filter fun e => !other.contains b.1 e.mark := by
  rw [h.buckets_subtract, List.mem_filterMap]
  constructor
  · intro hb
    obtain ⟨old, hold, hb⟩ := hb
    obtain ⟨hkey, hne, hleft⟩ := bucketWithout_eq_some_iff.1 hb
    rw [hkey]
    exact ⟨old.2, hold, hne, hleft⟩
  · intro hleft
    obtain ⟨entries, hold, hne, hleft⟩ := hleft
    exact ⟨_, hold, bucketWithout_eq_some_iff.2 ⟨rfl, hne, hleft⟩⟩

/-- Subtraction keeps the order of the keys that are left. -/
theorem Sound.keys_subtract_sublist {mark : Node → M} {m : RuleMap M} (h : m.Sound mark)
    (other : RuleMap M) : (m.subtract other).keys.Sublist m.keys := by
  rw [RuleMap.keys, RuleMap.keys, h.buckets_subtract]
  generalize m.buckets = buckets
  induction buckets with
  | nil => exact List.Sublist.refl _
  | cons b buckets ih =>
    cases hb : bucketWithout other b with
    | none =>
      rw [List.filterMap_cons_none hb]
      exact ih.cons _
    | some left =>
      rw [List.filterMap_cons_some hb, List.map_cons, List.map_cons,
        (bucketWithout_eq_some_iff.1 hb).1]
      exact ih.cons_cons _

/-- Subtraction keeps the invariant. -/
theorem Sound.subtract {mark : Node → M} {m : RuleMap M} (h : m.Sound mark) (other : RuleMap M) :
    (m.subtract other).Sound mark where
  keys := (h.keys_subtract_sublist other).nodup h.keys
  nonempty := by
    intro b hb
    obtain ⟨_, _, hne, _⟩ := h.mem_subtract_iff.1 hb
    exact hne
  marks := by
    intro b hb
    obtain ⟨entries, hmem, _, hleft⟩ := h.mem_subtract_iff.1 hb
    rw [hleft]
    exact (List.filter_sublist.map _).nodup (h.marks _ hmem)
  entries := by
    intro b hb e he
    obtain ⟨entries, hmem, _, hleft⟩ := h.mem_subtract_iff.1 hb
    rw [hleft] at he
    exact h.entries _ hmem e (List.mem_filter.1 he).1

/-- A difference has the marks that the other map does not have under the same key. -/
theorem Sound.contains_subtract {mark : Node → M} {m : RuleMap M} (h : m.Sound mark)
    (other : RuleMap M) (key : BucketKey) (x : M) :
    (m.subtract other).contains key x = true ↔
      m.contains key x = true ∧ other.contains key x = false := by
  rw [(h.subtract other).contains_iff, h.contains_iff]
  constructor
  · intro hx
    obtain ⟨left, hmem, e, he, hx⟩ := hx
    obtain ⟨entries, hold, _, hleft⟩ := h.mem_subtract_iff.1 hmem
    replace he : e ∈ entries.filter fun e => !other.contains key e.mark := hleft ▸ he
    obtain ⟨he, hnot⟩ := List.mem_filter.1 he
    exact ⟨⟨entries, hold, e, he, hx⟩, by rw [← hx]; simpa using hnot⟩
  · intro hnot
    obtain ⟨⟨entries, hold, e, he, hx⟩, hnot⟩ := hnot
    have hleft : e ∈ entries.filter fun e => !other.contains key e.mark :=
      List.mem_filter.2 ⟨he, by rw [hx, hnot]; rfl⟩
    exact ⟨_, h.mem_subtract_iff.2 ⟨entries, hold, List.ne_nil_of_mem hleft, rfl⟩, e, hleft, hx⟩

end CriticalCss.RuleMap
