import CriticalCss.Proofs.RuleMap.Sound
import CriticalCss.Run.Output
import Mathlib.Data.List.Perm.Subperm

/-!
# Merging in any order and any number of times

What a rule map has is told by its marks: which marks it has under which keys.  Merging style sheets
adds their marks, so neither the order of the style sheets nor how often each of them comes has an
influence on what the result has, and a style sheet that was merged once changes nothing when it is
merged again.  All of this holds for every function that marks rules, also for one that gives
different rules the same mark.

* `Sound.sameContent_iff` says that two maps have the same content when they have the same marks
  under the same keys.
* `equal_iff` says that two maps are equal when they have the same buckets, in any order, and
  `equal_merge` that merging a style sheet into equal maps gives equal maps.
* `merge_of_absorbs` says that merging changes nothing when all marks are there.
* `mergeAll_of_same_members` is the result for maps made by merging.
-/

namespace CriticalCss

namespace RuleMap

variable {M : Type} [DecidableEq M] {mark : Node → M}

/-! ## Same content -/

/-- Every key of a sound map has a mark under it. -/
theorem Sound.mem_keys_iff {m : RuleMap M} (h : m.Sound mark) {key : BucketKey} :
    key ∈ m.keys ↔ ∃ x, m.contains key x = true := by
  rw [RuleMap.keys, List.mem_map]
  constructor
  · rintro ⟨⟨k, entries⟩, hb, rfl⟩
    obtain ⟨e, he⟩ := List.exists_mem_of_ne_nil entries (h.nonempty _ hb)
    exact ⟨e.mark, h.contains_iff.2 ⟨entries, hb, e, he, rfl⟩⟩
  · rintro ⟨x, hx⟩
    obtain ⟨entries, hb, _⟩ := h.contains_iff.1 hx
    exact ⟨_, hb, rfl⟩

theorem hasMark_eq_contains {m : RuleMap M} {key : BucketKey} {entries : List (RuleEntry M)}
    (hget : m.get? key = some entries) (x : M) : hasMark entries x = m.contains key x := by
  rw [contains, hget]
  rfl

/-- A bucket has only marks that another one has. -/
theorem marksIn_iff {entries others : List (RuleEntry M)} :
    marksIn entries others = true ↔ ∀ x, hasMark entries x = true → hasMark others x = true := by
  simp only [marksIn, hasMark, List.all_eq_true, List.any_eq_true, decide_eq_true_eq]
  constructor
  · rintro h x ⟨e, he, rfl⟩
    exact h e he
  · intro h e he
    exact h e.mark ⟨e, he, rfl⟩

/-- Two sound maps have the same content when they have the same marks under the same keys. -/
theorem Sound.sameContent_iff {a b : RuleMap M} (ha : a.Sound mark) (hb : b.Sound mark) :
    a.sameContent b = true ↔ ∀ key x, a.contains key x = b.contains key x := by
  have hbucket : ∀ {key entries theirs}, (key, entries) ∈ a.buckets → b.get? key = some theirs →
      ((marksIn entries theirs && marksIn theirs entries) = true ↔
        ∀ x, a.contains key x = b.contains key x) := by
    intro key entries theirs hmem hget
    have hmine := hasMark_eq_contains (ha.get?_eq_some hmem)
    have htheirs := hasMark_eq_contains hget
    simp only [Bool.and_eq_true, marksIn_iff, hmine, htheirs, ← forall_and,
      ← iff_def, ← Bool.eq_iff_iff]
  rw [sameContent, Bool.and_eq_true, decide_eq_true_eq, List.all_eq_true]
  constructor
  · rintro ⟨hlength, hall⟩ key x
    have hsame : ∀ key ∈ a.keys, key ∈ b.keys ∧ ∀ x, a.contains key x = b.contains key x := by
      intro key hkey
      obtain ⟨⟨k, entries⟩, hmem, rfl⟩ := List.mem_map.1 hkey
      obtain ⟨theirs, hget, hmarks⟩ := (Option.any_eq_true _ _).1 (hall _ hmem)
      have hmem' := mem_of_get?_eq_some hget
      exact ⟨List.mem_map.2 ⟨_, hmem', rfl⟩, (hbucket hmem hget).1 hmarks⟩
    -- As many keys without repetition, and all of them among those of `b`: they are the same.
    have hperm : a.keys.Perm b.keys := by
      refine (List.subperm_of_subset ha.keys fun k hk => (hsame k hk).1).perm_of_length_le ?_
      simp [RuleMap.keys, hlength]
    by_cases hkey : key ∈ a.keys
    · exact (hsame key hkey).2 x
    · have hkey' : key ∉ b.keys := fun h => hkey (hperm.mem_iff.2 h)
      rw [ha.mem_keys_iff, not_exists] at hkey
      rw [hb.mem_keys_iff, not_exists] at hkey'
      rw [Bool.eq_false_iff.2 (hkey x), Bool.eq_false_iff.2 (hkey' x)]
  · intro hsame
    have hkeys : ∀ key, key ∈ a.keys ↔ key ∈ b.keys := by
      intro key
      rw [ha.mem_keys_iff, hb.mem_keys_iff]
      simp only [hsame]
    have hperm : a.keys.Perm b.keys := (List.perm_ext_iff_of_nodup ha.keys hb.keys).2 hkeys
    refine ⟨by simpa [RuleMap.keys] using hperm.length_eq, ?_⟩
    rintro ⟨key, entries⟩ hmem
    have hkey : key ∈ b.keys := (hkeys key).1 (List.mem_map_of_mem hmem)
    obtain ⟨⟨k, theirs⟩, hmem', rfl⟩ := List.mem_map.1 hkey
    have hget := hb.get?_eq_some hmem'
    exact (Option.any_eq_true _ _).2 ⟨theirs, hget, (hbucket hmem hget).2 (hsame k)⟩

/-! ## Equal maps -/

omit [DecidableEq M] in
theorem mem_keys_iff_exists_get? {m : RuleMap M} (hkeys : m.keys.Nodup) {key : BucketKey} :
    key ∈ m.keys ↔ ∃ entries, m.get? key = some entries := by
  rw [RuleMap.keys, List.mem_map]
  constructor
  · rintro ⟨⟨k, entries⟩, hb, rfl⟩
    exact ⟨entries, get?_eq_some_of_mem hkeys hb⟩
  · rintro ⟨entries, hget⟩
    exact ⟨_, mem_of_get?_eq_some hget, rfl⟩

/-- Two maps with one bucket for every key are equal when they have the same bucket for every key.
-/
theorem equal_iff {a b : RuleMap M} (ha : a.keys.Nodup) (hb : b.keys.Nodup) :
    a.equal b = true ↔ ∀ key, a.get? key = b.get? key := by
  rw [equal, Bool.and_eq_true, decide_eq_true_eq, List.all_eq_true]
  simp only [decide_eq_true_eq]
  constructor
  · rintro ⟨hlength, hall⟩ key
    -- As many buckets, and all of those of `a` among those of `b`: they are the same.
    have hsubset : a.buckets ⊆ b.buckets := fun p hp => mem_of_get?_eq_some (hall p hp)
    have hperm : a.buckets.Perm b.buckets :=
      (List.subperm_of_subset (List.Nodup.of_map _ ha) hsubset).perm_of_length_le (Nat.le_of_eq hlength.symm)
    refine Option.ext fun entries => ?_
    constructor
    · exact fun h => get?_eq_some_of_mem hb (hperm.mem_iff.1 (mem_of_get?_eq_some h))
    · exact fun h => get?_eq_some_of_mem ha (hperm.mem_iff.2 (mem_of_get?_eq_some h))
  · intro hsame
    have hkeys : a.keys.Perm b.keys := by
      refine (List.perm_ext_iff_of_nodup ha hb).2 fun key => ?_
      rw [mem_keys_iff_exists_get? ha, mem_keys_iff_exists_get? hb, hsame]
    refine ⟨by simpa [RuleMap.keys] using hkeys.length_eq, ?_⟩
    rintro ⟨key, entries⟩ hmem
    rw [← hsame]
    exact get?_eq_some_of_mem ha hmem

theorem lookup_insertInto_self (key : BucketKey) (e : RuleEntry M)
    (buckets : List (BucketKey × List (RuleEntry M))) :
    (insertInto key e buckets).lookup key =
      some (addEntry ((buckets.lookup key).getD []) e) := by
  induction buckets with
  | nil => simp [insertInto, addEntry, hasMark]
  | cons old buckets ih =>
    obtain ⟨k, entries⟩ := old
    rw [insertInto]
    by_cases hkey : k = key
    · rw [if_pos hkey, hkey, List.lookup_cons_self, List.lookup_cons_self]
      rfl
    · have hne : (key == k) = false := beq_eq_false_iff_ne.2 (Ne.symm hkey)
      rw [if_neg hkey, List.lookup_cons, List.lookup_cons, hne]
      exact ih

theorem lookup_insertInto_of_ne {key k : BucketKey} (hk : k ≠ key) (e : RuleEntry M)
    (buckets : List (BucketKey × List (RuleEntry M))) :
    (insertInto key e buckets).lookup k = buckets.lookup k := by
  have hne : (k == key) = false := beq_eq_false_iff_ne.2 hk
  induction buckets with
  | nil => rw [insertInto, List.lookup_cons, hne]
  | cons old buckets ih =>
    obtain ⟨old, entries⟩ := old
    rw [insertInto]
    split
    · next hold =>
      rw [List.lookup_cons, List.lookup_cons, hold, hne]
    · rw [List.lookup_cons, List.lookup_cons, ih]

/-- An insertion adds the entry to the bucket of its key and leaves the other buckets alone. -/
theorem get?_insert (mark : Node → M) (m : RuleMap M) (key : BucketKey) (n : Node)
    (k : BucketKey) :
    (m.insert mark key n).get? k =
      if k = key then some (addEntry ((m.get? key).getD []) (.ofNode mark n)) else m.get? k := by
  split
  · next hk =>
    rw [hk]
    exact lookup_insertInto_self key _ m.buckets
  · next hk =>
    exact lookup_insertInto_of_ne hk _ m.buckets

theorem nodup_keys_merge {m : RuleMap M} (h : m.keys.Nodup) (mark : Node → M)
    (sheet : Stylesheet) : (m.merge mark sheet).keys.Nodup := by
  rw [merge]
  induction sheet.flatMap contributions generalizing m with
  | nil => exact h
  | cons p rules ih => exact ih (nodup_keys_insert h mark p.1 p.2)

/-- Merging a style sheet into equal maps gives equal maps. -/
theorem equal_merge {a b : RuleMap M} (ha : a.keys.Nodup) (hb : b.keys.Nodup)
    (hequal : a.equal b = true) (mark : Node → M) (sheet : Stylesheet) :
    (a.merge mark sheet).equal (b.merge mark sheet) = true := by
  rw [equal_iff (nodup_keys_merge ha mark sheet) (nodup_keys_merge hb mark sheet)]
  rw [equal_iff ha hb] at hequal
  clear ha hb
  rw [merge, merge]
  induction sheet.flatMap contributions generalizing a b with
  | nil => exact hequal
  | cons p rules ih =>
    refine ih fun key => ?_
    rw [get?_insert, get?_insert, hequal, hequal]

/-! ## Merging what is there -/

theorem insertInto_of_hasMark {key : BucketKey} {e : RuleEntry M}
    {buckets : List (BucketKey × List (RuleEntry M))}
    (h : (buckets.lookup key).any (hasMark · e.mark) = true) :
    insertInto key e buckets = buckets := by
  induction buckets with
  | nil => simp at h
  | cons old buckets ih =>
    obtain ⟨k, entries⟩ := old
    rw [List.lookup_cons] at h
    rw [insertInto]
    by_cases hkey : k = key
    · have hmark : hasMark entries e.mark = true := by simpa [hkey] using h
      rw [if_pos hkey, if_pos hmark]
    · have hrest : (buckets.lookup key).any (hasMark · e.mark) = true := by
        simpa [beq_eq_false_iff_ne.2 (Ne.symm hkey)] using h
      rw [if_neg hkey, ih hrest]

/-- Adding a rule whose mark is in its bucket changes nothing. -/
theorem insert_of_contains {m : RuleMap M} {key : BucketKey} {n : Node}
    (h : m.contains key (mark n.withoutPosition) = true) : m.insert mark key n = m := by
  have hbuckets : insertInto key (.ofNode mark n) m.buckets = m.buckets := insertInto_of_hasMark h
  rw [insert, hbuckets]

/-- A map absorbs a style sheet when it has the marks of all rules of the style sheet. -/
def Absorbs (mark : Node → M) (m : RuleMap M) (sheet : Stylesheet) : Prop :=
  ∀ p ∈ sheet.flatMap contributions, m.contains p.1 (mark p.2.withoutPosition) = true

/-- Merging a style sheet that is absorbed changes nothing: neither the keys, nor the entries, nor
the order of either. -/
theorem merge_of_absorbs {m : RuleMap M} {sheet : Stylesheet} (h : m.Absorbs mark sheet) :
    m.merge mark sheet = m := by
  rw [Absorbs] at h
  rw [merge]
  generalize sheet.flatMap contributions = rules at h
  induction rules with
  | nil => rfl
  | cons p rules ih =>
    rw [List.foldl_cons, insert_of_contains (h p List.mem_cons_self)]
    exact ih fun q hq => h q (List.mem_cons_of_mem _ hq)

/-! ## Merging many style sheets -/

theorem Sound.merge {m : RuleMap M} (h : m.Sound mark) (sheet : Stylesheet) :
    (m.merge mark sheet).Sound mark := by
  rw [RuleMap.merge]
  generalize sheet.flatMap contributions = rules
  induction rules generalizing m with
  | nil => exact h
  | cons p rules ih => exact ih (h.insert p.1 p.2)

theorem Sound.foldl_merge {m : RuleMap M} (h : m.Sound mark) (sheets : List Stylesheet) :
    (sheets.foldl (RuleMap.merge mark) m).Sound mark := by
  induction sheets generalizing m with
  | nil => exact h
  | cons sheet sheets ih => exact ih (h.merge sheet)

/-- Merging style sheets adds the marks of all of them. -/
theorem contains_foldl_merge (mark : Node → M) (m : RuleMap M) (sheets : List Stylesheet)
    (key : BucketKey) (x : M) :
    (sheets.foldl (RuleMap.merge mark) m).contains key x = true ↔
      m.contains key x = true ∨ ∃ sheet ∈ sheets, ∃ p ∈ sheet.flatMap contributions,
        p.1 = key ∧ mark p.2.withoutPosition = x := by
  induction sheets generalizing m with
  | nil => simp
  | cons sheet sheets ih =>
    rw [List.foldl_cons, ih, contains_merge, List.exists_mem_cons_iff, or_assoc]

/-- A map absorbs the style sheets that were merged into it at some point. -/
theorem absorbs_foldl_merge {m : RuleMap M} {sheets : List Stylesheet} {sheet : Stylesheet}
    (hsheet : sheet ∈ sheets) : (sheets.foldl (RuleMap.merge mark) m).Absorbs mark sheet :=
  fun p hp => (contains_foldl_merge mark m sheets _ _).2 (.inr ⟨sheet, hsheet, p, hp, rfl, rfl⟩)

end RuleMap

namespace Run

variable {M : Type} [DecidableEq M]

theorem sound_mergeAll (mark : Node → M) (sheets : List Stylesheet) :
    (mergeAll mark sheets).Sound mark :=
  (RuleMap.sound_empty mark).foldl_merge sheets

/-- Which style sheets there are decides what merging them gives, and neither their order nor how
often each of them comes does.  Merging one of them again changes nothing at all. -/
theorem mergeAll_of_same_members (mark : Node → M) {sheets sheets' : List Stylesheet}
    (hsame : ∀ sheet, sheet ∈ sheets' ↔ sheet ∈ sheets) :
    (mergeAll mark sheets).sameContent (mergeAll mark sheets') = true ∧
      ∀ sheet ∈ sheets, (mergeAll mark sheets).merge mark sheet = mergeAll mark sheets := by
  constructor
  · rw [(sound_mergeAll mark sheets).sameContent_iff (sound_mergeAll mark sheets')]
    intro key x
    rw [Bool.eq_iff_iff, mergeAll, mergeAll, RuleMap.contains_foldl_merge,
      RuleMap.contains_foldl_merge]
    simp only [hsame]
  · intro sheet hsheet
    exact RuleMap.merge_of_absorbs (RuleMap.absorbs_foldl_merge hsheet)

/-- A mark that tells rules by their kind only. -/
def kindMark (n : Node) : Kind := n.kind

/-- Style sheets with a rule at top level and rules in media blocks, whose condition is written in
two ways.  The two rules in media blocks have the same mark. -/
def printSheets : List Stylesheet :=
  [[.ofStyle ["a"] [⟨"top", "0"⟩], .block (.media "print") [.ofStyle ["b"] []] (some ⟨1, 1⟩)],
    [.block (.media "all and print") [.ofStyle ["c"] []] none, .item (.comment "x") none]]

/-- The two style sheets give the same content in either order and when one of them comes twice,
although the map keeps another rule of the media blocks each time. -/
theorem mergeAll_of_same_members_printSheets :
    (∀ sheet, sheet ∈ printSheets.reverse ++ printSheets ↔ sheet ∈ printSheets) ∧
      (mergeAll kindMark printSheets).sameContent
        (mergeAll kindMark (printSheets.reverse ++ printSheets)) = true ∧
      (∀ sheet ∈ printSheets, (mergeAll kindMark printSheets).merge kindMark sheet =
        mergeAll kindMark printSheets) ∧
      (mergeAll kindMark printSheets).get? (.media "print") =
        some [⟨.rule, .ofStyle ["b"] []⟩] ∧
      (mergeAll kindMark (printSheets.reverse ++ printSheets)).get? (.media "print") =
        some [⟨.rule, .ofStyle ["c"] []⟩] := by
  have hsame : ∀ sheet, sheet ∈ printSheets.reverse ++ printSheets ↔ sheet ∈ printSheets := by
    intro sheet
    rw [List.mem_append, List.mem_reverse, or_self]
  obtain ⟨hcontent, hagain⟩ := mergeAll_of_same_members kindMark hsame
  exact ⟨hsame, hcontent, hagain, by decide, by decide⟩

end Run

end CriticalCss
