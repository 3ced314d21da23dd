import CriticalCss.Proofs.RuleMap.Slots

/-!
# Merging an assembled style sheet

Assembling writes down the entries of a map bucket by bucket and leaves the keys out.  Merging the
style sheet works the keys out again: a media block names its condition, and the key of any other
rule follows from the rule itself.  So what comes back is the map without the entries that cannot be
printed, in the same order.

* `Reachable` are the maps that merging and subtraction make, and all of them are orderly.
* `foldl_insert_entries` says that a map is made of its entries: inserting them one after the other
  gives the map again.
* `Orderly.contributions_assemble` says that an assembled style sheet contributes the entries of the
  map that can be printed.
-/

namespace CriticalCss.RuleMap

variable {M : Type}

/-! ## The entries that can be printed -/

/-- The map without the entries that cannot be printed, and without the buckets that have no others.
-/
def emittable (m : RuleMap M) : RuleMap M :=
  ⟨(m.buckets.map fun b => (b.1, b.2.filter (·.isEmittable))).filter fun b => !b.2.isEmpty⟩

/-- The entries of a map with the keys of their buckets, in order. -/
def entries (m : RuleMap M) : List (BucketKey × RuleEntry M) :=
  m.buckets.flatMap fun b => b.2.map (b.1, ·)

theorem mem_emittable_iff {m : RuleMap M} {b : BucketKey × List (RuleEntry M)} :
    b ∈ m.emittable.buckets ↔
      ∃ b' ∈ m.buckets, b'.1 = b.1 ∧ b'.2.filter (·.isEmittable) = b.2 ∧ b.2 ≠ [] := by
  simp only [emittable, List.mem_filter, List.mem_map, Bool.not_eq_true', List.isEmpty_eq_false_iff]
  constructor
  · rintro ⟨⟨b', hb', rfl⟩, hne⟩
    exact ⟨b', hb', rfl, rfl, hne⟩
  · rintro ⟨b', hb', hkey, hentries, hne⟩
    exact ⟨⟨b', hb', Prod.ext hkey hentries⟩, hne⟩

/-- Leaving out entries keeps the order of the keys that are left. -/
theorem keys_emittable_sublist (m : RuleMap M) : m.emittable.keys.Sublist m.keys := by
  have hkeys : m.keys = (m.buckets.map fun b => (b.1, b.2.filter (·.isEmittable))).map (·.1) := by
    rw [List.map_map]
    rfl
  rw [hkeys]
  exact List.filter_sublist.map _

theorem Sound.emittable {mark : Node → M} {m : RuleMap M} (h : m.Sound mark) :
    m.emittable.Sound mark where
  keys := (keys_emittable_sublist m).nodup h.keys
  nonempty b hb := by
    obtain ⟨_, _, _, _, hne⟩ := mem_emittable_iff.1 hb
    exact hne
  marks b hb := by
    obtain ⟨b', hb', _, hentries, _⟩ := mem_emittable_iff.1 hb
    rw [← hentries]
    exact (List.filter_sublist.map _).nodup (h.marks b' hb')
  entries b hb e he := by
    obtain ⟨b', hb', _, hentries, _⟩ := mem_emittable_iff.1 hb
    rw [← hentries] at he
    exact h.entries b' hb' e (List.mem_filter.1 he).1

/-- A bucket without entries that can be printed adds no entries. -/
theorem entries_emittable (m : RuleMap M) :
    m.emittable.entries =
      m.buckets.flatMap fun b => (b.2.filter (·.isEmittable)).map (b.1, ·) := by
  rw [entries, emittable]
  induction m.buckets with
  | nil => rfl
  | cons b buckets ih =>
    rw [List.map_cons, List.filter_cons, List.flatMap_cons]
    split
    · rw [List.flatMap_cons, ih]
    · next hempty =>
      have hnil : b.2.filter (·.isEmittable) = [] := by simpa using hempty
      rw [ih, hnil]
      rfl

/-! ## A map is made of its entries -/

section Insertion

variable [DecidableEq M]

/-- An entry with a new mark goes to the end of its bucket. -/
theorem insertInto_last {key : BucketKey} {before : List (BucketKey × List (RuleEntry M))}
    (hkey : key ∉ before.map (·.1)) {es : List (RuleEntry M)} {e : RuleEntry M}
    (hmark : e.mark ∉ es.map (·.mark)) :
    insertInto key e (before ++ [(key, es)]) = before ++ [(key, es ++ [e])] := by
  induction before with
  | nil =>
    have hnew : hasMark es e.mark = false := by
      simpa [hasMark] using hmark
    rw [List.nil_append, insertInto, if_pos rfl, hnew]
    rfl
  | cons old before ih =>
    rw [List.map_cons, List.mem_cons, not_or] at hkey
    rw [List.cons_append, insertInto, if_neg (Ne.symm hkey.1), ih hkey.2, List.cons_append]

/-- An entry with a new key gets a bucket of its own at the end. -/
theorem insertInto_new {key : BucketKey} {buckets : List (BucketKey × List (RuleEntry M))}
    (hkey : key ∉ buckets.map (·.1)) (e : RuleEntry M) :
    insertInto key e buckets = buckets ++ [(key, [e])] := by
  induction buckets with
  | nil => rfl
  | cons old buckets ih =>
    rw [List.map_cons, List.mem_cons, not_or] at hkey
    rw [insertInto, if_neg (Ne.symm hkey.1), ih hkey.2, List.cons_append]

/-- The entries of a bucket are inserted one after the other. -/
theorem foldl_insertInto_bucket {key : BucketKey}
    {before : List (BucketKey × List (RuleEntry M))} (hkey : key ∉ before.map (·.1))
    {es more : List (RuleEntry M)} (hmarks : ((es ++ more).map (·.mark)).Nodup) :
    more.foldl (fun buckets e => insertInto key e buckets) (before ++ [(key, es)]) =
      before ++ [(key, es ++ more)] := by
  induction more generalizing es with
  | nil => rw [List.foldl_nil, List.append_nil]
  | cons e more ih =>
    have hmark : e.mark ∉ es.map (·.mark) := by
      rw [List.map_append, List.map_cons] at hmarks
      exact fun hmem => (List.nodup_append.1 hmarks).2.2 _ hmem _ List.mem_cons_self rfl
    rw [List.foldl_cons, insertInto_last hkey hmark, ih (by simpa using hmarks),
      List.append_assoc, List.singleton_append]

/-- The buckets of a map come back from their entries, behind other buckets with other keys. -/
theorem foldl_insertInto_entries {before buckets : List (BucketKey × List (RuleEntry M))}
    (hkeys : ((before ++ buckets).map (·.1)).Nodup) (hne : ∀ b ∈ buckets, b.2 ≠ [])
    (hmarks : ∀ b ∈ buckets, (b.2.map (·.mark)).Nodup) :
    (buckets.flatMap fun b => b.2.map (b.1, ·)).foldl
      (fun buckets p => insertInto p.1 p.2 buckets) before = before ++ buckets := by
  induction buckets generalizing before with
  | nil => rw [List.flatMap_nil, List.foldl_nil, List.append_nil]
  | cons b buckets ih =>
    obtain ⟨key, es⟩ := b
    obtain ⟨e, more, rfl⟩ := List.exists_cons_of_ne_nil (hne _ List.mem_cons_self)
    have hkey : key ∉ before.map (·.1) := by
      rw [List.map_append, List.map_cons] at hkeys
      exact fun hmem => (List.nodup_append.1 hkeys).2.2 _ hmem _ List.mem_cons_self rfl
    have hbucket : more.foldl (fun buckets e => insertInto key e buckets) (before ++ [(key, [e])]) =
        before ++ [(key, [e] ++ more)] :=
      foldl_insertInto_bucket hkey (hmarks _ List.mem_cons_self)
    rw [List.flatMap_cons, List.foldl_append, List.map_cons, List.foldl_cons, List.foldl_map,
      insertInto_new hkey, hbucket, ih]
    · rw [List.append_assoc]
      rfl
    · simpa using hkeys
    · exact fun b hb => hne b (List.mem_cons_of_mem _ hb)
    · exact fun b hb => hmarks b (List.mem_cons_of_mem _ hb)

/-- Inserting rules whose entries bear their marks is inserting the entries. -/
theorem buckets_foldl_insert {mark : Node → M} {ps : List (BucketKey × RuleEntry M)}
    (hps : ∀ p ∈ ps, p.2 = .ofNode mark p.2.rule) (m : RuleMap M) :
    (ps.foldl (fun m p => m.insert mark p.1 p.2.rule) m).buckets =
      ps.foldl (fun buckets p => insertInto p.1 p.2 buckets) m.buckets := by
  induction ps generalizing m with
  | nil => rfl
  | cons p ps ih =>
    rw [List.foldl_cons, List.foldl_cons, ih fun q hq => hps q (List.mem_cons_of_mem _ hq),
      insert, ← hps p List.mem_cons_self]

/-- A map comes back when its entries are inserted into the empty map in their order. -/
theorem foldl_insert_entries {mark : Node → M} {m : RuleMap M} (h : m.Sound mark) :
    (m.entries.map fun p => (p.1, p.2.rule)).foldl (fun m p => m.insert mark p.1 p.2) empty = m := by
  have hentries : ∀ p ∈ m.entries, p.2 = .ofNode mark p.2.rule := by
    intro p hp
    obtain ⟨b, hb, hp⟩ := List.mem_flatMap.1 hp
    obtain ⟨e, he, rfl⟩ := List.mem_map.1 hp
    exact h.entries b hb e he
  have hbuckets : (m.entries.foldl (fun m p => m.insert mark p.1 p.2.rule) empty).buckets =
      [] ++ m.buckets :=
    (buckets_foldl_insert hentries empty).trans
      (foldl_insertInto_entries h.keys h.nonempty h.marks)
  rw [List.foldl_map]
  exact congrArg RuleMap.mk hbuckets

end Insertion

/-! ## What an assembled style sheet contributes -/

/-- A condition without `all and ` at its start stays as it is. -/
theorem canonicalMedia_of_not_prefix {condition : String}
    (h : ¬ "all and ".toList <+: condition.toList) : canonicalMedia condition = condition := by
  rw [canonicalMedia]
  exact if_neg fun hlead => h (List.isPrefixOf_iff_prefix.1 hlead)

/-- The rules of a bucket that can be printed go back to the bucket. -/
theorem Orderly.contributions_assembleBucket {mark : Node → M} {m : RuleMap M}
    (h : m.Orderly mark) {b : BucketKey × List (RuleEntry M)} (hb : b ∈ m.buckets)
    (hcondition : ∀ condition, b.1 = .media condition → canonicalMedia condition = condition) :
    (assembleBucket .skip b.1 b.2).flatMap contributions = (printed b.2).map (b.1, ·) := by
  have hprinted := h.mem_printed hb
  obtain ⟨key, es⟩ := b
  cases key with
  | media condition =>
    have hrules : (printed es).filter (!·.isComment) = printed es :=
      List.filter_eq_self.2 fun n hn => by rw [(hprinted n hn).1.isComment]; rfl
    rw [assembleBucket_media]
    split
    · next hnil =>
      rw [hnil]
      rfl
    · rw [List.flatMap_singleton, contributions, hrules, hcondition condition rfl]
  | rule key =>
    rw [assembleBucket_rule, ← List.flatMap_pure_eq_map]
    refine List.flatMap_congr fun n hn => ?_
    obtain ⟨⟨hkey, hnone⟩, _⟩ := hprinted n hn
    rw [contributions_of_condition?_eq_none hnone, hkey]
    rfl

/-- An assembled style sheet contributes the entries of the map that can be printed. -/
theorem Orderly.contributions_assemble {mark : Node → M} {m : RuleMap M} (h : m.Orderly mark)
    (hconditions : ∀ condition, .media condition ∈ m.keys →
      ¬ "all and ".toList <+: condition.toList) :
    (m.assemble .skip).flatMap contributions =
      m.emittable.entries.map fun p => (p.1, p.2.rule) := by
  rw [assemble_skip, List.flatMap_assoc, entries_emittable, List.map_flatMap]
  refine List.flatMap_congr fun b hb => ?_
  have hcanonical : ∀ condition, b.1 = .media condition → canonicalMedia condition = condition := by
    intro condition hkey
    refine canonicalMedia_of_not_prefix (hconditions condition ?_)
    rw [← hkey]
    exact List.mem_map_of_mem hb
  rw [h.contributions_assembleBucket hb hcanonical, printed, List.filter_map, List.map_map,
    List.map_map]
  rfl

/-! ## The way there and back -/

/-- The maps that merging style sheets and subtracting such maps make of the empty map. -/
inductive Reachable [DecidableEq M] (mark : Node → M) : RuleMap M → Prop where
  | empty : Reachable mark empty
  | merge {m : RuleMap M} (h : Reachable mark m) (sheet : Stylesheet) :
    Reachable mark (m.merge mark sheet)
  | subtract {m other : RuleMap M} (h : Reachable mark m) (hother : Reachable mark other) :
    Reachable mark (m.subtract other)

theorem Reachable.orderly [DecidableEq M] {mark : Node → M} {m : RuleMap M}
    (h : Reachable mark m) : m.Orderly mark := by
  induction h with
  | empty => exact orderly_empty mark
  | merge _ sheet ih => exact ih.merge sheet
  | subtract _ _ ih _ => exact ih.subtract _

/-- Merging an assembled style sheet gives the map again, in the same order, without the entries
that cannot be printed.  A condition that begins with `all and ` would lose these words on the way.
-/
theorem ofStylesheet_assemble [DecidableEq M] {mark : Node → M} {m : RuleMap M}
    (h : Reachable mark m)
    (hconditions : ∀ condition, .media condition ∈ m.keys →
      ¬ "all and ".toList <+: condition.toList) :
    ofStylesheet mark (m.assemble .skip) = m.emittable := by
  rw [ofStylesheet, merge, h.orderly.contributions_assemble hconditions]
  exact foldl_insert_entries h.orderly.toSound.emittable

/-- A style sheet with media blocks for one condition that is written in two ways, a media block in
another one, a rule without declarations, and a style rule with the key of statements. -/
def printAndScreen : Stylesheet :=
  [.block (.media "all and print") [.ofStyle ["nav"] [⟨"color", "red"⟩], .ofStyle ["p"] []] none,
    .item (.style ["main"] [⟨"top", "0"⟩]) (some ⟨3, 1⟩), .ofStyle ["h1"] [],
    .item (.statement "layer" "base") none, .ofStyle ["default"] [⟨"top", "1"⟩],
    .block (.media "screen")
      [.block (.media "all and (color)") [.ofStyle ["nav"] [⟨"color", "red"⟩]] none] none,
    .block (.media "print") [.ofStyle ["nav"] [⟨"color", "blue"⟩]] none]

/-- What the style sheet holds but for its statement. -/
def printAndScreenMap : RuleMap Node :=
  (merge id empty printAndScreen).subtract (merge id empty [.item (.statement "layer" "base") none])

/-- The rules without declarations are gone, and all else is where it was. -/
theorem ofStylesheet_assemble_printAndScreen :
    Reachable id printAndScreenMap ∧
      (∀ condition, .media condition ∈ printAndScreenMap.keys →
        ¬ "all and ".toList <+: condition.toList) ∧
      (ofStylesheet id (printAndScreenMap.assemble .skip)).buckets =
        [(.media "print", [.ofNode id (.ofStyle ["nav"] [⟨"color", "red"⟩]),
            .ofNode id (.ofStyle ["nav"] [⟨"color", "blue"⟩])]),
          (.rule "main", [.ofNode id (.ofStyle ["main"] [⟨"top", "0"⟩])]),
          (.rule "default", [.ofNode id (.ofStyle ["default"] [⟨"top", "1"⟩])]),
          (.media "screen", [.ofNode id (.block (.media "all and (color)")
            [.ofStyle ["nav"] [⟨"color", "red"⟩]] none)])] := by
  have hreachable : Reachable id printAndScreenMap :=
    .subtract (.merge .empty printAndScreen) (.merge .empty _)
  have hconditions : ∀ condition, .media condition ∈ printAndScreenMap.keys →
      ¬ "all and ".toList <+: condition.toList := by
    have hkeys : printAndScreenMap.keys =
        [.media "print", .rule "main", .rule "h1", .rule "default", .media "screen"] := by
      decide +kernel
    intro condition hmem
    rw [hkeys] at hmem
    simp only [List.mem_cons, BucketKey.media.injEq, reduceCtorEq, List.not_mem_nil, false_or,
      or_false] at hmem
    rcases hmem with rfl | rfl <;> decide +kernel
  refine ⟨hreachable, hconditions, ?_⟩
  rw [ofStylesheet_assemble hreachable hconditions]
  decide +kernel

end CriticalCss.RuleMap
