import CriticalCss.Proofs.RuleMap.Sound
import Mathlib.Data.List.Flatten
import Mathlib.Data.List.TakeWhile

/-!
# What a style sheet and a rule map hold

A slot is a rule without places, together with the condition of the media block it stands in, if it
stands in one.  Slots are what a rule map is about: style sheets go in, style sheets come out, and
the slots tell what happened in between.

* `Orderly.mem_slots_merge_iff` and `Orderly.mem_slots_subtract_iff` say what merging and
  subtraction do to the slots of a map, for marks that tell rules apart.
* `Orderly.slots_assemble` says that a map becomes a style sheet with the slots of the map that can
  be printed, in the same order.
* `Orderly.nodup_slots` and `Orderly.nodup_conditions_assemble` say that nothing comes out twice.
-/

namespace CriticalCss

/-! ## Slots -/

/-- The condition of a media block around a rule, and the rule without places. -/
abbrev Slot := Option String × Node

/-- The condition of the media blocks that a bucket stands for. -/
def BucketKey.condition? : BucketKey → Option String
  | .media condition => some condition
  | .rule _ => none

/-- The condition of a media block. -/
def Node.condition? : Node → Option String
  | .block (.media condition) _ _ => some condition
  | _ => none

/-- The slots of a top-level node: for a media block the rules directly in it, whose condition is
read by `canonical`, and for any other node the node itself.  Comments have no slot. -/
def Node.slots (canonical : String → String) : Node → List Slot
  | .block (.media condition) rules _ =>
    (rules.filter (!·.isComment)).map fun n => (some (canonical condition), n.withoutPosition)
  | n => if n.isComment then [] else [(none, n.withoutPosition)]

/-- The slots of a style sheet. -/
def Stylesheet.slots (canonical : String → String) (sheet : Stylesheet) : List Slot :=
  sheet.flatMap (Node.slots canonical)

/-- Whether a rule can be printed: a rule with a declaration block needs a declaration. -/
def Node.isEmittable (n : Node) : Bool :=
  n.declarations?.all (!·.isEmpty)

/-- A node with a condition is a media block. -/
theorem Node.eq_block_of_condition? {n : Node} {condition : String}
    (h : n.condition? = some condition) : ∃ rules p, n = .block (.media condition) rules p := by
  cases n with
  | item i p => simp [Node.condition?] at h
  | block heading rules p =>
    cases heading with
    | media c =>
      rw [Node.condition?, Option.some.injEq] at h
      exact ⟨rules, p, by rw [h]⟩
    | _ => simp [Node.condition?] at h

/-- The slot of a node that is no media block. -/
theorem Node.slots_of_condition?_eq_none {n : Node} (canonical : String → String)
    (h : n.condition? = none) :
    n.slots canonical = if n.isComment then [] else [(none, n.withoutPosition)] := by
  cases n with
  | item i p => rfl
  | block heading rules p =>
    cases heading with
    | media c => simp [Node.condition?] at h
    | _ => rfl

@[simp]
theorem Node.condition?_withoutPosition (n : Node) :
    n.withoutPosition.condition? = n.condition? := by
  cases n with
  | item i p => rfl
  | block heading rules p => cases heading <;> rfl

namespace RuleMap

/-- A node may stand in a bucket: in that of a media condition unless it is a comment, and in that
of a key if the key is its own and it is no media block. -/
def Belongs : BucketKey → Node → Prop
  | .media _, n => n.isComment = false
  | .rule key, n => n.key? "" = some key ∧ n.condition? = none

theorem Belongs.withoutPosition {key : BucketKey} {n : Node} (h : Belongs key n) :
    Belongs key n.withoutPosition := by
  cases key with
  | media condition => simpa [Belongs] using h
  | rule key => simpa [Belongs] using h

theorem Belongs.isComment {key : BucketKey} {n : Node} (h : Belongs key n) :
    n.isComment = false := by
  cases key with
  | media condition => exact h
  | rule key =>
    have hsome : (n.key? "").isSome = true := by rw [h.1]; rfl
    rwa [Node.isSome_key?, Bool.not_eq_true'] at hsome

/-- What a node contributes that is no media block. -/
theorem contributions_of_condition?_eq_none {n : Node} (h : n.condition? = none) :
    contributions n = (n.key? "").toList.map fun key => (.rule key, n) := by
  cases n with
  | item i p => rfl
  | block heading rules p =>
    cases heading with
    | media c => simp [Node.condition?] at h
    | _ => rfl

/-- What a node contributes belongs to the bucket it goes to. -/
theorem belongs_of_mem_contributions {n : Node} {p : BucketKey × Node} (hp : p ∈ contributions n) :
    Belongs p.1 p.2 := by
  cases hcondition : n.condition? with
  | some condition =>
    obtain ⟨rules, place, rfl⟩ := Node.eq_block_of_condition? hcondition
    rw [contributions, List.mem_map] at hp
    obtain ⟨rule, hrule, rfl⟩ := hp
    have hcomment : rule.isComment = false := by simpa using (List.mem_filter.1 hrule).2
    exact hcomment
  | none =>
    rw [contributions_of_condition?_eq_none hcondition, List.mem_map] at hp
    obtain ⟨key, hkey, rfl⟩ := hp
    exact ⟨by simpa using hkey, hcondition⟩

/-- The bucket of a slot. -/
def bucketOf (slot : Slot) : BucketKey :=
  match slot.1 with
  | some condition => .media condition
  | none => .rule ((slot.2.key? "").getD "")

@[simp]
theorem condition?_bucketOf (slot : Slot) : (bucketOf slot).condition? = slot.1 := by
  obtain ⟨condition, n⟩ := slot
  cases condition <;> rfl

/-- A node belongs to one bucket with a condition only. -/
theorem Belongs.eq_bucketOf {key : BucketKey} {n : Node} (h : Belongs key n) :
    key = bucketOf (key.condition?, n) := by
  cases key with
  | media condition => rfl
  | rule key => simp [bucketOf, BucketKey.condition?, h.1]

/-- The slot of a rule in a bucket. -/
def slotOf (p : BucketKey × Node) : Slot :=
  (p.1.condition?, p.2.withoutPosition)

/-- The slots of a node are what it contributes. -/
theorem slots_eq_map_contributions (n : Node) :
    n.slots canonicalMedia = (contributions n).map slotOf := by
  cases hcondition : n.condition? with
  | some condition =>
    obtain ⟨rules, place, rfl⟩ := Node.eq_block_of_condition? hcondition
    rw [Node.slots, contributions, List.map_map]
    rfl
  | none =>
    rw [Node.slots_of_condition?_eq_none _ hcondition,
      contributions_of_condition?_eq_none hcondition, List.map_map]
    have hsome := n.isSome_key? ""
    cases hkey : n.key? "" with
    | none =>
      rw [hkey] at hsome
      have hcomment : n.isComment = true := by simpa using hsome
      rw [hcomment]
      rfl
    | some key =>
      rw [hkey] at hsome
      have hcomment : n.isComment = false := by simpa using hsome
      rw [hcomment]
      rfl

theorem mem_slots_iff {sheet : Stylesheet} {slot : Slot} :
    slot ∈ sheet.slots canonicalMedia ↔ ∃ p ∈ sheet.flatMap contributions, slotOf p = slot := by
  have hslots : sheet.slots canonicalMedia = (sheet.flatMap contributions).map slotOf := by
    rw [Stylesheet.slots, List.map_flatMap]
    exact List.flatMap_congr fun n _ => slots_eq_map_contributions n
  rw [hslots, List.mem_map]

variable {M : Type}

/-- The slots of a map. -/
def slots (m : RuleMap M) : List Slot :=
  m.buckets.flatMap fun b => b.2.map fun e => (b.1.condition?, e.rule)

/-- A sound map every rule of which belongs to its bucket. -/
structure Orderly (mark : Node → M) (m : RuleMap M) : Prop extends Sound mark m where
  belongs : ∀ b ∈ m.buckets, ∀ e ∈ b.2, Belongs b.1 e.rule

theorem Orderly.withoutPosition_rule {mark : Node → M} {m : RuleMap M} (h : m.Orderly mark)
    {b : BucketKey × List (RuleEntry M)} (hb : b ∈ m.buckets) {e : RuleEntry M} (he : e ∈ b.2) :
    e.rule.withoutPosition = e.rule ∧ e.mark = mark e.rule := by
  have hentry := h.entries b hb e he
  have hrule : e.rule = e.rule.withoutPosition := congrArg RuleEntry.rule hentry
  refine ⟨hrule.symm, ?_⟩
  rw [hrule]
  exact congrArg RuleEntry.mark hentry

/-- A key is that of the bucket of every slot that its bucket gives. -/
theorem Orderly.eq_bucketOf {mark : Node → M} {m : RuleMap M} (h : m.Orderly mark)
    {b : BucketKey × List (RuleEntry M)} (hb : b ∈ m.buckets) {slot : Slot}
    (hslot : slot ∈ b.2.map fun e => (b.1.condition?, e.rule)) : b.1 = bucketOf slot := by
  obtain ⟨e, he, rfl⟩ := List.mem_map.1 hslot
  exact (h.belongs b hb e he).eq_bucketOf

section Marks

variable [DecidableEq M]

/-! ## Merged and subtracted maps are orderly -/

omit [DecidableEq M] in
theorem orderly_empty (mark : Node → M) : Orderly mark empty where
  toSound := sound_empty mark
  belongs := by simp [empty]

theorem Orderly.insert {mark : Node → M} {m : RuleMap M} (h : m.Orderly mark) {key : BucketKey}
    {n : Node} (hn : Belongs key n) : (m.insert mark key n).Orderly mark where
  toSound := h.toSound.insert key n
  belongs := by
    intro b hb e he
    rcases mem_insertInto hb with hold | ⟨entries, hentries, rfl⟩
    · exact h.belongs b hold e he
    · rcases mem_addEntry he with he | rfl
      · rcases hentries with rfl | hmem
        · exact absurd he List.not_mem_nil
        · exact h.belongs _ hmem e he
      · exact hn.withoutPosition

theorem Orderly.merge {mark : Node → M} {m : RuleMap M} (h : m.Orderly mark) (sheet : Stylesheet) :
    (m.merge mark sheet).Orderly mark := by
  have hall : ∀ p ∈ sheet.flatMap contributions, Belongs p.1 p.2 := by
    intro p hp
    obtain ⟨n, _, hp⟩ := List.mem_flatMap.1 hp
    exact belongs_of_mem_contributions hp
  rw [RuleMap.merge]
  generalize sheet.flatMap contributions = rules at hall
  induction rules generalizing m with
  | nil => exact h
  | cons p rules ih =>
    exact ih (h.insert (hall p List.mem_cons_self)) fun q hq => hall q (List.mem_cons_of_mem _ hq)

theorem Orderly.subtract {mark : Node → M} {m : RuleMap M} (h : m.Orderly mark)
    (other : RuleMap M) : (m.subtract other).Orderly mark where
  toSound := h.toSound.subtract other
  belongs := by
    intro b hb e he
    obtain ⟨entries, hmem, _, hleft⟩ := h.mem_subtract_iff.1 hb
    rw [hleft] at he
    exact h.belongs _ hmem e (List.mem_filter.1 he).1

/-! ## Slots and marks -/

/-- Marks tell rules apart whose contents differ. -/
def Distinguishes (mark : Node → M) : Prop :=
  ∀ a b : Node, mark a.withoutPosition = mark b.withoutPosition →
    a.withoutPosition = b.withoutPosition

/-- A map has a slot when it has the mark of the rule under the key of the slot. -/
theorem Orderly.mem_slots_iff {mark : Node → M} {m : RuleMap M} (h : m.Orderly mark)
    (hmark : Distinguishes mark) {slot : Slot} :
    slot ∈ m.slots ↔
      slot.2.withoutPosition = slot.2 ∧ m.contains (bucketOf slot) (mark slot.2) = true := by
  rw [h.contains_iff, slots, List.mem_flatMap]
  constructor
  · intro hslot
    obtain ⟨b, hb, hslot⟩ := hslot
    obtain ⟨e, he, rfl⟩ := List.mem_map.1 hslot
    obtain ⟨hplaces, hx⟩ := h.withoutPosition_rule hb he
    refine ⟨hplaces, b.2, ?_, e, he, hx⟩
    rw [← (h.belongs b hb e he).eq_bucketOf]
    exact hb
  · intro hx
    obtain ⟨hplaces, entries, hb, e, he, hx⟩ := hx
    obtain ⟨hplaces', hx'⟩ := h.withoutPosition_rule hb he
    have hrule : e.rule = slot.2 := by
      rw [← hplaces, ← hplaces']
      refine hmark _ _ ?_
      rw [hplaces, hplaces', ← hx', hx]
    refine ⟨_, hb, List.mem_map.2 ⟨e, he, ?_⟩⟩
    rw [condition?_bucketOf, hrule]

/-- Merging adds the slots of the style sheet. -/
theorem Orderly.mem_slots_merge_iff {mark : Node → M} {m : RuleMap M} (h : m.Orderly mark)
    (hmark : Distinguishes mark) (sheet : Stylesheet) {slot : Slot} :
    slot ∈ (m.merge mark sheet).slots ↔ slot ∈ m.slots ∨ slot ∈ sheet.slots canonicalMedia := by
  rw [(h.merge sheet).mem_slots_iff hmark, h.mem_slots_iff hmark, contains_merge,
    RuleMap.mem_slots_iff]
  constructor
  · intro hslot
    rcases hslot with ⟨hplaces, hold | ⟨p, hp, hkey, hx⟩⟩
    · exact .inl ⟨hplaces, hold⟩
    · refine .inr ⟨p, hp, ?_⟩
      have hrule : p.2.withoutPosition = slot.2 := by
        rw [← hplaces]
        refine hmark _ _ ?_
        rw [hplaces, hx]
      rw [slotOf, hkey, condition?_bucketOf, hrule]
  · intro hslot
    rcases hslot with ⟨hplaces, hold⟩ | ⟨p, hp, rfl⟩
    · exact ⟨hplaces, .inl hold⟩
    · obtain ⟨n, _, hn⟩ := List.mem_flatMap.1 hp
      have hkey := (belongs_of_mem_contributions hn).withoutPosition.eq_bucketOf
      exact ⟨p.2.withoutPosition_withoutPosition, .inr ⟨p, hp, hkey, rfl⟩⟩

/-- Subtraction takes away the slots of the other map. -/
theorem Orderly.mem_slots_subtract_iff {mark : Node → M} {m other : RuleMap M} (h : m.Orderly mark)
    (hother : other.Orderly mark) (hmark : Distinguishes mark) {slot : Slot} :
    slot ∈ (m.subtract other).slots ↔ slot ∈ m.slots ∧ slot ∉ other.slots := by
  rw [(h.subtract other).mem_slots_iff hmark, h.mem_slots_iff hmark, hother.mem_slots_iff hmark,
    h.contains_subtract]
  constructor
  · intro hnot
    obtain ⟨hplaces, hmine, hnot⟩ := hnot
    refine ⟨⟨hplaces, hmine⟩, fun htheirs => ?_⟩
    rw [htheirs.2] at hnot
    exact Bool.noConfusion hnot
  · intro hnot
    obtain ⟨⟨hplaces, hmine⟩, hnot⟩ := hnot
    exact ⟨hplaces, hmine, Bool.eq_false_iff.2 fun htheirs => hnot ⟨hplaces, htheirs⟩⟩

end Marks

/-! ## What assembling makes of the slots -/

/-- No slot of a map is there twice. -/
theorem Orderly.nodup_slots {mark : Node → M} {m : RuleMap M} (h : m.Orderly mark) :
    m.slots.Nodup := by
  rw [slots, List.nodup_flatMap]
  constructor
  · intro b hb
    have hmarks : b.2.map (·.mark) =
        (b.2.map fun e => (b.1.condition?, e.rule)).map fun slot : Slot => mark slot.2 := by
      rw [List.map_map]
      exact List.map_congr_left fun e he => (h.withoutPosition_rule hb he).2
    have hnodup := h.marks b hb
    rw [hmarks] at hnodup
    exact hnodup.of_map
  · -- A slot of two buckets would give both the same key.
    refine (List.pairwise_map.1 h.keys).imp_of_mem ?_
    intro b b' hb hb' hne slot hslot hslot'
    exact hne ((h.eq_bucketOf hb hslot).trans (h.eq_bucketOf hb' hslot').symm)

/-- When entries are left out that cannot be printed, every bucket becomes part of the style sheet.
-/
theorem assemble_skip (m : RuleMap M) :
    m.assemble .skip = m.buckets.flatMap fun b => assembleBucket .skip b.1 b.2 := by
  have hall : (m.buckets.takeWhile fun b => !stopsAt .skip b.2) = m.buckets :=
    List.takeWhile_eq_self_iff.2 fun b _ => rfl
  rw [assemble, hall]

/-- The rules that are printed of a bucket. -/
def printed (entries : List (RuleEntry M)) : List Node :=
  (entries.map (·.rule)).filter (·.isEmittable)

theorem assembleBucket_media (condition : String) (entries : List (RuleEntry M)) :
    assembleBucket .skip (.media condition) entries =
      if printed entries = [] then [] else [.block (.media condition) (printed entries) none] := by
  rw [printed, List.filter_map]
  rfl

theorem assembleBucket_rule (key : String) (entries : List (RuleEntry M)) :
    assembleBucket .skip (.rule key) entries = printed entries := by
  rw [printed, List.filter_map]
  rfl

/-- What is printed of a bucket belongs to it and has no places. -/
theorem Orderly.mem_printed {mark : Node → M} {m : RuleMap M} (h : m.Orderly mark)
    {b : BucketKey × List (RuleEntry M)} (hb : b ∈ m.buckets) :
    ∀ n ∈ printed b.2, Belongs b.1 n ∧ n.withoutPosition = n := by
  intro n hn
  obtain ⟨hn, _⟩ := List.mem_filter.1 hn
  obtain ⟨e, he, rfl⟩ := List.mem_map.1 hn
  exact ⟨h.belongs b hb e he, (h.withoutPosition_rule hb he).1⟩

/-- The slots of the nodes that a bucket becomes are those of its rules that can be printed. -/
theorem Orderly.slots_assembleBucket {mark : Node → M} {m : RuleMap M} (h : m.Orderly mark)
    {b : BucketKey × List (RuleEntry M)} (hb : b ∈ m.buckets) :
    Stylesheet.slots id (assembleBucket .skip b.1 b.2) =
      (printed b.2).map fun n => (b.1.condition?, n) := by
  have hprinted := h.mem_printed hb
  obtain ⟨key, entries⟩ := b
  cases key with
  | media condition =>
    have hrules : ((printed entries).filter (!·.isComment)) = printed entries :=
      List.filter_eq_self.2 fun n hn => by rw [(hprinted n hn).1.isComment]; rfl
    have hslots : (printed entries).map (fun n => (some condition, n.withoutPosition)) =
        (printed entries).map fun n => (some condition, n) :=
      List.map_congr_left fun n hn => by rw [(hprinted n hn).2]
    rw [assembleBucket_media]
    split
    · next hnil =>
      rw [hnil]
      rfl
    · show (((printed entries).filter (!·.isComment)).map
        fun n => (some condition, n.withoutPosition)) ++ [] = _
      rw [hrules, hslots, List.append_nil]
      rfl
  | rule key =>
    rw [assembleBucket_rule, Stylesheet.slots]
    show _ = (printed entries).map fun n => (none, n)
    rw [← List.flatMap_pure_eq_map]
    refine List.flatMap_congr fun n hn => ?_
    obtain ⟨hbelongs, hplaces⟩ := hprinted n hn
    rw [Node.slots_of_condition?_eq_none id hbelongs.2, hbelongs.isComment, hplaces]
    rfl

/-- A map becomes a style sheet with its slots that can be printed. -/
theorem Orderly.slots_assemble {mark : Node → M} {m : RuleMap M} (h : m.Orderly mark) :
    (m.assemble .skip).slots id = m.slots.filter (·.2.isEmittable) := by
  rw [assemble_skip, Stylesheet.slots, List.flatMap_assoc, slots, List.filter_flatMap]
  refine List.flatMap_congr fun b hb => ?_
  show Stylesheet.slots id (assembleBucket .skip b.1 b.2) = _
  rw [h.slots_assembleBucket hb, printed, List.filter_map, List.filter_map, List.map_map]
  rfl

/-- The media blocks that a bucket becomes: one at most, with the condition of the bucket. -/
theorem Orderly.conditions_assembleBucket {mark : Node → M} {m : RuleMap M} (h : m.Orderly mark)
    {b : BucketKey × List (RuleEntry M)} (hb : b ∈ m.buckets) :
    ((assembleBucket .skip b.1 b.2).filterMap Node.condition?).Sublist b.1.condition?.toList := by
  have hprinted := h.mem_printed hb
  obtain ⟨key, entries⟩ := b
  cases key with
  | media condition =>
    rw [assembleBucket_media]
    split
    · exact List.nil_sublist _
    · exact List.Sublist.refl _
  | rule key =>
    have hnone : (printed entries).filterMap Node.condition? = [] :=
      List.filterMap_eq_nil_iff.2 fun n hn => (hprinted n hn).1.2
    rw [assembleBucket_rule, hnone]
    exact List.nil_sublist _

/-- A map becomes a style sheet with one media block for a condition at most. -/
theorem Orderly.nodup_conditions_assemble {mark : Node → M} {m : RuleMap M} (h : m.Orderly mark) :
    ((m.assemble .skip).filterMap Node.condition?).Nodup := by
  have hkeys : (m.keys.filterMap BucketKey.condition?).Nodup := by
    refine h.keys.filterMap ?_
    intro key key' condition hkey hkey'
    cases key with
    | rule text => simp [BucketKey.condition?] at hkey
    | media text =>
      cases key' with
      | rule text' => simp [BucketKey.condition?] at hkey'
      | media text' =>
        have htext : text = condition := by simpa [BucketKey.condition?] using hkey
        have htext' : text' = condition := by simpa [BucketKey.condition?] using hkey'
        rw [htext, htext']
  refine List.Sublist.nodup ?_ hkeys
  rw [assemble_skip, List.filterMap_flatMap, keys, List.filterMap_map,
    List.filterMap_eq_flatMap_toList]
  exact List.Sublist.flatMap_right _ fun b hb => h.conditions_assembleBucket hb

end RuleMap

end CriticalCss
