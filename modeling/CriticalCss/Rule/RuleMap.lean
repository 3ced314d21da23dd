import CriticalCss.Rule.Key

/-!
# Maps of rules without duplicates

The style sheets that come back from the pages are gathered in a rule map.  It holds buckets in the
order in which their keys first appeared; rules of media blocks with the same condition share a
bucket, any other top-level rule goes to the bucket of its key.  A bucket holds rules without their
places, and no two with the same mark.

The mark is a function of the rule, given as a parameter: anything that stands for the content of a
rule, such as a digest of it or the rule itself.
-/

namespace CriticalCss

/-- The key of a bucket. -/
inductive BucketKey where
  /-- The rules of the media blocks with a condition. -/
  | media (condition : String)
  /-- The top-level rules with a key. -/
  | rule (key : String)
deriving DecidableEq

/-- How a diagnostic shows the key of a bucket. -/
def BucketKey.label : BucketKey → String
  | .media condition => "@media " ++ condition
  | .rule key => key

/-- A rule without its places, and its mark. -/
structure RuleEntry (M : Type) where
  mark : M
  rule : Node
deriving DecidableEq

namespace RuleEntry

variable {M : Type}

/-- The entry for a node. -/
def ofNode (mark : Node → M) (n : Node) : RuleEntry M :=
  ⟨mark n.withoutPosition, n.withoutPosition⟩

/-- Whether the entry can be printed: a rule with a declaration block needs a declaration. -/
def isEmittable (e : RuleEntry M) : Bool :=
  e.rule.declarations?.all (!·.isEmpty)

end RuleEntry

/-- What assembling does with an entry that cannot be printed. -/
inductive InvalidRules where
  /-- The entry is left out. -/
  | skip
  /-- A bucket that begins with such an entry ends the style sheet. -/
  | truncate
deriving DecidableEq

/-- Rules without duplicates, in buckets. -/
structure RuleMap (M : Type) where
  buckets : List (BucketKey × List (RuleEntry M))

namespace RuleMap

variable {M : Type} [DecidableEq M]

/-- No buckets. -/
def empty : RuleMap M := ⟨[]⟩

/-- The entries of a bucket. -/
def get? (m : RuleMap M) (key : BucketKey) : Option (List (RuleEntry M)) :=
  m.buckets.lookup key

/-- The keys in order. -/
def keys (m : RuleMap M) : List BucketKey :=
  m.buckets.map (·.1)

/-- Whether some entry has a mark. -/
def hasMark (entries : List (RuleEntry M)) (mark : M) : Bool :=
  entries.any fun e => decide (e.mark = mark)

/-- Whether the bucket of a key has an entry with a mark. -/
def contains (m : RuleMap M) (key : BucketKey) (mark : M) : Bool :=
  (m.get? key).any (hasMark · mark)

/-- Adds an entry to a bucket, unless its mark is there. -/
def insertInto (key : BucketKey) (e : RuleEntry M) :
    List (BucketKey × List (RuleEntry M)) → List (BucketKey × List (RuleEntry M))
  | [] => [(key, [e])]
  | (k, es) :: rest =>
    if k = key then (k, if hasMark es e.mark then es else es ++ [e]) :: rest
    else (k, es) :: insertInto key e rest

/-- Adds a rule to a bucket, unless one with its mark is there. -/
def insert (mark : Node → M) (m : RuleMap M) (key : BucketKey) (n : Node) : RuleMap M :=
  ⟨insertInto key (.ofNode mark n) m.buckets⟩

theorem hasMark_append (es : List (RuleEntry M)) (e : RuleEntry M) (x : M) :
    hasMark (es ++ [e]) x = (hasMark es x || decide (e.mark = x)) := by
  simp [hasMark]

theorem lookup_insertInto (key : BucketKey) (e : RuleEntry M) (k : BucketKey) (x : M)
    (buckets : List (BucketKey × List (RuleEntry M))) :
    ((insertInto key e buckets).lookup k).any (hasMark · x) =
      (decide (k = key ∧ e.mark = x) || (buckets.lookup k).any (hasMark · x)) := by
  induction buckets with
  | nil =>
    rw [insertInto, List.lookup_cons]
    by_cases hk : k = key
    · simp [hk, hasMark]
    · simp [hk, beq_eq_false_iff_ne.2 hk]
  | cons old buckets ih =>
    obtain ⟨old, entries⟩ := old
    rw [insertInto]
    by_cases hold : old = key
    · rw [if_pos hold, List.lookup_cons, List.lookup_cons, hold]
      by_cases hk : k = key
      · simp only [hk, BEq.rfl, Option.any_some, true_and]
        grind [hasMark_append]
      · simp [hk, beq_eq_false_iff_ne.2 hk]
    · rw [if_neg hold, List.lookup_cons, List.lookup_cons]
      by_cases hk : k = old
      · simp [hk, hold]
      · simp only [beq_eq_false_iff_ne.2 hk]
        exact ih

/-- Adding a rule adds its mark to its bucket and changes nothing else. -/
theorem contains_insert (mark : Node → M) (m : RuleMap M) (key : BucketKey) (n : Node)
    (k : BucketKey) (x : M) :
    (m.insert mark key n).contains k x =
      (decide (k = key ∧ mark n.withoutPosition = x) || m.contains k x) :=
  lookup_insertInto key (.ofNode mark n) k x m.buckets

/-- The rules that a top-level node adds, with the buckets they go to. -/
def contributions : Node → List (BucketKey × Node)
  | .block (.media condition) rules _ =>
    (rules.filter (!·.isComment)).map fun n => (.media (canonicalMedia condition), n)
  | n => (n.key? "").toList.map fun key => (.rule key, n)

/-- Adds the rules of a style sheet. -/
def merge (mark : Node → M) (m : RuleMap M) (sheet : Stylesheet) : RuleMap M :=
  (sheet.flatMap contributions).foldl (fun m p => m.insert mark p.1 p.2) m

/-- The rules of one style sheet. -/
def ofStylesheet (mark : Node → M) (sheet : Stylesheet) : RuleMap M :=
  merge mark empty sheet

/-- Removes the entries whose mark the other map has under the same key, and the buckets that are
left without entries. -/
def subtract (m other : RuleMap M) : RuleMap M :=
  ⟨m.buckets.filterMap fun (key, entries) =>
    match other.get? key with
    | none => some (key, entries)
    | some theirs =>
      match entries.filter fun e => !hasMark theirs e.mark with
      | [] => none
      | left => some (key, left)⟩

/-- Whether assembling stops at a bucket. -/
def stopsAt (policy : InvalidRules) (entries : List (RuleEntry M)) : Bool :=
  policy = .truncate && entries.head?.any (!·.isEmittable)

/-- The nodes that a bucket becomes. -/
def assembleBucket (policy : InvalidRules) (key : BucketKey) (entries : List (RuleEntry M)) :
    List Node :=
  let kept := entries.filter fun e => policy = .truncate || e.isEmittable
  let rules := kept.map (·.rule)
  match key with
  | .media condition => if rules = [] then [] else [.block (.media condition) rules none]
  | .rule _ => rules

/-- The style sheet of the buckets in order: one media block for each condition, and the rules of
the other buckets at top level. -/
def assemble (m : RuleMap M) (policy : InvalidRules) : Stylesheet :=
  (m.buckets.takeWhile fun b => !stopsAt policy b.2).flatMap fun b => assembleBucket policy b.1 b.2

/-- Whether every mark of some entries is among others. -/
def marksIn (entries others : List (RuleEntry M)) : Bool :=
  entries.all fun e => hasMark others e.mark

/-- Whether two maps hold the same marks under the same keys, in any order. -/
def sameContent (a b : RuleMap M) : Bool :=
  a.buckets.length = b.buckets.length &&
    a.buckets.all fun (key, entries) =>
      (b.get? key).any fun theirs => marksIn entries theirs && marksIn theirs entries

/-- Whether two maps hold the same entries in the same order under the same keys, where the order of
the keys does not matter. -/
def equal (a b : RuleMap M) : Bool :=
  a.buckets.length = b.buckets.length &&
    a.buckets.all fun (key, entries) => decide (b.get? key = some entries)

end RuleMap

end CriticalCss
