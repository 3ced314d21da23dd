import CriticalCss.Data.Decode
import CriticalCss.Stylesheet.Basic

/-!
# Critical selectors by rule key

The result of looking at one page: for each rule key the selectors found critical under it.  Keys
and selectors stand in the order in which they were first recorded, none twice, and an entry keeps
the kind of the first rule recorded under its key.
-/

namespace CriticalCss

/-- The critical selectors of one key. -/
structure CriticalEntry where
  selectors : List String
  kind : Kind
deriving DecidableEq

/-- Critical selectors by rule key. -/
structure CriticalMap where
  entries : List (String × CriticalEntry)
deriving DecidableEq

namespace CriticalMap

/-- No selectors. -/
def empty : CriticalMap := ⟨[]⟩

/-- The entry of a key. -/
def get? (m : CriticalMap) (key : String) : Option CriticalEntry :=
  m.entries.lookup key

/-- The critical selectors of a key. -/
def selectors? (m : CriticalMap) (key : String) : Option (List String) :=
  (m.get? key).map (·.selectors)

/-- Whether a selector is critical under a key. -/
def isCritical (m : CriticalMap) (key selector : String) : Bool :=
  (m.selectors? key).any (·.contains selector)

/-- Adds a selector to the entry of a key, which begins with the given kind. -/
def insertInto (key selector : String) (kind : Kind) :
    List (String × CriticalEntry) → List (String × CriticalEntry)
  | [] => [(key, ⟨[selector], kind⟩)]
  | (k, e) :: rest =>
    if k = key then
      (k, if selector ∈ e.selectors then e else { e with selectors := e.selectors ++ [selector] }) ::
        rest
    else (k, e) :: insertInto key selector kind rest

/-- Records a selector as critical. -/
def insert (m : CriticalMap) (key selector : String) (kind : Kind) : CriticalMap :=
  ⟨insertInto key selector kind m.entries⟩

theorem lookup_insertInto (key selector : String) (kind : Kind) (k s : String)
    (entries : List (String × CriticalEntry)) :
    ((insertInto key selector kind entries).lookup k).any (·.selectors.contains s) =
      (decide (k = key ∧ s = selector) || (entries.lookup k).any (·.selectors.contains s)) := by
  induction entries with
  | nil =>
    rw [insertInto, List.lookup_cons]
    by_cases hk : k = key
    · simp [hk]
    · simp [hk, beq_eq_false_iff_ne.2 hk]
  | cons old entries ih =>
    obtain ⟨old, entry⟩ := old
    rw [insertInto]
    by_cases hold : old = key
    · rw [if_pos hold, List.lookup_cons, List.lookup_cons, hold]
      by_cases hk : k = key
      · simp only [hk, BEq.rfl, Option.any_some, true_and]
        grind
      · simp [hk, beq_eq_false_iff_ne.2 hk]
    · rw [if_neg hold, List.lookup_cons, List.lookup_cons]
      by_cases hk : k = old
      · simp [hk, hold]
      · simp only [beq_eq_false_iff_ne.2 hk]
        exact ih

@[simp]
theorem isCritical_empty (key selector : String) : empty.isCritical key selector = false := rfl

/-- Recording a selector makes it critical and changes nothing else. -/
theorem isCritical_insert (m : CriticalMap) (key selector : String) (kind : Kind) (k s : String) :
    (m.insert key selector kind).isCritical k s =
      (decide (k = key ∧ s = selector) || m.isCritical k s) := by
  simp only [isCritical, selectors?, get?, insert, Option.any_map]
  exact lookup_insertInto key selector kind k s m.entries

/-- The map that pairs of keys and entries describe: every selector is recorded in turn. -/
def ofPairs (pairs : List (String × CriticalEntry)) : CriticalMap :=
  pairs.foldl (fun m p => p.2.selectors.foldl (fun m s => m.insert p.1 s p.2.kind) m) empty

/-- The pairs of keys and entries, in order. -/
def toPairs (m : CriticalMap) : List (String × CriticalEntry) :=
  m.entries

end CriticalMap

namespace CriticalEntry

open Data (Value Fields)

/-- An entry as a record. -/
def toValue (e : CriticalEntry) : Value :=
  .record [("selectors", .ofTexts e.selectors), ("kind", .text e.kind.name)]

/-- Reads an entry. -/
def ofValue? (v : Value) : Option CriticalEntry := do
  let f ← Fields.of? ["selectors", "kind"] v
  let selectors ← f.required "selectors" Value.asTexts?
  let kind ← f.required "kind" fun v => v.asCase?.bind Kind.ofName?
  some ⟨selectors, kind⟩

end CriticalEntry

namespace CriticalMap

open Data (Value)

/-- The map as a list of pairs. -/
def toValue (m : CriticalMap) : Value :=
  .list (m.toPairs.map fun p => .list [.text p.1, p.2.toValue])

/-- Reads a list of pairs. -/
def ofValue? (v : Value) : Option CriticalMap :=
  (v.asList? fun pair =>
    match pair with
    | .list [.text key, entry] => (CriticalEntry.ofValue? entry).map fun e => (key, e)
    | _ => none).map ofPairs

end CriticalMap

end CriticalCss
