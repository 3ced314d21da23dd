import CriticalCss.Proofs.Data.Fields
import CriticalCss.Proofs.Probe.Recording

/-!
# Critical selectors on their way from the page to the orchestrator

A map of critical selectors is handed over as a list of pairs of a key and an entry, and the map on
the other side is made by recording the selectors of every pair anew.  Keys may be repeated in such
a list and entries may be without selectors, but a list that was made of a map gives this map again.

* `ofPairs_eq_insertAll` reads a list of pairs as the findings that it stands for, and
  `Finding.exists_mem_ofPair_iff` says which selectors these are.
* `Formed` is what holds of every map that findings were recorded in: `formed_insertAll`.
* `insertAll_ofPair` records the selectors of a pair with a new key, and `ofPairs_toPairs` takes a
  formed map apart and puts it together again.
* `handover` is the whole way.
-/

namespace CriticalCss

open Data

/-- What a pair of a key and an entry says was found. -/
def Finding.ofPair (p : String × CriticalEntry) : List Finding :=
  p.2.selectors.map fun s => ⟨p.1, s, p.2.kind⟩

theorem Finding.mem_ofPair {f : Finding} {p : String × CriticalEntry} :
    f ∈ ofPair p ↔ f.selector ∈ p.2.selectors ∧ f.key = p.1 ∧ f.kind = p.2.kind := by
  obtain ⟨key, selector, kind⟩ := f
  simp only [ofPair, List.mem_map, Finding.mk.injEq]
  constructor
  · rintro ⟨s, hs, rfl, rfl, rfl⟩
    exact ⟨hs, rfl, rfl⟩
  · rintro ⟨hs, rfl, rfl⟩
    exact ⟨selector, hs, rfl, rfl, rfl⟩

/-- Some pairs say that a selector was found under a key when one of them has it there. -/
theorem Finding.exists_mem_ofPair_iff {pairs : List (String × CriticalEntry)}
    {key selector : String} :
    (∃ f ∈ pairs.flatMap ofPair, f.key = key ∧ f.selector = selector) ↔
      ∃ p ∈ pairs, p.1 = key ∧ selector ∈ p.2.selectors := by
  constructor
  · rintro ⟨f, hf, rfl, rfl⟩
    obtain ⟨p, hp, hf⟩ := List.mem_flatMap.1 hf
    obtain ⟨hselector, hkey, _⟩ := mem_ofPair.1 hf
    exact ⟨p, hp, hkey.symm, hselector⟩
  · rintro ⟨p, hp, rfl, hselector⟩
    have hf : ⟨p.1, selector, p.2.kind⟩ ∈ ofPair p := mem_ofPair.2 ⟨hselector, rfl, rfl⟩
    exact ⟨_, List.mem_flatMap.2 ⟨p, hp, hf⟩, rfl, rfl⟩

/-! ## Names of kinds and entries as values -/

@[simp]
theorem Kind.ofName?_name (k : Kind) : ofName? k.name = some k := by
  cases k <;> rfl

theorem CriticalEntry.ofValue?_toValue (e : CriticalEntry) : ofValue? e.toValue = some e := by
  simp [ofValue?, toValue, Fields.of?_record, Fields.required, Value.asCase?]

namespace CriticalMap

/-! ## Pairs as findings -/

theorem ofPairs_eq_insertAll (pairs : List (String × CriticalEntry)) :
    ofPairs pairs = empty.insertAll (pairs.flatMap Finding.ofPair) := by
  rw [ofPairs, insertAll, List.foldl_flatMap]
  refine List.foldl_ext _ _ empty fun m p _ => ?_
  rw [Finding.ofPair, List.foldl_map]

theorem ofPairs_append (xs ys : List (String × CriticalEntry)) :
    ofPairs (xs ++ ys) = (ofPairs xs).insertAll (ys.flatMap Finding.ofPair) := by
  rw [ofPairs_eq_insertAll, ofPairs_eq_insertAll, List.flatMap_append, insertAll_append]

/-! ## Formed maps -/

/-- What every map has that findings were recorded in. -/
structure Formed (m : CriticalMap) : Prop where
  keys_nodup : (m.entries.map (·.1)).Nodup
  selectors_ne_nil : ∀ p ∈ m.entries, p.2.selectors ≠ []
  selectors_nodup : ∀ p ∈ m.entries, p.2.selectors.Nodup

theorem formed_insertAll (found : List Finding) : (empty.insertAll found).Formed where
  keys_nodup := keys_insertAll found ▸ nodup_eraseDups _
  selectors_ne_nil _ hp := (selectors_of_mem_insertAll hp).1
  selectors_nodup _ hp := (selectors_of_mem_insertAll hp).2

/-- The kind of an entry is that of the first finding under its key. -/
theorem kind_entryAmong {found : List Finding} {key : String} (h : key ∈ found.map (·.key)) :
    (found.find? (·.key = key)).map (·.kind) = some (entryAmong found key).kind := by
  obtain ⟨f, hf, hkey⟩ := List.mem_map.1 h
  obtain ⟨first, hfirst⟩ := Option.isSome_iff_exists.1
    (List.find?_isSome (p := (·.key = key)).2 ⟨f, hf, decide_eq_true hkey⟩)
  simp only [entryAmong, List.head?_filter, hfirst, Option.map_some, Option.getD_some]

/-! ## Apart and together again -/

section LastEntry

variable {key : String} {kind : Kind} {entries : List (String × CriticalEntry)}

/-- Entries of other keys have no part in what is recorded under a key. -/
theorem insertInto_append (hkey : key ∉ entries.map (·.1)) (selector : String)
    (rest : List (String × CriticalEntry)) :
    insertInto key selector kind (entries ++ rest) =
      entries ++ insertInto key selector kind rest := by
  induction entries with
  | nil => rfl
  | cons p entries ih =>
    rw [List.map_cons, List.mem_cons, not_or] at hkey
    rw [List.cons_append, insertInto, if_neg (Ne.symm hkey.1), ih hkey.2, List.cons_append]

/-- New selectors of the last key go to the end of its entry. -/
theorem insertAll_last (hkey : key ∉ entries.map (·.1)) {known more : List String}
    (hnodup : (known ++ more).Nodup) :
    insertAll ⟨entries ++ [(key, ⟨known, kind⟩)]⟩ (more.map fun s => ⟨key, s, kind⟩) =
      ⟨entries ++ [(key, ⟨known ++ more, kind⟩)]⟩ := by
  induction more generalizing known with
  | nil => rw [List.append_nil, List.map_nil, insertAll, List.foldl_nil]
  | cons s more ih =>
    have hs : s ∉ known := fun hs => (List.nodup_append.1 hnodup).2.2 s hs s List.mem_cons_self rfl
    have hstep : insert ⟨entries ++ [(key, ⟨known, kind⟩)]⟩ key s kind =
        ⟨entries ++ [(key, ⟨known ++ [s], kind⟩)]⟩ := by
      rw [insert, insertInto_append hkey, insertInto, if_pos rfl, if_neg hs]
    rw [List.append_cons known s more] at hnodup ⊢
    rw [← ih hnodup, ← hstep]
    rfl

end LastEntry

/-- A pair with a new key and selectors that are not repeated becomes the last entry. -/
theorem insertAll_ofPair {m : CriticalMap} {p : String × CriticalEntry}
    (hkey : p.1 ∉ m.entries.map (·.1)) (hne : p.2.selectors ≠ []) (hnodup : p.2.selectors.Nodup) :
    m.insertAll (Finding.ofPair p) = ⟨m.entries ++ [p]⟩ := by
  obtain ⟨key, selectors, kind⟩ := p
  cases selectors with
  | nil => exact absurd rfl hne
  | cons s more =>
    have hfirst : m.insert key s kind = ⟨m.entries ++ [(key, ⟨[s], kind⟩)]⟩ := by
      rw [insert, ← List.append_nil m.entries, insertInto_append hkey, List.append_nil, insertInto]
    exact (congrArg (insertAll · _) hfirst).trans (insertAll_last hkey hnodup)

/-- A formed map is made again of the pairs that it is handed over as. -/
theorem Formed.ofPairs_toPairs {m : CriticalMap} (h : m.Formed) : ofPairs m.toPairs = m := by
  obtain ⟨entries⟩ := m
  rw [toPairs]
  induction entries using List.reverseRecOn with
  | nil => rfl
  | append_singleton entries p ih =>
    have hkeys := h.keys_nodup
    rw [List.map_append, List.map_singleton, List.nodup_append] at hkeys
    have hinit : Formed ⟨entries⟩ :=
      ⟨hkeys.1, fun q hq => h.selectors_ne_nil q (List.mem_append_left _ hq),
        fun q hq => h.selectors_nodup q (List.mem_append_left _ hq)⟩
    have hlast : p ∈ entries ++ [p] := List.mem_append_right _ (List.mem_singleton.2 rfl)
    have hkey : p.1 ∉ entries.map (·.1) := fun hp => hkeys.2.2 _ hp _ (List.mem_singleton.2 rfl) rfl
    rw [ofPairs_append, ih hinit, List.flatMap_singleton,
      insertAll_ofPair hkey (h.selectors_ne_nil p hlast) (h.selectors_nodup p hlast)]

/-! ## The value and its text -/

/-- A list of pairs that a map was written as is read as the map made of these pairs. -/
theorem ofValue?_toValue (m : CriticalMap) : ofValue? m.toValue = some (ofPairs m.toPairs) := by
  rw [ofValue?, toValue, Value.asList?_map, Option.map_some]
  intro p _
  show (CriticalEntry.ofValue? p.2.toValue).map _ = some p
  rw [p.2.ofValue?_toValue, Option.map_some]

theorem reread_toValue (m : CriticalMap) : Json.reread m.toValue = m.toValue := by
  rw [toValue, Json.reread, Json.rereadItems_map]
  intro p _
  simp [CriticalEntry.toValue, Json.reread, Json.rereadItems, Json.rereadMembers]

/-- The text of a map has its list open, a pair, an entry and the selectors of the entry. -/
theorem nesting_toValue_le (m : CriticalMap) : Json.nesting m.toValue ≤ 4 := by
  rw [toValue, Json.nesting, Nat.add_le_add_iff_right, Json.nestingOfItems_le_iff]
  intro v hv
  obtain ⟨p, _, rfl⟩ := List.mem_map.1 hv
  simp [CriticalEntry.toValue, Json.nesting, Json.nestingOfItems, Json.nestingOfMembers]

/-- Whatever pairs a map is loaded from and whatever is recorded in it then, its keys stand in the
order in which they were first confirmed and none twice, and every entry has the selectors that were
confirmed under its key, at least one and none twice, in the order of their first confirmation, and
the kind that came with the first of them.  Such a map comes back unchanged from its pairs, its
value and its text, and a selector is critical when some pair or some recording put it under the
key. -/
theorem handover (pairs : List (String × CriticalEntry)) (inserts : List Finding) :
    let found := pairs.flatMap Finding.ofPair ++ inserts
    let m := (ofPairs pairs).insertAll inserts
    m.entries.map (·.1) = (found.map (·.key)).eraseDups ∧
      (m.entries.map (·.1)).Nodup ∧
      (∀ entry ∈ m.entries,
        entry.2.selectors = ((found.filter (·.key = entry.1)).map (·.selector)).eraseDups ∧
          entry.2.selectors ≠ [] ∧ entry.2.selectors.Nodup ∧
          (found.find? (·.key = entry.1)).map (·.kind) = some entry.2.kind) ∧
      (ofPairs m.toPairs = m ∧ ofValue? m.toValue = some m ∧
        (Json.read? (Json.write m.toValue)).bind ofValue? = some m) ∧
      ∀ key selector, m.isCritical key selector = true ↔
        (∃ p ∈ pairs, p.1 = key ∧ selector ∈ p.2.selectors) ∨
          ∃ f ∈ inserts, f.key = key ∧ f.selector = selector := by
  intro found m
  have hm : m = empty.insertAll found := by
    show (ofPairs pairs).insertAll inserts = _
    rw [ofPairs_eq_insertAll, ← insertAll_append]
  have hformed : m.Formed := hm ▸ formed_insertAll found
  have hvalue : ofValue? m.toValue = some m := by
    rw [ofValue?_toValue, hformed.ofPairs_toPairs]
  refine ⟨hm ▸ keys_insertAll found, hformed.keys_nodup, fun entry hentry => ?entry,
    ⟨hformed.ofPairs_toPairs, hvalue, ?text⟩, fun key selector => ?critical⟩
  case entry =>
    have hne := hformed.selectors_ne_nil entry hentry
    have hnodup := hformed.selectors_nodup entry hentry
    rw [hm, entries_insertAll] at hentry
    obtain ⟨key, hkey, rfl⟩ := List.mem_map.1 hentry
    exact ⟨rfl, hne, hnodup, kind_entryAmong (List.mem_eraseDups.1 hkey)⟩
  case text =>
    have hlimit : Json.nesting m.toValue ≤ Json.nestingLimit :=
      Nat.le_trans m.nesting_toValue_le (by decide)
    rw [Json.read?, Json.readWithin?_write, if_pos hlimit, reread_toValue, Option.bind_some, hvalue]
  case critical =>
    rw [isCritical_insertAll, ofPairs_eq_insertAll, isCritical_insertAll, isCritical_empty,
      Finding.exists_mem_ofPair_iff]
    simp

/-- A key that comes first without selectors has its place and its kind from the first pair that has
one for it. -/
example :
    ofPairs [("p", ⟨[], .rule⟩), ("q", ⟨["q"], .rule⟩), ("p", ⟨["a"], .media⟩),
        ("p", ⟨["b", "a"], .rule⟩)] =
      ⟨[("q", ⟨["q"], .rule⟩), ("p", ⟨["a", "b"], .media⟩)]⟩ := by decide

end CriticalMap

end CriticalCss
