import CriticalCss.Rule.CriticalMap
import Mathlib.Data.List.Induction
import Mathlib.Data.List.Nodup

/-!
# Recording selectors one after the other

A map of critical selectors comes about by recording one finding after the other.  What it holds in
the end is a list of keys and a list of selectors for each key, both in the order in which they were
first found.

* `insertInto_map` is what one finding does to such a map.
* `entries_insertAll` says what the map holds after some findings.
* `isCritical_insertAll` says which selectors are critical then.
-/

namespace CriticalCss

/-! ## First occurrences -/

section FirstOccurrences

variable {α β : Type} [DecidableEq α] {xs ys : List α} {a : α}

/-- An element at the end is a first occurrence if it is none of those before. -/
theorem eraseDups_concat (xs : List α) (a : α) :
    (xs ++ [a]).eraseDups = if a ∈ xs then xs.eraseDups else xs.eraseDups ++ [a] := by
  rw [List.eraseDups_append, List.removeAll]
  by_cases ha : a ∈ xs <;> simp [ha, List.eraseDups_cons]

theorem nodup_eraseDups (xs : List α) : xs.eraseDups.Nodup := by
  induction xs using List.reverseRecOn with
  | nil => exact List.nodup_nil
  | append_singleton xs a ih =>
    rw [eraseDups_concat]
    split
    · exact ih
    · next ha =>
      refine List.nodup_append.2 ⟨ih, List.nodup_singleton a, ?_⟩
      rintro b hb c hc rfl
      rw [List.mem_singleton] at hc
      exact ha (List.mem_eraseDups.1 (hc ▸ hb))

/-- What is appended finds the same first occurrences before it. -/
theorem eraseDups_append_congr (h : xs.eraseDups = ys.eraseDups) (zs : List α) :
    (xs ++ zs).eraseDups = (ys ++ zs).eraseDups := by
  have hmem : ∀ b, xs.elem b = ys.elem b := by
    intro b
    rw [Bool.eq_iff_iff, List.elem_iff, List.elem_iff, ← List.mem_eraseDups, h, List.mem_eraseDups]
  rw [List.eraseDups_append, List.eraseDups_append, h, List.removeAll, List.removeAll]
  simp only [hmem]

theorem eraseDups_concat_replicate (xs : List α) (n : Nat) (a : α) :
    (xs ++ List.replicate (n + 1) a).eraseDups = (xs ++ [a]).eraseDups := by
  induction n with
  | zero => rfl
  | succ n ih =>
    rw [List.replicate_succ', ← List.append_assoc, eraseDups_concat, if_pos (by simp), ih]

/-- When each element of a list contributes one value, as often as it may be, the first occurrences
are those of the values of the elements that contribute at all. -/
theorem eraseDups_flatMap_replicate (f : β → α) (count : β → Nat) (bs : List β) :
    (bs.flatMap fun b => List.replicate (count b) (f b)).eraseDups =
      ((bs.filter fun b => 0 < count b).map f).eraseDups := by
  induction bs using List.reverseRecOn with
  | nil => rfl
  | append_singleton bs b ih =>
    rw [List.flatMap_append, List.flatMap_singleton, List.filter_append, List.map_append]
    cases hcount : count b with
    | zero => simpa [hcount] using ih
    | succ n =>
      rw [eraseDups_concat_replicate, eraseDups_append_congr ih]
      simp [hcount]

end FirstOccurrences

/-! ## One finding -/

/-- A selector that was found critical, the key of its rule and the kind of this rule. -/
structure Finding where
  key : String
  selector : String
  kind : Kind
deriving DecidableEq

/-- The entry with one more selector. -/
def CriticalEntry.confirm (e : CriticalEntry) (selector : String) : CriticalEntry :=
  if selector ∈ e.selectors then e else { e with selectors := e.selectors ++ [selector] }

namespace CriticalMap

/-- A finding changes the entry of its key, or adds one at the end. -/
theorem insertInto_map {keys : List String} (hkeys : keys.Nodup) (entryOf : String → CriticalEntry)
    (key selector : String) (kind : Kind) :
    insertInto key selector kind (keys.map fun k => (k, entryOf k)) =
      if key ∈ keys then
        keys.map fun k => (k, if k = key then (entryOf k).confirm selector else entryOf k)
      else keys.map (fun k => (k, entryOf k)) ++ [(key, ⟨[selector], kind⟩)] := by
  induction keys with
  | nil => rfl
  | cons k keys ih =>
    obtain ⟨hk, hkeys⟩ := List.nodup_cons.1 hkeys
    rw [List.map_cons, insertInto]
    by_cases heq : k = key
    · have hothers : ∀ k' ∈ keys, k' ≠ key := by
        rintro k' hk' rfl
        exact hk (heq ▸ hk')
      have hmem : key ∈ k :: keys := heq ▸ List.mem_cons_self
      rw [if_pos heq, if_pos hmem, List.map_cons, if_pos heq]
      exact congrArg _ (List.map_congr_left fun k' hk' => by rw [if_neg (hothers k' hk')])
    · have hmem : key ∈ k :: keys ↔ key ∈ keys := by simp [Ne.symm heq]
      rw [if_neg heq, ih hkeys]
      by_cases hkey : key ∈ keys
      · rw [if_pos hkey, if_pos (hmem.2 hkey), List.map_cons, if_neg heq]
      · rw [if_neg hkey, if_neg (mt hmem.1 hkey)]
        rfl

/-! ## All findings -/

/-- Records some findings in order. -/
def insertAll (m : CriticalMap) (found : List Finding) : CriticalMap :=
  found.foldl (fun m f => m.insert f.key f.selector f.kind) m

theorem insertAll_append (m : CriticalMap) (xs ys : List Finding) :
    m.insertAll (xs ++ ys) = (m.insertAll xs).insertAll ys :=
  List.foldl_append

/-- What is found under a key: its selectors without repetitions, and the kind of the first rule. -/
def entryAmong (found : List Finding) (key : String) : CriticalEntry :=
  let here := found.filter (·.key = key)
  ⟨(here.map (·.selector)).eraseDups, (here.head?.map (·.kind)).getD .rule⟩

/-- A finding under another key changes nothing. -/
theorem entryAmong_concat_of_ne {found : List Finding} {f : Finding} {key : String}
    (h : f.key ≠ key) : entryAmong (found ++ [f]) key = entryAmong found key := by
  simp [entryAmong, h]

/-- A finding under a key that had one before confirms its selector. -/
theorem entryAmong_concat_of_mem {found : List Finding} {f : Finding}
    (h : f.key ∈ found.map (·.key)) :
    entryAmong (found ++ [f]) f.key = (entryAmong found f.key).confirm f.selector := by
  obtain ⟨first, rest, hhere⟩ : ∃ first rest, found.filter (·.key = f.key) = first :: rest := by
    refine List.exists_cons_of_ne_nil fun hnil => ?_
    obtain ⟨g, hg, hkey⟩ := List.mem_map.1 h
    exact List.filter_eq_nil_iff.1 hnil g hg (by simpa using hkey)
  have hconcat : (found ++ [f]).filter (·.key = f.key) = first :: rest ++ [f] := by
    rw [List.filter_append, hhere]
    simp
  simp only [entryAmong, hconcat, hhere, List.map_append, List.map_singleton]
  rw [eraseDups_concat, CriticalEntry.confirm]
  simp only [List.mem_eraseDups]
  split <;> rfl

/-- A finding under a new key is all that is found there. -/
theorem entryAmong_concat_of_notMem {found : List Finding} {f : Finding}
    (h : f.key ∉ found.map (·.key)) :
    entryAmong (found ++ [f]) f.key = ⟨[f.selector], f.kind⟩ := by
  have hnone : found.filter (·.key = f.key) = [] := by
    refine List.filter_eq_nil_iff.2 fun g hg hkey => h (List.mem_map.2 ⟨g, hg, ?_⟩)
    simpa using hkey
  simp [entryAmong, hnone, List.eraseDups_cons]

/-- After some findings the map holds their keys in the order of the first finding under each, and
under each key what was found there. -/
theorem entries_insertAll (found : List Finding) :
    (empty.insertAll found).entries =
      (found.map (·.key)).eraseDups.map fun key => (key, entryAmong found key) := by
  induction found using List.reverseRecOn with
  | nil => rfl
  | append_singleton found f ih =>
    have hstep : (empty.insertAll (found ++ [f])).entries =
        insertInto f.key f.selector f.kind (empty.insertAll found).entries := by
      rw [insertAll_append]
      rfl
    rw [hstep, ih, insertInto_map (nodup_eraseDups _), List.map_append, List.map_singleton,
      eraseDups_concat]
    simp only [List.mem_eraseDups]
    split
    · next hmem =>
      refine List.map_congr_left fun key _ => ?_
      by_cases hkey : key = f.key
      · rw [if_pos hkey, hkey, entryAmong_concat_of_mem hmem]
      · rw [if_neg hkey, entryAmong_concat_of_ne (Ne.symm hkey)]
    · next hmem =>
      rw [List.map_append, List.map_singleton, entryAmong_concat_of_notMem hmem]
      refine congrArg (· ++ _) (List.map_congr_left fun key hkey => ?_)
      rw [entryAmong_concat_of_ne]
      rintro rfl
      exact hmem (List.mem_eraseDups.1 hkey)

/-- The keys stand in the order of the first finding under each. -/
theorem keys_insertAll (found : List Finding) :
    (empty.insertAll found).entries.map (·.1) = (found.map (·.key)).eraseDups := by
  rw [entries_insertAll, List.map_map]
  exact List.map_id _

/-- Under each key stands some selector, and none twice. -/
theorem selectors_of_mem_insertAll {found : List Finding} {entry : String × CriticalEntry}
    (h : entry ∈ (empty.insertAll found).entries) :
    entry.2.selectors ≠ [] ∧ entry.2.selectors.Nodup := by
  rw [entries_insertAll] at h
  obtain ⟨key, hkey, rfl⟩ := List.mem_map.1 h
  obtain ⟨f, hf, rfl⟩ := List.mem_map.1 (List.mem_eraseDups.1 hkey)
  refine ⟨List.ne_nil_of_mem (a := f.selector) (List.mem_eraseDups.2 ?_), nodup_eraseDups _⟩
  exact List.mem_map_of_mem (List.mem_filter.2 ⟨hf, by simp⟩)

/-- The critical selectors are those that were found. -/
theorem isCritical_insertAll (m : CriticalMap) (found : List Finding) (key selector : String) :
    (m.insertAll found).isCritical key selector = true ↔
      m.isCritical key selector = true ∨ ∃ f ∈ found, f.key = key ∧ f.selector = selector := by
  induction found generalizing m with
  | nil => simp [insertAll]
  | cons f found ih =>
    have hcons : m.insertAll (f :: found) = (m.insert f.key f.selector f.kind).insertAll found := rfl
    rw [hcons, ih, isCritical_insert, Bool.or_eq_true, decide_eq_true_eq, List.exists_mem_cons_iff,
      or_comm (a := key = _ ∧ _), or_assoc, eq_comm (a := key), eq_comm (a := selector)]

end CriticalMap

end CriticalCss
