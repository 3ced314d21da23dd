import CriticalCss.Proofs.Split.Parts

/-!
# Exact splits

A style rule is told by its key, and so are the selectors that the critical part took.  When no key
stands for two different things, the two parts are complementary: the critical part keeps the
critical selectors of what it is made from, the rest keeps exactly the other selectors, and both
keep everything else that they are made from.  `split_eq_of_keysApart` is this law.
-/

namespace CriticalCss

namespace Stylesheet

/-- No key stands for two different things: a leaf with the key of a style rule has the same
selectors, and no style rule that the critical part is made from has the key of one that it is not
made from. -/
structure KeysApart (source : Stylesheet) (retain : Bool) : Prop where
  selectors : ∀ a ∈ Node.leavesOf "" source, a.2 ≠ none →
    ∀ b ∈ Node.leavesOf "" source, b.1 = a.1 → b.2 = a.2
  reached : ∀ a ∈ Node.leavesOf "" (source.filter (isCandidate retain)), a.2 ≠ none →
    ∀ b ∈ Node.leavesOf "" (source.filter fun n => !isCandidate retain n), b.2 ≠ none → b.1 ≠ a.1

theorem mem_leavesOf_filter {source : Stylesheet} {p : Node → Bool} {n : Node}
    {leaf : String × Option (List String)} (hn : n ∈ source) (hp : p n = true)
    (hleaf : leaf ∈ n.leaves "") : leaf ∈ Node.leavesOf "" (source.filter p) := by
  rw [Node.leavesOf_eq_flatMap, List.mem_flatMap]
  exact ⟨n, List.mem_filter.2 ⟨hn, hp⟩, hleaf⟩

theorem mem_leavesOf_of_filter {source : Stylesheet} {p : Node → Bool}
    {leaf : String × Option (List String)} (hleaf : leaf ∈ Node.leavesOf "" (source.filter p)) :
    leaf ∈ Node.leavesOf "" source := by
  rw [Node.leavesOf_eq_flatMap, List.mem_flatMap] at hleaf ⊢
  obtain ⟨n, hn, hleaf⟩ := hleaf
  exact ⟨n, (List.mem_filter.1 hn).1, hleaf⟩

/-- The last leaf with a key is one of the leaves and has the key. -/
theorem mem_of_lastReached? {source : Stylesheet} {retain : Bool} {key : String}
    {leaf : String × Option (List String)} (hlast : lastReached? source retain key = some leaf) :
    leaf ∈ Node.leavesOf "" (source.filter (isCandidate retain)) ∧ leaf.1 = key := by
  rw [lastReached?] at hlast
  exact ⟨List.mem_reverse.1 (List.mem_of_find?_eq_some hlast), by simpa using List.find?_some hlast⟩

/-- When keys stand for one thing each, leaves with one key have the same selectors, wherever the leaves
come from. -/
theorem KeysApart.selectors_eq {source : Stylesheet} {retain : Bool}
    (hkeys : KeysApart source retain) {p p' : Node → Bool} {key : String} {listed : List String}
    {leaf : String × Option (List String)}
    (hstyle : (key, some listed) ∈ Node.leavesOf "" (source.filter p))
    (hleaf : leaf ∈ Node.leavesOf "" (source.filter p')) (hkey : leaf.1 = key) :
    leaf.2 = some listed :=
  hkeys.selectors _ (mem_leavesOf_of_filter hstyle) (by simp) _ (mem_leavesOf_of_filter hleaf) hkey

/-- When keys stand for one thing each, what a style rule of the critical part lists is what the
last leaf with its key lists. -/
theorem KeysApart.lastLists_eq_true {source : Stylesheet} {retain : Bool}
    (hkeys : KeysApart source retain) {key : String} {listed : List String}
    (hleaf : (key, some listed) ∈ Node.leavesOf "" (source.filter (isCandidate retain)))
    {s : String} (hs : s ∈ listed) : lastLists source retain key s = true := by
  rw [lastLists]
  cases hlast : lastReached? source retain key with
  | none =>
    rw [lastReached?, List.find?_eq_none] at hlast
    have hother := hlast _ (List.mem_reverse.2 hleaf)
    exact absurd hother (by simp)
  | some leaf =>
    obtain ⟨hmem, hkey⟩ := mem_of_lastReached? hlast
    have hlisted : leaf.2 = some listed := hkeys.selectors_eq hleaf hmem hkey
    rw [Option.any_some, hlisted]
    simpa using hs

/-- When keys stand for one thing each, nothing is taken from a style rule that the critical part is
not made from. -/
theorem KeysApart.lastLists_eq_false {source : Stylesheet} {retain : Bool}
    (hkeys : KeysApart source retain) {key : String} {listed : List String}
    (hleaf : (key, some listed) ∈
      Node.leavesOf "" (source.filter fun n => !isCandidate retain n)) (s : String) :
    lastLists source retain key s = false := by
  rw [lastLists]
  cases hlast : lastReached? source retain key with
  | none => rfl
  | some leaf =>
    obtain ⟨hmem, hkey⟩ := mem_of_lastReached? hlast
    have hlisted : leaf.2 = some listed := hkeys.selectors_eq hleaf hmem hkey
    exact absurd hkey.symm (hkeys.reached leaf hmem (by simp [hlisted]) _ hleaf (by simp))

/-- When keys stand for one thing each, the critical part is what it is made from with the critical
selectors only, and the rest is the source without the critical selectors of what the critical part
is made from; both without comments, style rules without selectors and groups without rules. -/
theorem split_eq_of_keysApart {source : Stylesheet} {retain : Bool}
    (hkeys : KeysApart source retain) (critical : CriticalMap) :
    source.split critical retain =
      { critical := Node.tidyAll
          ((source.filter (isCandidate retain)).map (Node.narrow critical.isCritical ""))
        rest := Node.tidyAll (source.map fun n =>
          if isCandidate retain n then n.narrow (fun key s => !critical.isCritical key s) ""
          else n) } := by
  have hcritical := critical_eq_tidyAll source critical retain
  have hrest := rest_eq_tidyAll source critical retain
  rw [Node.narrowAll_eq_map] at hcritical hrest
  have hnodes : ∀ n ∈ source,
      n.narrow (isLeft (takenOf critical "" (source.filter (isCandidate retain)))) "" =
        if isCandidate retain n then n.narrow (fun key s => !critical.isCritical key s) ""
        else n := by
    intro n hn
    split
    · next hcandidate =>
      refine Node.narrow_congr fun key listed hleaf s hs => ?_
      have hlast := hkeys.lastLists_eq_true (mem_leavesOf_filter hn hcandidate hleaf) hs
      rw [isLeft_takenOf, hlast, Bool.and_true]
    · next hcandidate =>
      conv_rhs => rw [← Node.narrow_true "" n]
      refine Node.narrow_congr fun key listed hleaf s hs => ?_
      have hlast := hkeys.lastLists_eq_false
        (mem_leavesOf_filter hn (by simpa using hcandidate) hleaf) s
      rw [isLeft_takenOf, hlast, Bool.and_false, Bool.not_false]
  rw [List.map_congr_left hnodes] at hrest
  rw [← hcritical, ← hrest]

/-- Two rules with one key at top level, a rule in a media block, and a rule in a layer, from which
the critical part is not made. -/
def layeredSheet : Stylesheet :=
  [.item (.style ["a", "b"] [⟨"color", "red"⟩]) (some ⟨1, 1⟩),
    .item (.comment "again") (some ⟨2, 1⟩),
    .item (.style ["a", "b"] [⟨"top", "0"⟩]) (some ⟨3, 1⟩),
    .block (.media "print") [.item (.style ["b"] [⟨"color", "blue"⟩]) (some ⟨4, 15⟩)]
      (some ⟨4, 1⟩),
    .block (.other "layer" "base") [.item (.style ["b"] [⟨"left", "0"⟩]) (some ⟨5, 13⟩)]
      (some ⟨5, 1⟩)]

/-- The first selector of the top-level rules and the rule in the media block are critical. -/
def layeredCritical : CriticalMap :=
  ⟨[("a,b", ⟨["a"], .rule⟩), ("mediaprintb", ⟨["b"], .rule⟩), ("layerbaseb", ⟨["b"], .rule⟩)]⟩

/-- Both rules with one key are split alike, the media block goes to the critical part with its only
rule, and the layer goes to the rest whatever the critical map says. -/
theorem split_eq_of_keysApart_layeredSheet :
    KeysApart layeredSheet true ∧
      layeredSheet.split layeredCritical true =
        { critical :=
            [.item (.style ["a"] [⟨"color", "red"⟩]) (some ⟨1, 1⟩),
              .item (.style ["a"] [⟨"top", "0"⟩]) (some ⟨3, 1⟩),
              .block (.media "print") [.item (.style ["b"] [⟨"color", "blue"⟩]) (some ⟨4, 15⟩)]
                (some ⟨4, 1⟩)]
          rest :=
            [.item (.style ["b"] [⟨"color", "red"⟩]) (some ⟨1, 1⟩),
              .item (.style ["b"] [⟨"top", "0"⟩]) (some ⟨3, 1⟩),
              .block (.other "layer" "base") [.item (.style ["b"] [⟨"left", "0"⟩]) (some ⟨5, 13⟩)]
                (some ⟨5, 1⟩)] } := by
  have hkeys : KeysApart layeredSheet true := ⟨by decide, by decide⟩
  refine ⟨hkeys, ?_⟩
  rw [split_eq_of_keysApart hkeys]
  decide

end Stylesheet

end CriticalCss
