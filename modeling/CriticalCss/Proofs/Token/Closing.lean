import CriticalCss.Proofs.Token.Outline

/-!
# Where blocks end

Reading on inside a block does not change where the block ends.

* `closeBlocks_append` closes blocks one by one from the inside.
* `closeBlock_skipUntil` and `closeBlock_skipBlanks` are the readers that go over tokens;
  `head?_of_closes` says why the former cannot leave a block that it stops at the end of.
-/

namespace CriticalCss

namespace Token

/-! ## Where a block ends -/

/-- Closing some blocks and then those around them. -/
theorem closeBlocks_append (upper below : List Bracket) (cs : List Char) :
    closeBlocks (upper ++ below) cs = closeBlocks below (closeBlocks upper cs) := by
  induction cs using scan_induction generalizing upper with
  | nil => rw [closeBlocks_empty, closeBlocks_empty, closeBlocks_empty]
  | token cs t rest hscan ih =>
    cases upper with
    | nil => rw [List.nil_append, closeBlocks_nil]
    | cons top upper =>
      have hgoesOn := ih rest (Nat.le_refl _)
      rw [List.cons_append, closeBlocks_of_scan hscan, closeBlocks_of_scan hscan]
      split
      · exact hgoesOn upper
      · rw [← hgoesOn, List.append_assoc, List.cons_append]

/-- A token goes by, with the block it opens, unless it closes the block. -/
theorem closeBlock_of_scan {b : Bracket} {cs rest : List Char} {t : Token}
    (h : scan cs = some (t, rest)) (hcloses : t.closes? ≠ some b) :
    closeBlock b (closeBlocks t.opens?.toList rest) = closeBlock b cs := by
  rw [closeBlock, closeBlock, closeBlocks_of_scan h, if_neg hcloses, closeBlocks_append]

/-- Only a closing brace closes a block in braces. -/
theorem head?_of_closes {cs rest : List Char} {t : Token} (h : scan cs = some (t, rest))
    (hcloses : t.closes? = some .curly) : cs.head? = some '}' := by
  cases scanned_of_scan h with
  | mark mem text =>
    have hmarks : ∀ m ∈ marks, m.2.closes? = some .curly → m.1 = ['}'] := by decide
    obtain rfl := hmarks _ mem hcloses
    rw [text]
    rfl
  | _ => cases hcloses

/-- Skipping ends inside the block. -/
theorem closeBlock_skipUntil {stops : List Char} (hstops : '}' ∈ stops) (cs : List Char) :
    closeBlock .curly (skipUntil stops cs) = closeBlock .curly cs := by
  induction cs using scan_induction with
  | nil => rw [skipUntil_empty]
  | token cs t rest hscan ih =>
    cases hstop : cs.head?.any stops.contains with
    | true => rw [skipUntil_of_stop hstop]
    | false =>
      have hcloses : t.closes? ≠ some .curly := by
        intro hcloses
        rw [head?_of_closes hscan hcloses, Option.any_some, List.contains_eq_mem,
          decide_eq_false_iff_not] at hstop
        exact hstop hstops
      have hle := (closeBlocks_suffix t.opens?.toList rest).length_le
      rw [skipUntil_of_scan hscan hstop, ih _ hle, closeBlock_of_scan hscan hcloses]

theorem closeBlock_skipBlanks (b : Bracket) (cs : List Char) :
    closeBlock b (skipBlanks cs) = closeBlock b cs := by
  induction cs using scan_induction with
  | nil => rw [skipBlanks_empty]
  | token cs t rest hscan ih =>
    rw [skipBlanks_of_scan hscan]
    split
    · next hblank =>
      have hplain : t.opens? = none ∧ t.closes? = none := by
        cases t with
        | space s => exact ⟨rfl, rfl⟩
        | comment s => exact ⟨rfl, rfl⟩
        | _ => cases hblank
      rw [ih rest (Nat.le_refl _), closeBlock, closeBlock,
        closeBlocks_of_plain hscan hplain.1 hplain.2]
    · rfl

theorem closeBlock_opening (body : List Char) :
    closeBlock .curly ('{' :: body) = closeBlock .curly (closeBlock .curly body) :=
  have hscan : scan ('{' :: body) = some (.opening .curly, body) := rfl
  (closeBlock_of_scan hscan nofun).symm

theorem closeBlock_semicolon (rest : List Char) :
    closeBlock .curly (';' :: rest) = closeBlock .curly rest :=
  have hscan : scan (';' :: rest) = some (.semicolon, rest) := rfl
  closeBlocks_of_plain hscan rfl rfl .curly []

end Token

end CriticalCss
