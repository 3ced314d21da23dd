import CriticalCss.Token.Scan

/-!
# Skipping over blocks

A block runs from an opening bracket to the matching closing one.  Inside a block a closing bracket
of another kind is an ordinary token, and the end of the text closes every block.  `skipUntil`
passes tokens, blocks as a whole, up to one of the given characters; it stops only where a token
begins.
-/

namespace CriticalCss.Token

/-- The text after the blocks on the stack, innermost first, whose inside begins here. -/
def closeBlocks (stack : List Bracket) (cs : List Char) : List Char :=
  match _h : scan cs with
  | none => []
  | some (t, rest) =>
    match stack with
    | [] => cs
    | top :: below =>
      if t.closes? = some top then
        if below.isEmpty then rest else closeBlocks below rest
      else
        match t.opens? with
        | some b => closeBlocks (b :: top :: below) rest
        | none => closeBlocks (top :: below) rest
termination_by cs.length
decreasing_by all_goals exact scan_length_lt _h

/-- The text after the block whose inside begins here. -/
def closeBlock (b : Bracket) (cs : List Char) : List Char :=
  closeBlocks [b] cs

theorem closeBlocks_empty (stack : List Bracket) : closeBlocks stack [] = [] := by
  rw [closeBlocks]
  rfl

/-- With all blocks closed nothing is skipped. -/
theorem closeBlocks_nil (cs : List Char) : closeBlocks [] cs = cs := by
  rw [closeBlocks]
  split
  · next hscan => exact (scan_eq_none_iff.1 hscan).symm
  · rfl

/-- The innermost block is closed by a token, or the block that the token opens is put on top. -/
theorem closeBlocks_of_scan {cs rest : List Char} {t : Token} (h : scan cs = some (t, rest))
    (top : Bracket) (below : List Bracket) :
    closeBlocks (top :: below) cs =
      if t.closes? = some top then closeBlocks below rest
      else closeBlocks (t.opens?.toList ++ top :: below) rest := by
  rw [closeBlocks]
  split
  · next hscan =>
    rw [h] at hscan
    cases hscan
  · next hscan =>
    rw [h] at hscan
    cases hscan
    dsimp only
    split
    · cases below with
      | nil => exact (closeBlocks_nil rest).symm
      | cons b below => rfl
    · cases t.opens? <;> rfl

theorem closeBlocks_suffix (stack : List Bracket) (cs : List Char) : closeBlocks stack cs <:+ cs := by
  induction cs using scan_induction generalizing stack with
  | nil => simp only [closeBlocks_empty, List.suffix_rfl]
  | token cs t rest hscan ih =>
    have hrest := fun stack => (ih rest (Nat.le_refl _) stack).trans (scan_suffix hscan)
    cases stack with
    | nil => simp only [closeBlocks_nil, List.suffix_rfl]
    | cons top below =>
      rw [closeBlocks_of_scan hscan]
      split
      · exact hrest below
      · exact hrest (t.opens?.toList ++ top :: below)

theorem closeBlock_suffix (b : Bracket) (cs : List Char) : closeBlock b cs <:+ cs :=
  closeBlocks_suffix [b] cs

/-- The text from the first of the stop characters on that begins a token outside blocks. -/
def skipUntil (stops : List Char) (cs : List Char) : List Char :=
  match _h : scan cs with
  | none => []
  | some (t, rest) =>
    if cs.head?.any stops.contains then cs
    else
      match t.opens? with
      | some b => skipUntil stops (closeBlock b rest)
      | none => skipUntil stops rest
termination_by cs.length
decreasing_by
  · exact Nat.lt_of_le_of_lt (closeBlock_suffix _ _).length_le (scan_length_lt _h)
  · exact scan_length_lt _h

theorem skipUntil_empty (stops : List Char) : skipUntil stops [] = [] := by
  rw [skipUntil]
  rfl

/-- Skipping ends at a stop character. -/
theorem skipUntil_of_stop {stops cs : List Char} (hstop : cs.head?.any stops.contains = true) :
    skipUntil stops cs = cs := by
  rw [skipUntil]
  split
  · next hscan => exact (scan_eq_none_iff.1 hscan).symm
  · exact if_pos hstop

/-- Skipping goes over a token, with the block it opens. -/
theorem skipUntil_of_scan {stops cs rest : List Char} {t : Token} (h : scan cs = some (t, rest))
    (hstop : cs.head?.any stops.contains = false) :
    skipUntil stops cs = skipUntil stops (closeBlocks t.opens?.toList rest) := by
  rw [skipUntil]
  split
  · next hscan =>
    rw [h] at hscan
    cases hscan
  · next hscan =>
    rw [h] at hscan
    cases hscan
    rw [hstop, if_neg (by decide)]
    cases t.opens? with
    | none => rw [Option.toList_none, closeBlocks_nil]
    | some b => rfl

theorem skipUntil_suffix (stops cs : List Char) : skipUntil stops cs <:+ cs := by
  induction cs using scan_induction with
  | nil => simp only [skipUntil_empty, List.suffix_rfl]
  | token cs t rest hscan ih =>
    cases hstop : cs.head?.any stops.contains with
    | true => simp only [skipUntil_of_stop hstop, List.suffix_rfl]
    | false =>
      have hclose := closeBlocks_suffix t.opens?.toList rest
      rw [skipUntil_of_scan hscan hstop]
      exact ((ih _ hclose.length_le).trans hclose).trans (scan_suffix hscan)

/-- Skipping moves on unless a stop character is here already. -/
theorem skipUntil_length_lt {stops cs : List Char} (hne : cs ≠ [])
    (hstop : cs.head?.any stops.contains = false) : (skipUntil stops cs).length < cs.length := by
  cases hscan : scan cs with
  | none => exact absurd (scan_eq_none_iff.1 hscan) hne
  | some found =>
    obtain ⟨t, rest⟩ := found
    have hskip := (skipUntil_suffix stops (closeBlocks t.opens?.toList rest)).length_le
    have hclose := (closeBlocks_suffix t.opens?.toList rest).length_le
    have hlt := scan_length_lt hscan
    rw [skipUntil_of_scan hscan hstop]
    omega

/-- Passes white space and comments. -/
def skipBlanks (cs : List Char) : List Char :=
  match _h : scan cs with
  | some (.space _, rest) => skipBlanks rest
  | some (.comment _, rest) => skipBlanks rest
  | _ => cs
termination_by cs.length
decreasing_by all_goals exact scan_length_lt _h

/-- Whether a token is white space or a comment. -/
def isBlank : Token → Bool
  | .space _ => true
  | .comment _ => true
  | _ => false

theorem skipBlanks_empty : skipBlanks [] = [] := by
  rw [skipBlanks]
  rfl

theorem skipBlanks_of_scan {cs rest : List Char} {t : Token} (h : scan cs = some (t, rest)) :
    skipBlanks cs = if t.isBlank then skipBlanks rest else cs := by
  rw [skipBlanks]
  split
  · next hscan =>
    rw [h] at hscan
    cases hscan
    rfl
  · next hscan =>
    rw [h] at hscan
    cases hscan
    rfl
  · next hspace hcomment =>
    rw [if_neg]
    intro hblank
    cases t with
    | space s => exact hspace s rest h
    | comment s => exact hcomment s rest h
    | _ => cases hblank

theorem skipBlanks_suffix (cs : List Char) : skipBlanks cs <:+ cs := by
  induction cs using scan_induction with
  | nil => simp only [skipBlanks_empty, List.suffix_rfl]
  | token cs t rest hscan ih =>
    rw [skipBlanks_of_scan hscan]
    split
    · exact (ih rest (Nat.le_refl _)).trans (scan_suffix hscan)
    · exact List.suffix_rfl

/-- The part of a text before a later part of it. -/
def between (start rest : List Char) : List Char :=
  start.take (start.length - rest.length)

end CriticalCss.Token
