/-!
# Domain labels in ASCII letters

A label with letters outside the ASCII range is written with its ASCII letters first, followed by
the positions and code points of the others as a series of distances.  Each distance is a number in
base 36 whose places have thresholds that follow the size of the distances before it.
-/

namespace CriticalCss.Punycode

/-- The digit for a value below 36: a letter, or a figure from 26 on. -/
def digit (d : Nat) : Char :=
  Char.ofNat (if d < 26 then 0x61 + d else 0x30 + d - 26)

/-- The value of a digit. -/
def digitValue? (c : Char) : Option Nat :=
  if 'a' ≤ c ∧ c ≤ 'z' then some (c.toNat - 0x61)
  else if 'A' ≤ c ∧ c ≤ 'Z' then some (c.toNat - 0x41)
  else if '0' ≤ c ∧ c ≤ '9' then some (c.toNat - 0x30 + 26)
  else none

/-- The threshold of the place `k`. -/
def threshold (k bias : Nat) : Nat :=
  if k ≤ bias then 1 else if bias + 26 ≤ k then 26 else k - bias

theorem threshold_pos (k bias : Nat) : 1 ≤ threshold k bias := by
  unfold threshold
  split
  · omega
  · split <;> omega

/-- Divides a distance by 35 until it is small, and counts 36 for each division. -/
def shrink (distance k : Nat) : Nat × Nat :=
  if 455 < distance then shrink (distance / 35) (k + 36) else (distance, k)
termination_by distance
decreasing_by exact Nat.div_lt_self (by omega) (by omega)

/-- The bias after a distance, where `count` characters have been placed. -/
def adapt (distance count : Nat) (first : Bool) : Nat :=
  let d := if first then distance / 700 else distance / 2
  let (d, k) := shrink (d + d / count) 0
  k + 36 * d / (d + 38)

/-- The digits of a distance. -/
def digits (bias k q : Nat) : List Char :=
  let t := threshold k bias
  if q < t then [digit q]
  else digit (t + (q - t) % (36 - t)) :: digits bias (k + 36) ((q - t) / (36 - t))
termination_by q
decreasing_by
  have h := threshold_pos k bias
  have := Nat.div_le_self (q - threshold k bias) (36 - threshold k bias)
  omega

/-- Where the writing of a label stands. -/
structure Progress where
  written : List Char
  distance : Nat
  bias : Nat
  placed : Nat

/-- Passes one character of the label while the code point `m` is placed. -/
def Progress.pass (basic m : Nat) (p : Progress) (c : Char) : Progress :=
  if c.toNat < m then { p with distance := p.distance + 1 }
  else if c.toNat = m then
    { written := p.written ++ digits p.bias 36 p.distance
      distance := 0
      bias := adapt p.distance (p.placed + 1) (p.placed = basic)
      placed := p.placed + 1 }
  else p

/-- Places the given code points in order; those below `n` are placed already. -/
def place (label : List Char) (basic : Nat) : List Nat → Nat → Progress → Progress
  | [], _, p => p
  | m :: more, n, p =>
    let q := { p with distance := p.distance + (m - n) * (p.placed + 1) }
    let q := label.foldl (Progress.pass basic m) q
    place label basic more (m + 1) { q with distance := q.distance + 1 }

/-- The label in ASCII letters. -/
def encode (label : List Char) : List Char :=
  let basic := label.filter (·.toNat < 0x80)
  let others := ((label.filter (0x80 ≤ ·.toNat)).map Char.toNat).mergeSort (· ≤ ·)
  let start := ⟨[], 0, 72, basic.length⟩
  basic ++ (if basic = [] then [] else ['-']) ++
    (place label basic.length others.eraseDups 0x80 start).written

/-- Reads a distance: the sum of `i` and its places, from the place `k` with the weight `w` on, and
the text after it. -/
def takeDistance (bias : Nat) : List Char → (k w i : Nat) → Option (Nat × List Char)
  | [], _, _, _ => none
  | c :: cs, k, w, i =>
    match digitValue? c with
    | none => none
    | some d =>
      let t := threshold k bias
      if d < t then some (i + d * w, cs)
      else takeDistance bias cs (k + 36) (w * (36 - t)) (i + d * w)

theorem length_of_takeDistance {bias : Nat} {cs : List Char} {k w i : Nat} {r : Nat × List Char}
    (h : takeDistance bias cs k w i = some r) : r.2.length < cs.length := by
  induction cs generalizing k w i with
  | nil => simp [takeDistance] at h
  | cons c cs ih =>
    simp only [takeDistance] at h
    split at h
    · simp at h
    · split at h
      · rw [← Option.some.inj h]; simp
      · exact Nat.lt_succ_of_lt (ih h)

/-- Puts the characters that the distances tell into a label, after the code point `n` at the
position `i`. -/
def fill (bias n i : Nat) (label : List Char) : List Char → Option (List Char)
  | [] => some label
  | c :: cs =>
    match _h : takeDistance bias (c :: cs) 36 1 i with
    | none => none
    | some (j, rest) =>
      let count := label.length + 1
      let m := n + j / count
      if m.isValidChar then
        fill (adapt (j - i) count (i = 0)) m (j % count + 1)
          (label.insertIdx (j % count) (Char.ofNat m)) rest
      else none
termination_by cs => cs.length
decreasing_by exact length_of_takeDistance _h

/-- The label that a text in ASCII letters stands for. -/
def decode? (cs : List Char) : Option (List Char) :=
  let tail := (cs.reverse.takeWhile (· ≠ '-')).reverse
  let basic := cs.take (cs.length - tail.length - 1)
  fill 72 0x80 0 basic tail

end CriticalCss.Punycode
