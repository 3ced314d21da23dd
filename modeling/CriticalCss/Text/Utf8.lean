/-!
# Bytes of text

`bytes` writes a character as the one to four bytes of its UTF-8 form.  `fromBytes` reads bytes
back: bytes that begin no character, or stop short of one, are read as `none`, each longest run
that could still have become a character once.
-/

namespace CriticalCss.Text

/-- The UTF-8 bytes of a character. -/
def bytes (c : Char) : List Nat :=
  let n := c.toNat
  if n < 0x80 then [n]
  else if n < 0x800 then [0xC0 + n / 64, 0x80 + n % 64]
  else if n < 0x10000 then [0xE0 + n / 4096, 0x80 + n / 64 % 64, 0x80 + n % 64]
  else [0xF0 + n / 262144, 0x80 + n / 4096 % 64, 0x80 + n / 64 % 64, 0x80 + n % 64]

/-- Reads `more` further bytes of a character, the first of them between `low` and `high`.  The
number `n` collects the bits. -/
def takeContinuation : (more low high n : Nat) → List Nat → Option Char × List Nat
  | 0, _, _, n, bs => (some (Char.ofNat n), bs)
  | more + 1, low, high, n, bs =>
    match bs with
    | [] => (none, [])
    | b :: rest =>
      if low ≤ b ∧ b ≤ high then takeContinuation more 0x80 0xBF (n * 64 + (b - 0x80)) rest
      else (none, b :: rest)

/-- Reads one character that begins with the byte `b`. -/
def takeCharacter (b : Nat) (bs : List Nat) : Option Char × List Nat :=
  if b < 0x80 then (some (Char.ofNat b), bs)
  else if b < 0xC2 then (none, bs)
  else if b < 0xE0 then takeContinuation 1 0x80 0xBF (b - 0xC0) bs
  else if b < 0xF0 then
    takeContinuation 2 (if b = 0xE0 then 0xA0 else 0x80) (if b = 0xED then 0x9F else 0xBF)
      (b - 0xE0) bs
  else if b < 0xF5 then
    takeContinuation 3 (if b = 0xF0 then 0x90 else 0x80) (if b = 0xF4 then 0x8F else 0xBF)
      (b - 0xF0) bs
  else (none, bs)

theorem length_takeContinuation_le (more low high n : Nat) (bs : List Nat) :
    (takeContinuation more low high n bs).2.length ≤ bs.length := by
  induction more generalizing low high n bs with
  | zero => simp [takeContinuation]
  | succ more ih =>
    cases bs with
    | nil => simp [takeContinuation]
    | cons b rest =>
      simp only [takeContinuation]
      split
      · exact Nat.le_succ_of_le (ih _ _ _ rest)
      · exact Nat.le_refl _

theorem length_takeCharacter_le (b : Nat) (bs : List Nat) :
    (takeCharacter b bs).2.length ≤ bs.length := by
  grind [takeCharacter, length_takeContinuation_le]

/-- The characters that bytes write. -/
def fromBytes : List Nat → List (Option Char)
  | [] => []
  | b :: bs => (takeCharacter b bs).1 :: fromBytes (takeCharacter b bs).2
termination_by bs => bs.length
decreasing_by
  have := length_takeCharacter_le b bs
  simp only [List.length_cons]
  omega

/-- The text that bytes write, if all of them belong to characters. -/
def fromBytes? (bs : List Nat) : Option (List Char) :=
  (fromBytes bs).mapM id

/-- The text that bytes write, with `U+FFFD` for what is no character. -/
def fromBytesLossy (bs : List Nat) : List Char :=
  (fromBytes bs).map fun c => c.getD '\uFFFD'

end CriticalCss.Text
