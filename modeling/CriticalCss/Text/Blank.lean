/-!
# White space in text

`isBlank` is the Unicode property `White_Space`.  Trimming and splitting into words use it;
they work on lists of characters, and `trim` and `words` lift them to strings.
-/

namespace CriticalCss.Text

/-- Characters with the Unicode property `White_Space`. -/
def isBlank (c : Char) : Bool :=
  let n := c.toNat
  (0x09 ≤ n && n ≤ 0x0d) || n == 0x20 || n == 0x85 || n == 0xa0 || n == 0x1680 ||
    (0x2000 ≤ n && n ≤ 0x200a) || n == 0x2028 || n == 0x2029 || n == 0x202f ||
    n == 0x205f || n == 0x3000

/-- Drops white space at the end. -/
def dropBlanksRight (cs : List Char) : List Char :=
  (cs.reverse.dropWhile isBlank).reverse

/-- Drops white space at both ends. -/
def trimChars (cs : List Char) : List Char :=
  dropBlanksRight (cs.dropWhile isBlank)

/-- The text without white space at its ends. -/
def trim (s : String) : String :=
  String.ofList (trimChars s.toList)

/-- The maximal runs of characters that are not white space. -/
def wordChars : List Char → List (List Char)
  | [] => []
  | c :: cs =>
    if isBlank c then wordChars cs
    else
      match cs, wordChars cs with
      | d :: _, w :: ws => if isBlank d then [c] :: w :: ws else (c :: w) :: ws
      | _, ws => [c] :: ws

/-- The words joined by one space each: runs of white space collapse and the ends are trimmed. -/
def collapse (cs : List Char) : List Char :=
  [' '].intercalate (wordChars cs)

/-- Whether the text holds white space only. -/
def isAllBlank (s : String) : Bool :=
  s.toList.all isBlank

end CriticalCss.Text
