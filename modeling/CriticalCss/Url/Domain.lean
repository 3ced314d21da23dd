import CriticalCss.Text.Blank
import CriticalCss.Text.PlainForm
import CriticalCss.Text.SmallLetter
import CriticalCss.Url.Punycode

/-!
# Domain names

`Domain.toAscii?` gives the name by which a host is looked up: capital letters become small ones,
characters that do not show are dropped, and labels with letters outside the ASCII range are
written in ASCII letters after `xn--`.
-/

namespace CriticalCss.Domain

/-- Characters that do not count in a name. -/
def isIgnored (c : Char) : Bool :=
  c ∈ ['\u00AD', '\u200B', '\u2060', '\uFEFF'] || (0xFE00 ≤ c.toNat && c.toNat ≤ 0xFE0F)

/-- Characters outside the ASCII range that no name has: white space, controls, marks of direction,
private characters and those that are never assigned. -/
def isRefused (c : Char) : Bool :=
  let n := c.toNat
  0x80 ≤ n && (Text.isBlank c || n < 0xA0 || (0x200C ≤ n && n ≤ 0x200F) ||
    (0x2028 ≤ n && n ≤ 0x202E) || (0x2061 ≤ n && n ≤ 0x206F) || (0xE000 ≤ n && n ≤ 0xF8FF) ||
    (0xFDD0 ≤ n && n ≤ 0xFDEF) || (0xFFF0 ≤ n && n ≤ 0xFFFF) || n % 0x10000 ≥ 0xFFFE ||
    0xE0000 ≤ n)

/-- Characters of the ASCII range that no name has. -/
def isForbidden (c : Char) : Bool :=
  c.toNat ≤ 0x20 || c = '\x7F' ||
    c ∈ ['%', '#', '/', ':', '<', '>', '?', '@', '[', '\\', ']', '^', '|']

/-- Marks that are placed over or under the letter before them. -/
def isAccent (c : Char) : Bool :=
  0x0300 ≤ c.toNat && c.toNat ≤ 0x036F

/-- Accents that stand on their own, which no name has. -/
def isLoneAccent (c : Char) : Bool :=
  c ∈ ['\u00A8', '\u00AF', '\u00B4', '\u00B8', '\u02D8', '\u02D9', '\u02DA', '\u02DB', '\u02DC',
    '\u02DD']

/-- What a character of a name is read as: full stops of other scripts are points, and wide and
styled forms of characters are those characters. -/
def mapChar (c : Char) : List Char :=
  if isIgnored c then []
  else if c ∈ ['\u3002', '\uFF0E', '\uFF61'] then ['.']
  else if 0xFF01 ≤ c.toNat ∧ c.toNat ≤ 0xFF5E then [(Char.ofNat (c.toNat - 0xFEE0)).toLower]
  else (Text.plainForm? c).getD [Text.smallLetter c]

/-- A text between points. -/
def labels : List Char → List (List Char)
  | [] => [[]]
  | c :: cs =>
    match labels cs with
    | [] => [[c]]
    | label :: more => if c = '.' then [] :: label :: more else (c :: label) :: more

/-- Whether a label holds a character that no name has, or begins with an accent. -/
def isRefusedLabel (label : List Char) : Bool :=
  label.any isRefused || label.any isLoneAccent || label.head?.any isAccent

/-- Whether the text after `xn--` is how a label is written: reading it and writing it again gives
the same. -/
def isWritten (cs : List Char) : Bool :=
  match Punycode.decode? cs with
  | none => false
  | some label =>
    label.any (0x80 ≤ ·.toNat) && label.flatMap mapChar = label && !isRefusedLabel label &&
      Punycode.encode label = cs

/-- One label in ASCII letters. -/
def labelToAscii? (label : List Char) : Option (List Char) :=
  let mark := "xn--".toList
  if label.all (·.toNat < 0x80) then
    if mark.isPrefixOf label ∧ !isWritten (label.drop 4) then none else some label
  else if mark.isPrefixOf label ∨ isRefusedLabel label then none
  else some (mark ++ Punycode.encode label)

/-- A name in small ASCII letters, if it can be one. -/
def toAscii? (name : List Char) : Option (List Char) := do
  let written ← (labels (name.flatMap mapChar)).mapM labelToAscii?
  let ascii := ['.'].intercalate written
  if ascii.any isForbidden then none else some ascii

end CriticalCss.Domain
