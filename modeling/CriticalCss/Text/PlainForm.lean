/-!
# Plain forms of styled characters

Some characters are styles of other ones: superscripts, circles, ligatures, Roman numerals and the
alphabets of mathematics.  `plainForm?` gives the small letters, digits and marks that such a
character is read as where names are compared.  Styles of other alphabets than the Latin one, and
characters in brackets, are left as they are.
-/

namespace CriticalCss.Text

/-- Runs of styled characters: the first, the last, and what the first one is a style of. -/
def plainRuns : List (Nat × Nat × Char) :=
  [(0x00AA, 0x00AA, 'a'), (0x00B2, 0x00B3, '2'), (0x00B5, 0x00B5, 'μ'), (0x00B9, 0x00B9, '1'),
   (0x00BA, 0x00BA, 'o'), (0x017F, 0x017F, 's'), (0x2070, 0x2070, '0'), (0x2071, 0x2071, 'i'),
   (0x2074, 0x2079, '4'), (0x207A, 0x207A, '+'), (0x207C, 0x207C, '='), (0x207D, 0x207E, '('),
   (0x207F, 0x207F, 'n'), (0x2080, 0x2089, '0'), (0x208A, 0x208A, '+'), (0x208C, 0x208C, '='),
   (0x208D, 0x208E, '('), (0x2090, 0x2090, 'a'), (0x2091, 0x2091, 'e'), (0x2092, 0x2092, 'o'),
   (0x2093, 0x2093, 'x'), (0x2095, 0x2095, 'h'), (0x2096, 0x2099, 'k'), (0x209A, 0x209A, 'p'),
   (0x209B, 0x209C, 's'), (0x2102, 0x2102, 'c'), (0x210A, 0x210B, 'g'), (0x210C, 0x210C, 'h'),
   (0x210D, 0x210D, 'h'), (0x210E, 0x210E, 'h'), (0x2110, 0x2110, 'i'), (0x2111, 0x2111, 'i'),
   (0x2112, 0x2112, 'l'), (0x2113, 0x2113, 'l'), (0x2115, 0x2115, 'n'), (0x2119, 0x211B, 'p'),
   (0x211C, 0x211C, 'r'), (0x211D, 0x211D, 'r'), (0x2124, 0x2124, 'z'), (0x2126, 0x2126, 'ω'),
   (0x2128, 0x2128, 'z'), (0x212A, 0x212A, 'k'), (0x212B, 0x212B, 'å'), (0x212C, 0x212D, 'b'),
   (0x212F, 0x212F, 'e'), (0x2130, 0x2131, 'e'), (0x2133, 0x2133, 'm'), (0x2134, 0x2134, 'o'),
   (0x2139, 0x2139, 'i'), (0x2145, 0x2145, 'd'), (0x2146, 0x2147, 'd'), (0x2148, 0x2149, 'i'),
   (0x2160, 0x2160, 'i'), (0x2164, 0x2164, 'v'), (0x2169, 0x2169, 'x'), (0x216C, 0x216C, 'l'),
   (0x216D, 0x216E, 'c'), (0x216F, 0x216F, 'm'), (0x2170, 0x2170, 'i'), (0x2174, 0x2174, 'v'),
   (0x2179, 0x2179, 'x'), (0x217C, 0x217C, 'l'), (0x217D, 0x217E, 'c'), (0x217F, 0x217F, 'm'),
   (0x2460, 0x2468, '1'), (0x24B6, 0x24CF, 'a'), (0x24D0, 0x24E9, 'a'), (0x24EA, 0x24EA, '0')]

/-- Single characters that stand for several. -/
def plainTexts : List (Nat × String) :=
  [(0x00BC, "1⁄4"), (0x00BD, "1⁄2"), (0x00BE, "3⁄4"), (0x0130, "i\u0307"), (0x0132, "ij"),
   (0x0133, "ij"), (0x013F, "l·"), (0x0140, "l·"), (0x0149, "ʼn"), (0x01C4, "dž"), (0x01C5, "dž"),
   (0x01C6, "dž"), (0x01C7, "lj"), (0x01C8, "lj"), (0x01C9, "lj"), (0x01CA, "nj"), (0x01CB, "nj"),
   (0x01CC, "nj"), (0x01F1, "dz"), (0x01F2, "dz"), (0x01F3, "dz"), (0x2024, "."), (0x2025, ".."),
   (0x2026, "..."), (0x2103, "°c"), (0x2109, "°f"), (0x2116, "no"), (0x2120, "sm"),
   (0x2121, "tel"), (0x2122, "tm"), (0x213B, "fax"), (0x2161, "ii"), (0x2162, "iii"),
   (0x2163, "iv"), (0x2165, "vi"), (0x2166, "vii"), (0x2167, "viii"), (0x2168, "ix"),
   (0x216A, "xi"), (0x216B, "xii"), (0x2171, "ii"), (0x2172, "iii"), (0x2173, "iv"),
   (0x2175, "vi"), (0x2176, "vii"), (0x2177, "viii"), (0x2178, "ix"), (0x217A, "xi"),
   (0x217B, "xii"), (0x2469, "10"), (0x246A, "11"), (0x246B, "12"), (0x246C, "13"),
   (0x246D, "14"), (0x246E, "15"), (0x246F, "16"), (0x2470, "17"), (0x2471, "18"), (0x2472, "19"),
   (0x2473, "20"), (0xFB00, "ff"), (0xFB01, "fi"), (0xFB02, "fl"), (0xFB03, "ffi"),
   (0xFB04, "ffl"), (0xFB05, "st"), (0xFB06, "st")]

/-- The small letter or digit that a character of mathematics is a style of. -/
def plainOfMathematics? (n : Nat) : Option Char :=
  if 0x1D400 ≤ n ∧ n ≤ 0x1D6A3 then some (Char.ofNat ('a'.toNat + (n - 0x1D400) % 26))
  else if 0x1D7CE ≤ n ∧ n ≤ 0x1D7FF then some (Char.ofNat ('0'.toNat + (n - 0x1D7CE) % 10))
  else none

/-- What a styled character stands for, if it is one. -/
def plainForm? (c : Char) : Option (List Char) :=
  let n := c.toNat
  match plainRuns.find? fun (first, last, _) => first ≤ n ∧ n ≤ last with
  | some (first, _, plain) => some [Char.ofNat (plain.toNat + (n - first))]
  | none =>
    match plainTexts.lookup n with
    | some text => some text.toList
    | none => (plainOfMathematics? n).map fun plain => [plain]

end CriticalCss.Text
