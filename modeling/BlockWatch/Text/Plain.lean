/-!
# Plain letters and digits

Many characters are variants of a letter or a digit of ASCII: wide, raised, circled and mathematical
ones, and signs that hold several of them at once.  `plain` gives what a variant stands for, in
lower case.  A host is read with variants counted as what they stand for (`Rpc.Host`).

The tables have the variants in runs: the first code point, the length of the run, and the character
that the first one stands for.
-/

set_option autoImplicit false

namespace BlockWatch.Text

/-- Runs of variants in the order of the alphabet or of the digits: the first code point, how many
there are, and what the first one stands for. -/
def variantRuns : List (Nat × Nat × Char) :=
  [(0xaa, 1, 'a'), (0xb2, 2, '2'), (0xb9, 1, '1'), (0xba, 1, 'o'), (0x17f, 1, 's'),
   (0x2b0, 1, 'h'), (0x2b2, 1, 'j'), (0x2b3, 1, 'r'), (0x2b7, 1, 'w'), (0x2b8, 1, 'y'),
   (0x2e1, 1, 'l'), (0x2e2, 1, 's'), (0x2e3, 1, 'x'), (0x1d2c, 1, 'a'), (0x1d2e, 1, 'b'),
   (0x1d30, 2, 'd'), (0x1d33, 8, 'g'), (0x1d3c, 1, 'o'), (0x1d3e, 1, 'p'), (0x1d3f, 1, 'r'),
   (0x1d40, 2, 't'), (0x1d42, 1, 'w'), (0x1d43, 1, 'a'), (0x1d47, 1, 'b'), (0x1d48, 2, 'd'),
   (0x1d4d, 1, 'g'), (0x1d4f, 1, 'k'), (0x1d50, 1, 'm'), (0x1d52, 1, 'o'), (0x1d56, 1, 'p'),
   (0x1d57, 2, 't'), (0x1d5b, 1, 'v'), (0x1d62, 1, 'i'), (0x1d63, 1, 'r'), (0x1d64, 2, 'u'),
   (0x1d9c, 1, 'c'), (0x1da0, 1, 'f'), (0x1dbb, 1, 'z'), (0x2070, 1, '0'), (0x2071, 1, 'i'),
   (0x2074, 6, '4'), (0x207f, 1, 'n'), (0x2080, 10, '0'), (0x2090, 1, 'a'), (0x2091, 1, 'e'),
   (0x2092, 1, 'o'), (0x2093, 1, 'x'), (0x2095, 1, 'h'), (0x2096, 4, 'k'), (0x209a, 1, 'p'),
   (0x209b, 2, 's'), (0x2102, 1, 'c'), (0x210a, 2, 'g'), (0x210c, 1, 'h'), (0x210d, 1, 'h'),
   (0x210e, 1, 'h'), (0x2110, 1, 'i'), (0x2111, 1, 'i'), (0x2112, 1, 'l'), (0x2113, 1, 'l'),
   (0x2115, 1, 'n'), (0x2119, 3, 'p'), (0x211c, 1, 'r'), (0x211d, 1, 'r'), (0x2124, 1, 'z'),
   (0x2128, 1, 'z'), (0x212a, 1, 'k'), (0x212c, 2, 'b'), (0x212f, 1, 'e'), (0x2130, 2, 'e'),
   (0x2133, 1, 'm'), (0x2134, 1, 'o'), (0x2139, 1, 'i'), (0x2145, 1, 'd'), (0x2146, 2, 'd'),
   (0x2148, 2, 'i'), (0x2160, 1, 'i'), (0x2164, 1, 'v'), (0x2169, 1, 'x'), (0x216c, 1, 'l'),
   (0x216d, 2, 'c'), (0x216f, 1, 'm'), (0x2170, 1, 'i'), (0x2174, 1, 'v'), (0x2179, 1, 'x'),
   (0x217c, 1, 'l'), (0x217d, 2, 'c'), (0x217f, 1, 'm'), (0x2460, 9, '1'), (0x24b6, 26, 'a'),
   (0x24d0, 26, 'a'), (0x24ea, 1, '0'), (0x2c7c, 1, 'j'), (0x2c7d, 1, 'v'), (0xa7f1, 1, 's'),
   (0xa7f2, 1, 'c'), (0xa7f3, 1, 'f'), (0xa7f4, 1, 'q'), (0xff10, 10, '0'), (0xff21, 26, 'a'),
   (0xff41, 26, 'a'), (0x107a5, 1, 'q'), (0x1ccd6, 26, 'a'), (0x1ccf0, 10, '0'),
   (0x1d400, 26, 'a'), (0x1d41a, 26, 'a'), (0x1d434, 26, 'a'), (0x1d44e, 7, 'a'),
   (0x1d456, 18, 'i'), (0x1d468, 26, 'a'), (0x1d482, 26, 'a'), (0x1d49c, 1, 'a'),
   (0x1d49e, 2, 'c'), (0x1d4a2, 1, 'g'), (0x1d4a5, 2, 'j'), (0x1d4a9, 4, 'n'), (0x1d4ae, 8, 's'),
   (0x1d4b6, 4, 'a'), (0x1d4bb, 1, 'f'), (0x1d4bd, 7, 'h'), (0x1d4c5, 11, 'p'),
   (0x1d4d0, 26, 'a'), (0x1d4ea, 26, 'a'), (0x1d504, 2, 'a'), (0x1d507, 4, 'd'),
   (0x1d50d, 8, 'j'), (0x1d516, 7, 's'), (0x1d51e, 26, 'a'), (0x1d538, 2, 'a'), (0x1d53b, 4, 'd'),
   (0x1d540, 5, 'i'), (0x1d546, 1, 'o'), (0x1d54a, 7, 's'), (0x1d552, 26, 'a'),
   (0x1d56c, 26, 'a'), (0x1d586, 26, 'a'), (0x1d5a0, 26, 'a'), (0x1d5ba, 26, 'a'),
   (0x1d5d4, 26, 'a'), (0x1d5ee, 26, 'a'), (0x1d608, 26, 'a'), (0x1d622, 26, 'a'),
   (0x1d63c, 26, 'a'), (0x1d656, 26, 'a'), (0x1d670, 26, 'a'), (0x1d68a, 26, 'a'),
   (0x1d7ce, 10, '0'), (0x1d7d8, 10, '0'), (0x1d7e2, 10, '0'), (0x1d7ec, 10, '0'),
   (0x1d7f6, 10, '0'), (0x1f12b, 1, 'c'), (0x1f12c, 1, 'r'), (0x1f130, 26, 'a'),
   (0x1fbf0, 10, '0')]

/-- Runs of signs for numbers in their order: the first code point, how many there are, and the
number of the first one. -/
def numberRuns : List (Nat × Nat × Nat) :=
  [(0x2469, 11, 10), (0x3251, 15, 21), (0x32b1, 15, 36)]

/-- Signs that hold several letters, or letters and digits. -/
def signs : List (Nat × String) :=
  [(0x132, "ij"), (0x133, "ij"), (0x1c7, "lj"), (0x1c8, "lj"), (0x1c9, "lj"), (0x1ca, "nj"),
   (0x1cb, "nj"), (0x1cc, "nj"), (0x1f1, "dz"), (0x1f2, "dz"), (0x1f3, "dz"), (0x20a8, "rs"),
   (0x2116, "no"), (0x2120, "sm"), (0x2121, "tel"), (0x2122, "tm"), (0x213b, "fax"),
   (0x2161, "ii"), (0x2162, "iii"), (0x2163, "iv"), (0x2165, "vi"), (0x2166, "vii"),
   (0x2167, "viii"), (0x2168, "ix"), (0x216a, "xi"), (0x216b, "xii"), (0x2171, "ii"),
   (0x2172, "iii"), (0x2173, "iv"), (0x2175, "vi"), (0x2176, "vii"), (0x2177, "viii"),
   (0x2178, "ix"), (0x217a, "xi"), (0x217b, "xii"), (0x3250, "pte"), (0x32cc, "hg"),
   (0x32cd, "erg"), (0x32ce, "ev"), (0x32cf, "ltd"), (0x3371, "hpa"), (0x3372, "da"),
   (0x3373, "au"), (0x3374, "bar"), (0x3375, "ov"), (0x3376, "pc"), (0x3377, "dm"),
   (0x3378, "dm2"), (0x3379, "dm3"), (0x337a, "iu"), (0x3380, "pa"), (0x3381, "na"),
   (0x3383, "ma"), (0x3384, "ka"), (0x3385, "kb"), (0x3386, "mb"), (0x3387, "gb"),
   (0x3388, "cal"), (0x3389, "kcal"), (0x338a, "pf"), (0x338b, "nf"), (0x338e, "mg"),
   (0x338f, "kg"), (0x3390, "hz"), (0x3391, "khz"), (0x3392, "mhz"), (0x3393, "ghz"),
   (0x3394, "thz"), (0x3396, "ml"), (0x3397, "dl"), (0x3398, "kl"), (0x3399, "fm"),
   (0x339a, "nm"), (0x339c, "mm"), (0x339d, "cm"), (0x339e, "km"), (0x339f, "mm2"),
   (0x33a0, "cm2"), (0x33a1, "m2"), (0x33a2, "km2"), (0x33a3, "mm3"), (0x33a4, "cm3"),
   (0x33a5, "m3"), (0x33a6, "km3"), (0x33a9, "pa"), (0x33aa, "kpa"), (0x33ab, "mpa"),
   (0x33ac, "gpa"), (0x33ad, "rad"), (0x33b0, "ps"), (0x33b1, "ns"), (0x33b3, "ms"),
   (0x33b4, "pv"), (0x33b5, "nv"), (0x33b7, "mv"), (0x33b8, "kv"), (0x33b9, "mv"), (0x33ba, "pw"),
   (0x33bb, "nw"), (0x33bd, "mw"), (0x33be, "kw"), (0x33bf, "mw"), (0x33c3, "bq"), (0x33c4, "cc"),
   (0x33c5, "cd"), (0x33c8, "db"), (0x33c9, "gy"), (0x33ca, "ha"), (0x33cb, "hp"), (0x33cc, "in"),
   (0x33cd, "kk"), (0x33ce, "km"), (0x33cf, "kt"), (0x33d0, "lm"), (0x33d1, "ln"),
   (0x33d2, "log"), (0x33d3, "lx"), (0x33d4, "mb"), (0x33d5, "mil"), (0x33d6, "mol"),
   (0x33d7, "ph"), (0x33d9, "ppm"), (0x33da, "pr"), (0x33db, "sr"), (0x33dc, "sv"),
   (0x33dd, "wb"), (0x33ff, "gal"), (0xfb00, "ff"), (0xfb01, "fi"), (0xfb02, "fl"),
   (0xfb03, "ffi"), (0xfb04, "ffl"), (0xfb05, "st"), (0xfb06, "st"), (0x1f12d, "cd"),
   (0x1f12e, "wz"), (0x1f14a, "hv"), (0x1f14b, "mv"), (0x1f14c, "sd"), (0x1f14d, "ss"),
   (0x1f14e, "ppv"), (0x1f14f, "wc"), (0x1f16a, "mc"), (0x1f16b, "md"), (0x1f16c, "mr"),
   (0x1f190, "dj")]

/-- The place of a code point in a run that starts at `first`. -/
def placeIn? (first length code : Nat) : Option Nat :=
  if first ≤ code ∧ code < first + length then some (code - first) else none

/-- What a variant of one letter or digit stands for. -/
def variantOf? (c : Char) : Option (List Char) :=
  variantRuns.findSome? fun (first, length, start) =>
    (placeIn? first length c.toNat).map fun place => [Char.ofNat (start.toNat + place)]

/-- The digits of a sign for a number. -/
def numberOf? (c : Char) : Option (List Char) :=
  numberRuns.findSome? fun (first, length, start) =>
    (placeIn? first length c.toNat).map fun place => (toString (start + place)).toList

/-- What a character stands for: a capital letter for the small one, a variant for what it is a
variant of, and every other character for itself. -/
def plain (c : Char) : List Char :=
  if c.toNat < 0x80 then [c.toLower]
  else ((variantOf? c).or (numberOf? c)).getD (((signs.lookup c.toNat).map String.toList).getD [c])

/-- A full-width letter is a variant of a letter, a Greek one is not. -/
example : plain '\uff21' = ['a'] ∧ plain '\u0391' = ['\u0391'] := by decide

end BlockWatch.Text
