import AccessLog.Text.CharSet

/-! # Composition

A letter with a mark may be one character. In composed text the two do not stand side by side then;
nor do the letters of a syllable of Hangul. -/

namespace AccessLog.Text

/-- Characters, with those before them that they make up one with. -/
def compositions : List (Nat × String) :=
  [(0x300, "61 65 69 6e-6f 75 77 79 e2 ea f4 fc 103 113 14d 1a1 1b0 3b1 3b5 3b7 3b9 3bf 3c5"),
   (0x300, "3c9-3cb 435 438 1f00-1f01 1f10-1f11 1f20-1f21 1f30-1f31 1f40-1f41 1f50-1f51"),
   (0x300, "1f60-1f61"),
   (0x301, "61 63 65 67 69 6b-70 72-73 75 77 79-7a e2 e5-e7 ea ef f4-f5 f8 fc 103 113 14d"),
   (0x301, "169 1a1 1b0 3b1 3b5 3b7 3b9 3bf 3c5 3c9-3cb 433 43a 1f00-1f01 1f10-1f11"),
   (0x301, "1f20-1f21 1f30-1f31 1f40-1f41 1f50-1f51 1f60-1f61"),
   (0x302, "61 63 65 67-6a 6f 73 75 77 79-7a 1ea1 1eb9 1ecd"),
   (0x303, "61 65 69 6e-6f 75-76 79 e2 ea f4 103 1a1 1b0"),
   (0x304, "61 65 67 69 6f 75 79 e4 e6 f5-f6 fc 1eb 227 22f 3b1 3b9 3c5 438 443 1e37 1e5b"),
   (0x306, "61 65 67 69 6f 75 229 3b1 3b9 3c5 430 435-436 438 443 1ea1"),
   (0x307, "61-68 6d-70 72-74 77-7a 15b 161 1e63"),
   (0x308, "61 65 68-69 6f 74-75 77-79 f5 16b 3b9 3c5 430 435-438 43e 443 447 44b 44d 456"),
   (0x308, "4d9 4e9"), (0x309, "61 65 69 6f 75 79 e2 ea f4 103 1a1 1b0"), (0x30a, "61 75 77 79"),
   (0x30b, "6f 75 443"), (0x30c, "61 63-65 67-6c 6e-6f 72-75 7a fc 292"),
   (0x30f, "61 65 69 6f 72 75 475"), (0x311, "61 65 69 6f 72 75"),
   (0x313, "3b1 3b5 3b7 3b9 3bf 3c1 3c5 3c9"), (0x314, "3b1 3b5 3b7 3b9 3bf 3c1 3c5 3c9"),
   (0x31b, "6f 75"), (0x323, "61-62 64-65 68-69 6b-6f 72-77 79-7a 1a1 1b0"), (0x324, "75"),
   (0x325, "61"), (0x326, "73-74"), (0x327, "63-65 67-68 6b-6c 6e 72-74"),
   (0x328, "61 65 69 6f 75"), (0x32d, "64-65 6c 6e 74-75"), (0x32e, "68"), (0x330, "65 69 75"),
   (0x331, "62 64 68 6b-6c 6e 72 74 7a"),
   (0x338, "3c-3e 2190 2192 2194 21d0 21d2 21d4 2203 2208 220b 2223 2225 223c 2243 2245 2248"),
   (0x338, "224d 2261 2264-2265 2272-2273 2276-2277 227a-227d 2282-2283 2286-2287 2291-2292"),
   (0x338, "22a2 22a8-22a9 22ab 22b2-22b5"),
   (0x342, "3b1 3b7 3b9 3c5 3c9-3cb 1f00-1f01 1f20-1f21 1f30-1f31 1f50-1f51 1f60-1f61"),
   (0x653, "627"), (0x654, "627 648 64a 6c1 6d2 6d5"), (0x655, "627"), (0x93c, "928 930 933"),
   (0x9be, "9c7"), (0x9d7, "9c7"), (0xb3e, "b47"), (0xb56, "b47"), (0xb57, "b47"),
   (0xbbe, "bc6-bc7"), (0xbd7, "b92 bc6"), (0xc56, "c46"), (0xcc2, "cc6"),
   (0xcd5, "cbf cc6 cca"), (0xcd6, "cc6"), (0xd3e, "d46-d47"), (0xd57, "d46"),
   (0xdca, "dd9 ddc"), (0xdcf, "dd9"), (0xddf, "dd9"), (0x102e, "1025"),
   (0x1b35, "1b05 1b07 1b09 1b0b 1b0d 1b11 1b3a 1b3c 1b3e-1b3f 1b42"),
   (0x3099, "3046 304b 304d 304f 3051 3053 3055 3057 3059 305b 305d 305f 3061 3064 3066 3068"),
   (0x3099, "306f 3072 3075 3078 307b 309d 30a6 30ab 30ad 30af 30b1 30b3 30b5 30b7 30b9 30bb"),
   (0x3099, "30bd 30bf 30c1 30c4 30c6 30c8 30cf 30d2 30d5 30d8 30db 30ef-30f2 30fd"),
   (0x309a, "306f 3072 3075 3078 307b 30cf 30d2 30d5 30d8 30db"), (0x110ba, "11099 1109b 110a5"),
   (0x11127, "11131-11132"), (0x1133e, "11347"), (0x11357, "11347"), (0x113b8, "113c2"),
   (0x113bb, "11384"), (0x113c2, "1138b 113c2"), (0x113c9, "11382 11390 113c2"),
   (0x114b0, "114b9"), (0x114ba, "114b9"), (0x114bd, "114b9"), (0x115af, "115b8-115b9"),
   (0x11930, "11935"), (0x1611e, "1611e"), (0x1611f, "1611e 16121-16122 16129"),
   (0x16120, "1611e 16121"), (0x16129, "1611e"), (0x16d67, "16d63 16d67 16d69")]

/-- Whether two characters of a syllable of Hangul make up one. -/
def composeHangul (a b : Char) : Bool :=
  (0x1100 ≤ a.toNat && a.toNat ≤ 0x1112 && 0x1161 ≤ b.toNat && b.toNat ≤ 0x1175) ||
    (0xAC00 ≤ a.toNat && a.toNat ≤ 0xD7A3 && (a.toNat - 0xAC00) % 28 == 0 &&
      0x11A8 ≤ b.toNat && b.toNat ≤ 0x11C2)

/-- Whether two characters side by side make up one. -/
def compose (a b : Char) : Bool :=
  composeHangul a b || compositions.any fun (second, firsts) =>
    second == b.toNat && (CharSet.ofLines [firsts]).contains a

/-- Whether no two characters side by side make up one. -/
def isComposed : List Char → Bool
  | a :: b :: rest => !compose a b && isComposed (b :: rest)
  | _ => true

end AccessLog.Text
