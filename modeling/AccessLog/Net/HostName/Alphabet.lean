import AccessLog.Text.Unassigned

/-! # The alphabet of host names

A host may be named in any script. Some characters are passed over in a name, some are refused, and
many stand for others: capitals for small letters, letters in a frame for plain letters, signs for
the words that they abbreviate. Only what such a character stands for counts. -/

namespace AccessLog.Net.HostName
open AccessLog.Text

/-- Characters that are passed over. -/
def ignored : CharSet := .ofLines
  ["ad 34f 115f-1160 17b4-17b5 180b-180f 200b 2060-2064 206a-206f 3164 fe00-fe0f feff ffa0",
   "1bca0-1bca3 1d173-1d17a e0100-e01ef"]

/-- Characters that no name contains, as they stand for none or for one that is forbidden. -/
def refused : CharSet := .ofLines
  ["80-a0 a8 af b4 b8 2d8-2dd 37a 384-385 600-605 61c 6dd 70f 890-891 8e2 1680 1fbd",
   "1fbf-1fc1 1fcd-1fcf 1fdd-1fdf 1fed-1fee 1ffd-200a 200e-200f 2017 2024-2026 2028-202f",
   "203e 2047-2049 205f 2066-2069 2100-2101 2105-2106 2488-249b 2a74 2ff0-3000 309b-309c",
   "31ef 33c2 33c7 33d8 fc5e-fc63 fdfa-fdfb fe12-fe13 fe16 fe19 fe30 fe47-fe4c fe52",
   "fe55-fe56 fe5f fe64-fe65 fe68 fe6a-fe70 fe72 fe74-fe76 fe78 fe7a fe7c fe7e ff03 ff05",
   "ff0f ff1a ff1c ff1e-ff20 ff3b-ff3e ff5c ffe3 fff9-fffd 110bd 110cd 13430-1343f 1f100",
   "e0001-e007f"]

/-- Characters that stand for others of the same kind, such as capitals for small letters. -/
def variants : CharSet := .ofLines
  ["b5 c0-d6 d8-de 100/12e 134 136 139/13d 141/147 14a/176 178-179 17b 17d 181-182 184",
   "186-187 189-18b 18e-191 193-194 196-198 19c-19d 19f-1a0 1a2 1a4 1a6-1a7 1a9 1ac 1ae-1af",
   "1b1-1b3 1b5 1b7-1b8 1bc 1cd/1db 1de/1ee 1f4 1f6-1f8 1fa/232 23a-23b 23d-23e 241 243-246",
   "248/24e 2b1-2b6 2e0-2e4 340-341 343-344 370/376 37f-38f 391-3ab 3cf-3d6 3d8/3ee 3f0-3f2",
   "3f4-3f5 3f7 3f9-3fa 3fd-42f 460/480 48a/4be 4c0-4c1 4c3/4cd 4d0/52e 531-556 587 675-678",
   "958-95f 9dc-9df a33 a36 a59-a5b a5e b5c-b5d edc-edd f0c f43 f4d f52 f57 f5c f69 f73",
   "f75-f79 f81 f93 f9d fa2 fa7 fac fb9 10a0-10cd 10fc 13f8-13fd 1c80-1c89 1c90-1cbf 1d2d",
   "1d32 1d3d-1d4c 1d51-1d6a 1d78 1d9b-1dbf 1e00/1e94 1e9b 1e9e/1efe 1f08-1f0f 1f18-1f1d",
   "1f28-1f2f 1f38-1f3f 1f48-1f4d 1f59-1f5f 1f68-1f6f 1f71/1f7b 1f7d-1faf 1fb2-1fb4",
   "1fb7-1fc4 1fc7-1fcc 1fd3 1fd8-1fdb 1fe3 1fe8-1ff4 1ff7-1ffc 2011 2033-2034 2036-2037",
   "2057 207b-2094 2107 210f 2126 212b 2132-2138 213c-2140 2183 222c-222d 222f-2230",
   "2329-232a 2a0c 2adc 2c00-2c2f 2c60 2c62-2c64 2c67/2c6b 2c6d-2c70 2c72 2c75 2c7e-2c80",
   "2c82/2ce2 2ceb 2ced 2cf2 2d6f 2e9f 2ef3-2fd5 3036 3038-303a 309f 30ff 3131-3163",
   "3165-318e 3192-319f 3244-3247 3260-327e 3280-337f a640/a66c a680/a69a a69c-a69d",
   "a722/a72e a732/a770 a779 a77b a77d-a77e a780/a786 a78b a78d a790 a792 a796/a7a8",
   "a7aa-a7ae a7b0-a7b4 a7b6/a7c2 a7c4-a7c7 a7c9 a7cb-a7cc a7ce/a7da a7dc-a7f5 a7f8-a7f9",
   "ab5c-ab5f ab69 ab70-abbf f900-fa0d fa10 fa12 fa15-fa1e fa20 fa22 fa25-fa26 fa2a-fb1d",
   "fb1f-fbb1 fbd3-fd3d fd50-fd8f fd92-fdc7 fdf0-fdfc fe11-fe18 fe31-fe44 fe51-fe71",
   "fe77-fefc ff5f-ff9d ffa1-ffee 10400-10427 104b0-104d3 10570-10595 10781-107ba",
   "10c80-10cb2 10d50-10d65 118a0-118bf 16e40-16e5f 16ea0-16eb8 1d15e-1d164 1d1bb-1d1c0",
   "1d6a4-1d7cb 1e030-1e06d 1e900-1e921 1ee00-1eebb 1f200-1f251 2f800-2fa1d"]

/-- Characters that stand for others of another kind, most of them for signs of ASCII. Each entry
tells, from a code point on, what characters in a row stand for. -/
def substitutes : List (Nat × String) :=
  [(0xaa, "a"), (0xb2, "2 3"), (0xb9, "1 o"), (0xbc, "1⁄4 1⁄2 3⁄4"), (0x130, "i̇"),
   (0x132, "ij ij"), (0x13f, "l· l·"), (0x149, "ʼn"), (0x17f, "s"),
   (0x1c4, "dž dž dž lj lj lj nj nj nj"), (0x1f1, "dz dz dz"), (0x2b0, "h"), (0x2b2, "j r"),
   (0x2b7, "w y"), (0x2e1, "l s x"), (0x345, "ι"), (0x37e, ";"), (0xe33, "ํา"), (0xeb3, "ໍາ"),
   (0x1d2c, "a"), (0x1d2e, "b"), (0x1d30, "d e"), (0x1d33, "g h i j k l m n"), (0x1d3c, "o"),
   (0x1d3e, "p r t u w a"), (0x1d47, "b d e"), (0x1d4d, "g"), (0x1d4f, "k m"), (0x1d52, "o"),
   (0x1d56, "p t u"), (0x1d5b, "v"), (0x1d62, "i r u v"), (0x1d9c, "c"), (0x1da0, "f"),
   (0x1dbb, "z"), (0x1e9a, "aʾ"), (0x1fef, "`"), (0x203c, "!!"), (0x2070, "0 i"),
   (0x2074, "4 5 6 7 8 9 +"), (0x207c, "= ( ) n 0 1 2 3 4 5 6 7 8 9 +"), (0x208c, "= ( )"),
   (0x2090, "a e o x"), (0x2095, "h k l m n p s t"), (0x20a8, "rs"), (0x2102, "c °c"),
   (0x2109, "°f g h h h h"), (0x2110, "i i l l"), (0x2115, "n no"), (0x2119, "p q r r r"),
   (0x2120, "sm tel tm"), (0x2124, "z"), (0x2128, "z"), (0x212a, "k"), (0x212c, "b c"),
   (0x212f, "e e f"), (0x2133, "m o"), (0x2139, "i"), (0x213b, "fax"), (0x2145, "d d e i j"),
   (0x2150, "1⁄7 1⁄9 1⁄10 1⁄3 2⁄3 1⁄5 2⁄5 3⁄5 4⁄5 1⁄6 5⁄6 1⁄8 3⁄8 5⁄8 7⁄8 1⁄ i ii iii"),
   (0x2163, "iv v vi vii viii ix x xi xii l c d m i ii iii iv v vi vii viii ix x xi"),
   (0x217b, "xii l c d m"), (0x2189, "0⁄3"),
   (0x2460, "1 2 3 4 5 6 7 8 9 10 11 12 13 14 15 16 17 18 19 20 (1) (2) (3) (4) (5)"),
   (0x2479, "(6) (7) (8) (9) (10) (11) (12) (13) (14) (15) (16) (17) (18) (19) (20)"),
   (0x249c, "(a) (b) (c) (d) (e) (f) (g) (h) (i) (j) (k) (l) (m) (n) (o) (p) (q) (r)"),
   (0x24ae, "(s) (t) (u) (v) (w) (x) (y) (z) a b c d e f g h i j k l m n o p q r s t"),
   (0x24ca, "u v w x y z a b c d e f g h i j k l m n o p q r s t u v w x y z 0"),
   (0x2a75, "== ==="), (0x2c7c, "j v"), (0x3002, "."),
   (0x3200, "(ᄀ) (ᄂ) (ᄃ) (ᄅ) (ᄆ) (ᄇ) (ᄉ) (ᄋ) (ᄌ) (ᄎ) (ᄏ) (ᄐ) (ᄑ) (ᄒ) (가) (나) (다) (라)"),
   (0x3212, "(마) (바) (사) (아) (자) (차) (카) (타) (파) (하) (주) (오전) (오후)"),
   (0x3220, "(一) (二) (三) (四) (五) (六) (七) (八) (九) (十) (月) (火) (水) (木) (金) (土) (日) (株)"),
   (0x3232, "(有) (社) (名) (特) (財) (祝) (労) (代) (呼) (学) (監) (企) (資) (協) (祭) (休) (自) (至)"),
   (0x3250, "pte 21 22 23 24 25 26 27 28 29 30 31 32 33 34 35"),
   (0x32b1, "36 37 38 39 40 41 42 43 44 45 46 47 48 49 50 1月 2月 3月 4月 5月 6月 7月 8月 9月"),
   (0x32c9, "10月 11月 12月 hg erg ev ltd"),
   (0x3358, "0点 1点 2点 3点 4点 5点 6点 7点 8点 9点 10点 11点 12点 13点 14点 15点 16点 17点 18点 19点"),
   (0x336c, "20点 21点 22点 23点 24点 hpa da au bar ov pc dm dm2 dm3 iu"),
   (0x3380, "pa na μa ma ka kb mb gb cal kcal pf nf μf μg mg kg hz khz mhz ghz thz μl"),
   (0x3396, "ml dl kl fm nm μm mm cm km mm2 cm2 m2 km2 mm3 cm3 m3 km3 m∕s m∕s2 pa kpa"),
   (0x33ab, "mpa gpa rad rad∕s rad∕s2 ps ns μs ms pv nv μv mv kv mv pw nw μw mw kw mw"),
   (0x33c0, "kω mω"), (0x33c3, "bq cc cd c∕kg"),
   (0x33c8, "db gy ha hp in kk km kt lm ln log lx mb mil mol ph"),
   (0x33d9, "ppm pr sr sv wb v∕m a∕m 1日 2日 3日 4日 5日 6日 7日 8日 9日 10日 11日 12日 13日 14日"),
   (0x33ee, "15日 16日 17日 18日 19日 20日 21日 22日 23日 24日 25日 26日 27日 28日 29日 30日 31日 gal"),
   (0xa7f1, "s c f q"), (0xfb00, "ff fi fl ffi ffl st st"), (0xfb29, "+"), (0xfe10, ","),
   (0xfe14, "; !"), (0xfe33, "_ _ ( ) \x7b \x7d"), (0xfe4d, "_ _ _ ,"), (0xfe54, ";"),
   (0xfe57, "!"), (0xfe59, "( ) \x7b \x7d"), (0xfe60, "& * + -"), (0xfe66, "="), (0xfe69, "$"),
   (0xff01, "! \""), (0xff04, "$"), (0xff06, "& ' ( ) * + , - ."),
   (0xff10, "0 1 2 3 4 5 6 7 8 9"), (0xff1b, ";"), (0xff1d, "="),
   (0xff21, "a b c d e f g h i j k l m n o p q r s t u v w x y z"),
   (0xff3f, "_ ` a b c d e f g h i j k l m n o p q r s t u v w x y z \x7b"), (0xff5d, "\x7d ~"),
   (0xff61, "."), (0xff9e, "゙ ゚"), (0x107a5, "q"),
   (0x1ccd6, "a b c d e f g h i j k l m n o p q r s t u v w x y z 0 1 2 3 4 5 6 7 8 9"),
   (0x1d400, "a b c d e f g h i j k l m n o p q r s t u v w x y z a b c d e f g h i j"),
   (0x1d424, "k l m n o p q r s t u v w x y z a b c d e f g h i j k l m n o p q r s t"),
   (0x1d448, "u v w x y z a b c d e f g"),
   (0x1d456, "i j k l m n o p q r s t u v w x y z a b c d e f g h i j k l m n o p q r"),
   (0x1d47a, "s t u v w x y z a b c d e f g h i j k l m n o p q r s t u v w x y z a"),
   (0x1d49e, "c d"), (0x1d4a2, "g"), (0x1d4a5, "j k"), (0x1d4a9, "n o p q"),
   (0x1d4ae, "s t u v w x y z a b c d"), (0x1d4bb, "f"), (0x1d4bd, "h i j k l m n"),
   (0x1d4c5, "p q r s t u v w x y z a b c d e f g h i j k l m n o p q r s t u v w x y"),
   (0x1d4e9, "z a b c d e f g h i j k l m n o p q r s t u v w x y z a b"), (0x1d507, "d e f g"),
   (0x1d50d, "j k l m n o p q"), (0x1d516, "s t u v w x y"),
   (0x1d51e, "a b c d e f g h i j k l m n o p q r s t u v w x y z a b"), (0x1d53b, "d e f g"),
   (0x1d540, "i j k l m"), (0x1d546, "o"), (0x1d54a, "s t u v w x y"),
   (0x1d552, "a b c d e f g h i j k l m n o p q r s t u v w x y z a b c d e f g h i j"),
   (0x1d576, "k l m n o p q r s t u v w x y z a b c d e f g h i j k l m n o p q r s t"),
   (0x1d59a, "u v w x y z a b c d e f g h i j k l m n o p q r s t u v w x y z a b c d"),
   (0x1d5be, "e f g h i j k l m n o p q r s t u v w x y z a b c d e f g h i j k l m n"),
   (0x1d5e2, "o p q r s t u v w x y z a b c d e f g h i j k l m n o p q r s t u v w x"),
   (0x1d606, "y z a b c d e f g h i j k l m n o p q r s t u v w x y z a b c d e f g h"),
   (0x1d62a, "i j k l m n o p q r s t u v w x y z a b c d e f g h i j k l m n o p q r"),
   (0x1d64e, "s t u v w x y z a b c d e f g h i j k l m n o p q r s t u v w x y z a b"),
   (0x1d672, "c d e f g h i j k l m n o p q r s t u v w x y z a b c d e f g h i j k l"),
   (0x1d696, "m n o p q r s t u v w x y z"),
   (0x1d7ce, "0 1 2 3 4 5 6 7 8 9 0 1 2 3 4 5 6 7 8 9 0 1 2 3 4 5 6 7 8 9 0 1 2 3 4 5"),
   (0x1d7f2, "6 7 8 9 0 1 2 3 4 5 6 7 8 9"), (0x1f101, "0, 1, 2, 3, 4, 5, 6, 7, 8, 9,"),
   (0x1f110, "(a) (b) (c) (d) (e) (f) (g) (h) (i) (j) (k) (l) (m) (n) (o) (p) (q) (r)"),
   (0x1f122, "(s) (t) (u) (v) (w) (x) (y) (z) 〔s〕 c r cd wz"),
   (0x1f130, "a b c d e f g h i j k l m n o p q r s t u v w x y z hv mv sd ss ppv wc"),
   (0x1f16a, "mc md mr"), (0x1f190, "dj"), (0x1fbf0, "0 1 2 3 4 5 6 7 8 9")]

/-- What a character outside ASCII stands for, if it is of another kind. -/
def substitute? (c : Char) : Option (List Char) :=
  (substitutes.filter fun (first, _) => first ≤ c.toNat).getLast?.bind fun (first, texts) =>
    ((texts.splitOn " ")[c.toNat - first]?).map String.toList

/-- What a character stands for, where a variant counts as what it stands for. -/
def folded (c : Char) : List Char :=
  if c.toNat < 0x80 then [c.toLower]
  else if ignored.contains c then []
  else (substitute? c).getD [c]

/-- Whether a name may contain a character. -/
def isAllowed (c : Char) : Bool := c.toNat < 0x80 || !(unassigned.contains c || refused.contains c)

/-- Whether a character stands for itself. -/
def isSettled (c : Char) : Bool := isAllowed c && folded c == [c] && !variants.contains c

end AccessLog.Net.HostName
