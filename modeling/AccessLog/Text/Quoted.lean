import AccessLog.Text.Marks
import AccessLog.Text.Unassigned

/-! # Text in quotes

Text in quotes shows each character for itself where a reader can tell it from others. Quotes and
backslashes stand behind a backslash. Other characters that would not be seen as such, or would
cling to the one before them, are shown by their code points. -/

namespace AccessLog.Text

/-- Controls, blanks, and characters that steer the layout or take no place in it. -/
def unseen : CharSet := .ofLines
  ["80-a0 ad 600-605 61c 6dd 70f 890-891 8e2 115f-1160 1680 180e 2000-200f 2028-202f",
   "205f-206f 3000 3164 feff ffa0 fff9-fffb 110bd 110cd 13430-1343f 1bca0-1bca3 1d173-1d17a",
   "e0001-e007f"]

/-- Characters that are no nonspacing marks and cling to the one before them all the same. -/
def clinging : CharSet := .ofLines
  ["9be 9d7 b3e b57 bbe bd7 cc0 cc2 cc7-cd6 d3e d57 dcf ddf 1715 1734 1b35-1b3d 1b43-1b44",
   "1baa 1bf2-1bf3 200c 302e-302f a953 a9c0 ff9e-ff9f 111c0 11235 1133e 1134d 11357 113b8",
   "113c2-113c9 113cf 114b0 114bd 115af 116b6 11930 1193d 11f41 16ff0-16ff1 1d165-1d166",
   "1d16d-1d172 e0020-e007f"]

/-- Whether a character is shown for itself. -/
def isShown (c : Char) : Bool :=
  if c.toNat < 0x7F then 0x20 ≤ c.toNat
  else c.toNat != 0x7F && !unseen.contains c && !clinging.contains c &&
    !nonspacingMarks.contains c && !unassigned.contains c

/-- A character in quotes. -/
def quotedChar (c : Char) : List Char :=
  if c == '"' || c == '\\' then ['\\', c]
  else if c == '\n' then ['\\', 'n']
  else if c == '\r' then ['\\', 'r']
  else if c == '\t' then ['\\', 't']
  else if c.toNat == 0 then ['\\', '0']
  else if isShown c then [c]
  else ['\\', 'u', '\x7b'] ++ Nat.toDigits 16 c.toNat ++ ['\x7d']

def quoted (s : String) : String := "\"" ++ String.ofList (s.toList.flatMap quotedChar) ++ "\""

end AccessLog.Text
