import AccessLog.Net.IpAddress
import AccessLog.Text.Utf8

/-! # Percent signs and queries

A percent sign and two hexadecimal digits write a byte. In a web address they stand for text outside
ASCII and for characters with a meaning of their own. A query is a list of names with values,
separated by `&`; there a plus stands for a space, and bytes that are not text are replaced. -/

namespace AccessLog.Net
open AccessLog.Text

def upperHex (n : Nat) : Char := if n < 10 then Char.ofNat (48 + n) else Char.ofNat (55 + n)

def percentByte (b : UInt8) : List Char :=
  ['%', upperHex (b.toNat / 16), upperHex (b.toNat % 16)]

/-- Encode the characters of a set, and leave all others. -/
def percentEncode (set : Char → Bool) (cs : List Char) : List Char :=
  cs.flatMap fun c => if set c then (encode c.toString).flatMap percentByte else [c]

/-- Replace percent-encoded bytes by the bytes. -/
def percentDecode : List UInt8 → List UInt8
  | 37 :: a :: b :: rest =>
    let x := Char.ofNat a.toNat
    let y := Char.ofNat b.toNat
    if IpAddress.isHexDigit x && IpAddress.isHexDigit y then
      UInt8.ofNat (16 * IpAddress.hexDigitValue x + IpAddress.hexDigitValue y) ::
        percentDecode rest
    else 37 :: percentDecode (a :: b :: rest)
  | b :: rest => b :: percentDecode rest
  | [] => []

namespace Query

/-- A name or a value as text. -/
def unescape (bytes : List UInt8) : String :=
  decodeLenient (percentDecode (bytes.map fun b => if b == 43 then 32 else b))

/-- What stands before the first `=`, and what stands behind it. -/
def pair (bytes : List UInt8) : String × String :=
  (unescape (bytes.takeWhile (· != 61)), unescape ((bytes.dropWhile (· != 61)).drop 1))

/-- The names and values of a query, in order. -/
def pairs (query : String) : List (String × String) :=
  (((encode query).splitOn 38).filter fun part => !part.isEmpty).map pair

/-- The values that a name has. -/
def values (name : String) (query : String) : List String :=
  (pairs query).filterMap fun (n, v) => if n = name then some v else none

end Query

end AccessLog.Net
