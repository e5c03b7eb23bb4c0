/-!
# BearerAuth — bytes

Byte strings are lists of bytes. This module writes and reads them in hexadecimal and reads them
as big-endian numbers, the form in which keys and signatures carry integers.

## Main definitions

* `Bytes.toHex`, `Bytes.ofHex?`    — lowercase hexadecimal, two digits a byte.
* `Bytes.toNat`, `Bytes.ofNat`     — big-endian numbers; `ofNat` has a fixed number of bytes.
* `Bytes.trimZeros`                — drops leading zero bytes, which do not change the number.
* `Bytes.ofString`, `Bytes.toString?` — UTF-8 text.
-/

namespace BearerAuth

abbrev Bytes := List UInt8

namespace Bytes

/-- The digit of a value below sixteen. -/
def hexDigit (n : Nat) : Char :=
  if n < 10 then Char.ofNat (48 + n) else Char.ofNat (87 + n)

/-- Lowercase hexadecimal, two digits a byte. -/
def toHex (b : Bytes) : String :=
  String.ofList (b.flatMap fun x => [hexDigit (x.toNat / 16), hexDigit (x.toNat % 16)])

/-- The value of a hexadecimal digit of either case. -/
def hexValue? (c : Char) : Option Nat :=
  if '0' ≤ c ∧ c ≤ '9' then some (c.toNat - 48)
  else if 'a' ≤ c ∧ c ≤ 'f' then some (c.toNat - 87)
  else if 'A' ≤ c ∧ c ≤ 'F' then some (c.toNat - 55)
  else none

/-- Reads pairs of hexadecimal digits. -/
def ofHexDigits? : List Char → Option Bytes
  | [] => some []
  | [_] => none
  | a :: b :: rest => do
    let high ← hexValue? a
    let low ← hexValue? b
    let bytes ← ofHexDigits? rest
    return UInt8.ofNat (16 * high + low) :: bytes

def ofHex? (s : String) : Option Bytes := ofHexDigits? s.toList

/-- The number whose big-endian form is `b`. -/
def toNat (b : Bytes) : Nat := b.foldl (fun n x => 256 * n + x.toNat) 0

/-- The last `len` base-256 digits of `n`, most significant first. -/
def ofNat : Nat → Nat → Bytes
  | 0, _ => []
  | len + 1, n => ofNat len (n / 256) ++ [UInt8.ofNat (n % 256)]

/-- Drops the leading zero bytes. -/
def trimZeros (b : Bytes) : Bytes := b.dropWhile (· == 0)

/-- The bitwise exclusive or of two byte strings, as long as the shorter one. -/
def xor (a b : Bytes) : Bytes := List.zipWith (· ^^^ ·) a b

/-- The UTF-8 encoding of a text. -/
def ofString (s : String) : Bytes := s.toUTF8.data.toList

/-- The text that `b` encodes, if `b` is well-formed UTF-8. -/
def toString? (b : Bytes) : Option String := String.fromUTF8? ⟨b.toArray⟩

end Bytes
end BearerAuth
