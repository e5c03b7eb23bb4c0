import BearerAuth.Bytes

/-!
# BearerAuth — the URL-safe base64 of keys and tokens

Bytes are written six bits to a character over the alphabet `A–Z a–z 0–9 - _`, without padding.
Three bytes make four characters; a last group of one or two bytes makes two or three, whose
unused low bits are zero. Reading tolerates the padding that some publishers add, in whole or in
part, but insists on the zero bits, so a byte string has one written form up to padding.

## Main definitions

* `Base64Url.encode`  — the written form of a byte string.
* `Base64Url.decode?` — reads a written form, with up to the padding that would complete it.
-/

namespace BearerAuth.Base64Url

/-- The character of a six-bit value. -/
def digit (n : Nat) : Char :=
  if n < 26 then Char.ofNat (65 + n)
  else if n < 52 then Char.ofNat (71 + n)
  else if n < 62 then Char.ofNat (n - 4)
  else if n = 62 then '-'
  else '_'

/-- The six-bit value of a character of the alphabet. -/
def value? (c : Char) : Option Nat :=
  if 'A' ≤ c ∧ c ≤ 'Z' then some (c.toNat - 65)
  else if 'a' ≤ c ∧ c ≤ 'z' then some (c.toNat - 71)
  else if '0' ≤ c ∧ c ≤ '9' then some (c.toNat + 4)
  else if c = '-' then some 62
  else if c = '_' then some 63
  else none

/-- The characters of a byte string, three bytes at a time. -/
def encodeChars : Bytes → List Char
  | [] => []
  | [a] => [digit (a.toNat / 4), digit (a.toNat % 4 * 16)]
  | [a, b] =>
    [digit (a.toNat / 4), digit (a.toNat % 4 * 16 + b.toNat / 16), digit (b.toNat % 16 * 4)]
  | a :: b :: c :: rest =>
    digit (a.toNat / 4) :: digit (a.toNat % 4 * 16 + b.toNat / 16) ::
      digit (b.toNat % 16 * 4 + c.toNat / 64) :: digit (c.toNat % 64) :: encodeChars rest

/-- The written form of a byte string. -/
def encode (b : Bytes) : String := String.ofList (encodeChars b)

/-- The bytes of an unpadded text. A single left-over character carries too few bits for a byte,
and bits that no byte uses must be zero. -/
def decodeBody? : List Char → Option Bytes
  | [] => some []
  | [_] => none
  | [p, q] => do
    let p ← value? p
    let q ← value? q
    if q % 16 = 0 then some [UInt8.ofNat (p * 4 + q / 16)] else none
  | [p, q, r] => do
    let p ← value? p
    let q ← value? q
    let r ← value? r
    if r % 4 = 0 then
      some [UInt8.ofNat (p * 4 + q / 16), UInt8.ofNat (q % 16 * 16 + r / 4)]
    else none
  | p :: q :: r :: s :: rest => do
    let p ← value? p
    let q ← value? q
    let r ← value? r
    let s ← value? s
    let bytes ← decodeBody? rest
    return UInt8.ofNat (p * 4 + q / 16) :: UInt8.ofNat (q % 16 * 16 + r / 4) ::
      UInt8.ofNat (r % 4 * 64 + s) :: bytes

/-- How many `=` complete a text of this length to a multiple of four characters. -/
def paddingNeeded (length : Nat) : Nat := (4 - length % 4) % 4

/-- Reads a written form whose padding is missing, partial or complete. -/
def decodeChars? (cs : List Char) : Option Bytes :=
  let body := cs.takeWhile (· ≠ '=')
  let padding := cs.dropWhile (· ≠ '=')
  if padding.all (· = '=') ∧ padding.length ≤ paddingNeeded body.length then decodeBody? body
  else none

/-- Reads a written form whose padding is missing, partial or complete. -/
def decode? (s : String) : Option Bytes := decodeChars? s.toList

end BearerAuth.Base64Url
