import BearerAuth.Digest.Hmac
import BearerAuth.Signature.Modular

/-!
# BearerAuth — RSA signatures

A signature is a number below the modulus whose power by the public exponent is an encoding of the
message. Two encodings are known. The older one (`Rsa.paddedDigest`) is a function of the message
alone, so the power is compared with it. The other (`Rsa.acceptsMasked`) hides a random salt under
a mask; the salt is as long as the digest and is recovered to check the digest.

Keys are used only if the modulus is odd and has 2048 to 8192 bits, counted in whole bytes from
below, and if the exponent is odd, at least 3 and of at most 33 bits.

## Main definitions

* `Rsa.Encoding`  — the two encodings.
* `Rsa.verify`    — whether a signature belongs to a message under a public key.
-/

namespace BearerAuth.Rsa

/-- How the message is encoded in the power. -/
inductive Encoding where
  /-- The digest behind a fixed padding. -/
  | padded
  /-- The digest of a salted digest, with the salt under a mask. -/
  | masked
deriving DecidableEq

/-- The bytes that announce a digest and name its function. -/
def digestHeader : Digest → Bytes
  | .sha256 => [0x30, 0x31, 0x30, 0x0d, 0x06, 0x09, 0x60, 0x86, 0x48, 0x01, 0x65, 0x03, 0x04, 0x02,
      0x01, 0x05, 0x00, 0x04, 0x20]
  | .sha384 => [0x30, 0x41, 0x30, 0x0d, 0x06, 0x09, 0x60, 0x86, 0x48, 0x01, 0x65, 0x03, 0x04, 0x02,
      0x02, 0x05, 0x00, 0x04, 0x30]
  | .sha512 => [0x30, 0x51, 0x30, 0x0d, 0x06, 0x09, 0x60, 0x86, 0x48, 0x01, 0x65, 0x03, 0x04, 0x02,
      0x03, 0x05, 0x00, 0x04, 0x40]

/-- The digest of a message behind its header, a zero, and padding to the given length. -/
def paddedDigest (d : Digest) (message : Bytes) (length : Nat) : Bytes :=
  let tail := digestHeader d ++ d.hash message
  0x00 :: 0x01 :: List.replicate (length - 3 - tail.length) 0xff ++ 0x00 :: tail

/-- A mask of so many bytes, generated from a seed in blocks of one digest. -/
def mask (d : Digest) (seed : Bytes) (length : Nat) : Bytes :=
  ((List.range ((length + d.length - 1) / d.length)).flatMap fun i =>
    d.hash (seed ++ Bytes.ofNat 4 i)).take length

/-- Whether an encoding of `bits` bits is that of a message under some salt. -/
def acceptsMasked (d : Digest) (message encoded : Bytes) (bits : Nat) : Bool :=
  let length := (bits + 7) / 8
  let unusedBits := 8 * length - bits
  -- The encoding may be one byte shorter than the modulus; that byte is zero.
  let surplus := encoded.take (encoded.length - length)
  let em := encoded.drop (encoded.length - length)
  let blockLength := length - d.length - 1
  let maskedBlock := em.take blockLength
  let digest := (em.drop blockLength).take d.length
  let trailer := em.drop (blockLength + d.length)
  -- The bits at the top that the modulus has no room for are zero, before and after unmasking.
  let topLimit := 1 <<< (8 - unusedBits)
  let block := Bytes.xor maskedBlock (mask d digest blockLength)
  let block := match block with
    | [] => []
    | b :: rest => UInt8.ofNat (b.toNat % topLimit) :: rest
  -- The unmasked block is zeros, a one, and the salt.
  let padding := block.take (blockLength - d.length - 1)
  let separator := (block.drop (blockLength - d.length - 1)).take 1
  let salt := block.drop (blockLength - d.length)
  surplus.all (· == 0) && trailer == [0xbc]
    && (maskedBlock.head?.map fun b => decide (b.toNat < topLimit)).getD false
    && padding.all (· == 0) && separator == [0x01]
    -- The digest in the encoding is that of eight zeros, the digest of the message and the salt.
    && digest == d.hash (List.replicate 8 0 ++ d.hash message ++ salt)

/-- The number of bits of a number. -/
def bitLength (n : Nat) : Nat := if n = 0 then 0 else n.log2 + 1

/-- Whether a modulus may be used. Its length in bits counts as whole bytes from below. -/
def isUsableModulus (n : Nat) : Bool :=
  n % 2 == 1 && decide (2048 ≤ 8 * ((bitLength n + 7) / 8)) && decide (bitLength n ≤ 8192)

/-- Whether a public exponent may be used. -/
def isUsableExponent (e : Bytes) : Bool :=
  let n := Bytes.toNat e
  decide (e.length ≤ 5) && decide (e.head? ≠ some 0) && n % 2 == 1 && decide (3 ≤ n)
    && decide (bitLength n ≤ 33)

/-- Whether a signature belongs to a message under the public key `(modulus, exponent)`. -/
def verify (encoding : Encoding) (d : Digest) (modulus exponent message signature : Bytes) : Bool :=
  let n := Bytes.toNat modulus
  let s := Bytes.toNat signature
  let length := (bitLength n + 7) / 8
  isUsableModulus n && isUsableExponent exponent && signature.length == length && decide (s < n) &&
    let encoded := Bytes.ofNat length (Modular.pow n s (Bytes.toNat exponent))
    match encoding with
    | .padded => encoded == paddedDigest d message length
    | .masked => acceptsMasked d message encoded (bitLength n - 1)

end BearerAuth.Rsa
