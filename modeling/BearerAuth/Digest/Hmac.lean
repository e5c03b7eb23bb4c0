import BearerAuth.Digest.Sha256
import BearerAuth.Digest.Sha512

/-!
# BearerAuth — digests and message authentication codes

The three hash functions behind every signature algorithm, and the keyed hash built from them.
A key longer than a block is hashed first; a shorter one is filled with zeros, so keys that differ
only in zero bytes at the end have the same codes.

## Main definitions

* `Digest`           — the hash functions, with their block and output lengths.
* `Digest.hash`      — the digest of a message.
* `Digest.hmac`      — the authentication code of a message under a key.
-/

namespace BearerAuth

/-- A hash function of the SHA-2 family. -/
inductive Digest where
  | sha256
  | sha384
  | sha512
deriving DecidableEq

namespace Digest

/-- The length of a digest in bytes. -/
def length : Digest → Nat
  | .sha256 => 32
  | .sha384 => 48
  | .sha512 => 64

/-- The length of a block in bytes. -/
def blockLength : Digest → Nat
  | .sha256 => 64
  | .sha384 | .sha512 => 128

/-- The digest of a message. -/
def hash : Digest → Bytes → Bytes
  | .sha256 => Sha256.hash
  | .sha384 => Sha512.hash384
  | .sha512 => Sha512.hash

/-- A key as one block. -/
def keyBlock (d : Digest) (key : Bytes) : Bytes :=
  let key := if d.blockLength < key.length then d.hash key else key
  key ++ List.replicate (d.blockLength - key.length) 0

/-- The authentication code of a message under a key. -/
def hmac (d : Digest) (key message : Bytes) : Bytes :=
  let block := d.keyBlock key
  let inner := d.hash (block.map (· ^^^ 0x36) ++ message)
  d.hash (block.map (· ^^^ 0x5c) ++ inner)

end Digest
end BearerAuth
