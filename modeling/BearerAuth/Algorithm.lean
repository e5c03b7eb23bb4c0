import BearerAuth.Signature.Rsa
import BearerAuth.Signature.Curve

/-!
# BearerAuth — signature algorithms

The registered algorithms, each of one key family. The order of the list `Algorithm.all` is the
order in which algorithms compare.

## Main definitions

* `Algorithm`, `Algorithm.all`  — the algorithms.
* `Algorithm.name`, `Algorithm.ofName?` — registered names.
* `Algorithm.family`            — the kind of key that an algorithm needs.
* `Algorithm.hmacParameters?`, `rsaParameters?`, `curveParameters?` — what each family needs to
  check signatures of an algorithm.
* `Usage`                       — what a key is published for.
-/

namespace BearerAuth

inductive Algorithm where
  | hs256 | hs384 | hs512
  | rs256 | rs384 | rs512
  | ps256 | ps384 | ps512
  | es256 | es384
deriving DecidableEq

/-- The kind of key that an algorithm needs. -/
inductive Family where
  /-- A shared secret. -/
  | hmac
  /-- An RSA public key. -/
  | rsa
  /-- A point on an elliptic curve. -/
  | ellipticCurve
deriving DecidableEq

/-- What a key is published for. -/
inductive Usage where
  | signing
  | encryption
deriving DecidableEq

namespace Usage

def name : Usage → String
  | .signing => "sig"
  | .encryption => "enc"

/-- The usage with a registered name. -/
def ofName? (s : String) : Option Usage := [signing, encryption].find? (·.name == s)

theorem ofName?_name (u : Usage) : ofName? u.name = some u := by cases u <;> decide

end Usage

namespace Algorithm

def all : List Algorithm :=
  [hs256, hs384, hs512, rs256, rs384, rs512, ps256, ps384, ps512, es256, es384]

def name : Algorithm → String
  | .hs256 => "HS256"
  | .hs384 => "HS384"
  | .hs512 => "HS512"
  | .rs256 => "RS256"
  | .rs384 => "RS384"
  | .rs512 => "RS512"
  | .ps256 => "PS256"
  | .ps384 => "PS384"
  | .ps512 => "PS512"
  | .es256 => "ES256"
  | .es384 => "ES384"

instance : ToString Algorithm := ⟨name⟩

/-- The algorithm with a registered name. -/
def ofName? (s : String) : Option Algorithm := all.find? (·.name == s)

theorem ofName?_name (a : Algorithm) : ofName? a.name = some a := by cases a <;> decide

theorem name_of_ofName? {s : String} {a : Algorithm} (h : ofName? s = some a) : a.name = s := by
  simpa using List.find?_some h

/-- The position among all algorithms. -/
def rank (a : Algorithm) : Nat := all.idxOf a

instance : Ord Algorithm := ⟨fun a b => compare a.rank b.rank⟩

/-- The kind of key that the algorithm needs. -/
def family : Algorithm → Family
  | .hs256 | .hs384 | .hs512 => .hmac
  | .rs256 | .rs384 | .rs512 | .ps256 | .ps384 | .ps512 => .rsa
  | .es256 | .es384 => .ellipticCurve

/-- The hash function that the algorithm applies to messages. -/
def digest : Algorithm → Digest
  | .hs256 | .rs256 | .ps256 | .es256 => .sha256
  | .hs384 | .rs384 | .ps384 | .es384 => .sha384
  | .hs512 | .rs512 | .ps512 => .sha512

/-- Whether both sides of the algorithm hold the same secret. -/
def isSymmetric (a : Algorithm) : Bool := a.family == .hmac

/-- The usage that a key for this algorithm is published for. -/
def usage (_ : Algorithm) : Usage := .signing

/-- The encoding that an RSA algorithm puts into a signature. -/
def rsaEncoding? : Algorithm → Option Rsa.Encoding
  | .rs256 | .rs384 | .rs512 => some .padded
  | .ps256 | .ps384 | .ps512 => some .masked
  | _ => none

end Algorithm

/-- The algorithm that signs with a curve. -/
def Curve.algorithm : Curve → Algorithm
  | .p256 => .es256
  | .p384 => .es384

/-! ## Parameters by family

What a family needs to check signatures of an algorithm, for the algorithms that are its own. Each
table stands by itself; that they agree with the properties of the algorithms above is shown below.
-/

namespace Algorithm

/-- The digest of the codes that an algorithm for secrets makes. -/
def hmacParameters? : Algorithm → Option Digest
  | .hs256 => some .sha256
  | .hs384 => some .sha384
  | .hs512 => some .sha512
  | _ => none

/-- The encoding of an RSA algorithm and the digest that goes into it. -/
def rsaParameters? : Algorithm → Option (Rsa.Encoding × Digest)
  | .rs256 => some (.padded, .sha256)
  | .rs384 => some (.padded, .sha384)
  | .rs512 => some (.padded, .sha512)
  | .ps256 => some (.masked, .sha256)
  | .ps384 => some (.masked, .sha384)
  | .ps512 => some (.masked, .sha512)
  | _ => none

/-- The curve of an algorithm, with which its digest is settled too. -/
def curveParameters? : Algorithm → Option Curve
  | .es256 => some .p256
  | .es384 => some .p384
  | _ => none

/-- Algorithms for secrets are the symmetric ones, each with its own digest. -/
theorem hmacParameters?_eq (a : Algorithm) :
    a.hmacParameters? = if a.isSymmetric then some a.digest else none := by
  cases a <;> rfl

/-- The parameters of an RSA algorithm are its encoding and its digest. -/
theorem rsaParameters?_eq (a : Algorithm) :
    a.rsaParameters? = a.rsaEncoding?.map fun encoding => (encoding, a.digest) := by
  cases a <;> rfl

/-- There are such parameters for the algorithms of the RSA family and for no others. -/
theorem isSome_rsaParameters? (a : Algorithm) : a.rsaParameters?.isSome = (a.family == .rsa) := by
  cases a <;> rfl

/-- The algorithm that signs with a curve is the one that has the curve for its parameter. -/
theorem curveParameters?_eq_some_iff {a : Algorithm} {c : Curve} :
    a.curveParameters? = some c ↔ c.algorithm = a := by
  cases a <;> cases c <;> decide

end Algorithm
end BearerAuth
