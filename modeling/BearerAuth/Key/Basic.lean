import BearerAuth.Key.Verifier

/-!
# BearerAuth — keys

A key is material with what was published about it: an identifier, a usage and an algorithm, each
of which may be missing. Whatever is published binds: a key for encryption verifies nothing, and a
key for one algorithm is not used with another.

## Main definitions

* `Key`                — published key material.
* `Key.isCompatible`   — whether signatures of an algorithm can be checked with the key.
* `Key.verify`         — checks a signature.
* `Key.sign`           — signs a message; only secrets sign.
-/

namespace BearerAuth

/-- Whether a key is shared or public. -/
inductive KeyKind where
  | symmetric
  | asymmetricPublic
deriving DecidableEq

def KeyKind.name : KeyKind → String
  | .symmetric => "Symmetric"
  | .asymmetricPublic => "AsymmetricPublic"

structure Key where
  material : Material
  id : Option String := none
  usage : Option Usage := none
  algorithm : Option Algorithm := none
deriving DecidableEq

namespace Key

def withId (k : Key) (id : String) : Key := { k with id := some id }

def withUsage (k : Key) (usage : Usage) : Key := { k with usage := some usage }

/-- The key published for this algorithm and the usage that belongs to it. -/
def withAlgorithm (k : Key) (a : Algorithm) : Key :=
  { k with algorithm := some a, usage := some a.usage }

def kind (k : Key) : KeyKind := if k.material.isSecret then .symmetric else .asymmetricPublic

/-- Whether signatures of an algorithm can be checked with the key: the material fits, and neither
the published algorithm nor the published usage says otherwise. -/
def isCompatible (k : Key) (a : Algorithm) : Bool :=
  k.material.canVerify a && k.algorithm.all (· == a) && k.usage.all (· == a.usage)

/-- What the published usage and algorithm say about using the key with an algorithm: nothing, a
wrong usage, or a wrong algorithm. -/
inductive UseConflict where
  | usage
  | algorithm
deriving DecidableEq

/-- The first conflict between what is published and a use with this algorithm. -/
def useConflict? (k : Key) (a : Algorithm) : Option UseConflict :=
  if k.usage.any (· != .signing) then some .usage
  else if k.algorithm.any (· != a) then some .algorithm
  else none

def verify (k : Key) (a : Algorithm) (message signature : Bytes) : Except VerifyError Unit :=
  match k.useConflict? a with
  | some .usage => .error .usageMismatch
  | some .algorithm => .error (.incompatibleAlgorithm a)
  | none => k.material.verify a message signature

/-- Whether the key can sign with an algorithm. -/
def canSign (k : Key) (a : Algorithm) : Bool :=
  k.material.isSecret && a.isSymmetric && (k.useConflict? a).isNone

def sign (k : Key) (a : Algorithm) (message : Bytes) : Except SignError Bytes :=
  match k.useConflict? a with
  | some .usage => .error .usageMismatch
  | some .algorithm => .error (.incompatibleAlgorithm a)
  | none =>
    match k.material with
    | .secret s => Secret.sign s a message
    | .rsa _ | .curve _ => .error .missingPrivateKey

end Key
end BearerAuth
