import BearerAuth.Key.Material

/-!
# BearerAuth — checking signatures with key material

Each kind of material checks signatures in its own way, with the parameters that its family has for
an algorithm. Where there are none the algorithm is refused, before the signature is looked at. A
point on a curve is bound to the one algorithm of its curve, although there are parameters for the
other curve as well. Only secrets also sign.

Whether a signature belongs to a message at all (`Material.accepts`) is said apart from how that is
found out (`Material.verify`).

## Main definitions

* `VerifyError`, `SignError`  — why a signature is refused, or not made.
* `Secret.verify`, `RsaKey.verify`, `CurveKey.verify` — the ways to check signatures.
* `Secret.sign`               — makes a signature.
* `Material.canVerify`, `Material.verify` — the way that belongs to the material.
* `Material.accepts`          — whether a signature belongs to a message.

## Main results

* `Material.verify_eq`        — material that fits an algorithm goes by what it accepts.
-/

namespace BearerAuth

inductive VerifyError where
  | incompatibleAlgorithm (algorithm : Algorithm)
  | usageMismatch
  | signatureMismatch
deriving DecidableEq

inductive SignError where
  | incompatibleAlgorithm (algorithm : Algorithm)
  | usageMismatch
  | missingPrivateKey
deriving DecidableEq

/-- The message about an algorithm that does not fit a key. -/
def incompatibleMessage (a : Algorithm) : String :=
  "key incompatible with algorithm '" ++ a.name ++ "'"

/-- The message about a key that is published for something else. -/
def usageMessage : String := "key usage does not permit this operation"

/-- The message about an algorithm that is not known. -/
def unknownAlgorithmMessage (name : String) : String :=
  "'" ++ name ++ "' does not match supported algorithms"

def VerifyError.message : VerifyError → String
  | .incompatibleAlgorithm a => incompatibleMessage a
  | .usageMismatch => usageMessage
  | .signatureMismatch => "signature mismatch"

def SignError.message : SignError → String
  | .incompatibleAlgorithm a => incompatibleMessage a
  | .usageMismatch => usageMessage
  | .missingPrivateKey => "cannot sign without a private key"

/-- What a signature comes to that belongs to its message or does not. -/
def confirmed (belongs : Bool) : Except VerifyError Unit :=
  if belongs then .ok () else .error .signatureMismatch

/-! ## Secrets -/

namespace Secret

def canVerify (a : Algorithm) : Bool := a.isSymmetric

/-- Checks a code by making it again. -/
def verify (secret : Bytes) (a : Algorithm) (message signature : Bytes) :
    Except VerifyError Unit :=
  match a.hmacParameters? with
  | none => .error (.incompatibleAlgorithm a)
  | some digest => confirmed (signature == digest.hmac secret message)

def sign (secret : Bytes) (a : Algorithm) (message : Bytes) : Except SignError Bytes :=
  match a.hmacParameters? with
  | none => .error (.incompatibleAlgorithm a)
  | some digest => .ok (digest.hmac secret message)

end Secret

/-! ## Public keys -/

namespace RsaKey

def canVerify (a : Algorithm) : Bool := a.rsaParameters?.isSome

def verify (k : RsaKey) (a : Algorithm) (message signature : Bytes) : Except VerifyError Unit :=
  match a.rsaParameters? with
  | none => .error (.incompatibleAlgorithm a)
  | some (encoding, digest) =>
    confirmed (Rsa.verify encoding digest k.modulus k.exponent message signature)

end RsaKey

namespace CurveKey

/-- Whether the algorithm is that of the curve. -/
def canVerify (k : CurveKey) (a : Algorithm) : Bool := k.curve.algorithm == a

/-- Checks a signature on the curve that the algorithm has for its parameter. -/
def verify (k : CurveKey) (a : Algorithm) (message signature : Bytes) : Except VerifyError Unit :=
  match a.curveParameters?.filter fun _ => k.canVerify a with
  | none => .error (.incompatibleAlgorithm a)
  | some curve => confirmed (curve.verify k.x k.y message signature)

end CurveKey

/-! ## Any material -/

namespace Material

/-- Whether signatures of an algorithm can be checked with the material. -/
def canVerify : Material → Algorithm → Bool
  | .rsa _, a => RsaKey.canVerify a
  | .curve k, a => k.canVerify a
  | .secret _, a => Secret.canVerify a

/-- Checks a signature in the way that belongs to the material. -/
def verify : Material → Algorithm → Bytes → Bytes → Except VerifyError Unit
  | .rsa k => k.verify
  | .curve k => k.verify
  | .secret s => Secret.verify s

/-- Whether a signature belongs to a message. Material of another family accepts nothing. -/
def accepts (m : Material) (a : Algorithm) (message signature : Bytes) : Bool :=
  match m with
  | .rsa k =>
    match a.rsaEncoding? with
    | some encoding => Rsa.verify encoding a.digest k.modulus k.exponent message signature
    | none => false
  | .curve k => k.curve.algorithm == a && k.curve.verify k.x k.y message signature
  | .secret s => a.isSymmetric && signature == a.digest.hmac s message

/-- Material that fits an algorithm confirms the signatures that it accepts and no others, and
material that does not fit refuses the algorithm. The tables of the families are met here only. -/
theorem verify_eq (m : Material) (a : Algorithm) (message signature : Bytes) :
    m.verify a message signature =
      if m.canVerify a then confirmed (m.accepts a message signature)
      else .error (.incompatibleAlgorithm a) := by
  cases m with
  | rsa k =>
    show k.verify a message signature = if a.rsaParameters?.isSome then _ else _
    unfold RsaKey.verify accepts
    rw [Algorithm.rsaParameters?_eq]
    cases a.rsaEncoding? <;> rfl
  | curve k =>
    show k.verify a message signature = if k.curve.algorithm == a then _ else _
    unfold CurveKey.verify CurveKey.canVerify
    by_cases own : k.curve.algorithm = a
    · -- the curve of the algorithm is that of the key
      have accepted : (curve k).accepts a message signature =
          k.curve.verify k.x k.y message signature := by
        simp [accepts, own]
      rw [Algorithm.curveParameters?_eq_some_iff.mpr own, beq_iff_eq.mpr own, accepted]
      rfl
    · -- there may be a curve of the algorithm, but the key is not on it
      rw [beq_eq_false_iff_ne.mpr own]
      cases a.curveParameters? <;> rfl
  | secret s =>
    show Secret.verify s a message signature = if a.isSymmetric then _ else _
    unfold Secret.verify accepts
    rw [Algorithm.hmacParameters?_eq]
    cases a.isSymmetric <;> rfl

end Material

/-- A secret signs with the algorithms that it checks signatures of. -/
theorem Secret.sign_eq (secret : Bytes) (a : Algorithm) (message : Bytes) :
    Secret.sign secret a message =
      if a.isSymmetric then .ok (a.digest.hmac secret message)
      else .error (.incompatibleAlgorithm a) := by
  unfold Secret.sign
  rw [Algorithm.hmacParameters?_eq]
  cases a.isSymmetric <;> rfl

end BearerAuth
