import BearerAuth.Algorithm

/-!
# BearerAuth — key material

The three kinds of key material. Material of public keys is checked where it is built, so that a
value of these types is already in its one form: numbers without leading zero bytes, coordinates of
the length that their curve has.

## Main definitions

* `RsaKey`, `RsaKey.ofComponents`    — a modulus and an exponent.
* `CurveKey`, `CurveKey.ofCoordinates`, `CurveKey.ofPoint` — a point on a named curve.
* `Material`                         — a secret or one of the public keys.
-/

namespace BearerAuth

/-- Why key material is refused. -/
inductive KeyRejection where
  | modulusTooShort
  | modulusTooLong
  | exponentMissing
  | coordinateLength
  | pointCompressed
deriving DecidableEq

def KeyRejection.reason : KeyRejection → String
  | .modulusTooShort => "RSA modulus must be at least 2048 bits"
  | .modulusTooLong => "RSA modulus must be at most 8192 bits"
  | .exponentMissing => "RSA exponent missing"
  | .coordinateLength => "EC coordinate length does not match curve"
  | .pointCompressed => "EC point must be uncompressed"

/-- The message of a refusal. -/
def KeyRejection.message (r : KeyRejection) : String := "key rejected: " ++ r.reason

/-! ## RSA -/

theorem Bytes.trimZeros_trimZeros (b : Bytes) : b.trimZeros.trimZeros = b.trimZeros := by
  induction b with
  | nil => rfl
  | cons x xs ih =>
    unfold Bytes.trimZeros at ih ⊢
    by_cases h : (x == 0) = true
    · simp only [List.dropWhile_cons, h, ↓reduceIte, ih]
    · simp [h]

/-- The number of bytes of the shortest modulus. -/
def RsaKey.minLength : Nat := 256

/-- The number of bytes of the longest modulus. -/
def RsaKey.maxLength : Nat := 1024

/-- An RSA public key: big-endian numbers without leading zero bytes. -/
structure RsaKey where
  modulus : Bytes
  exponent : Bytes
  modulus_trimmed : modulus.trimZeros = modulus
  exponent_trimmed : exponent.trimZeros = exponent
  min_length : RsaKey.minLength ≤ modulus.length
  max_length : modulus.length ≤ RsaKey.maxLength
  exponent_ne_nil : exponent ≠ []
deriving DecidableEq

namespace RsaKey

/-- The public key of a modulus and an exponent. Leading zero bytes do not count. -/
def ofComponents (modulus exponent : Bytes) : Except KeyRejection RsaKey :=
  let n := modulus.trimZeros
  let e := exponent.trimZeros
  if hmin : n.length < minLength then .error .modulusTooShort
  else if hmax : maxLength < n.length then .error .modulusTooLong
  else if he : e = [] then .error .exponentMissing
  else .ok ⟨n, e, Bytes.trimZeros_trimZeros _, Bytes.trimZeros_trimZeros _, by omega, by omega, he⟩

end RsaKey

/-! ## Elliptic curves -/

/-- A public point on a named curve. Whether it satisfies the curve's equation is only found out
when a signature is checked. -/
structure CurveKey where
  curve : Curve
  x : Bytes
  y : Bytes
  x_length : x.length = curve.coordinateLength
  y_length : y.length = curve.coordinateLength
deriving DecidableEq

namespace CurveKey

/-- The public key with these coordinates, which must have the length of the curve. -/
def ofCoordinates (curve : Curve) (x y : Bytes) : Except KeyRejection CurveKey :=
  if hx : x.length = curve.coordinateLength then
    if hy : y.length = curve.coordinateLength then .ok ⟨curve, x, y, hx, hy⟩
    else .error .coordinateLength
  else .error .coordinateLength

/-- The public key of a point written as the byte 4 and both coordinates. -/
def ofPoint (curve : Curve) : Bytes → Except KeyRejection CurveKey
  | [] => .error .pointCompressed
  | b :: coordinates =>
    let len := curve.coordinateLength
    if b = 4 ∧ coordinates.length = 2 * len then
      ofCoordinates curve (coordinates.take len) (coordinates.drop len)
    else .error .pointCompressed

end CurveKey

/-! ## Any material -/

inductive Material where
  | rsa (key : RsaKey)
  | curve (key : CurveKey)
  | secret (bytes : Bytes)
deriving DecidableEq

/-- Whether the material is a shared secret, with which one can also sign. -/
def Material.isSecret : Material → Bool
  | .secret _ => true
  | _ => false

end BearerAuth
