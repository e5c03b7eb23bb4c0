import BearerAuth.Digest.Hmac
import BearerAuth.Signature.Modular

/-!
# BearerAuth — signatures over elliptic curves

The curves `y² = x³ - 3x + b` over a prime field whose points form a group of prime order. Points
are held with a common denominator, so that sums need no division: `(x, y, z)` stands for the point
`(x / z², y / z³)`, and `z = 0` for the neutral point.

A signature is two numbers below the order, written one after the other in as many bytes as a
coordinate has. It belongs to a message if a combination of the base point and the public point,
with factors taken from the signature and the digest, has the first number as its `x`.

## Main definitions

* `Curve`              — the curves, with their constants and the digest they sign.
* `Curve.combination`  — `u · G + v · Q` for the base point `G` and a point `Q`.
* `Curve.verify`       — whether a signature belongs to a message under a public point.
-/

namespace BearerAuth

/-- A curve, by its registered name. -/
inductive Curve where
  | p256
  | p384
deriving DecidableEq

namespace Curve

def name : Curve → String
  | .p256 => "P-256"
  | .p384 => "P-384"

/-- The curve with a registered name. -/
def ofName? (s : String) : Option Curve := [p256, p384].find? (·.name == s)

/-- The length of a coordinate in bytes. -/
def coordinateLength : Curve → Nat
  | .p256 => 32
  | .p384 => 48

/-- The hash function whose digests are signed. -/
def digest : Curve → Digest
  | .p256 => .sha256
  | .p384 => .sha384

/-- The order of the field. -/
def prime : Curve → Nat
  | .p256 => 0xffffffff00000001000000000000000000000000ffffffffffffffffffffffff
  | .p384 => 0xfffffffffffffffffffffffffffffffffffffffffffffffffffffffffffffffeffffffff0000000000000000ffffffff

/-- The order of the group. -/
def order : Curve → Nat
  | .p256 => 0xffffffff00000000ffffffffffffffffbce6faada7179e84f3b9cac2fc632551
  | .p384 => 0xffffffffffffffffffffffffffffffffffffffffffffffffc7634d81f4372ddf581a0db248b0a77aecec196accc52973

/-- The constant term of the curve's equation. -/
def constant : Curve → Nat
  | .p256 => 0x5ac635d8aa3a93e7b3ebbd55769886bc651d06b0cc53b0f63bce3c3e27d2604b
  | .p384 => 0xb3312fa7e23ee7e4988e056be3f82d19181d9c6efe8141120314088f5013875ac656398d8a2ed19d2a85c8edd3ec2aef

/-- The coordinates of the base point. -/
def base : Curve → Nat × Nat
  | .p256 =>
    (0x6b17d1f2e12c4247f8bce6e563a440f277037d812deb33a0f4a13945d898c296,
     0x4fe342e2fe1a7f9b8ee7eb4a7c0f9e162bce33576b315ececbb6406837bf51f5)
  | .p384 =>
    (0xaa87ca22be8b05378eb1c71ef320ad746e1d3b628ba79b9859f741e082542a385502f25dbf55296c3a545e3872760ab7,
     0x3617de4a96262c6f5d9e98bf9292dc29f8f41dbd289a147ce9da3113b5f0b8c00a60b1ce1d7e819d7a431d7c90ea0e5f)

/-- A point, over a common denominator. -/
structure Point where
  x : Nat
  y : Nat
  z : Nat

/-- The neutral point. -/
def Point.neutral : Point := ⟨1, 1, 0⟩

/-- Whether coordinates are residues that satisfy the curve's equation. -/
def isOn (c : Curve) (x y : Nat) : Bool :=
  decide (x < c.prime) && decide (y < c.prime) &&
    (y * y + 3 * x) % c.prime == (x * x * x + c.constant) % c.prime

/-- Twice a point. -/
def double (c : Curve) (a : Point) : Point :=
  let p := c.prime
  if a.z = 0 ∨ a.y = 0 then .neutral
  else
    let yy := a.y * a.y % p
    let zz := a.z * a.z % p
    let s := 4 * a.x * yy % p
    -- The slope of the tangent, `3 x² - 3 z⁴`, is a product since the curve has the term `-3 x`.
    let m := 3 * Modular.sub p a.x zz * (a.x + zz) % p
    let x := Modular.sub p (m * m % p) (2 * s % p)
    let y := Modular.sub p (m * Modular.sub p s x % p) (8 * yy * yy % p)
    ⟨x, y, 2 * a.y * a.z % p⟩

/-- The sum of two points. -/
def add (c : Curve) (a b : Point) : Point :=
  let p := c.prime
  if a.z = 0 then b
  else if b.z = 0 then a
  else
    -- Bring both points to one denominator.
    let azz := a.z * a.z % p
    let bzz := b.z * b.z % p
    let u := a.x * bzz % p
    let v := b.x * azz % p
    let s := a.y * bzz * b.z % p
    let t := b.y * azz * a.z % p
    if u = v then
      -- The same point twice, or a point and its opposite.
      if s = t then c.double a else .neutral
    else
      let h := Modular.sub p v u
      let r := Modular.sub p t s
      let hh := h * h % p
      let hhh := h * hh % p
      let uhh := u * hh % p
      let x := Modular.sub p (Modular.sub p (r * r % p) hhh) (2 * uhh % p)
      let y := Modular.sub p (r * Modular.sub p uhh x % p) (s * hhh % p)
      ⟨x, y, h * a.z * b.z % p⟩

/-- The multiple of a point, by doubling. -/
def multiple (c : Curve) (k : Nat) (a : Point) : Point :=
  (Modular.bits k).foldl (fun acc bit =>
    let twice := c.double acc
    if bit then c.add twice a else twice) .neutral

/-- `u · G + v · Q` for the base point `G`. -/
def combination (c : Curve) (u v : Nat) (q : Point) : Point :=
  c.add (c.multiple u ⟨c.base.1, c.base.2, 1⟩) (c.multiple v q)

/-- The `x` of a point that is not neutral. -/
def Point.affineX? (c : Curve) (a : Point) : Option Nat :=
  if a.z = 0 then none
  else
    let inverse := Modular.inverse c.prime a.z
    some (a.x * inverse % c.prime * inverse % c.prime)

/-- Whether a signature belongs to a message under the public point with coordinates `x`, `y`. -/
def verify (c : Curve) (x y message signature : Bytes) : Bool :=
  let len := c.coordinateLength
  let qx := Bytes.toNat x
  let qy := Bytes.toNat y
  let r := Bytes.toNat (signature.take len)
  let s := Bytes.toNat (signature.drop len)
  signature.length == 2 * len && c.isOn qx qy
    && decide (0 < r) && decide (r < c.order) && decide (0 < s) && decide (s < c.order) &&
    -- The digest has as many bits as the order, so it is not cut.
    let e := Bytes.toNat (c.digest.hash message)
    let w := Modular.inverse c.order s
    match (c.combination (e * w % c.order) (r * w % c.order) ⟨qx, qy, 1⟩).affineX? c with
    | none => false
    | some x => x % c.order == r

end Curve
end BearerAuth
