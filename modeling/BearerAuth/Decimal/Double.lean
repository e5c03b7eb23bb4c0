/-!
# BearerAuth — double-precision numbers

The finite numbers of the 64-bit binary format, held as a sign and the rank of the magnitude
among all magnitudes. Rank 0 is zero, and each rank is the next larger magnitude; the ranks of
finite numbers are exactly the low 63 bits of their usual representation. All arithmetic here is
exact arithmetic on natural numbers followed by one rounding to the nearest double, ties to the
even rank.

## Main definitions

* `Double`              — a finite double.
* `Double.mantissa`, `Double.exponent` — the magnitude as `mantissa · 2 ^ exponent`.
* `Double.ofRatio?`     — the double nearest to a quotient; none if it would be infinite.
* `Double.sameNumber`   — numeric equality, for which both zeros are the same number.
* `Double.truncate`     — the integer part of the magnitude.
-/

namespace BearerAuth

def Decimal.tenTo (k : Nat) : Nat := Nat.pow 10 k

/-- The number of magnitudes from one power of two up to the next. -/
def Double.perBinade : Nat := 1 <<< 52

def Double.rankLimit : Nat := 2047 * perBinade

/-- A finite double: its sign and the rank of its magnitude. -/
structure Double where
  negative : Bool
  rank : Nat
  finite : rank < Double.rankLimit
deriving DecidableEq

namespace Double

def zero : Double := ⟨false, 0, by decide⟩

/-- The magnitude's integer factor, below `2 ^ 53`. -/
def mantissa (d : Double) : Nat :=
  if d.rank < perBinade then d.rank else d.rank % perBinade + perBinade

/-- The magnitude's power of two. -/
def exponent (d : Double) : Int :=
  if d.rank < perBinade then -1074 else (d.rank / perBinade : Nat) - 1075

/-- The magnitude as a fraction of natural numbers. -/
def ratio (d : Double) : Nat × Nat :=
  if 0 ≤ d.exponent then (d.mantissa <<< d.exponent.toNat, 1)
  else (d.mantissa, 1 <<< (-d.exponent).toNat)

/-- The integer nearest to `num / den`, ties to the even one. -/
def divideRounded (num den : Nat) : Nat :=
  let q := num / den
  let r := num % den
  if 2 * r < den then q
  else if den < 2 * r then q + 1
  else q + q % 2

/-- The exponent at which the integer part of `num / den` has 53 bits, or the least exponent. -/
def scale (num den : Nat) : Int :=
  if num = 0 then -1074 else
  -- The difference of the logarithms is right or one too large.
  let guess : Int := (Nat.log2 num : Int) - Nat.log2 den - 52
  let fits : Bool :=
    if 0 ≤ guess then num / (den <<< guess.toNat) < perBinade
    else (num <<< (-guess).toNat) / den < perBinade
  max (-1074) (if fits then guess - 1 else guess)

/-- The double nearest to `num / den`, with the given sign. None if it is too large. -/
def ofRatio? (negative : Bool) (num den : Nat) : Option Double :=
  let e := scale num den
  let m := if 0 ≤ e then divideRounded num (den <<< e.toNat)
    else divideRounded (num <<< (-e).toNat) den
  -- A mantissa that was rounded up to the next power of two carries into the next binade by itself.
  let rank := (e + 1074).toNat * perBinade + m
  if h : rank < rankLimit then some ⟨negative, rank, h⟩ else none

/-- The double nearest to an integer. None if it is too large. -/
def ofInt? (i : Int) : Option Double := ofRatio? (i < 0) i.natAbs 1

/-- The same magnitude with the other sign. -/
def neg (d : Double) : Double := { d with negative := !d.negative }

/-- The product of two magnitudes, with the sign of the first. None if it is too large. -/
def mul? (a b : Double) : Option Double :=
  ofRatio? a.negative (a.ratio.1 * b.ratio.1) (a.ratio.2 * b.ratio.2)

/-- The quotient of two magnitudes, with the sign of the first. -/
def div? (a b : Double) : Option Double :=
  ofRatio? a.negative (a.ratio.1 * b.ratio.2) (a.ratio.2 * b.ratio.1)

/-- Whether the number is zero, of either sign. -/
def isZero (d : Double) : Bool := d.rank == 0

/-- Numeric equality: both zeros are the same number. -/
def sameNumber (a b : Double) : Bool :=
  a.rank == b.rank && (a.negative == b.negative || a.rank == 0)

def truncate (d : Double) : Nat := d.ratio.1 / d.ratio.2

end Double
end BearerAuth
