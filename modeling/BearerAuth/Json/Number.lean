import BearerAuth.Json.Value

/-!
# BearerAuth — reading JSON numbers

A number is read in two steps. `NumberText.read` splits the text into sign, digits before the
point, digits after it and exponent, by the grammar of JSON. `NumberText.toNumber?` finds the
value: an integer if there is neither point nor exponent and the integer fits a 64-bit word, and
otherwise a double. Minus zero is a double, since no integer carries the sign.

The double of a text is found with one 64-bit word of leading digits: digits that no longer fit
are dropped (a dropped digit before the point still counts as a place), the word is rounded to a
double, and that is multiplied or divided by a power of ten, rounding again. A number too large
for a double is refused; one too small is a zero of its sign.

## Main definitions

* `NumberText.read`       — splits a number off the front of a text.
* `NumberText.toNumber?`  — its value.
-/

namespace BearerAuth.Json

/-- Whether a byte is a decimal digit. -/
def isDigit (b : UInt8) : Bool := 48 ≤ b && b ≤ 57

/-- The parts of a written number. The digits are values below ten. -/
structure NumberText where
  negative : Bool
  whole : List Nat
  /-- The digits after the point, if there is one. -/
  fraction : Option (List Nat)
  /-- The exponent, if there is one. -/
  exponent : Option Int

/-- The longest run of digits at the front, and the rest. -/
def spanDigits (s : Bytes) : List Nat × Bytes :=
  ((s.takeWhile isDigit).map fun b => b.toNat - 48, s.dropWhile isDigit)

/-- The number with these decimal digits. -/
def ofDigits (ds : List Nat) : Nat := ds.foldl (fun n d => 10 * n + d) 0

/-- A run of at least one digit. -/
def readDigits (s : Bytes) : Option (List Nat × Bytes) :=
  match spanDigits s with
  | ([], _) => none
  | r => some r

/-- Digits before the point: a zero stands alone. -/
def readWhole (s : Bytes) : Option (List Nat × Bytes) := do
  let (ds, rest) ← readDigits s
  if ds.length > 1 && ds.head? == some 0 then none else some (ds, rest)

/-- A point and the digits after it, if there is a point. -/
def readFraction : Bytes → Option (Option (List Nat) × Bytes)
  | [] => some (none, [])
  | b :: s =>
    if b = 46 then (readDigits s).map fun (ds, rest) => (some ds, rest)
    else some (none, b :: s)

/-- The digits of an exponent after its sign. -/
def readExponentDigits (negative : Bool) (s : Bytes) : Option (Option Int × Bytes) := do
  let (ds, rest) ← readDigits s
  let e : Int := ofDigits ds
  return (some (if negative then -e else e), rest)

/-- The letter and the signed digits of an exponent, if there is one. -/
def readExponent : Bytes → Option (Option Int × Bytes)
  | [] => some (none, [])
  | b :: s =>
    if b = 101 ∨ b = 69 then
      match s with
      | [] => none
      | sign :: t =>
        if sign = 45 then readExponentDigits true t
        else if sign = 43 then readExponentDigits false t
        else readExponentDigits false (sign :: t)
    else some (none, b :: s)

/-- The parts of an unsigned number. -/
def readUnsigned (negative : Bool) (s : Bytes) : Option (NumberText × Bytes) := do
  let (whole, s) ← readWhole s
  let (fraction, s) ← readFraction s
  let (exponent, s) ← readExponent s
  return (⟨negative, whole, fraction, exponent⟩, s)

/-- Splits a number off the front of a text. -/
def NumberText.read : Bytes → Option (NumberText × Bytes)
  | [] => none
  | b :: s => if b = 45 then readUnsigned true s else readUnsigned false (b :: s)

/-! ## The value -/

/-- Appends digits to a number while it fits a 64-bit word. The other digits are left over. -/
def absorb (n : Nat) : List Nat → Nat × List Nat
  | [] => (n, [])
  | d :: ds => if 10 * n + d < UInt64.size then absorb (10 * n + d) ds else (n, d :: ds)

/-- The double nearest to `10 ^ k`, for `k` up to 308. -/
def powerOfTen (k : Nat) : Option Double := Double.ofRatio? false (Decimal.tenTo k) 1

/-- Scales a magnitude by `10 ^ e`. Exponents beyond the greatest power of ten are reached in steps
of `10 ^ 308`, of which only a few can matter; none if the result is too large. -/
def scaleByTen : Nat → Double → Int → Option Double
  | 0, d, _ => some d
  | steps + 1, d, e =>
    if e.natAbs ≤ 308 then do
      let p ← powerOfTen e.natAbs
      if 0 ≤ e then d.mul? p else d.div? p
    else if d.isZero then some d
    -- Even the magnitude one is too large after a step up.
    else if 0 ≤ e then none
    else do scaleByTen steps (← d.div? (← powerOfTen 308)) (e + 308)

/-- The double `± n · 10 ^ e`, for `n` that fits a 64-bit word. -/
def toDouble? (negative : Bool) (n : Nat) (e : Int) : Option Number := do
  let d ← scaleByTen (e.natAbs / 308 + 1) (← Double.ofInt? n) e
  return .double (if negative then d.neg else d)

/-- The integer `± n`, or the double nearest to it where no integer is that number. -/
def toInteger? (negative : Bool) (n : Nat) : Option Number :=
  if negative then
    -- Minus zero and numbers below the least signed word are doubles.
    if h : 0 < n ∧ n ≤ 9223372036854775808 then some (.integer ⟨-n, by omega⟩)
    else toDouble? true n 0
  else if h : n < 18446744073709551616 then some (.integer ⟨n, by omega⟩) else none

/-- The value of a written number. None if it is too large for a double. -/
def NumberText.toNumber? (t : NumberText) : Option Number :=
  let (n, dropped) := absorb 0 t.whole
  match t.fraction, t.exponent, dropped with
  | none, none, [] => toInteger? t.negative n
  | fraction, exponent, dropped =>
    let fraction := fraction.getD []
    let (n, unused) := absorb n fraction
    -- Each digit dropped before the point is a place up, each one read after it a place down.
    let places : Int := (dropped.length : Int) - (fraction.length - unused.length : Nat)
    toDouble? t.negative n (places + exponent.getD 0)

end BearerAuth.Json
