import BearerAuth.Decimal.Double

/-!
# BearerAuth — the shortest decimal of a double

A double stands for every real number that rounds to it. Its decimal text uses the fewest
significant digits among the decimals in that interval, and of those the one nearest to the
double itself. The layout of the digits is a record of choices, `Layout`, of which JSON uses one:
positional notation while the decimal exponent lies between -5 and 15, always with a fractional
part, and otherwise one digit before the point with a signed exponent.

## Main definitions

* `Decimal.shortest`   — the digits `d` and exponent `k` of the shortest decimal `d · 10 ^ k`.
* `Decimal.Layout`     — where positional notation ends.
* `Decimal.Layout.write` — the text of a double.
-/

namespace BearerAuth.Decimal

/-- The interval of numbers that round to a positive double, as fractions over one denominator:
the lower end, the double itself, the upper end, and the denominator. -/
structure Interval where
  low : Nat
  mid : Nat
  high : Nat
  den : Nat
  /-- Whether the ends themselves round to the double. -/
  closed : Bool

/-- The interval that rounds to the magnitude of `d`. Below a power of two the neighbour is only
half as far away. -/
def Interval.of (d : Double) : Interval :=
  let m := d.mantissa
  let atPower : Bool := m == Double.perBinade && decide (2 * Double.perBinade ≤ d.rank)
  let low := if atPower then 4 * m - 1 else 4 * m - 2
  let high := 4 * m + 2
  let closed := m % 2 == 0
  if 0 ≤ d.exponent then
    let s := d.exponent.toNat
    ⟨low <<< s, (4 * m) <<< s, high <<< s, 4, closed⟩
  else
    ⟨low, 4 * m, high, 4 <<< (-d.exponent).toNat, closed⟩

/-- Whether `num / den` lies in the interval. -/
def Interval.contains (i : Interval) (num den : Nat) : Bool :=
  let p := num * i.den
  if i.closed then decide (i.low * den ≤ p ∧ p ≤ i.high * den)
  else decide (i.low * den < p ∧ p < i.high * den)

/-- `n · 10 ^ k` as a fraction. -/
def scaled (n : Nat) (k : Int) : Nat × Nat :=
  if 0 ≤ k then (n * tenTo k.toNat, 1) else (n, tenTo (-k).toNat)

/-- The multiple of `10 ^ k` in the interval that is nearest to its middle, if there is one.
Only the two neighbours of the middle can be nearest; a tie goes to the even one. -/
def Interval.nearest? (i : Interval) (k : Int) : Option Nat :=
  let floor : Nat :=
    if 0 ≤ k then i.mid / (i.den * tenTo k.toNat) else i.mid * tenTo (-k).toNat / i.den
  let isIn (n : Nat) : Bool := let (a, b) := scaled n k; i.contains a b
  -- Compare the middle of the two neighbours, `floor + 1/2`, with the double.
  let nearerUp : Bool :=
    let (a, b) := scaled (2 * floor + 1) k
    let middle := a * i.den
    let value := 2 * i.mid * b
    decide (middle < value) || (middle == value && floor % 2 == 1)
  match isIn floor, isIn (floor + 1) with
  | true, true => some (if nearerUp then floor + 1 else floor)
  | true, false => some floor
  | false, true => some (floor + 1)
  | false, false => none

/-- Tries the grids `10 ^ k`, `10 ^ (k - 1)`, … from coarse to fine. -/
def Interval.search (i : Interval) : Nat → Int → Nat × Int
  | 0, k => (0, k)
  | steps + 1, k =>
    match i.nearest? k with
    | some n => if n = 0 then i.search steps (k - 1) else (n, k)
    | none => i.search steps (k - 1)

/-- The decimal exponent of the leading digit of a fraction is at most this. -/
def magnitudeBound (num den : Nat) : Int :=
  (((Nat.log2 num : Int) - Nat.log2 den + 1) * 30103) / 100000 + 1

/-- Digits and exponent of the shortest decimal of the magnitude of `d`. -/
def shortest (d : Double) : Nat × Int :=
  if d.rank = 0 then (0, 0)
  else
    let i := Interval.of d
    -- Seventeen digits always suffice, and the bound is at most a few places too high.
    i.search 22 (magnitudeBound i.mid i.den)

/-- Where positional notation ends: the least and the greatest decimal exponent of a number that
is written without an exponent. -/
structure Layout where
  least : Int
  greatest : Int

/-- The layout of numbers in JSON texts. -/
def Layout.json : Layout := ⟨-5, 15⟩

/-- The text of a double: its shortest digits in the given layout. A positional text has at least
one digit on either side of the point. -/
def Layout.write (l : Layout) (d : Double) : String :=
  let (n, k) := shortest d
  let digits := Nat.toDigits 10 n
  let count := digits.length
  -- Drop zeros at the end of the digits: they belong to the exponent.
  let kept := (digits.reverse.dropWhile (· == '0')).reverse
  let kept := if kept.isEmpty then ['0'] else kept
  let k := if n = 0 then 0 else k + (count - kept.length : Nat)
  let exponent : Int := k + kept.length - 1
  let body : List Char :=
    if exponent < l.least ∨ l.greatest < exponent then
      let tail := kept.drop 1
      let sign := if exponent < 0 then '-' else '+'
      kept.take 1 ++ (if tail.isEmpty then [] else '.' :: tail)
        ++ 'e' :: sign :: Nat.toDigits 10 exponent.natAbs
    else if 0 ≤ k then kept ++ List.replicate k.toNat '0' ++ ['.', '0']
    else
      let fraction := (-k).toNat
      if fraction < kept.length then
        kept.take (kept.length - fraction) ++ '.' :: kept.drop (kept.length - fraction)
      else '0' :: '.' :: List.replicate (fraction - kept.length) '0' ++ kept
  String.ofList (if d.negative then '-' :: body else body)

end BearerAuth.Decimal
