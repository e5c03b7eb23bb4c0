/-!
# BearerAuth — arithmetic modulo a number

## Main definitions

* `Modular.bits` — the binary digits of a number, most significant first.
* `Modular.pow`  — a power modulo a number, by squaring.
* `Modular.sub`, `Modular.inverse` — differences, and inverses modulo a prime.
-/

namespace BearerAuth.Modular

/-- The binary digits of a number, most significant first. -/
def bits (n : Nat) : List Bool :=
  (List.range (n.log2 + 1)).reverse.map n.testBit

/-- `b ^ e` modulo `m`. -/
def pow (m b e : Nat) : Nat :=
  (bits e).foldl (fun acc bit =>
    let square := acc * acc % m
    if bit then square * b % m else square) (1 % m)

/-- `a - b` modulo `m`, for residues `a` and `b`. -/
def sub (m a b : Nat) : Nat := (a + m - b) % m

/-- The inverse of `a` modulo a prime. -/
def inverse (prime a : Nat) : Nat := pow prime a (prime - 2)

end BearerAuth.Modular
