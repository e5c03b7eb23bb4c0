import BearerAuth.Proofs.Key.Document
import BearerAuth.Proofs.Token.Faults
import Mathlib.Data.List.Induction
import Mathlib.Data.Nat.Size
import Mathlib.Tactic.Ring

/-!
# BearerAuth — the components of an RSA key

The modulus and the exponent of an RSA key are numbers, written in bytes with the most significant
one first. Zero bytes in front do not change a number and are dropped, and what is left is the
shortest way to write it (`Bytes.Shortest`). So a key is told by two numbers, whatever bytes they
came in.

A modulus is refused when it is too short or too long. The limits are meant in bits, 2048 and 8192
of them, but whole bytes are counted. At the upper limit that comes to the same. At the lower limit
it does not: a modulus of 256 bytes passes however small its first byte is, and so do moduli of 2041
to 2047 bits, which the limit was to keep out.

Main results:

* `Bytes.length_trimZeros`   — bytes without zeros in front are as many as the bits fill.
* `Bytes.shortest_trimZeros` — they are the shortest way to write the number.
* `RsaKey.components_exact`  — which components make a key, and which key they make.
* `RsaKey.accepts_short_modulus` — a modulus below the limit that is taken.
-/

namespace BearerAuth

/-! ## Big-endian numbers -/

namespace Bytes

variable {b c : Bytes} {n : Nat}

/-- One byte more at the end makes a number 256 times as large and adds the byte. -/
theorem toNat_concat (b : Bytes) (x : UInt8) : toNat (b ++ [x]) = 256 * b.toNat + x.toNat := by
  rw [toNat, List.foldl_append]
  rfl

/-- The number of two parts is that of the first one, moved up by the bytes of the second one, and
that of the second one. All that follows about numbers comes from this. -/
theorem toNat_append (b c : Bytes) : toNat (b ++ c) = b.toNat * 256 ^ c.length + c.toNat := by
  -- one byte more at the end multiplies by 256 on both sides
  induction c using List.reverseRecOn with
  | nil => simp [toNat]
  | append_singleton c x ih =>
    rw [← List.append_assoc, toNat_concat, ih, toNat_concat, List.length_append,
      List.length_singleton, pow_succ]
    ring

/-- The first byte counts for the power of 256 that belongs to the bytes after it. -/
theorem toNat_cons (x : UInt8) (b : Bytes) :
    toNat (x :: b) = x.toNat * 256 ^ b.length + b.toNat := by
  have single : toNat [x] = x.toNat := by simp [toNat]
  have split := toNat_append [x] b
  rwa [single] at split

/-- A number is less than the power of 256 that belongs to its bytes. -/
theorem toNat_lt (b : Bytes) : b.toNat < 256 ^ b.length := by
  induction b using List.reverseRecOn with
  | nil => exact Nat.one_pos
  | append_singleton b x ih =>
    have byte : x.toNat < 256 := x.toNat_lt
    rw [toNat_concat, List.length_append, List.length_singleton, pow_succ]
    omega

/-- A number is written again in as many bytes as it was read from. Bytes of one length are thereby
told by their number. -/
theorem ofNat_toNat (b : Bytes) : ofNat b.length b.toNat = b := by
  induction b using List.reverseRecOn with
  | nil => rfl
  | append_singleton b x ih =>
    have byte : x.toNat < 256 := x.toNat_lt
    -- the last byte comes off again, since it is less than 256
    have front : (256 * toNat b + x.toNat) / 256 = toNat b := by omega
    have back : (256 * toNat b + x.toNat) % 256 = x.toNat := by omega
    rw [toNat_concat, List.length_append, List.length_singleton, ofNat, front, back, ih,
      UInt8.ofNat_toNat]

/-! ## Zero bytes in front -/

/-- Zero bytes in front add nothing to a number, however many are dropped. -/
theorem toNat_trimZeros (b : Bytes) : b.trimZeros.toNat = b.toNat := by
  induction b with
  | nil => rfl
  | cons x b ih =>
    by_cases zero : x = 0
    · -- the byte is dropped, and adds nothing
      subst zero
      rw [toNat_cons, UInt8.toNat_zero, Nat.zero_mul, Nat.zero_add, ← ih]
      rfl
    · rw [trimZeros, List.dropWhile_cons_of_neg (by simpa using zero)]

/-- What is left is nothing, or it begins with a byte that is not zero. -/
theorem trimZeros_cases (b : Bytes) :
    b.trimZeros = [] ∨ ∃ x rest, b.trimZeros = x :: rest ∧ 0 < x.toNat := by
  induction b with
  | nil => exact .inl rfl
  | cons x b ih =>
    by_cases zero : x = 0
    · subst zero
      exact ih
    · have nonzero : x.toNat ≠ 0 := fun same => zero (UInt8.toNat_inj.mp same)
      refine .inr ⟨x, b, ?_, Nat.pos_of_ne_zero nonzero⟩
      rw [trimZeros, List.dropWhile_cons_of_neg (by simpa using zero)]

theorem pow_eight (n : Nat) : 256 ^ n = 2 ^ (8 * n) := by
  rw [pow_mul]
  rfl

/-- Without zeros in front there are as many bytes as the bits of the number fill. This is where
bytes and bits part: the last seven bits of a size are not seen in the number of bytes. -/
theorem length_trimZeros (b : Bytes) : b.trimZeros.length = (b.toNat.size + 7) / 8 := by
  rw [← toNat_trimZeros]
  rcases trimZeros_cases b with nothing | ⟨x, rest, split, positive⟩
  · rw [nothing]
    rfl
  · rw [split]
    -- the first byte is at least one, so that the bits reach into it
    have least : 256 ^ rest.length ≤ toNat (x :: rest) := by
      rw [toNat_cons]
      have := Nat.le_mul_of_pos_left (256 ^ rest.length) positive
      omega
    have most : toNat (x :: rest) < 256 ^ (rest.length + 1) := toNat_lt (x :: rest)
    rw [pow_eight] at least most
    have above := Nat.lt_size.mpr least
    have below := Nat.size_le.mpr most
    rw [List.length_cons]
    omega

theorem trimZeros_eq_nil_iff : b.trimZeros = [] ↔ b.toNat = 0 := by
  have bits : b.toNat.size = 0 ↔ b.toNat = 0 := Nat.size_eq_zero
  rw [← List.length_eq_zero_iff, length_trimZeros]
  omega

/-- Bytes that write the same number differ only in the zeros in front: without them they have the
same length, and bytes of one length are told by their number. -/
theorem trimZeros_congr (same : b.toNat = c.toNat) : b.trimZeros = c.trimZeros := by
  have length : b.trimZeros.length = c.trimZeros.length := by
    rw [length_trimZeros, length_trimZeros, same]
  rw [← ofNat_toNat b.trimZeros, ← ofNat_toNat c.trimZeros, length, toNat_trimZeros,
    toNat_trimZeros, same]

theorem toNat_zeros_append (i : Nat) (b : Bytes) :
    toNat (List.replicate i 0 ++ b) = b.toNat := by
  induction i with
  | zero => rfl
  | succ i ih =>
    rw [List.replicate_succ, List.cons_append, toNat_cons, UInt8.toNat_zero, Nat.zero_mul,
      Nat.zero_add, ih]

/-- The bytes write the number, and no fewer bytes do. -/
structure Shortest (b : Bytes) (n : Nat) : Prop where
  value : b.toNat = n
  least : ∀ c : Bytes, c.toNat = n → b.length ≤ c.length

/-- What is left without zeros in front is the shortest way to write the number. -/
theorem shortest_trimZeros (b : Bytes) : b.trimZeros.Shortest b.toNat where
  value := toNat_trimZeros b
  least := by
    intro c same
    calc b.trimZeros.length
        = c.trimZeros.length := by rw [trimZeros_congr same]
      _ ≤ c.length := (List.dropWhile_sublist _).length_le

end Bytes

/-! ## Keys -/

namespace RsaKey

variable {modulus exponent : Bytes} {k : RsaKey}

/-- A modulus is shorter than 256 bytes exactly if it has at most 2040 bits, which is eight bits
less than the limit was meant to say. -/
theorem lt_minLength_iff : modulus.trimZeros.length < minLength ↔ modulus.toNat.size ≤ 2040 := by
  rw [Bytes.length_trimZeros, minLength]
  omega

/-- A modulus is longer than 1024 bytes exactly if it has more than 8192 bits. Here the limit falls
on the border of a byte. -/
theorem maxLength_lt_iff : maxLength < modulus.trimZeros.length ↔ 8192 < modulus.toNat.size := by
  rw [Bytes.length_trimZeros, maxLength]
  omega

/-- What components are checked for. -/
inductive Check where
  | least
  | most
  | exponent

/-- The order of the checks. -/
def Check.order : List Check := [.least, .most, .exponent]

/-- Why the components of two numbers are refused, each check by itself. -/
inductive Refuses (n e : Nat) : Check → KeyRejection → Prop
  | tooShort (few : n.size ≤ 2040) : Refuses n e .least .modulusTooShort
  | tooLong (many : 8192 < n.size) : Refuses n e .most .modulusTooLong
  | noExponent (zero : e = 0) : Refuses n e .exponent .exponentMissing

/-- The checks are made in this order, and the first one that does not pass gives the reason. -/
theorem ofComponents_follows (modulus exponent : Bytes) :
    Follows (Refuses modulus.toNat exponent.toNat) Check.order (ofComponents modulus exponent) := by
  unfold ofComponents
  -- one goal for each check: it does not pass exactly if its reason applies
  refine .guard (fun r => ?_) fun _ => .guard (fun r => ?_) fun _ =>
    .guard (fun r => ?_) fun _ => .ok _
  · rw [lt_minLength_iff]
    constructor
    · rintro ⟨few⟩
      exact ⟨few, rfl⟩
    · rintro ⟨few, rfl⟩
      exact .tooShort few
  · rw [maxLength_lt_iff]
    constructor
    · rintro ⟨⟩
      exact ⟨‹_›, rfl⟩
    · rintro ⟨many, rfl⟩
      exact .tooLong many
  · rw [Bytes.trimZeros_eq_nil_iff]
    constructor
    · rintro ⟨⟩
      exact ⟨‹_›, rfl⟩
    · rintro ⟨zero, rfl⟩
      exact .noExponent zero

/-- Zeros in front may be dropped before a key is made, for they are dropped then. -/
theorem ofComponents_trimZeros (modulus exponent : Bytes) :
    ofComponents modulus.trimZeros exponent.trimZeros = ofComponents modulus exponent := by
  simp only [ofComponents, Bytes.trimZeros_trimZeros]

/-- It is the numbers that count: components that write the same numbers make the same key, or are
refused for the same reason. -/
theorem ofComponents_congr {modulus' exponent' : Bytes}
    (sameModulus : modulus'.toNat = modulus.toNat)
    (sameExponent : exponent'.toNat = exponent.toNat) :
    ofComponents modulus' exponent' = ofComponents modulus exponent := by
  rw [← ofComponents_trimZeros, Bytes.trimZeros_congr sameModulus,
    Bytes.trimZeros_congr sameExponent, ofComponents_trimZeros]

/-- A key holds its components as they were given, but for the zeros in front. -/
theorem trimmed_of_ofComponents (h : ofComponents modulus exponent = .ok k) :
    k.modulus = modulus.trimZeros ∧ k.exponent = exponent.trimZeros := by
  unfold ofComponents at h
  dsimp only at h
  split at h
  · cases h
  · split at h
    · cases h
    · split at h
      · cases h
      · cases h
        exact ⟨rfl, rfl⟩

theorem exists_ofComponents_iff :
    (∃ k, ofComponents modulus exponent = .ok k) ↔
      2041 ≤ modulus.toNat.size ∧ modulus.toNat.size ≤ 8192 ∧ exponent.toNat ≠ 0 := by
  rw [(ofComponents_follows modulus exponent).exists_ok_iff]
  constructor
  · intro passes
    -- each check by itself bounds one of the numbers
    simp only [Check.order, List.forall_mem_cons] at passes
    obtain ⟨least, most, exponent, -⟩ := passes
    have lower : ¬ modulus.toNat.size ≤ 2040 := fun few => least _ (.tooShort few)
    have upper : ¬ 8192 < modulus.toNat.size := fun many => most _ (.tooLong many)
    exact ⟨by omega, by omega, fun zero => exponent _ (.noExponent zero)⟩
  · rintro ⟨least, most, some⟩ check - r refused
    cases refused with
    | tooShort few => omega
    | tooLong many => omega
    | noExponent zero => exact some zero

/-- What comes of a modulus and an exponent. -/
structure Normalizes (modulus exponent : Bytes) : Prop where
  /-- The least modulus is that of 256 bytes, whose first byte has a single bit. -/
  accepted : (∃ k, ofComponents modulus exponent = .ok k) ↔
    2041 ≤ modulus.toNat.size ∧ modulus.toNat.size ≤ 8192 ∧ exponent.toNat ≠ 0
  /-- The limits of 2048 and 8192 bits are kept, but for moduli that lack up to seven bits. -/
  limits : ((∃ k, ofComponents modulus exponent = .ok k) ↔
      2048 ≤ modulus.toNat.size ∧ modulus.toNat.size ≤ 8192 ∧ exponent.toNat ≠ 0) ↔
    ¬ (2041 ≤ modulus.toNat.size ∧ modulus.toNat.size ≤ 2047 ∧ exponent.toNat ≠ 0)
  refused : ∀ r, ofComponents modulus exponent = .error r ↔
    FirstFails (Refuses modulus.toNat exponent.toNat) Check.order r
  /-- A key holds its two numbers in the shortest form. -/
  shortest : ∀ k, ofComponents modulus exponent = .ok k →
    k.modulus.Shortest modulus.toNat ∧ k.exponent.Shortest exponent.toNat
  /-- The same key is made of the same numbers, and of no others. -/
  told : ∀ k, ofComponents modulus exponent = .ok k → ∀ modulus' exponent',
    ofComponents modulus' exponent' = .ok k ↔
      modulus'.toNat = modulus.toNat ∧ exponent'.toNat = exponent.toNat
  /-- Zeros in front change nothing, -/
  padded : ∀ i j, ofComponents (List.replicate i 0 ++ modulus) (List.replicate j 0 ++ exponent) =
    ofComponents modulus exponent
  /-- and neither does taking a key apart and building it again. -/
  rebuilt : ∀ k, ofComponents modulus exponent = .ok k →
    ofComponents k.modulus k.exponent = .ok k
  /-- The components that a document publishes are treated in the same way. -/
  published : Key.materialOf .rsa [("n", .string (Base64Url.encode modulus)),
      ("e", .string (Base64Url.encode exponent))] =
    (Key.orRejected (ofComponents modulus exponent)).map .rsa

/-- **The components of an RSA key.** They are numbers, told by their bits and held in the shortest
form. The size of a modulus is counted in whole bytes, so a modulus is long enough from 2041 bits
on, seven less than the limit says. Everything else is as it is meant: zeros in front make no
difference, and a key that is taken apart is built again from its parts. -/
theorem components_exact (modulus exponent : Bytes) : Normalizes modulus exponent where
  accepted := exists_ofComponents_iff
  limits := by
    -- the two conditions differ in the moduli from 2041 to 2047 bits and nowhere else
    rw [exists_ofComponents_iff]
    omega
  refused := ofComponents_follows modulus exponent
  shortest := by
    intro k made
    obtain ⟨sameModulus, sameExponent⟩ := trimmed_of_ofComponents made
    rw [sameModulus, sameExponent]
    exact ⟨Bytes.shortest_trimZeros modulus, Bytes.shortest_trimZeros exponent⟩
  told := by
    intro k made modulus' exponent'
    constructor
    · intro made'
      -- both pairs are what the key holds, up to zeros in front
      obtain ⟨sameModulus, sameExponent⟩ := trimmed_of_ofComponents made
      obtain ⟨sameModulus', sameExponent'⟩ := trimmed_of_ofComponents made'
      rw [← modulus'.toNat_trimZeros, ← sameModulus', sameModulus, modulus.toNat_trimZeros,
        ← exponent'.toNat_trimZeros, ← sameExponent', sameExponent, exponent.toNat_trimZeros]
      exact ⟨rfl, rfl⟩
    · rintro ⟨sameModulus, sameExponent⟩
      rw [ofComponents_congr sameModulus sameExponent, made]
  padded := by
    intro i j
    exact ofComponents_congr (Bytes.toNat_zeros_append i modulus)
      (Bytes.toNat_zeros_append j exponent)
  rebuilt := by
    intro k _
    exact k.ofComponents_self
  published := by
    have fields : Json.Record.fields? ["n", "e"]
        (.named [("n", .string (Base64Url.encode modulus)),
          ("e", .string (Base64Url.encode exponent))]) =
        some [Key.bytesField modulus, Key.bytesField exponent] := rfl
    unfold Key.materialOf
    simp only [fields, Key.orMalformed_some, Key.ok_bind, Key.required?_bytesField]
    cases ofComponents modulus exponent <;> rfl

/-- **A modulus below the limit that is taken.** It has 2041 bits, the first of which is in a byte
of its own, so that it fills 256 bytes as one of 2048 bits does. Its size is found between two
powers of two, without computing the number. -/
theorem accepts_short_modulus :
    ¬ ((∃ k, ofComponents (1 :: List.replicate 255 171) [1, 0, 1] = .ok k) ↔
      2048 ≤ (Bytes.toNat (1 :: List.replicate 255 171)).size ∧
        (Bytes.toNat (1 :: List.replicate 255 171)).size ≤ 8192 ∧ Bytes.toNat [1, 0, 1] ≠ 0) := by
  -- the number lies between the powers of 256 that its 255 other bytes come to, once and twice
  have number : Bytes.toNat (1 :: List.replicate 255 171) =
      256 ^ 255 + Bytes.toNat (List.replicate 255 171) := by
    rw [Bytes.toNat_cons, List.length_replicate]
    exact congrArg (· + _) (Nat.one_mul _)
  have rest : Bytes.toNat (List.replicate 255 171) < 256 ^ 255 := by
    have bound := Bytes.toNat_lt (List.replicate 255 171)
    rwa [List.length_replicate] at bound
  have double : 2 ^ 2041 = 2 * 256 ^ 255 := by rw [Bytes.pow_eight, ← pow_succ']
  have least : 2040 < (Bytes.toNat (1 :: List.replicate 255 171)).size :=
    Nat.lt_size.mpr (by rw [number, Bytes.pow_eight 255]; omega)
  have most : (Bytes.toNat (1 :: List.replicate 255 171)).size ≤ 2041 :=
    Nat.size_le.mpr (by rw [number]; omega)
  have exponent : Bytes.toNat [1, 0, 1] ≠ 0 := by decide
  rw [exists_ofComponents_iff]
  omega

end RsaKey
end BearerAuth
