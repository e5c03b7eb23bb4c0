import BearerAuth.Text.Base64Url
import Mathlib.Data.List.TakeWhile

/-!
# BearerAuth — base64 reads back

Every character that is written stands for a value of six bits, and none of them is the dot that
separates the sections of a token or the sign of padding. So a written byte string can stand in a
token as it is, and reading it gives the bytes back.

Main results:

* `decodeChars?_encodeChars` — reading what was written.
* `dot_not_mem_encodeChars`  — a written byte string has no dot.
-/

namespace BearerAuth.Base64Url

/-! ## Characters -/

theorem value?_digit {n : Nat} (h : n < 64) : value? (digit n) = some n := by
  have all : ∀ i : Fin 64, value? (digit i) = some i.1 := by decide
  exact all ⟨n, h⟩

/-- The characters of the alphabet are told apart from the sign of padding and the dot. -/
theorem digit_ne {n : Nat} (h : n < 64) : digit n ≠ '=' ∧ digit n ≠ '.' := by
  have all : ∀ i : Fin 64, digit i ≠ '=' ∧ digit i ≠ '.' := by decide
  exact all ⟨n, h⟩

/-- What is written consists of characters of the alphabet. -/
theorem exists_digit_of_mem {b : Bytes} {c : Char} (h : c ∈ encodeChars b) :
    ∃ n, n < 64 ∧ c = digit n := by
  -- each value is put together from parts of bytes that fit into six bits
  induction b using encodeChars.induct with
  | case1 => cases h
  | case2 x =>
    have hx := x.toNat_lt
    simp only [encodeChars, List.mem_cons, List.not_mem_nil, or_false] at h
    rcases h with rfl | rfl
    · exact ⟨_, by omega, rfl⟩
    · exact ⟨_, by omega, rfl⟩
  | case3 x y =>
    have hx := x.toNat_lt
    have hy := y.toNat_lt
    simp only [encodeChars, List.mem_cons, List.not_mem_nil, or_false] at h
    rcases h with rfl | rfl | rfl
    · exact ⟨_, by omega, rfl⟩
    · exact ⟨_, by omega, rfl⟩
    · exact ⟨_, by omega, rfl⟩
  | case4 x y z rest ih =>
    have hx := x.toNat_lt
    have hy := y.toNat_lt
    have hz := z.toNat_lt
    simp only [encodeChars, List.mem_cons] at h
    rcases h with rfl | rfl | rfl | rfl | h
    · exact ⟨_, by omega, rfl⟩
    · exact ⟨_, by omega, rfl⟩
    · exact ⟨_, by omega, rfl⟩
    · exact ⟨_, by omega, rfl⟩
    · exact ih h

/-- No dot is written, so a section of a token never falls apart. -/
theorem dot_not_mem_encodeChars (b : Bytes) : '.' ∉ encodeChars b := by
  intro h
  obtain ⟨n, hn, hc⟩ := exists_digit_of_mem h
  exact (digit_ne hn).2 hc.symm

/-! ## Reading back -/

/-- A byte is the value that was taken apart, put together. -/
theorem ofNat_eq {x : UInt8} {n : Nat} (h : n = x.toNat) : UInt8.ofNat n = x := by
  rw [h, UInt8.ofNat_toNat]

/-- What is written is read, group by group. Each group is taken apart into values of six bits and
put together from them. -/
theorem decodeBody?_encodeChars (b : Bytes) : decodeBody? (encodeChars b) = some b := by
  induction b using encodeChars.induct with
  | case1 => rfl
  | case2 x =>
    have hx := x.toNat_lt
    -- the bits that are left over are zero
    have low : x.toNat % 4 * 16 % 16 = 0 := by omega
    simp only [encodeChars, decodeBody?]
    rw [value?_digit (by omega), value?_digit (by omega)]
    simp only [Option.bind_eq_bind, Option.bind_some, low, if_true]
    rw [ofNat_eq (x := x) (by omega)]
  | case3 x y =>
    have hx := x.toNat_lt
    have hy := y.toNat_lt
    have low : y.toNat % 16 * 4 % 4 = 0 := by omega
    simp only [encodeChars, decodeBody?]
    rw [value?_digit (by omega), value?_digit (by omega), value?_digit (by omega)]
    simp only [Option.bind_eq_bind, Option.bind_some, low, if_true]
    rw [ofNat_eq (x := x) (by omega), ofNat_eq (x := y) (by omega)]
  | case4 x y z rest ih =>
    have hx := x.toNat_lt
    have hy := y.toNat_lt
    have hz := z.toNat_lt
    simp only [encodeChars, decodeBody?]
    rw [value?_digit (by omega), value?_digit (by omega), value?_digit (by omega),
      value?_digit (by omega), ih]
    simp only [Option.bind_eq_bind, Option.bind_some]
    rw [ofNat_eq (x := x) (by omega), ofNat_eq (x := y) (by omega), ofNat_eq (x := z) (by omega)]
    rfl

theorem decodeChars?_encodeChars (b : Bytes) : decodeChars? (encodeChars b) = some b := by
  -- there is no padding
  have noPadding : ∀ c ∈ encodeChars b, decide (c ≠ '=') = true := by
    intro c h
    obtain ⟨n, hn, rfl⟩ := exists_digit_of_mem h
    exact decide_eq_true (digit_ne hn).1
  have body : (encodeChars b).takeWhile (· ≠ '=') = encodeChars b :=
    List.takeWhile_eq_self_iff.mpr noPadding
  have padding : (encodeChars b).dropWhile (· ≠ '=') = [] :=
    List.dropWhile_eq_nil_iff.mpr noPadding
  unfold decodeChars?
  rw [body, padding]
  simp [decodeBody?_encodeChars]

theorem decode?_encode (b : Bytes) : decode? (encode b) = some b := by
  rw [decode?, encode, String.toList_ofList, decodeChars?_encodeChars]

end BearerAuth.Base64Url
