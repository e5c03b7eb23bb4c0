import BearerAuth.Proofs.Text.Base64Url
import Mathlib.Algebra.GroupWithZero.Nat

/-!
# BearerAuth — one written form for each byte string

If two texts denoted the same bytes, a signature could be rewritten without becoming invalid. Here
is the exact language of the base64 of keys and tokens. A byte string is written as its bits, six to
a character of the alphabet, filled up with fewer than six zeros (`Spells`). A text is read as a
byte string if and only if it is that one written form, followed by no more padding than completes a
group of four characters (`Writes`). Every other text has a flaw that can be named (`Flawed`), and
none of these texts is read.

Main results:

* `spells_encodeChars`        — what a written form spells.
* `encodeChars_of_decodeBody?` — only written forms are read.
* `exists_decodeBody?`        — without a flaw, a text is read.
* `codec_exact`               — the language that is written and the language that is read.
-/

namespace BearerAuth.Base64Url

/-! ## The alphabet -/

/-- The characters in the order of their values. -/
def alphabet : String := "ABCDEFGHIJKLMNOPQRSTUVWXYZabcdefghijklmnopqrstuvwxyz0123456789-_"

theorem toList_alphabet : alphabet.toList = (List.range 64).map digit := by decide

theorem mem_alphabet_iff {c : Char} : c ∈ alphabet.toList ↔ ∃ n, n < 64 ∧ digit n = c := by
  rw [toList_alphabet, List.mem_map]
  simp only [List.mem_range]

/-- The place of a character in the alphabet is its value, so no character comes twice. -/
theorem idxOf_digit {n : Nat} (h : n < 64) : alphabet.toList.idxOf (digit n) = n := by
  have all : ∀ i : Fin 64, alphabet.toList.idxOf (digit i) = i := by decide +kernel
  exact all ⟨n, h⟩

theorem toNat_le_of_le {c d : Char} (h : c ≤ d) : c.toNat ≤ d.toNat :=
  UInt32.le_iff_toNat_le.mp h

/-- A character that has a value is the one that is written for it. Reading never takes two
characters for the same value. -/
theorem digit_of_value? {c : Char} {n : Nat} (h : value? c = some n) : n < 64 ∧ digit n = c := by
  -- beyond the end of ASCII no character has a value
  have ascii : c.toNat < 128 := by
    unfold value? at h
    split at h
    next range => exact (toNat_le_of_le range.2).trans_lt (by decide)
    split at h
    next range => exact (toNat_le_of_le range.2).trans_lt (by decide)
    split at h
    next range => exact (toNat_le_of_le range.2).trans_lt (by decide)
    split at h
    next dash => subst dash; decide
    split at h
    next line => subst line; decide
    cases h
  have all : ∀ i : Fin 128, ∀ n ∈ value? (Char.ofNat i), n < 64 ∧ digit n = Char.ofNat i := by
    decide +kernel
  have here := all ⟨c.toNat, ascii⟩ n
  rw [Char.ofNat_toNat] at here
  exact here h

/-! ## Bits -/

/-- The lowest binary digits of a number, so many of them, the highest first. -/
def bits : Nat → Nat → List Bool
  | 0, _ => []
  | width + 1, n => n.testBit width :: bits width n

/-- The bits of a byte string. -/
def bitsOf (b : Bytes) : List Bool := b.flatMap fun x => bits 8 x.toNat

/-- The bits of the places that characters have in the alphabet. -/
def spelled (cs : List Char) : List Bool := cs.flatMap fun c => bits 6 (alphabet.toList.idxOf c)

theorem length_bits (width n : Nat) : (bits width n).length = width := by
  induction width with
  | zero => rfl
  | succ width ih => rw [bits, List.length_cons, ih]

/-- The lowest bits of a number that is put together are those of its lower part. -/
theorem bits_low {width j x y : Nat} (h : width ≤ j) (hy : y < 2 ^ j) :
    bits width (x * 2 ^ j + y) = bits width y := by
  induction width with
  | zero => rfl
  | succ width ih =>
    have below : width < j := h
    rw [bits, bits, ih (by omega), Nat.mul_comm, Nat.testBit_two_pow_mul_add x hy, if_pos below]

/-- The bits of a number that is put together from two. -/
theorem bits_join (i j x : Nat) {y : Nat} (hy : y < 2 ^ j) :
    bits (i + j) (x * 2 ^ j + y) = bits i x ++ bits j y := by
  induction i with
  | zero =>
    rw [Nat.zero_add]
    exact bits_low (Nat.le_refl j) hy
  | succ i ih =>
    have high : (x * 2 ^ j + y).testBit (i + j) = x.testBit i := by
      rw [Nat.mul_comm, Nat.testBit_two_pow_mul_add x hy, if_neg (by omega), Nat.add_sub_cancel]
    rw [Nat.succ_add, bits, bits, ih, high, List.cons_append]

/-- The bits of a number that is taken apart. -/
theorem bits_cut (i j n : Nat) : bits (i + j) n = bits i (n / 2 ^ j) ++ bits j (n % 2 ^ j) := by
  rw [← bits_join i j (n / 2 ^ j) (Nat.mod_lt n (Nat.two_pow_pos j)), Nat.div_add_mod']

theorem bits_zero (width : Nat) : bits width 0 = List.replicate width false := by
  induction width with
  | zero => rfl
  | succ width ih => rw [bits, ih, Nat.zero_testBit, List.replicate_succ]

/-- The bits of a number with zeros behind them. -/
theorem bits_shift (i j x : Nat) :
    bits (i + j) (x * 2 ^ j) = bits i x ++ List.replicate j false := by
  have joined := bits_join i j x (Nat.two_pow_pos j)
  rw [Nat.add_zero, bits_zero] at joined
  exact joined

theorem length_bitsOf (b : Bytes) : (bitsOf b).length = 8 * b.length := by
  induction b with
  | nil => rfl
  | cons x rest ih =>
    rw [bitsOf, List.flatMap_cons, List.length_append, length_bits, List.length_cons]
    unfold bitsOf at ih
    omega

theorem length_spelled (cs : List Char) : (spelled cs).length = 6 * cs.length := by
  induction cs with
  | nil => rfl
  | cons c rest ih =>
    rw [spelled, List.flatMap_cons, List.length_append, length_bits, List.length_cons]
    unfold spelled at ih
    omega

theorem spelled_digit {n : Nat} (h : n < 64) (cs : List Char) :
    spelled (digit n :: cs) = bits 6 n ++ spelled cs := by
  rw [spelled, List.flatMap_cons, idxOf_digit h]
  rfl

/-! ## What is written -/

/-- Characters of the alphabet that spell the bits of a byte string, filled up with zeros that are
not enough for another character. -/
structure Spells (b : Bytes) (cs : List Char) : Prop where
  alphabet : ∀ c ∈ cs, c ∈ alphabet.toList
  bits : ∃ zeros, zeros < 6 ∧ spelled cs = bitsOf b ++ List.replicate zeros false

/-! The bits of bytes where characters meet: two, four or six of them are left for the next one. -/

theorem bits_leaving_two (n : Nat) : bits 8 n = bits 6 (n / 4) ++ bits 2 (n % 4) := bits_cut 6 2 n

theorem bits_leaving_four (n : Nat) : bits 8 n = bits 4 (n / 16) ++ bits 4 (n % 16) :=
  bits_cut 4 4 n

theorem bits_leaving_six (n : Nat) : bits 8 n = bits 2 (n / 64) ++ bits 6 (n % 64) := bits_cut 2 6 n

theorem bits_two_and_four (x : Nat) {y : Nat} (hy : y < 16) :
    bits 6 (x * 16 + y) = bits 2 x ++ bits 4 y := bits_join 2 4 x hy

theorem bits_four_and_two (x : Nat) {y : Nat} (hy : y < 4) :
    bits 6 (x * 4 + y) = bits 4 x ++ bits 2 y := bits_join 4 2 x hy

/-- What is written spells the bits of the bytes, filled up with zeros that are not enough for
another character. The induction follows the groups of the encoder. -/
theorem spelled_encodeChars (b : Bytes) :
    ∃ zeros, zeros < 6 ∧ spelled (encodeChars b) = bitsOf b ++ List.replicate zeros false := by
  -- the groups of the encoder: only the last one may be filled up
  induction b using encodeChars.induct with
  | case1 => exact ⟨0, by decide, rfl⟩
  | case2 x =>
    -- the last two bits of the byte get four zeros
    have hx := x.toNat_lt
    have last : bits 6 (x.toNat % 4 * 16) = bits 2 (x.toNat % 4) ++ List.replicate 4 false :=
      bits_shift 2 4 (x.toNat % 4)
    refine ⟨4, by decide, ?_⟩
    simp only [encodeChars]
    rw [spelled_digit (by omega), spelled_digit (by omega), last]
    simp [spelled, bitsOf, bits_leaving_two]
  | case3 x y =>
    -- the last four bits of the second byte get two zeros
    have hx := x.toNat_lt
    have hy := y.toNat_lt
    have last : bits 6 (y.toNat % 16 * 4) = bits 4 (y.toNat % 16) ++ List.replicate 2 false :=
      bits_shift 4 2 (y.toNat % 16)
    refine ⟨2, by decide, ?_⟩
    simp only [encodeChars]
    rw [spelled_digit (by omega), spelled_digit (by omega), spelled_digit (by omega),
      bits_two_and_four _ (by omega), last]
    simp [spelled, bitsOf, bits_leaving_two x.toNat, bits_leaving_four y.toNat]
  | case4 x y z rest ih =>
    -- three bytes are four characters without a bit left over
    have hx := x.toNat_lt
    have hy := y.toNat_lt
    have hz := z.toNat_lt
    obtain ⟨zeros, few, spells⟩ := ih
    refine ⟨zeros, few, ?_⟩
    simp only [encodeChars]
    rw [spelled_digit (by omega), spelled_digit (by omega), spelled_digit (by omega),
      spelled_digit (by omega), bits_two_and_four _ (by omega), bits_four_and_two _ (by omega),
      spells]
    simp [bitsOf, bits_leaving_two x.toNat, bits_leaving_four y.toNat, bits_leaving_six z.toNat]

theorem spells_encodeChars (b : Bytes) : Spells b (encodeChars b) where
  alphabet := by
    intro c h
    obtain ⟨n, hn, rfl⟩ := exists_digit_of_mem h
    exact mem_alphabet_iff.mpr ⟨n, hn, rfl⟩
  bits := spelled_encodeChars b

/-- A written form is as long as it takes to hold the bits, rounded up to whole characters. -/
theorem length_encodeChars (b : Bytes) : (encodeChars b).length = (4 * b.length + 2) / 3 := by
  induction b using encodeChars.induct with
  | case1 => rfl
  | case2 | case3 => simp [encodeChars]
  | case4 x y z rest ih =>
    simp only [encodeChars, List.length_cons, ih]
    omega

/-! ## Only that is read -/

/-- What is read without padding is what would be written. The induction follows the groups of the
decoder: the bytes of a group are put together from values, and taken apart again they give the same
values, because no bit was left over that counts. -/
theorem encodeChars_of_decodeBody? {cs : List Char} {b : Bytes} (h : decodeBody? cs = some b) :
    encodeChars b = cs := by
  -- a byte that was put together is taken apart into the same values
  have byte : ∀ {n : Nat}, n < 256 → (UInt8.ofNat n).toNat = n := UInt8.toNat_ofNat_of_lt'
  induction cs using decodeBody?.induct generalizing b with
  | case1 =>
    cases h
    rfl
  | case2 => cases h
  | case3 p q =>
    simp only [decodeBody?, Option.bind_eq_bind, Option.bind_eq_some_iff] at h
    obtain ⟨x, hp, y, hq, h⟩ := h
    obtain ⟨hx, rfl⟩ := digit_of_value? hp
    obtain ⟨hy, rfl⟩ := digit_of_value? hq
    split at h
    next low =>
      -- of the second character only the two high bits are in the byte; `low` is about the others
      cases h
      rw [encodeChars, byte (by omega)]
      rw [show (x * 4 + y / 16) / 4 = x by omega, show (x * 4 + y / 16) % 4 * 16 = y by omega]
    next => cases h
  | case4 p q r =>
    simp only [decodeBody?, Option.bind_eq_bind, Option.bind_eq_some_iff] at h
    obtain ⟨x, hp, y, hq, z, hr, h⟩ := h
    obtain ⟨hx, rfl⟩ := digit_of_value? hp
    obtain ⟨hy, rfl⟩ := digit_of_value? hq
    obtain ⟨hz, rfl⟩ := digit_of_value? hr
    split at h
    next low =>
      cases h
      rw [encodeChars, byte (by omega), byte (by omega)]
      rw [show (x * 4 + y / 16) / 4 = x by omega,
        show (x * 4 + y / 16) % 4 * 16 + (y % 16 * 16 + z / 4) / 16 = y by omega,
        show (y % 16 * 16 + z / 4) % 16 * 4 = z by omega]
    next => cases h
  | case5 p q r s rest ih =>
    simp only [decodeBody?, Option.bind_eq_bind, Option.bind_eq_some_iff] at h
    obtain ⟨x, hp, y, hq, z, hr, w, hs, bytes, hrest, h⟩ := h
    obtain ⟨hx, rfl⟩ := digit_of_value? hp
    obtain ⟨hy, rfl⟩ := digit_of_value? hq
    obtain ⟨hz, rfl⟩ := digit_of_value? hr
    obtain ⟨hw, rfl⟩ := digit_of_value? hs
    cases h
    rw [encodeChars, byte (by omega), byte (by omega), byte (by omega), ih hrest]
    rw [show (x * 4 + y / 16) / 4 = x by omega,
      show (x * 4 + y / 16) % 4 * 16 + (y % 16 * 16 + z / 4) / 16 = y by omega,
      show (y % 16 * 16 + z / 4) % 16 * 4 + (z % 4 * 64 + w) / 64 = z by omega,
      show (z % 4 * 64 + w) % 64 = w by omega]

/-! ## All of that is read -/

/-- The bits behind the last whole byte. -/
def leftOver (cs : List Char) : List Bool := (spelled cs).drop (8 * (6 * cs.length / 8))

/-- Bits behind whole bytes that make no further byte. -/
theorem leftOver_eq {cs : List Char} {front back : List Bool} (h : spelled cs = front ++ back)
    (whole : front.length % 8 = 0) (few : back.length < 8) : leftOver cs = back := by
  have count : 6 * cs.length = front.length + back.length := by
    rw [← length_spelled, h, List.length_append]
  have cut : 8 * (6 * cs.length / 8) = front.length := by omega
  rw [leftOver, cut, h, List.drop_left]

/-- Of a written form nothing but zeros is left over. -/
theorem leftOver_encodeChars (b : Bytes) :
    ∃ zeros, leftOver (encodeChars b) = List.replicate zeros false := by
  obtain ⟨zeros, few, spells⟩ := spelled_encodeChars b
  refine ⟨zeros, leftOver_eq spells ?_ ?_⟩
  · rw [length_bitsOf, Nat.mul_mod_right]
  · rw [List.length_replicate]
    omega

/-- Four characters make whole bytes. -/
theorem leftOver_group (p q r s : Char) (rest : List Char) :
    leftOver (p :: q :: r :: s :: rest) = leftOver rest := by
  have group : spelled ([p, q, r, s] ++ rest) = spelled [p, q, r, s] ++ spelled rest :=
    List.flatMap_append
  -- the four of them are twenty-four bits
  have cut : 8 * (6 * (p :: q :: r :: s :: rest).length / 8) =
      (spelled [p, q, r, s]).length + 8 * (6 * rest.length / 8) := by
    rw [length_spelled]
    simp only [List.length_cons, List.length_nil]
    omega
  rw [leftOver, cut, leftOver]
  exact (congrArg _ group).trans (List.drop_length_add_append _)

/-- A text of the alphabet is read if it does not end within a byte and no bit that is left over
counts. The induction follows the groups of the decoder. Only a last group of two or three
characters has bits left over, and these it refuses unless they are zeros. -/
theorem exists_decodeBody? {cs : List Char} (known : ∀ c ∈ cs, c ∈ alphabet.toList)
    (whole : cs.length % 4 ≠ 1) (zeros : true ∉ leftOver cs) : ∃ b, decodeBody? cs = some b := by
  induction cs using decodeBody?.induct with
  | case1 => exact ⟨[], rfl⟩
  | case2 => exact absurd rfl whole
  | case3 p q =>
    obtain ⟨x, hx, rfl⟩ := mem_alphabet_iff.mp (known p (by simp))
    obtain ⟨y, hy, rfl⟩ := mem_alphabet_iff.mp (known q (by simp))
    -- one byte, and four bits of the second character behind it
    have last : bits 6 y = bits 2 (y / 16) ++ bits 4 (y % 16) := bits_cut 2 4 y
    have apart : spelled [digit x, digit y] =
        (bits 6 x ++ bits 2 (y / 16)) ++ bits 4 (y % 16) := by
      rw [spelled_digit hx, spelled_digit hy, last]
      simp [spelled]
    have left : leftOver [digit x, digit y] = bits 4 (y % 16) :=
      leftOver_eq apart (by simp [length_bits]) (by simp [length_bits])
    have low : y % 16 = 0 := by
      have all : ∀ i : Fin 16, true ∉ bits 4 i → i.1 = 0 := by decide
      rw [left] at zeros
      exact all ⟨y % 16, by omega⟩ zeros
    simp only [decodeBody?, value?_digit hx, value?_digit hy, Option.bind_eq_bind,
      Option.bind_some, if_pos low]
    exact ⟨_, rfl⟩
  | case4 p q r =>
    obtain ⟨x, hx, rfl⟩ := mem_alphabet_iff.mp (known p (by simp))
    obtain ⟨y, hy, rfl⟩ := mem_alphabet_iff.mp (known q (by simp))
    obtain ⟨z, hz, rfl⟩ := mem_alphabet_iff.mp (known r (by simp))
    -- two bytes, and two bits of the third character behind them
    have last : bits 6 z = bits 4 (z / 4) ++ bits 2 (z % 4) := bits_cut 4 2 z
    have apart : spelled [digit x, digit y, digit z] =
        (bits 6 x ++ bits 6 y ++ bits 4 (z / 4)) ++ bits 2 (z % 4) := by
      rw [spelled_digit hx, spelled_digit hy, spelled_digit hz, last]
      simp [spelled]
    have left : leftOver [digit x, digit y, digit z] = bits 2 (z % 4) :=
      leftOver_eq apart (by simp [length_bits]) (by simp [length_bits])
    have low : z % 4 = 0 := by
      have all : ∀ i : Fin 4, true ∉ bits 2 i → i.1 = 0 := by decide
      rw [left] at zeros
      exact all ⟨z % 4, by omega⟩ zeros
    simp only [decodeBody?, value?_digit hx, value?_digit hy, value?_digit hz,
      Option.bind_eq_bind, Option.bind_some, if_pos low]
    exact ⟨_, rfl⟩
  | case5 p q r s rest ih =>
    obtain ⟨x, hx, rfl⟩ := mem_alphabet_iff.mp (known p (by simp))
    obtain ⟨y, hy, rfl⟩ := mem_alphabet_iff.mp (known q (by simp))
    obtain ⟨z, hz, rfl⟩ := mem_alphabet_iff.mp (known r (by simp))
    obtain ⟨w, hw, rfl⟩ := mem_alphabet_iff.mp (known s (by simp))
    rw [leftOver_group] at zeros
    have whole : rest.length % 4 ≠ 1 := by
      simp only [List.length_cons] at whole
      omega
    obtain ⟨b, hb⟩ := ih (fun c hc => known c (by simp [hc])) whole zeros
    simp only [decodeBody?, value?_digit hx, value?_digit hy, value?_digit hz, value?_digit hw, hb,
      Option.bind_eq_bind, Option.bind_some]
    exact ⟨_, rfl⟩

/-! ## Padding -/

/-- The characters before the padding. -/
def body (s : String) : List Char := s.toList.takeWhile (· ≠ '=')

/-- The first sign of padding and what follows it. -/
def padding (s : String) : List Char := s.toList.dropWhile (· ≠ '=')

/-- So many signs of padding complete a text of some length to groups of four characters. -/
def Completes (length fill : Nat) : Prop := fill < 4 ∧ (length + fill) % 4 = 0

/-- The written form of a byte string, followed by signs of padding, which are not more than
complete it to groups of four characters. -/
def Writes (b : Bytes) (s : String) : Prop :=
  ∃ k fill, Completes (encode b).length fill ∧ k ≤ fill ∧
    s = encode b ++ String.ofList (List.replicate k '=')

/-- Why a text denotes no byte string. -/
inductive Flawed (s : String) : Prop
  /-- A character is neither of the alphabet nor padding. -/
  | foreign {c : Char} (h : c ∈ s.toList) (other : c ≠ '=') (stranger : c ∉ alphabet.toList)
  /-- Something follows the padding. -/
  | misplaced {c : Char} (h : c ∈ padding s) (other : c ≠ '=')
  /-- There is more padding than completes the text. -/
  | surplus {fill : Nat} (completes : Completes (body s).length fill)
    (h : fill < (padding s).length)
  /-- The last group is a single character. -/
  | single (h : (body s).length % 4 = 1)
  /-- A bit that no byte uses is one. -/
  | trailing (h : true ∈ leftOver (body s))

variable {b : Bytes} {s : String}

theorem completes_iff {length fill : Nat} :
    Completes length fill ↔ fill = paddingNeeded length := by
  unfold Completes paddingNeeded
  omega

theorem ne_of_mem_body {c : Char} (h : c ∈ body s) : c ≠ '=' := by
  simpa using List.mem_takeWhile_imp h

theorem padding_ne_of_mem_encodeChars {c : Char} (h : c ∈ encodeChars b) : c ≠ '=' := by
  obtain ⟨n, hn, rfl⟩ := exists_digit_of_mem h
  exact (digit_ne hn).1

theorem body_append_padding (s : String) : body s ++ padding s = s.toList :=
  List.takeWhile_append_dropWhile

/-- The padding begins where the written form ends. -/
theorem body_padded (b : Bytes) (k : Nat) :
    body (encode b ++ String.ofList (List.replicate k '=')) = encodeChars b ∧
      padding (encode b ++ String.ofList (List.replicate k '=')) = List.replicate k '=' := by
  have front : ∀ c ∈ encodeChars b, decide (c ≠ '=') = true :=
    fun c hc => decide_eq_true (padding_ne_of_mem_encodeChars hc)
  unfold body padding
  rw [String.toList_append, String.toList_ofList, encode, String.toList_ofList,
    List.takeWhile_append_of_pos front, List.dropWhile_append_of_pos front]
  cases k <;> simp [List.replicate_succ]

/-- A text is read as a byte string if its body is the written form, what follows it are signs of
padding, and there are no more of them than needed. -/
theorem decode?_eq_some_iff_body :
    decode? s = some b ↔ body s = encodeChars b ∧ (∀ c ∈ padding s, c = '=') ∧
      (padding s).length ≤ paddingNeeded (body s).length := by
  have unfolded : decode? s =
      if (padding s).all (· = '=') ∧ (padding s).length ≤ paddingNeeded (body s).length then
        decodeBody? (body s)
      else none := rfl
  rw [unfolded]
  simp only [List.all_eq_true, decide_eq_true_eq]
  constructor
  · intro h
    split at h
    next complete => exact ⟨(encodeChars_of_decodeBody? h).symm, complete⟩
    next => cases h
  · rintro ⟨hb, complete⟩
    rw [if_pos complete, hb, decodeBody?_encodeChars]

/-- The texts that are read are those that `Writes` describes. -/
theorem decode?_eq_some_iff : decode? s = some b ↔ Writes b s := by
  rw [decode?_eq_some_iff_body]
  constructor
  · -- what follows the body are signs of padding only, and so it is as many of them as it is long
    rintro ⟨hb, complete, few⟩
    refine ⟨(padding s).length, _, completes_iff.mpr rfl, ?_, ?_⟩
    · rw [encode, String.length_ofList, ← hb]
      exact few
    · apply String.toList_inj.mp
      rw [String.toList_append, String.toList_ofList, encode, String.toList_ofList, ← hb,
        ← List.eq_replicate_of_mem complete, body_append_padding]
  · rintro ⟨k, fill, completes, few, rfl⟩
    obtain ⟨hb, hp⟩ := body_padded b k
    rw [completes_iff.mp completes, encode, String.length_ofList] at few
    rw [hb, hp, List.length_replicate]
    exact ⟨rfl, fun c hc => (List.mem_replicate.mp hc).2, few⟩

/-- The texts that are not read are those with a flaw. Without a flaw the body can be decoded, and
with one the text is not of the form that is read. So every refusal has a reason, and the reasons
need not exclude each other. -/
theorem decode?_eq_none_iff : decode? s = none ↔ Flawed s := by
  rw [Option.eq_none_iff_forall_ne_some]
  constructor
  · intro unread
    by_contra sound
    -- without a flaw the text is read
    obtain ⟨b, hb⟩ : ∃ b, decodeBody? (body s) = some b := by
      refine exists_decodeBody? (fun c hc => ?_) (fun h => sound (.single h))
        (fun h => sound (.trailing h))
      by_contra stranger
      have mem : c ∈ s.toList := (List.takeWhile_sublist _).mem hc
      exact sound (.foreign mem (ne_of_mem_body hc) stranger)
    refine unread b (decode?_eq_some_iff_body.mpr
      ⟨(encodeChars_of_decodeBody? hb).symm, fun c hc => ?_, ?_⟩)
    · by_contra other
      exact sound (.misplaced hc other)
    · by_contra many
      exact sound (.surplus (completes_iff.mpr rfl) (Nat.lt_of_not_le many))
  · intro flawed b read
    obtain ⟨hb, complete, few⟩ := decode?_eq_some_iff_body.mp read
    cases flawed with
    | @foreign c h other stranger =>
      rw [← body_append_padding, hb] at h
      rcases List.mem_append.mp h with h | h
      · exact stranger ((spells_encodeChars b).alphabet c h)
      · exact other (complete c h)
    | misplaced h other => exact other (complete _ h)
    | surplus completes h =>
      rw [completes_iff.mp completes] at h
      exact absurd few (Nat.not_le_of_lt h)
    | single h =>
      rw [hb, length_encodeChars] at h
      omega
    | trailing h =>
      obtain ⟨zeros, left⟩ := leftOver_encodeChars b
      rw [hb, left] at h
      exact absurd (List.mem_replicate.mp h).2 (by decide)

/-- **The language of base64.** A byte string is written with characters of the alphabet, which
spell its bits and fewer than six zeros; there is no sign of padding and no dot in it. It is read
from exactly the texts that are this form with up to as much padding as completes it, and writing it
again gives the text without its padding. The texts that are not read are exactly those with a flaw:
a character that does not belong, something behind the padding, too much of it, a single character
in the last group, or a bit that no byte uses and that is not zero. -/
theorem codec_exact (b : Bytes) (s : String) :
    Spells b (encode b).toList ∧ '=' ∉ (encode b).toList ∧ '.' ∉ (encode b).toList ∧
      decode? (encode b) = some b ∧
      (decode? s = some b ↔ Writes b s) ∧
      (decode? s = some b → encode b = String.ofList (body s)) ∧
      (decode? s = none ↔ Flawed s) := by
  have written : (encode b).toList = encodeChars b := by
    rw [encode, String.toList_ofList]
  refine ⟨?_, ?_, ?_, decode?_encode b, decode?_eq_some_iff, fun read => ?_,
    decode?_eq_none_iff⟩
  · rw [written]
    exact spells_encodeChars b
  · rw [written]
    exact fun h => padding_ne_of_mem_encodeChars h rfl
  · rw [written]
    exact dot_not_mem_encodeChars b
  · rw [(decode?_eq_some_iff_body.mp read).1, encode]

/-- One of the two signs of padding may be there by itself, but no other bits behind the byte. -/
example : decode? "QQ=" = some [65] ∧ decode? "QR" = none := by decide

end BearerAuth.Base64Url
