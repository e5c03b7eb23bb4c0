import BearerAuth.Json.Parser
import BearerAuth.Json.Printer
import Mathlib.Data.List.TakeWhile

/-!
# BearerAuth — strings and integers read back

Texts are written as characters and read as bytes, so everything is said about the UTF-8 bytes of
what is written (`utf8`). A string may hold any character: a character that is escaped reads as
itself, and the bytes of any other one are neither a quotation mark, nor a backslash, nor a control
character. An integer reads back if nothing after it could belong to a number (`EndsNumber`).

Main results:

* `readString_escape`  — a written string reads as itself.
* `readNumber_integer` — so does an integer.
-/

namespace BearerAuth

/-! ## Bytes of characters -/

/-- The bytes of characters. -/
def utf8 (cs : List Char) : Bytes := cs.flatMap String.utf8EncodeChar

@[simp] theorem utf8_nil : utf8 [] = [] := rfl

@[simp] theorem utf8_cons (c : Char) (cs : List Char) :
    utf8 (c :: cs) = String.utf8EncodeChar c ++ utf8 cs := rfl

@[simp] theorem utf8_append (cs ds : List Char) : utf8 (cs ++ ds) = utf8 cs ++ utf8 ds := by
  simp [utf8]

/-- A string is a list of characters, and its bytes are theirs. What follows is proved about
characters and brought back to strings by this lemma. -/
theorem Bytes.ofString_eq (s : String) : ofString s = utf8 s.toList := by
  have bytes : s.toByteArray = s.toList.utf8Encode := by
    rw [← String.toByteArray_ofList, String.ofList_toList]
  rw [ofString, String.toUTF8_eq_toByteArray, bytes]
  exact List.toList_data_toByteArray

/-- The bytes of a string are valid, and they decode to that string. -/
theorem Bytes.toString?_ofString (s : String) : toString? (ofString s) = some s := by
  have back : (⟨(ofString s).toArray⟩ : ByteArray) = s.toByteArray := by simp [ofString]
  rw [toString?, back, String.fromUTF8?, dif_pos s.isValidUTF8]
  rfl

/-- A character of ASCII is one byte. -/
theorem utf8EncodeChar_of_ascii {c : Char} (h : c.toNat < 128) :
    String.utf8EncodeChar c = [UInt8.ofNat c.toNat] := by
  have one : c.val.toNat ≤ 127 := by
    have same : c.val.toNat = c.toNat := rfl
    omega
  unfold String.utf8EncodeChar
  rw [if_pos one]
  rfl

/-- The bytes of any other character lie above those of ASCII. So none of them can be mistaken for a
quotation mark, a backslash or a control character. -/
theorem le_of_mem_utf8EncodeChar {c : Char} (h : 128 ≤ c.toNat) {b : UInt8}
    (hb : b ∈ String.utf8EncodeChar c) : 128 ≤ b.toNat := by
  -- each byte is a sum whose last part alone is large enough, and which does not overflow
  have large : ∀ n m : Nat, 128 ≤ m → n + m < 256 → 128 ≤ (UInt8.ofNat (n + m)).toNat := by
    intro n m hm hn
    rw [UInt8.toNat_ofNat', Nat.mod_eq_of_lt hn]
    omega
  have value : c.val.toNat = c.toNat := rfl
  revert hb
  fun_cases String.utf8EncodeChar c
  · -- one byte would be a character of ASCII
    omega
  all_goals
    simp only [List.mem_cons, List.not_mem_nil, or_false]
    intro hb
  · rcases hb with rfl | rfl
    all_goals exact large _ _ (by omega) (by omega)
  · rcases hb with rfl | rfl | rfl
    all_goals exact large _ _ (by omega) (by omega)
  · rcases hb with rfl | rfl | rfl | rfl
    all_goals exact large _ _ (by omega) (by omega)

theorem length_le_utf8 (cs : List Char) : cs.length ≤ (utf8 cs).length := by
  induction cs with
  | nil => rfl
  | cons c cs ih =>
    have one : 0 < (String.utf8EncodeChar c).length := by
      rw [String.length_utf8EncodeChar]
      exact c.utf8Size_pos
    rw [utf8_cons, List.length_append, List.length_cons]
    omega

namespace Json

/-! ## Strings -/

/-- A byte that stands for itself in a string. -/
def IsPlain (b : UInt8) : Prop := 32 ≤ b ∧ b ≠ 34 ∧ b ≠ 92

theorem readStringBytes_quote (t : Bytes) : readStringBytes (34 :: t) = some ([], t) := by
  rw [readStringBytes.eq_def]
  rfl

/-- A plain byte stands for itself in a string. -/
theorem readStringBytes_cons {b : UInt8} (h : IsPlain b) (t : Bytes) :
    readStringBytes (b :: t) = (readStringBytes t).map fun (r, rest) => (b :: r, rest) := by
  obtain ⟨control, quote, backslash⟩ := h
  rw [readStringBytes.eq_def]
  dsimp only
  rw [if_neg quote, if_neg backslash, if_neg (UInt8.not_lt.mpr control)]

/-- A backslash and a letter other than `u` stand for the byte that the letter names. -/
theorem readStringBytes_letter {e x : UInt8} (letter : e ≠ 117) (h : escapedByte? e = some x)
    (t : Bytes) :
    readStringBytes (92 :: e :: t) = (readStringBytes t).map fun (r, rest) => (x :: r, rest) := by
  rw [readStringBytes.eq_def]
  dsimp only
  rw [if_neg (by decide), if_pos rfl, if_neg letter, h]

/-- A backslash, the letter `u` and four digits stand for the code point with that number. Below the
surrogates one number is enough. -/
theorem readStringBytes_codePoint {p q r u : UInt8} {n : Nat} (h : hexWord? p q r u = some n)
    (low : n < 0xD800) (t : Bytes) :
    readStringBytes (92 :: 117 :: p :: q :: r :: u :: t) =
      (readStringBytes t).map fun (bs, rest) => (encodeCodePoint n ++ bs, rest) := by
  rw [readStringBytes.eq_def]
  dsimp only
  rw [if_neg (by decide), if_pos rfl, if_pos rfl, h]
  dsimp only
  rw [if_neg (by omega), if_neg (by omega)]

theorem readStringBytes_append {bs : Bytes} (h : ∀ b ∈ bs, IsPlain b) (t : Bytes) :
    readStringBytes (bs ++ t) = (readStringBytes t).map fun (r, rest) => (bs ++ r, rest) := by
  induction bs with
  | nil => simp
  | cons b bs ih =>
    have rest := ih fun b hb => h b (List.mem_cons_of_mem _ hb)
    rw [List.cons_append, readStringBytes_cons (h b List.mem_cons_self), rest, Option.map_map]
    rfl

/-- The bytes of a character that is not escaped are plain. These are the characters from the blank
on, but for the quotation mark and the backslash. -/
theorem isPlain_of_mem_utf8EncodeChar {c : Char} (control : 32 ≤ c.toNat) (quote : c ≠ '"')
    (backslash : c ≠ '\\') {b : UInt8} (hb : b ∈ String.utf8EncodeChar c) : IsPlain b := by
  have plain : 32 ≤ b.toNat ∧ b.toNat ≠ 34 ∧ b.toNat ≠ 92 := by
    by_cases ascii : c.toNat < 128
    · have quote' : c.toNat ≠ 34 := fun h => quote (Char.toNat_inj.mp h)
      have backslash' : c.toNat ≠ 92 := fun h => backslash (Char.toNat_inj.mp h)
      rw [utf8EncodeChar_of_ascii ascii, List.mem_singleton] at hb
      subst hb
      rw [UInt8.toNat_ofNat', Nat.mod_eq_of_lt (by omega)]
      exact ⟨control, quote', backslash'⟩
    · -- these bytes lie above all three
      have high := le_of_mem_utf8EncodeChar (by omega) hb
      omega
  exact ⟨UInt8.le_iff_toNat_le.mpr plain.1, fun h => plain.2.1 (h ▸ rfl),
    fun h => plain.2.2 (h ▸ rfl)⟩

/-- The four digits with which a control character is escaped have its number as their value. -/
theorem hexWord?_control : ∀ n < 32,
    hexWord? 48 48 (UInt8.ofNat (Bytes.hexDigit (n / 16)).toNat)
      (UInt8.ofNat (Bytes.hexDigit (n % 16)).toNat) = some n := by
  decide

/-- The bytes with which a control character is escaped. There are 32 of them, so they are gone
through. -/
theorem utf8_control : ∀ n < 32,
    utf8 ['\\', 'u', '0', '0', Bytes.hexDigit (n / 16), Bytes.hexDigit (n % 16)] =
      [92, 117, 48, 48, UInt8.ofNat (Bytes.hexDigit (n / 16)).toNat,
        UInt8.ofNat (Bytes.hexDigit (n % 16)).toNat] := by
  decide

/-- A character reads as itself, escaped or not. This is the step of `readStringBytes_escape`, with
one case for each branch of `escapeChar`. -/
theorem readStringBytes_escapeChar (c : Char) (t : Bytes) :
    readStringBytes (utf8 (escapeChar c) ++ t) =
      (readStringBytes t).map fun (r, rest) => (String.utf8EncodeChar c ++ r, rest) := by
  unfold escapeChar
  -- seven characters are escaped with a letter
  iterate 7
    split
    · next h =>
      subst h
      exact readStringBytes_letter (by decide) rfl t
  next quote backslash _ _ _ _ _ =>
  split
  · -- a control character is escaped with its number
    next control =>
    have digits := hexWord?_control c.toNat control
    rw [utf8_control c.toNat control]
    show readStringBytes (92 :: 117 :: 48 :: 48 :: _ :: _ :: t) = _
    rw [readStringBytes_codePoint digits (by omega), encodeCodePoint, Char.ofNat_toNat]
  · next control =>
    rw [utf8_cons, utf8_nil, List.append_nil]
    exact readStringBytes_append
      (fun b hb => isPlain_of_mem_utf8EncodeChar (by omega) quote backslash hb) t

/-- The escaped characters of a string, up to the quotation mark after them, read as the bytes of
the string. -/
theorem readStringBytes_escape (s : String) (t : Bytes) :
    readStringBytes (utf8 (escape s) ++ 34 :: t) = some (Bytes.ofString s, t) := by
  rw [Bytes.ofString_eq, escape]
  induction s.toList with
  | nil => exact readStringBytes_quote t
  | cons c cs ih =>
    rw [List.flatMap_cons, utf8_append, List.append_assoc, readStringBytes_escapeChar, ih]
    rfl

/-- A written string reads as itself, up to the quotation mark at its end. Any characters may be in
it, and anything may follow. -/
theorem readString_escape (s : String) (t : Bytes) :
    readString (utf8 (escape s) ++ 34 :: t) = some (s, t) := by
  rw [readString, readStringBytes_escape]
  simp [Bytes.toString?_ofString]

/-! ## Integers -/

/-- Nothing at the front of a text could belong to a number before it. -/
def EndsNumber (t : Bytes) : Prop :=
  ∀ b ∈ t.head?, isDigit b = false ∧ b ≠ 46 ∧ b ≠ 101 ∧ b ≠ 69

/-- The values of written digits. -/
def digitValues (n : Nat) : List Nat := (digits n).map fun c => c.toNat - 48

theorem isDigit_digits {n : Nat} {c : Char} (h : c ∈ digits n) : 48 ≤ c.toNat ∧ c.toNat ≤ 57 := by
  have digit : c.isDigit = true := Nat.isDigit_of_mem_toDigits (by decide) (by decide) h
  simpa [Char.isDigit, UInt32.le_iff_toNat_le] using digit

theorem utf8_digits (n : Nat) : utf8 (digits n) = (digits n).map fun c => UInt8.ofNat c.toNat := by
  have ascii : ∀ c ∈ digits n, c.toNat < 128 := by
    intro c hc
    have := isDigit_digits hc
    omega
  -- nothing else is needed of the digits
  generalize digits n = cs at ascii
  induction cs with
  | nil => rfl
  | cons c cs ih =>
    rw [utf8_cons, utf8EncodeChar_of_ascii (ascii c List.mem_cons_self),
      ih fun c hc => ascii c (List.mem_cons_of_mem _ hc)]
    rfl

theorem isDigit_of_mem_utf8_digits {n : Nat} {b : UInt8} (h : b ∈ utf8 (digits n)) :
    isDigit b = true := by
  rw [utf8_digits, List.mem_map] at h
  obtain ⟨c, hc, rfl⟩ := h
  have digit := isDigit_digits hc
  simp only [isDigit, Bool.and_eq_true, decide_eq_true_eq, UInt8.le_iff_toNat_le,
    UInt8.toNat_ofNat', UInt8.reduceToNat]
  omega

/-- A run of digits is cut off as a whole: all digits of the number belong to it, and nothing after
them does. -/
theorem spanDigits_digits (n : Nat) {t : Bytes} (ends : EndsNumber t) :
    spanDigits (utf8 (digits n) ++ t) = (digitValues n, t) := by
  have digit : ∀ b ∈ utf8 (digits n), isDigit b = true := fun _ => isDigit_of_mem_utf8_digits
  have stop : t.takeWhile isDigit = [] ∧ t.dropWhile isDigit = t := by
    cases t with
    | nil => exact ⟨rfl, rfl⟩
    | cons b t =>
      have hb : isDigit b = false := (ends b rfl).1
      simp [hb]
  unfold spanDigits digitValues
  rw [List.takeWhile_append_of_pos digit, List.dropWhile_append_of_pos digit, stop.1, stop.2,
    List.append_nil, utf8_digits, List.map_map]
  -- what is left is the value of each digit
  congr 1
  refine List.map_congr_left fun c hc => ?_
  have := isDigit_digits hc
  simp only [Function.comp_apply, UInt8.toNat_ofNat']
  omega

/-- The values of its digits add up to the number. -/
theorem foldl_digitValues (n : Nat) :
    (digitValues n).foldl (fun n d => 10 * n + d) 0 = n := by
  have value : (Nat.ofDigitChars 10 (digits n) 0) = n := Nat.ofDigitChars_ten_toDigits
  rw [Nat.ofDigitChars_eq_foldl] at value
  rw [digitValues, List.foldl_map]
  exact value

/-- Only zero is written with a zero in front. The reader refuses zeros in front of other digits,
and so it refuses nothing that was written. -/
theorem head?_digits {n : Nat} (h : 0 < n) : (digits n).head? ≠ some '0' := by
  induction n using Nat.strongRecOn with
  | ind n ih =>
    unfold digits
    by_cases small : n < 10
    · rw [Nat.toDigits_of_lt_base small]
      have all : ∀ i < 10, 0 < i → Nat.digitChar i ≠ '0' := by decide
      simpa using all n small h
    · -- the first digit is the one of the number without its last digit
      rw [Nat.toDigits_of_base_le (by decide) (by omega)]
      have leading := ih (n / 10) (by omega) (by omega)
      unfold digits at leading
      cases hd : Nat.toDigits 10 (n / 10) with
      | nil => exact absurd hd Nat.toDigits_ne_nil
      | cons c cs =>
        rw [hd] at leading
        exact leading

/-- The digits of a number are read as one whole part. The reader refuses a zero in front of other
digits, so it matters that no number is written with one: a first digit of zero is that of zero
itself, which has no other. -/
theorem readWhole_digits (n : Nat) {t : Bytes} (ends : EndsNumber t) :
    readWhole (utf8 (digits n) ++ t) = some (digitValues n, t) := by
  have nonempty : digitValues n ≠ [] := by simp [digitValues, digits]
  have read : readDigits (utf8 (digits n) ++ t) = some (digitValues n, t) := by
    unfold readDigits
    rw [spanDigits_digits n ends]
    cases h : digitValues n with
    | nil => exact absurd h nonempty
    | cons d ds => rfl
  have noLeadingZero : 1 < (digitValues n).length → (digitValues n).head? ≠ some 0 := by
    intro long h
    have positive : 0 < n := by
      by_contra zero
      obtain rfl : n = 0 := by omega
      exact absurd long (by decide)
    rw [digitValues, List.head?_map, Option.map_eq_some_iff] at h
    obtain ⟨c, hc, value⟩ := h
    -- no other digit has the value of a zero
    have digit := isDigit_digits (List.mem_of_head? hc)
    have isZero : c = '0' := by
      apply Char.toNat_inj.mp
      show c.toNat = 48
      omega
    exact head?_digits positive (isZero ▸ hc)
  unfold readWhole
  rw [read]
  simpa using noLeadingZero

/-- Digits are absorbed as long as the number that they make fits. For such numbers no digit is left
to be rounded away. -/
theorem absorb_eq {ds : List Nat} {n : Nat}
    (fits : ds.foldl (fun n d => 10 * n + d) n < UInt64.size) :
    absorb n ds = (ds.foldl (fun n d => 10 * n + d) n, []) := by
  -- a number that has been read so far is no larger than the whole
  have grows : ∀ (ds : List Nat) (n : Nat), n ≤ ds.foldl (fun n d => 10 * n + d) n := by
    intro ds
    induction ds with
    | nil => exact fun n => Nat.le_refl n
    | cons d ds ih =>
      intro n
      have := ih (10 * n + d)
      rw [List.foldl_cons]
      omega
  induction ds generalizing n with
  | nil => rfl
  | cons d ds ih =>
    rw [List.foldl_cons] at fits
    have small := grows ds (10 * n + d)
    rw [absorb, if_pos (by omega), ih fits, List.foldl_cons]

/-- A run of digits is a number without fraction and exponent. -/
theorem readUnsigned_digits (negative : Bool) (n : Nat) {t : Bytes} (ends : EndsNumber t) :
    readUnsigned negative (utf8 (digits n) ++ t) =
      some (⟨negative, digitValues n, none, none⟩, t) := by
  -- what comes next is neither a point nor the letter of an exponent
  have fraction : readFraction t = some (none, t) := by
    cases t with
    | nil => rfl
    | cons b t => rw [readFraction, if_neg (ends b rfl).2.1]
  have exponent : readExponent t = some (none, t) := by
    cases t with
    | nil => rfl
    | cons b t =>
      have letters : ¬ (b = 101 ∨ b = 69) := not_or.mpr (ends b rfl).2.2
      rw [readExponent.eq_def]
      exact if_neg letters
  unfold readUnsigned
  rw [readWhole_digits n ends]
  simp [fraction, exponent]

/-- Digits of a number that fits in 64 bits make an integer, with the sign that was read before
them. -/
theorem toNumber?_digits {negative : Bool} {n : Nat} (fits : n < UInt64.size) :
    NumberText.toNumber? ⟨negative, digitValues n, none, none⟩ = toInteger? negative n := by
  have value := foldl_digitValues n
  have absorbed : absorb 0 (digitValues n) = (n, []) := by
    rw [absorb_eq (by rw [value]; exact fits), value]
  unfold NumberText.toNumber?
  rw [absorbed]

/-- The first byte of written digits is a digit. -/
theorem exists_digits_cons (n : Nat) (t : Bytes) :
    ∃ b s, utf8 (digits n) ++ t = b :: s ∧ isDigit b = true := by
  cases h : utf8 (digits n) with
  | nil =>
    have empty : digits n = [] := by simpa [utf8_digits] using h
    exact absurd empty Nat.toDigits_ne_nil
  | cons b s => exact ⟨b, s ++ t, rfl, isDigit_of_mem_utf8_digits (h ▸ List.mem_cons_self)⟩

theorem numberText_read_digits (n : Nat) {t : Bytes} (ends : EndsNumber t) :
    NumberText.read (utf8 (digits n) ++ t) = some (⟨false, digitValues n, none, none⟩, t) := by
  obtain ⟨b, s, front, digit⟩ := exists_digits_cons n t
  have unsigned : b ≠ 45 := by
    rintro rfl
    exact absurd digit (by decide)
  have read := readUnsigned_digits false n ends
  rw [front] at read ⊢
  rw [NumberText.read, if_neg unsigned, read]

/-- A written integer reads as itself. Both signs go the same way: the magnitude is read from its
digits and fits, and with the sign it is the integer again. What comes behind must not continue the
number. -/
theorem readNumber_integer (i : Integer) {t : Bytes} (ends : EndsNumber t) :
    readNumber (utf8 (Number.integer i).chars ++ t) = some (.number (.integer i), t) := by
  obtain ⟨i, low, high⟩ := i
  -- without its sign an integer fits, on either side of zero
  have size : i.natAbs < UInt64.size := by
    unfold UInt64.size
    omega
  unfold Number.chars
  dsimp only
  split
  · next negative =>
    have value : toInteger? true i.natAbs = some (.integer ⟨i, low, high⟩) := by
      have magnitude : -(i.natAbs : Int) = i := by omega
      unfold toInteger?
      rw [if_pos rfl, dif_pos (by omega)]
      exact congrArg (fun j => some (Number.integer j)) (Subtype.ext magnitude)
    show readNumber (45 :: (utf8 (digits i.natAbs) ++ t)) = _
    unfold readNumber
    rw [NumberText.read, if_pos rfl, readUnsigned_digits true i.natAbs ends]
    simp [toNumber?_digits size, value]
  · next positive =>
    have value : toInteger? false i.natAbs = some (.integer ⟨i, low, high⟩) := by
      have magnitude : (i.natAbs : Int) = i := by omega
      unfold toInteger?
      rw [if_neg (by decide), dif_pos (by omega)]
      exact congrArg (fun j => some (Number.integer j)) (Subtype.ext magnitude)
    unfold readNumber
    rw [numberText_read_digits i.natAbs ends]
    simp [toNumber?_digits size, value]

end Json
end BearerAuth
