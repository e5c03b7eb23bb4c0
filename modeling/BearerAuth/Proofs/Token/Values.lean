import BearerAuth.Proofs.Token.Rules
import Mathlib.Algebra.Order.Floor.Semifield
import Mathlib.Data.Rat.Floor

/-!
# BearerAuth — what the value of a claim stands for

The registered claims are read from JSON values. A time is a number that is not negative; its
fraction does not count, and what lies beyond the last instant is the last instant. The number is
the exact one that an integer or a double is, so that no rounding is hidden in the reading. An
issuer is a string. The audiences are one string or an array of strings. A value of any other kind
is a fault of its own, and only a claim that is not there is missing.

Main results:

* `floor_value_eq`                             — the integer part of a double.
* `asTime?_eq_some_iff`, `ofJson?_eq_some_iff` — which values are times, and which are audiences.
* `timeAt_eq`, `stringAt_eq`, `audience_eq`    — the readers of claims, by the value that is there.
-/

namespace BearerAuth

/-! ## Numbers -/

namespace Double

/-- The number that a double is. -/
def value (d : Double) : ℚ := (if d.negative then -1 else 1) * (d.mantissa * 2 ^ d.exponent)

/-- The quotient by which a double is computed with is the number that it is, whichever sign its
exponent has. -/
theorem ratio_eq (d : Double) : (d.ratio.1 : ℚ) / d.ratio.2 = d.mantissa * 2 ^ d.exponent := by
  unfold ratio
  split
  next whole =>
    -- the exponent is shifted into the numerator
    obtain ⟨k, hk⟩ := Int.eq_ofNat_of_zero_le whole
    rw [hk, Int.toNat_natCast, Nat.shiftLeft_eq, zpow_natCast]
    push_cast
    ring
  next fraction =>
    -- the exponent is shifted into the denominator
    obtain ⟨k, hk⟩ := Int.eq_ofNat_of_zero_le (show 0 ≤ -d.exponent by omega)
    rw [show d.exponent = -(k : ℤ) by omega, Int.neg_neg, Int.toNat_natCast, Nat.shiftLeft_eq,
      zpow_neg, zpow_natCast]
    push_cast
    ring

/-- A double is zero if its mantissa is. In all binades but the lowest one the leading bit is
understood, and so the mantissa is not zero there. -/
theorem mantissa_eq_zero_iff (d : Double) : d.mantissa = 0 ↔ d.isZero = true := by
  -- above the lowest binade a mantissa has its leading bit
  have binade : 0 < perBinade := by decide
  unfold mantissa isZero
  rw [beq_iff_eq]
  split <;> omega

/-- A double is negative if it has the sign and is not zero. Zero with a sign is not negative, and
so it is a time. -/
theorem value_nonneg_iff (d : Double) : 0 ≤ d.value ↔ ¬ (d.negative = true ∧ d.isZero = false) := by
  have power : (0 : ℚ) < 2 ^ d.exponent := zpow_pos (by norm_num) _
  unfold value
  cases d.negative with
  | false => simpa using mul_nonneg (Nat.cast_nonneg d.mantissa) power.le
  | true =>
    rw [← Bool.not_eq_true, ← mantissa_eq_zero_iff]
    simp only [if_true, true_and, not_not, neg_one_mul, Left.nonneg_neg_iff]
    constructor
    · intro small
      -- a mantissa that is not zero would make the number negative
      by_contra positive
      have : (0 : ℚ) < d.mantissa := Nat.cast_pos.mpr (Nat.pos_of_ne_zero positive)
      exact absurd small (not_le.mpr (mul_pos this power))
    · intro zero
      rw [zero, Nat.cast_zero, zero_mul]

/-- The integer part of a double, computed with natural numbers, is that of the number it is. No
rounding takes place. -/
theorem floor_value_eq {d : Double} (h : 0 ≤ d.value) : ⌊d.value⌋₊ = d.truncate := by
  have magnitude : ⌊(d.mantissa : ℚ) * 2 ^ d.exponent⌋₊ = d.truncate := by
    rw [← ratio_eq, Nat.floor_div_eq_div]
    rfl
  -- what is left is the sign
  rw [← magnitude]
  unfold value
  cases hn : d.negative with
  | false => simp
  | true =>
    -- only zero has the sign without being negative
    have zero : d.mantissa = 0 := by
      rw [mantissa_eq_zero_iff]
      by_contra h'
      exact (value_nonneg_iff d).mp h ⟨hn, by simpa using h'⟩
    simp [zero]

end Double

/-- The number that a number of a document is. -/
def Json.Number.value : Json.Number → ℚ
  | .integer i => i.1
  | .double d => d.value

/-! ## Times -/

namespace Claims

open ClaimRules (lastSecond)

variable {c : Claims} {claim : RegisteredClaim} {v : Json} {e : ClaimRejection}

/-- A value stands for a time, in seconds: a number that is not negative, without its fraction, or
the last second, if it lies beyond. -/
inductive IsTime : Json → Nat → Prop
  | number {n : Json.Number} (nonneg : 0 ≤ n.value) :
      IsTime (.number n) (min ⌊n.value⌋₊ lastSecond)

/-- A number that is not negative is the time of its integer part, whether it was written as an
integer or as a double. -/
theorem timeOf?_of_nonneg {n : Json.Number} (h : 0 ≤ n.value) :
    timeOf? n = some (.ofNat ⌊n.value⌋₊) := by
  cases n with
  | integer i =>
    have nonneg : 0 ≤ i.1 := Int.cast_nonneg_iff.mp h
    have floor : ⌊(i.1 : ℚ)⌋₊ = i.1.toNat := by
      rw [← Int.toNat_of_nonneg nonneg, Int.cast_natCast, Nat.floor_natCast, Int.toNat_natCast]
    show (if 0 ≤ i.1 then some (UnixTime.ofNat i.1.toNat) else none) = _
    rw [if_pos nonneg]
    exact congrArg (fun n => some (UnixTime.ofNat n)) floor.symm
  | double d =>
    have sign := (Double.value_nonneg_iff d).mp h
    -- the reader looks at the sign and at zero, which is to look whether the number is negative
    show (if (d.negative && !d.isZero) = true then none else some (UnixTime.ofNat d.truncate)) = _
    rw [if_neg (by simpa using sign)]
    exact congrArg (fun n => some (UnixTime.ofNat n)) (Double.floor_value_eq h).symm

/-- A negative number is no time. It is not taken for its magnitude and not cut off at zero, so that
a claim with such a number is malformed. -/
theorem timeOf?_of_neg {n : Json.Number} (h : n.value < 0) : timeOf? n = none := by
  cases n with
  | integer i =>
    have negative : ¬ 0 ≤ i.1 := not_le.mpr (Int.cast_lt_zero.mp h)
    exact if_neg negative
  | double d =>
    have sign := mt (Double.value_nonneg_iff d).mpr (not_le.mpr h)
    exact if_pos (by simpa using sign)

/-- The time that a value stands for. -/
def asTime? : Json → Option UnixTime
  | .number n => timeOf? n
  | _ => none

theorem asTime?_of_isTime {k : Nat} (time : IsTime v k) :
    ∃ t, asTime? v = some t ∧ t.seconds.toNat = k := by
  obtain ⟨nonneg⟩ := time
  exact ⟨_, timeOf?_of_nonneg nonneg, UnixTime.toNat_ofNat _⟩

theorem asTime?_eq_none_iff : asTime? v = none ↔ ∀ k, ¬ IsTime v k := by
  constructor
  · intro none_ k time
    obtain ⟨t, some_, -⟩ := asTime?_of_isTime time
    rw [none_] at some_
    cases some_
  · intro other
    cases v with
    | number n => exact timeOf?_of_neg (not_le.mp fun nonneg => other _ (.number nonneg))
    | null | bool _ | string _ | array _ | object _ => rfl

/-- What a value reads as is the time that it stands for. With the lemma before, the reader and
`IsTime` agree on every value. -/
theorem asTime?_eq_some_iff {t : UnixTime} : asTime? v = some t ↔ IsTime v t.seconds.toNat := by
  constructor
  · intro some_
    by_contra other
    -- whatever else it stood for, the reader would say so
    have none_ : asTime? v = none := by
      refine asTime?_eq_none_iff.mpr fun k time => ?_
      obtain ⟨t', same, rfl⟩ := asTime?_of_isTime time
      obtain rfl := Option.some.inj (some_.symm.trans same)
      exact other time
    rw [none_] at some_
    cases some_
  · intro time
    obtain ⟨⟨seconds⟩, some_, same⟩ := asTime?_of_isTime time
    rw [some_]
    exact congrArg (fun s => some (UnixTime.mk s)) (UInt64.toNat_inj.mp same)

/-! ## Audiences -/

/-- A value names audiences: one by itself, or any number of them in an array. -/
inductive Names : Json → List String → Prop
  | one (a : String) : Names (.string a) [a]
  | many (l : List String) : Names (.array (l.map .string)) l

/-- An array reads as strings if all its items are strings, in the same order. -/
theorem mapM_asString?_eq_some_iff {items : List Json} {l : List String} :
    items.mapM Json.asString? = some l ↔ items = l.map .string := by
  induction items generalizing l with
  | nil => cases l <;> simp
  | cons v rest ih =>
    rw [List.mapM_cons]
    simp only [Option.bind_eq_bind, Option.bind_eq_some_iff, Option.pure_def, Option.some.injEq, ih]
    constructor
    · -- an item that is viewed as a text is that text
      rintro ⟨a, text, l', rfl, rfl⟩
      cases v <;> cases text
      rfl
    · intro h
      cases l with
      | nil => cases h
      | cons a l =>
        obtain ⟨rfl, rfl⟩ := List.cons.inj h
        exact ⟨a, rfl, l, rfl, rfl⟩

/-- A value reads as the audiences that it names: a text names one, and an array of texts names its
items. No other value names any. -/
theorem ofJson?_eq_some_iff {a : Audiences} : Audiences.ofJson? v = some a ↔ Names v a.list := by
  constructor
  · intro read
    unfold Audiences.ofJson? at read
    split at read
    next s =>
      cases read
      exact .one s
    next items =>
      obtain ⟨l, texts, rfl⟩ := Option.map_eq_some_iff.mp read
      rw [mapM_asString?_eq_some_iff.mp texts]
      exact .many l
    next => cases read
  · intro names
    obtain ⟨l⟩ := a
    -- the list is made a variable, to tell the two ways in which it may be written
    generalize named : (⟨l⟩ : Audiences).list = l' at names
    cases named
    cases names with
    | one a => rfl
    | many =>
      show ((l.map Json.string).mapM Json.asString?).map Audiences.mk = some ⟨l⟩
      rw [mapM_asString?_eq_some_iff.mpr rfl]
      rfl

/-- A value that names no audiences reads as none, such as a number or an array with a number in
it. -/
theorem ofJson?_eq_none_iff : Audiences.ofJson? v = none ↔ ∀ l, ¬ Names v l := by
  rw [Option.eq_none_iff_forall_ne_some]
  constructor
  · intro none_ l names
    exact none_ ⟨l⟩ (ofJson?_eq_some_iff.mpr names)
  · intro other a read
    exact other a.list (ofJson?_eq_some_iff.mp read)

/-! ## Claims -/

/-- Reads the value of a claim, if it is there. -/
def readValue (read : Json → Option α) (claim : RegisteredClaim) :
    Option Json → Except ClaimRejection (Option α)
  | none => .ok none
  | some v =>
    match read v with
    | some a => .ok (some a)
    | none => .error (.malformed claim)

section Read

variable {read : Json → Option α} {o : Option Json}

theorem readValue_eq_none_iff : readValue read claim o = .ok none ↔ o = none := by
  unfold readValue
  grind

/-- A claim is what the reader makes of its value. -/
theorem readValue_eq_some_iff {a : α} :
    readValue read claim o = .ok (some a) ↔ ∃ v, o = some v ∧ read v = some a := by
  unfold readValue
  grind

/-- A claim is malformed if it is there and the reader makes nothing of its value. A null counts as
a value. -/
theorem readValue_eq_malformed_iff :
    readValue read claim o = .error (.malformed claim) ↔ ∃ v, o = some v ∧ read v = none := by
  unfold readValue
  grind

end Read

/-- The reader of times, by the value that is there under the name. Which claim it is shows in the
error and nowhere else. -/
theorem timeAt_eq (c : Claims) (claim : RegisteredClaim) :
    c.timeAt claim = readValue asTime? claim (c.find? claim.name) := by
  unfold timeAt readValue
  cases c.find? claim.name with
  | none => rfl
  | some v =>
    cases v with
    | number n =>
      dsimp only [asTime?]
      cases timeOf? n <;> rfl
    | null | bool _ | string _ | array _ | object _ => rfl

theorem stringAt_eq (c : Claims) (claim : RegisteredClaim) :
    c.stringAt claim = readValue Json.asString? claim (c.find? claim.name) := by
  unfold stringAt readValue
  cases c.find? claim.name with
  | none => rfl
  | some v => cases v <;> rfl

theorem timeAt_eq_none_iff : c.timeAt claim = .ok none ↔ c.find? claim.name = none := by
  rw [timeAt_eq, readValue_eq_none_iff]

theorem timeAt_eq_some_iff {t : UnixTime} :
    c.timeAt claim = .ok (some t) ↔
      ∃ v, c.find? claim.name = some v ∧ IsTime v t.seconds.toNat := by
  simp only [timeAt_eq, readValue_eq_some_iff, asTime?_eq_some_iff]

theorem timeAt_eq_malformed_iff :
    c.timeAt claim = .error (.malformed claim) ↔
      ∃ v, c.find? claim.name = some v ∧ ∀ t, ¬ IsTime v t := by
  simp only [timeAt_eq, readValue_eq_malformed_iff, asTime?_eq_none_iff]

theorem stringAt_eq_none_iff : c.stringAt claim = .ok none ↔ c.find? claim.name = none := by
  rw [stringAt_eq, readValue_eq_none_iff]

theorem stringAt_eq_some_iff {s : String} :
    c.stringAt claim = .ok (some s) ↔ c.find? claim.name = some (.string s) := by
  simp only [stringAt_eq, readValue_eq_some_iff, Json.asString?_eq_some_iff,
    exists_eq_right]

theorem stringAt_eq_malformed_iff :
    c.stringAt claim = .error (.malformed claim) ↔
      ∃ v, c.find? claim.name = some v ∧ ∀ s, v ≠ .string s := by
  simp only [stringAt_eq, readValue_eq_malformed_iff, Json.asString?_eq_none_iff]

/-- The reader of audiences, in the same way. It has no answer of its own for a claim that is
missing, and takes it for an empty list. -/
theorem audience_eq (c : Claims) :
    c.audience = (readValue Audiences.ofJson? .audience (c.find? "aud")).map (·.getD .empty) := by
  unfold audience readValue
  rw [show RegisteredClaim.audience.name = "aud" from rfl]
  cases c.find? "aud" with
  | none => rfl
  | some v =>
    dsimp only
    cases Audiences.ofJson? v <;> rfl

/-- A claim that is not there names nobody, as an empty array does. The two cannot be told apart by
the audiences that are read. -/
theorem audience_eq_ok_iff {a : Audiences} :
    c.audience = .ok a ↔ (c.find? "aud" = none ∧ a.list = []) ∨
      ∃ v, c.find? "aud" = some v ∧ Names v a.list := by
  -- audiences are their list
  have nobody : .empty = a ↔ a.list = [] := by
    obtain ⟨l⟩ := a
    rw [Audiences.empty, Audiences.mk.injEq, eq_comm]
  rw [audience_eq, map_eq_ok_iff]
  constructor
  · rintro ⟨_ | a, read, rfl⟩
    · exact .inl ⟨readValue_eq_none_iff.mp read, rfl⟩
    · obtain ⟨v, found, value⟩ := readValue_eq_some_iff.mp read
      exact .inr ⟨v, found, ofJson?_eq_some_iff.mp value⟩
  · rintro (⟨missing, empty⟩ | ⟨v, found, names⟩)
    · exact ⟨none, readValue_eq_none_iff.mpr missing, nobody.mpr empty⟩
    · exact ⟨some a, readValue_eq_some_iff.mpr ⟨v, found, ofJson?_eq_some_iff.mpr names⟩, rfl⟩

/-- The audiences are malformed if the value of their claim names none. -/
theorem audience_eq_malformed_iff :
    c.audience = .error (.malformed .audience) ↔
      ∃ v, c.find? "aud" = some v ∧ ∀ l, ¬ Names v l := by
  rw [audience_eq, map_eq_error_iff]
  simp only [readValue_eq_malformed_iff, ofJson?_eq_none_iff]

end Claims
end BearerAuth
