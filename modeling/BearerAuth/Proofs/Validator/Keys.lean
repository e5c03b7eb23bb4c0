import BearerAuth.Proofs.Token.Rules
import BearerAuth.Validator.Basic

/-!
# BearerAuth — which keys confirm a token

A key confirms a signature if it fits the algorithm, which means that its material is of the right
kind and nothing else was published about it, and if the signature belongs to the message. A
validator that tries keys in order accepts a token if and only if one of them confirms it: only a
wrong signature leads on to the next key, and keys that fit the algorithm can fail in no other way
that depends on the key.

Main results:

* `Key.verify_eq_ok_iff`        — when a key confirms a signature.
* `Decomposed.verify_eq_ok_iff` — when a token passes with a key.
* `tryKeys_eq_ok_iff`           — trying keys in order is as good as any one of them.
-/

namespace BearerAuth

variable {k : Key} {a : Algorithm} {c : Claims} {d : Decomposed} {now : UnixTime}

/-! ## A single key -/

/-- Signatures of an algorithm can be checked with the key. -/
structure Key.Fits (k : Key) (a : Algorithm) : Prop where
  material : k.material.canVerify a = true
  algorithm : ∀ b, k.algorithm = some b → b = a
  usage : ∀ u, k.usage = some u → u = .signing

/-- The check of a key as three conditions, one for the material and one for each field that may
have been published with it. A field that is missing demands nothing. -/
theorem Key.isCompatible_iff : k.isCompatible a = true ↔ k.Fits a := by
  unfold isCompatible Algorithm.usage
  simp only [Bool.and_eq_true, Option.all_eq_true, beq_iff_eq]
  constructor
  · rintro ⟨⟨material, algorithm⟩, usage⟩
    exact ⟨material, algorithm, usage⟩
  · rintro ⟨material, algorithm, usage⟩
    exact ⟨⟨material, algorithm⟩, usage⟩

/-- That no value differs from `x` is said in the code of an option by way of a negation; here it is
said of each value. -/
theorem any_ne_eq_false_iff [DecidableEq α] {o : Option α} {x : α} :
    (o.any (· != x)) = false ↔ ∀ y, o = some y → y = x := by
  cases o with
  | none => simp
  | some y => simp

/-- There is no conflict of use if whatever was published agrees with this use. Together with
material that fits this is what it means for a key to fit. -/
theorem Key.useConflict?_eq_none_iff :
    k.useConflict? a = none ↔
      (∀ b, k.algorithm = some b → b = a) ∧ ∀ u, k.usage = some u → u = .signing := by
  rw [← any_ne_eq_false_iff, ← any_ne_eq_false_iff]
  unfold useConflict?
  cases k.usage.any (· != .signing) with
  | true => simp
  | false => cases k.algorithm.any (· != a) <;> simp

/-- A key that fits the algorithm can only fail for a wrong signature. Its answer then depends on
nothing but whether the signature belongs to the message. -/
theorem Key.verify_of_fits (fits : k.Fits a) (message signature : Bytes) :
    k.verify a message signature =
      if k.material.accepts a message signature then .ok () else .error .signatureMismatch := by
  unfold verify
  rw [useConflict?_eq_none_iff.mpr ⟨fits.algorithm, fits.usage⟩]
  dsimp only
  rw [Material.verify_eq, if_pos fits.material]
  rfl

/-- A key that does not fit the algorithm is refused for that reason, which is not a wrong
signature: the signature has not been looked at. -/
theorem Key.verify_of_unfit (unfit : ¬ k.Fits a) (message signature : Bytes) :
    ∃ e, k.verify a message signature = .error e ∧ e ≠ .signatureMismatch := by
  unfold verify
  split
  · exact ⟨_, rfl, nofun⟩
  · exact ⟨_, rfl, nofun⟩
  · next free =>
    obtain ⟨algorithm, usage⟩ := useConflict?_eq_none_iff.mp free
    have material : ¬ k.material.canVerify a = true :=
      fun material => unfit ⟨material, algorithm, usage⟩
    rw [Material.verify_eq, if_neg material]
    exact ⟨_, rfl, nofun⟩

/-- A key confirms a signature if it fits the algorithm and the signature belongs to the message.
There is no other way to a success: neither the usage, nor a published algorithm, nor the material
may be in the way. -/
theorem Key.verify_eq_ok_iff {message signature : Bytes} :
    k.verify a message signature = .ok () ↔
      k.Fits a ∧ k.material.accepts a message signature = true := by
  constructor
  · intro h
    -- every conflict and every unfit material ends with an error of its own
    have fits : k.Fits a := by
      unfold verify at h
      split at h
      · cases h
      · cases h
      · next free =>
        obtain ⟨algorithm, usage⟩ := useConflict?_eq_none_iff.mp free
        by_cases material : k.material.canVerify a = true
        · exact ⟨material, algorithm, usage⟩
        · rw [Material.verify_eq, if_neg material] at h
          cases h
    refine ⟨fits, ?_⟩
    rw [verify_of_fits fits] at h
    split at h
    · assumption
    · cases h
  · rintro ⟨fits, accepts⟩
    rw [verify_of_fits fits, if_pos accepts]

/-- A key that fits the algorithm of a token can only fail for a wrong signature. So for such keys
there are two cases, and the search for a key can go by them. -/
theorem Decomposed.checkSignature_of_fits (ha : d.header.algorithm? = some a) (fits : k.Fits a) :
    d.checkSignature k =
      if k.material.accepts a (Bytes.ofString d.message) d.signature then .ok ()
      else .error (.rejectedByKey .signatureMismatch) := by
  unfold checkSignature Decomposed.algorithm
  rw [ha]
  show (k.verify a (Bytes.ofString d.message) d.signature).mapError TokenError.rejectedByKey = _
  rw [Key.verify_of_fits fits]
  split <;> rfl

/-- A token passes with a key if the key confirms its signature and its claims meet the rules. -/
theorem Decomposed.verify_eq_ok_iff {rules : ClaimRules} (ha : d.header.algorithm? = some a) :
    d.verify k rules now = .ok c ↔
      (k.Fits a ∧ k.material.accepts a (Bytes.ofString d.message) d.signature = true) ∧
        d.claims = .ok c ∧ rules.approves a = true ∧ rules.Meets c now := by
  unfold verify checkSignature checkedClaims Decomposed.algorithm
  simp only [ha, bind_eq_ok_iff, mapError_eq_ok_iff]
  constructor
  · rintro ⟨⟨⟩, ⟨_, hb, signature⟩, c', claims, ⟨⟩, check, hc⟩
    cases hb
    cases hc
    obtain ⟨⟨b, hb, approved⟩, meets⟩ := ClaimRules.check_eq_ok_iff.mp check
    -- the algorithm that is approved is the one of the header
    obtain rfl : a = b := Option.some.inj (ha.symm.trans hb)
    exact ⟨Key.verify_eq_ok_iff.mp signature, claims, approved, meets⟩
  · rintro ⟨signature, claims, approved, meets⟩
    exact ⟨(), ⟨a, rfl, Key.verify_eq_ok_iff.mpr signature⟩, c, claims, (),
      ClaimRules.check_eq_ok_iff.mpr ⟨⟨a, ha, approved⟩, meets⟩, rfl⟩

/-! ## Several keys -/

/-- The keys of a set that are tried are those that fit. The order in which they are tried is
another matter. -/
theorem KeySet.mem_compatible_iff {keys : KeySet} :
    k ∈ keys.compatible a ↔ k ∈ keys.keys ∧ k.Fits a := by
  unfold compatible
  rw [List.mem_mergeSort, List.mem_filter, Key.isCompatible_iff]

namespace Validator

variable {v : Validator}

/-- A key accepts a token if it confirms the signature, and all the rest is about the token alone.
So keys that confirm the same signature accept the same tokens. -/
theorem checkWith_eq_ok_iff (ha : d.header.algorithm? = some a) :
    v.checkWith d a k now = .ok c ↔
      (k.Fits a ∧ k.material.accepts a (Bytes.ofString d.message) d.signature = true) ∧
        d.claims = .ok c ∧ v.rules.approves a = true ∧ v.rules.Meets c now := by
  unfold checkWith
  rw [mapError_eq_ok_iff, Decomposed.verify_eq_ok_iff ha]

/-- A key that fits the algorithm but does not confirm the signature leads on to the next key. This
error, and no other, makes the search go on. -/
theorem checkWith_of_mismatch (ha : d.header.algorithm? = some a) (fits : k.Fits a)
    (h : ¬ k.material.accepts a (Bytes.ofString d.message) d.signature = true) :
    v.checkWith d a k now = .error .invalidSignature := by
  unfold checkWith Decomposed.verify
  rw [Decomposed.checkSignature_of_fits ha fits, if_neg h]
  rfl

/-- A key that does not fit the algorithm is reported as an algorithm that is not supported, whether
its material, its algorithm or its usage is at fault. The algorithm is named as in the header. -/
theorem checkWith_of_unfit (known : d.header.algorithm? = some a) (unfit : ¬ k.Fits a) :
    v.checkWith d a k now = .error (.unsupportedAlgorithm d.header.algorithmName) := by
  obtain ⟨e, refused, other⟩ := Key.verify_of_unfit unfit (Bytes.ofString d.message) d.signature
  have check : d.checkSignature k = .error (.rejectedByKey e) := by
    unfold Decomposed.checkSignature Decomposed.algorithm
    rw [known]
    show (k.verify a (Bytes.ofString d.message) d.signature).mapError TokenError.rejectedByKey = _
    rw [refused]
    rfl
  unfold checkWith Decomposed.verify
  rw [check, ← Algorithm.name_of_ofName? known]
  -- each of the errors of a key but the one for a wrong signature
  cases e with
  | signatureMismatch => exact absurd rfl other
  | incompatibleAlgorithm b => rfl
  | usageMismatch => rfl

/-- Once the signature is confirmed, the key plays no part any more: what remains are the claims. So
all keys that confirm it lead to one result. -/
theorem checkWith_of_accepts (known : d.header.algorithm? = some a) (fits : k.Fits a)
    (h : k.material.accepts a (Bytes.ofString d.message) d.signature = true) :
    v.checkWith d a k now = (d.checkedClaims v.rules now).mapError (.ofTokenError a) := by
  unfold checkWith Decomposed.verify
  rw [Decomposed.checkSignature_of_fits known fits, if_pos h]
  rfl

/-- Reading the claims and checking them never ends with a wrong signature. That error is what leads
on to the next key, so that it must not come from anywhere else. -/
theorem checkedClaims_ne_invalidSignature {rules : ClaimRules} :
    (d.checkedClaims rules now).mapError (ValidationError.ofTokenError a) ≠
      .error .invalidSignature := by
  unfold Decomposed.checkedClaims Decomposed.claims
  cases Base64Url.decode? d.payload with
  | none => nofun
  | some b =>
    cases hc : Claims.parse? b with
    | none =>
      -- a payload that cannot be read is a matter of format
      simp [inSection, hc, bind, Except.bind, mapError_error, ValidationError.ofTokenError]
    | some c =>
      cases hcheck : rules.check d.header c now with
      | error e =>
        -- a broken rule is a matter of claims
        simp [inSection, hc, hcheck, bind, Except.bind, mapError_error,
          ValidationError.ofTokenError]
      | ok u => simp [inSection, hc, hcheck, bind, Except.bind, mapError_ok, pure, Except.pure]

/-- A key that confirms the signature decides, whatever the claims are. Even if they are refused, no
other key is tried. -/
theorem checkWith_ne_invalidSignature (ha : d.header.algorithm? = some a) (fits : k.Fits a)
    (h : k.material.accepts a (Bytes.ofString d.message) d.signature = true) :
    v.checkWith d a k now ≠ .error .invalidSignature := by
  unfold checkWith Decomposed.verify
  rw [Decomposed.checkSignature_of_fits ha fits, if_pos h]
  exact checkedClaims_ne_invalidSignature

/-- Keys that fit the algorithm are as good together as any one of them. By induction on the keys:
each one decides or leads on to the next. -/
theorem tryKeys_eq_ok_iff (ha : d.header.algorithm? = some a) {keys : List Key}
    (fits : ∀ k ∈ keys, k.Fits a) (tried : Bool) :
    v.tryKeys d a now tried keys = .ok c ↔ ∃ k ∈ keys, v.checkWith d a k now = .ok c := by
  induction keys generalizing tried with
  | nil => simp [tryKeys]
  | cons k rest ih =>
    have fits_k : k.Fits a := fits k List.mem_cons_self
    have fits_rest : ∀ k ∈ rest, k.Fits a := fun k hk => fits k (List.mem_cons_of_mem _ hk)
    unfold tryKeys
    by_cases accepts : k.material.accepts a (Bytes.ofString d.message) d.signature = true
    · -- the outcome is decided by this key, and what it says of the claims any key says
      have same : (∃ l ∈ k :: rest, v.checkWith d a l now = .ok c) ↔
          v.checkWith d a k now = .ok c := by
        constructor
        · rintro ⟨l, -, hl⟩
          obtain ⟨-, claims⟩ := (checkWith_eq_ok_iff ha).mp hl
          exact (checkWith_eq_ok_iff ha).mpr ⟨⟨fits_k, accepts⟩, claims⟩
        · intro hk
          exact ⟨k, List.mem_cons_self, hk⟩
      rw [same]
      have decides : v.checkWith d a k now ≠ .error .invalidSignature :=
        checkWith_ne_invalidSignature ha fits_k accepts
      split
      · next wrong => exact absurd wrong decides
      · rfl
    · -- this key leads on to the next one, and does not accept the token itself
      have mismatch : v.checkWith d a k now = .error .invalidSignature :=
        checkWith_of_mismatch ha fits_k accepts
      rw [mismatch]
      dsimp only
      rw [ih fits_rest]
      constructor
      · rintro ⟨l, hl, hok⟩
        exact ⟨l, List.mem_cons_of_mem k hl, hok⟩
      · rintro ⟨l, hl, hok⟩
        rcases List.mem_cons.mp hl with rfl | hl
        · rw [mismatch] at hok
          cases hok
        · exact ⟨l, hl, hok⟩

/-- If a key confirms the signature, it does not matter which one does. Those before it are passed
over, and with it the token is judged by its claims. -/
theorem tryKeys_of_accepts (known : d.header.algorithm? = some a) {keys : List Key}
    (fits : ∀ k ∈ keys, k.Fits a)
    (h : ∃ k ∈ keys, k.material.accepts a (Bytes.ofString d.message) d.signature = true)
    (tried : Bool) :
    v.tryKeys d a now tried keys = (d.checkedClaims v.rules now).mapError (.ofTokenError a) := by
  induction keys generalizing tried with
  | nil =>
    obtain ⟨k, hk, -⟩ := h
    cases hk
  | cons k rest ih =>
    have fits_k : k.Fits a := fits k List.mem_cons_self
    unfold tryKeys
    by_cases accepts : k.material.accepts a (Bytes.ofString d.message) d.signature = true
    · -- this key ends the search
      have decides : v.checkWith d a k now ≠ .error .invalidSignature :=
        checkWith_ne_invalidSignature known fits_k accepts
      split
      · next wrong => exact absurd wrong decides
      · exact checkWith_of_accepts known fits_k accepts
    · -- this one does not, and the key that confirms is among the rest
      rw [checkWith_of_mismatch known fits_k accepts]
      obtain ⟨l, hl, hacc⟩ := h
      have hrest : l ∈ rest := by
        rcases List.mem_cons.mp hl with rfl | hl
        · exact absurd hacc accepts
        · exact hl
      exact ih (fun k hk => fits k (List.mem_cons_of_mem _ hk)) ⟨l, hrest, hacc⟩ true

/-- If no key confirms the signature, it only matters whether any key was tried: the signature is
wrong if there was one, and the key is unknown otherwise. -/
theorem tryKeys_of_unconfirmed (known : d.header.algorithm? = some a) {keys : List Key}
    (fits : ∀ k ∈ keys, k.Fits a)
    (h : ∀ k ∈ keys, ¬ k.material.accepts a (Bytes.ofString d.message) d.signature = true)
    (tried : Bool) :
    v.tryKeys d a now tried keys =
      .error (if tried || !keys.isEmpty then .invalidSignature else .unknownKey none) := by
  induction keys generalizing tried with
  | nil => simp [tryKeys]
  | cons k rest ih =>
    unfold tryKeys
    rw [checkWith_of_mismatch known (fits k List.mem_cons_self) (h k List.mem_cons_self)]
    -- from the first key on some key has been tried
    have next := ih (fun k hk => fits k (List.mem_cons_of_mem _ hk))
      (fun k hk => h k (List.mem_cons_of_mem _ hk)) true
    simpa using next

end Validator
end BearerAuth
