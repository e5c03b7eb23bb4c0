import BearerAuth.Proofs.Token.Faults
import BearerAuth.Proofs.Validator.Keys

/-!
# BearerAuth — what a key can do, and what it says it can

A key advertises what it can do: whether it can check signatures of an algorithm, and whether it can
sign. What it does when it is asked is decided elsewhere, once from what is published about the key
and once from its material. Here the two are shown to agree, for every key and every algorithm.

Material of each kind has one scheme for each algorithm that belongs to it (`Material.Runs`), and no
other is ever run. So a public key cannot be passed off as a shared secret, nor a shared secret as a
public key: the scheme, the material and the algorithm are of one family. With a secret there is one
signature for each message, as long as a digest, and nothing shorter or longer passes for it.

Main results:

* `Material.Runs.family`   — scheme, material and algorithm are of one family.
* `Key.verify_of_compatible` — a key that says so checks signatures with a scheme of its own.
* `Key.sign_follows`       — why a key does not sign, in the order of the reasons.
* `capability_exact`       — a key does what it says.
-/

namespace BearerAuth

variable {k : Key} {a : Algorithm} {m : Material} {message signature : Bytes}

/-! ## The length of a code -/

theorem Bytes.length_ofNat (len n : Nat) : (ofNat len n).length = len := by
  induction len generalizing n with
  | zero => rfl
  | succ len ih => simp [ofNat, ih]

/-- A hash is made of eight words, whatever was hashed and whatever it began with. -/
theorem Sha2.Variant.length_hash {W : Type} [Add W] [AndOp W] [XorOp W] [Complement W]
    (v : Variant W) (initial : State W) (message : Bytes) :
    (v.hash initial message).length = 8 * v.wordLength := by
  simp only [hash, bytes, List.length_flatMap, Bytes.length_ofNat, List.map_cons, List.map_nil,
    List.sum_cons, List.sum_nil]
  omega

/-- A digest has its length, for every message. The middle one is cut off from a longer hash. -/
theorem Digest.length_hash (d : Digest) (message : Bytes) : (d.hash message).length = d.length := by
  cases d with
  | sha256 => exact Sha256.variant.length_hash _ message
  | sha384 =>
    -- the longer digest from other initial values, cut off
    have whole : (Sha512.variant.hash Sha512.initial384 message).length = 64 :=
      Sha512.variant.length_hash _ message
    show ((Sha512.variant.hash Sha512.initial384 message).take 48).length = 48
    rw [List.length_take, whole]
    rfl
  | sha512 => exact Sha512.variant.length_hash _ message

/-- A code is as long as a digest, whatever the key and the message are. -/
theorem Digest.length_hmac (d : Digest) (key message : Bytes) :
    (d.hmac key message).length = d.length :=
  d.length_hash _

/-! ## Schemes -/

/-- A way to check signatures, with the key that it takes. -/
inductive Scheme where
  | rsa (encoding : Rsa.Encoding) (digest : Digest) (key : RsaKey)
  | ecdsa (key : CurveKey)
  | hmac (digest : Digest) (secret : Bytes)

namespace Scheme

def family : Scheme → Family
  | .rsa _ _ _ => .rsa
  | .ecdsa _ => .ellipticCurve
  | .hmac _ _ => .hmac

/-- Whether a signature belongs to a message. -/
def confirms : Scheme → Bytes → Bytes → Bool
  | .rsa encoding d k, message, signature =>
    Rsa.verify encoding d k.modulus k.exponent message signature
  | .ecdsa k, message, signature => k.curve.verify k.x k.y message signature
  | .hmac d secret, message, signature => signature == d.hmac secret message

end Scheme

namespace Material

/-- The kind of algorithms that the material is for. -/
def family : Material → Family
  | .rsa _ => .rsa
  | .curve _ => .ellipticCurve
  | .secret _ => .hmac

/-- The scheme that the material runs for an algorithm. -/
inductive Runs : Material → Algorithm → Scheme → Prop
  | rsa {k : RsaKey} {a : Algorithm} {encoding : Rsa.Encoding}
      (encodes : a.rsaEncoding? = some encoding) : Runs (.rsa k) a (.rsa encoding a.digest k)
  | curve (k : CurveKey) : Runs (.curve k) k.curve.algorithm (.ecdsa k)
  | secret {s : Bytes} {a : Algorithm} (symmetric : a.isSymmetric = true) :
      Runs (.secret s) a (.hmac a.digest s)

variable {s : Scheme}

/-- An algorithm has an encoding for RSA exactly if it is of that family. -/
theorem exists_rsaEncoding_iff : (∃ e, a.rsaEncoding? = some e) ↔ a.family = .rsa := by
  cases a <;> simp [Algorithm.rsaEncoding?, Algorithm.family]

/-- No scheme is run with material or for an algorithm of another family. -/
theorem Runs.family (h : m.Runs a s) : s.family = m.family ∧ a.family = m.family := by
  cases h with
  | rsa encodes => exact ⟨rfl, exists_rsaEncoding_iff.mp ⟨_, encodes⟩⟩
  | curve k =>
    refine ⟨rfl, ?_⟩
    show k.curve.algorithm.family = .ellipticCurve
    cases k.curve <;> rfl
  | secret symmetric => exact ⟨rfl, beq_iff_eq.mp symmetric⟩

/-- The algorithms that material says it can check are those that it has a scheme for. What material
says comes from the parameters of its family, and what it runs from the properties of the algorithm;
the lemmas about the tables bring the two together. -/
theorem canVerify_iff : m.canVerify a = true ↔ ∃ s, m.Runs a s := by
  cases m with
  | rsa k =>
    -- the family has parameters for its own algorithms
    show a.rsaParameters?.isSome = true ↔ _
    rw [Algorithm.isSome_rsaParameters?, beq_iff_eq, ← exists_rsaEncoding_iff]
    constructor
    · rintro ⟨e, encodes⟩
      exact ⟨_, .rsa encodes⟩
    · rintro ⟨_, ⟨encodes⟩⟩
      exact ⟨_, encodes⟩
  | curve k =>
    show (k.curve.algorithm == a) = true ↔ _
    rw [beq_iff_eq]
    constructor
    · rintro rfl
      exact ⟨_, .curve k⟩
    · rintro ⟨_, ⟨⟩⟩
      rfl
  | secret secret =>
    show a.isSymmetric = true ↔ _
    constructor
    · intro symmetric
      exact ⟨_, .secret symmetric⟩
    · rintro ⟨_, runs⟩
      cases runs with
      | secret symmetric => exact symmetric

/-- Material accepts what its scheme confirms. -/
theorem Runs.accepts (h : m.Runs a s) (message signature : Bytes) :
    m.accepts a message signature = s.confirms message signature := by
  cases h with
  | rsa encodes => simp [Material.accepts, Scheme.confirms, encodes]
  | curve k => simp [Material.accepts, Scheme.confirms]
  | secret symmetric => simp [Material.accepts, Scheme.confirms, symmetric]

end Material

namespace Key

/-! ## Checking signatures -/

/-- The key is published for something other than signatures. -/
def OtherUse (k : Key) : Prop := ∃ u, k.usage = some u ∧ u ≠ .signing

/-- The key is published for another algorithm. -/
def OtherAlgorithm (k : Key) (a : Algorithm) : Prop := ∃ b, k.algorithm = some b ∧ b ≠ a

theorem not_otherUse_iff : ¬ k.OtherUse ↔ ∀ u, k.usage = some u → u = .signing := by
  simp [OtherUse]

theorem not_otherAlgorithm_iff : ¬ k.OtherAlgorithm a ↔ ∀ b, k.algorithm = some b → b = a := by
  simp [OtherAlgorithm]

/-- The conflicts in their order: the usage comes before the algorithm. A key may have both, and
then the first is the one that is reported. -/
theorem useConflict?_cases (k : Key) (a : Algorithm) :
    (k.OtherUse ∧ k.useConflict? a = some .usage) ∨
      (¬ k.OtherUse ∧ k.OtherAlgorithm a ∧ k.useConflict? a = some .algorithm) ∨
      (¬ k.OtherUse ∧ ¬ k.OtherAlgorithm a ∧ k.useConflict? a = none) := by
  -- the two tests, as what they say about the key
  have usage : (k.usage.any (· != .signing)) = false ↔ ¬ k.OtherUse := by
    rw [any_ne_eq_false_iff, not_otherUse_iff]
  have algorithm : (k.algorithm.any (· != a)) = false ↔ ¬ k.OtherAlgorithm a := by
    rw [any_ne_eq_false_iff, not_otherAlgorithm_iff]
  unfold useConflict?
  by_cases use : k.OtherUse
  · have found : k.usage.any (· != .signing) = true := by
      rw [← Bool.not_eq_false, usage]
      exact not_not_intro use
    exact .inl ⟨use, if_pos found⟩
  · rw [usage.mpr use]
    by_cases other : k.OtherAlgorithm a
    · have found : k.algorithm.any (· != a) = true := by
        rw [← Bool.not_eq_false, algorithm]
        exact not_not_intro other
      exact .inr (.inl ⟨use, other, by rw [found]; rfl⟩)
    · rw [algorithm.mpr other]
      exact .inr (.inr ⟨use, other, rfl⟩)

theorem fits_iff :
    k.Fits a ↔ k.material.canVerify a = true ∧ ¬ k.OtherUse ∧ ¬ k.OtherAlgorithm a := by
  rw [not_otherUse_iff, not_otherAlgorithm_iff]
  constructor
  · rintro ⟨material, algorithm, usage⟩
    exact ⟨material, usage, algorithm⟩
  · rintro ⟨material, usage, algorithm⟩
    exact ⟨material, algorithm, usage⟩

/-- A key that says that it can check signatures runs a scheme of its own. -/
theorem verify_of_compatible (compatible : k.isCompatible a = true) :
    ∃ s, k.material.Runs a s ∧ ∀ message signature, k.verify a message signature =
      if s.confirms message signature then .ok () else .error .signatureMismatch := by
  have fits : k.Fits a := isCompatible_iff.mp compatible
  obtain ⟨s, runs⟩ := Material.canVerify_iff.mp fits.material
  refine ⟨s, runs, fun message signature => ?_⟩
  rw [verify_of_fits fits, runs.accepts]

/-- A key that says that it cannot is refused, whatever the message and the signature are. -/
theorem verify_of_incompatible (incompatible : k.isCompatible a = false) :
    ∃ e, (∀ message signature, k.verify a message signature = .error e) ∧
      (k.OtherUse ∧ e = .usageMismatch ∨ ¬ k.OtherUse ∧ e = .incompatibleAlgorithm a) := by
  unfold verify
  rcases k.useConflict?_cases a with ⟨use, h⟩ | ⟨use, -, h⟩ | ⟨use, algorithm, h⟩
  · rw [h]
    exact ⟨_, fun _ _ => rfl, .inl ⟨use, rfl⟩⟩
  · rw [h]
    exact ⟨_, fun _ _ => rfl, .inr ⟨use, rfl⟩⟩
  · -- nothing that was published is in the way, so it is the material
    have unfit : ¬ k.material.canVerify a = true := by
      intro material
      rw [isCompatible_iff.mpr (fits_iff.mpr ⟨material, use, algorithm⟩)] at incompatible
      cases incompatible
    rw [h]
    refine ⟨_, fun message signature => ?_, .inr ⟨use, rfl⟩⟩
    dsimp only
    rw [Material.verify_eq, if_neg unfit]

/-! ## Signing -/

/-- The reasons not to sign, in order. -/
inductive SignStage where
  | usage
  | algorithm
  | privateKey
  | family

def SignStage.order : List SignStage := [.usage, .algorithm, .privateKey, .family]

/-- There is this reason not to sign. -/
def SignStage.Applies (k : Key) (a : Algorithm) : SignStage → Prop
  | .usage => k.OtherUse
  | .algorithm => k.OtherAlgorithm a
  | .privateKey => k.material.isSecret = false
  | .family => a.isSymmetric = false

/-- The error that stands for a reason. -/
def SignStage.error (a : Algorithm) : SignStage → SignError
  | .usage => .usageMismatch
  | .algorithm | .family => .incompatibleAlgorithm a
  | .privateKey => .missingPrivateKey

/-- Signing fails with an error for a reason. -/
def SignFails (k : Key) (a : Algorithm) (stage : SignStage) (e : SignError) : Prop :=
  stage.Applies k a ∧ e = stage.error a

section Signing

variable {stages : List SignStage} {x : Except SignError Bytes}

theorem follows_of_applies (stage : SignStage) (h : stage.Applies k a) :
    Follows (k.SignFails a) (stage :: stages) (.error (stage.error a) : Except SignError Bytes) :=
  .failed fun _ => and_iff_right h

theorem follows_of_not_applies (stage : SignStage) (h : ¬ stage.Applies k a)
    (rest : Follows (k.SignFails a) stages x) : Follows (k.SignFails a) (stage :: stages) x :=
  .passed (fun _ fails => h fails.1) rest

/-- Signing fails for the first of the reasons not to. What is published comes first, then whether
the material can sign at all, and whether it can sign for this algorithm comes last. -/
theorem sign_follows (k : Key) (a : Algorithm) (message : Bytes) :
    Follows (k.SignFails a) SignStage.order (k.sign a message) := by
  unfold sign SignStage.order
  rcases k.useConflict?_cases a with ⟨use, h⟩ | ⟨use, algorithm, h⟩ | ⟨use, algorithm, h⟩
  · rw [h]
    exact follows_of_applies .usage use
  · rw [h]
    exact follows_of_not_applies .usage use (follows_of_applies .algorithm algorithm)
  · rw [h]
    refine follows_of_not_applies .usage use (follows_of_not_applies .algorithm algorithm ?_)
    -- nothing that was published is in the way, so the material comes next
    cases hm : k.material with
    | rsa _ | curve _ =>
      have unable : k.material.isSecret = false := by rw [hm]; rfl
      exact follows_of_applies .privateKey unable
    | secret s =>
      have able : ¬ k.material.isSecret = false := by rw [hm]; nofun
      refine follows_of_not_applies .privateKey able ?_
      -- a secret can sign, but only for the algorithms of its family
      dsimp only
      rw [Secret.sign_eq]
      cases symmetric : a.isSymmetric with
      | false => exact follows_of_applies .family symmetric
      | true =>
        have fits : ¬ a.isSymmetric = false := by rw [symmetric]; nofun
        exact follows_of_not_applies .family fits (.ok _)

end Signing

/-- What a key says about signing comes to the same as there being no reason not to. -/
theorem canSign_iff :
    k.canSign a = true ↔ ¬ k.OtherUse ∧ ¬ k.OtherAlgorithm a ∧ k.material.isSecret = true ∧
      a.isSymmetric = true := by
  unfold canSign
  simp only [Bool.and_eq_true, Option.isNone_iff_eq_none]
  rw [useConflict?_eq_none_iff, not_otherUse_iff, not_otherAlgorithm_iff]
  constructor
  · rintro ⟨⟨secret, symmetric⟩, algorithm, usage⟩
    exact ⟨usage, algorithm, secret, symmetric⟩
  · rintro ⟨usage, algorithm, secret, symmetric⟩
    exact ⟨⟨secret, symmetric⟩, algorithm, usage⟩

/-- A shared secret can sign wherever it can check signatures. -/
theorem canSign_eq_isCompatible (secret : k.material.isSecret = true) :
    k.canSign a = k.isCompatible a := by
  -- of a secret the material can check exactly the symmetric algorithms
  have material : k.material.canVerify a = a.isSymmetric := by
    cases hm : k.material with
    | rsa _ | curve _ =>
      rw [hm] at secret
      cases secret
    | secret s => rfl
  rw [Bool.eq_iff_iff, canSign_iff, isCompatible_iff, fits_iff, material]
  constructor
  · rintro ⟨usage, algorithm, -, symmetric⟩
    exact ⟨symmetric, usage, algorithm⟩
  · rintro ⟨symmetric, usage, algorithm⟩
    exact ⟨usage, algorithm, secret, symmetric⟩

/-- A signature is the code of the message under the secret, and there is one only if the key says
so. -/
theorem sign_eq_ok_iff {signature : Bytes} :
    k.sign a message = .ok signature ↔
      k.canSign a = true ∧ ∃ s, k.material = .secret s ∧ signature = a.digest.hmac s message := by
  rw [canSign_iff]
  unfold sign
  -- of all the cases only the very last makes a signature
  rcases k.useConflict?_cases a with ⟨use, h⟩ | ⟨use, algorithm, h⟩ | ⟨use, algorithm, h⟩
  · simp [h, use]
  · simp [h, algorithm]
  · cases hm : k.material with
    | rsa _ | curve _ => simp [h, Material.isSecret]
    | secret s =>
      cases symmetric : a.isSymmetric with
      | false => simp [h, Secret.sign_eq, symmetric]
      | true => simp [h, Secret.sign_eq, symmetric, use, algorithm, Material.isSecret, eq_comm]

/-- The one signature that a key confirms is the one that it makes. -/
theorem verify_eq_ok_iff_of_sign {made : Bytes} (signed : k.sign a message = .ok made) :
    k.verify a message signature = .ok () ↔ signature = made := by
  obtain ⟨able, s, hm, rfl⟩ := sign_eq_ok_iff.mp signed
  obtain ⟨use, algorithm, -, symmetric⟩ := canSign_iff.mp able
  -- what lets the key sign lets it check as well
  have fits : k.Fits a := by
    refine fits_iff.mpr ⟨?_, use, algorithm⟩
    rw [hm]
    exact symmetric
  rw [verify_eq_ok_iff, and_iff_right fits, hm]
  simp [Material.accepts, symmetric]

/-! ## Saying and doing -/

/-- What a key does with an algorithm is what it says about it. -/
structure Capability (k : Key) (a : Algorithm) (message signature : Bytes) : Prop where
  /-- The key looks at signatures exactly if it says that it can check them. -/
  checks : k.verify a message signature = .ok () ∨
    k.verify a message signature = .error .signatureMismatch ↔ k.isCompatible a = true
  usage : k.verify a message signature = .error .usageMismatch ↔ k.OtherUse
  /-- In every other case it refuses the algorithm that it was asked for. -/
  otherwise : ∀ b, k.verify a message signature = .error (.incompatibleAlgorithm b) ↔
    b = a ∧ k.isCompatible a = false ∧ ¬ k.OtherUse
  /-- The key signs exactly if it says so. -/
  signs : (∃ made, k.sign a message = .ok made) ↔ k.canSign a = true
  /-- If it does not, it says why, which is the first of the reasons. -/
  refuses : Follows (k.SignFails a) SignStage.order (k.sign a message)
  shared : k.material.isSecret = true → k.canSign a = k.isCompatible a
  /-- There is one signature for each message, as long as a digest. -/
  unique : ∀ made, k.sign a message = .ok made → made.length = a.digest.length ∧
    (k.verify a message signature = .ok () ↔ signature = made)
  /-- The scheme that is run is of the family of the material and of the algorithm. -/
  separate : k.isCompatible a = true → ∃ s, k.material.Runs a s ∧ s.family = k.material.family ∧
    s.family = a.family ∧ k.verify a message signature =
      if s.confirms message signature then .ok () else .error .signatureMismatch
  /-- Otherwise none is run, so that neither the message nor the signature matters. -/
  blind : k.isCompatible a = false → ∀ message' signature',
    k.verify a message' signature' = k.verify a message signature

/-- What a key answers about a signature, by what it says about the algorithm. -/
theorem verify_cases (k : Key) (a : Algorithm) (message signature : Bytes) :
    (k.isCompatible a = true ∧ ¬ k.OtherUse ∧ (k.verify a message signature = .ok () ∨
        k.verify a message signature = .error .signatureMismatch)) ∨
      (k.isCompatible a = false ∧ k.OtherUse ∧
        k.verify a message signature = .error .usageMismatch) ∨
      (k.isCompatible a = false ∧ ¬ k.OtherUse ∧
        k.verify a message signature = .error (.incompatibleAlgorithm a)) := by
  -- a key that says that it can check runs a scheme; any other is refused for one of two reasons
  cases compatible : k.isCompatible a with
  | true =>
    have use : ¬ k.OtherUse := (fits_iff.mp (isCompatible_iff.mp compatible)).2.1
    obtain ⟨s, -, checks⟩ := verify_of_compatible compatible
    refine .inl ⟨rfl, use, ?_⟩
    rw [checks]
    cases s.confirms message signature with
    | true => exact .inl rfl
    | false => exact .inr rfl
  | false =>
    obtain ⟨e, refused, ⟨use, rfl⟩ | ⟨use, rfl⟩⟩ := verify_of_incompatible compatible
    · exact .inr (.inl ⟨rfl, use, refused message signature⟩)
    · exact .inr (.inr ⟨rfl, use, refused message signature⟩)

/-- **Saying and doing.** Every key does with every algorithm what it says, whatever the message and
the signature are. What it says about checking is compared with what it answers to any signature,
and what it says about signing with whether a signature is made; where it refuses, the reason is the
first one. -/
theorem capability_exact (k : Key) (a : Algorithm) (message signature : Bytes) :
    k.Capability a message signature where
  checks := by
    -- of the three answers only the first is about the signature
    rcases k.verify_cases a message signature with ⟨said, -, h⟩ | ⟨said, -, h⟩ | ⟨said, -, h⟩ <;>
      simp [said, h]
  usage := by
    rcases k.verify_cases a message signature with ⟨-, use, h | h⟩ | ⟨-, use, h⟩ | ⟨-, use, h⟩ <;>
      simp [use, h]
  otherwise := by
    intro b
    rcases k.verify_cases a message signature with
      ⟨said, use, h | h⟩ | ⟨said, use, h⟩ | ⟨said, use, h⟩ <;> simp [said, use, h, eq_comm]
  signs := by
    constructor
    · rintro ⟨made, signed⟩
      exact (sign_eq_ok_iff.mp signed).1
    · intro able
      obtain ⟨-, -, secret, -⟩ := canSign_iff.mp able
      cases hm : k.material with
      | rsa _ | curve _ =>
        rw [hm] at secret
        cases secret
      | secret s => exact ⟨_, sign_eq_ok_iff.mpr ⟨able, s, hm, rfl⟩⟩
  refuses := k.sign_follows a message
  shared := canSign_eq_isCompatible
  unique := by
    intro made signed
    refine ⟨?_, verify_eq_ok_iff_of_sign signed⟩
    obtain ⟨-, s, -, rfl⟩ := sign_eq_ok_iff.mp signed
    exact a.digest.length_hmac s message
  separate := by
    intro compatible
    obtain ⟨s, runs, checks⟩ := verify_of_compatible compatible
    obtain ⟨ofMaterial, ofAlgorithm⟩ := runs.family
    exact ⟨s, runs, ofMaterial, ofMaterial.trans ofAlgorithm.symm, checks message signature⟩
  blind := by
    intro incompatible message' signature'
    obtain ⟨e, refused, -⟩ := verify_of_incompatible incompatible
    rw [refused, refused]

/-- The key of a secret of one byte. -/
def exampleSecret : Key := { material := .secret [1] }

/-- A signature without its last byte is no signature, and under the name of an algorithm for public
keys not even a right one is looked at. -/
theorem capability_exact_truncated :
    ∃ made, exampleSecret.sign .hs256 [] = .ok made ∧
      exampleSecret.verify .hs256 [] made = .ok () ∧
      exampleSecret.verify .hs256 [] made.dropLast = .error .signatureMismatch ∧
      exampleSecret.verify .rs256 [] made = .error (.incompatibleAlgorithm .rs256) := by
  have noUse : ¬ exampleSecret.OtherUse := not_otherUse_iff.mpr nofun
  obtain ⟨made, signed⟩ := (capability_exact exampleSecret .hs256 [] []).signs.mpr rfl
  refine ⟨made, signed, ?_, ?_, ?_⟩
  · exact ((capability_exact exampleSecret .hs256 [] made).unique made signed).2.mpr rfl
  · have short := capability_exact exampleSecret .hs256 [] made.dropLast
    obtain ⟨length, only⟩ := short.unique made signed
    rcases short.checks.mpr rfl with ok | mismatch
    · -- what is confirmed is the whole signature, which is not empty
      have same := congrArg List.length (only.mp ok)
      rw [List.length_dropLast, length] at same
      cases same
    · exact mismatch
  · exact ((capability_exact exampleSecret .rs256 [] made).otherwise .rs256).mpr
      ⟨rfl, rfl, noUse⟩

end Key
end BearerAuth
