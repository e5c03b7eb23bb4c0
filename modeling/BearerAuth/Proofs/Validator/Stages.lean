import BearerAuth.Proofs.Token.Faults
import BearerAuth.Proofs.Validator.Acceptance

/-!
# BearerAuth — the stages of a validation

A token may have many faults at once. A validation goes through stages (`Stage`), and what it means
for a stage to fail is said of each stage by itself (`Fails`), of the parts of the token, the keys
that count and the claims. Which keys count is said once: a token is bound to the secret, or to the
key that it names, and one that names none may be confirmed with any key that fits.

The stages fall into those that need no keys and those from the lookup on. The latter are proved
from the last one backwards, each in front of the stages behind it.

Main results:

* `fails_format_iff` and so on — what a stage says of the parts of a token.
* `prepare_follows`            — the stages that need no keys.
* `settled_follows`            — all stages, for any outcome of the lookup.
-/

namespace BearerAuth

variable {v : Validator} {token : String} {now : UnixTime} {o : FetchOutcome} {d : Decomposed}
  {a : Algorithm} {k : Key}

/-! ## Stages -/

/-- The stages of a validation. -/
inductive Stage where
  | format
  | algorithm
  | keyId
  | lookup
  | key
  | signature
  | payload
  | claim (claim : RegisteredClaim)

/-- The stages that need no keys. -/
def Stage.early : List Stage := [.format, .algorithm, .keyId]

/-- The stages from the lookup on. -/
def Stage.late : List Stage :=
  .lookup :: .key :: .signature :: .payload :: ClaimRules.order.map .claim

/-- All stages, in order. -/
def Stage.order : List Stage := early ++ late

/-- The order with the signature in the middle. What comes before it sees nothing of the payload. -/
theorem Stage.order_eq :
    order = early ++ [.lookup, .key] ++ .signature :: .payload :: ClaimRules.order.map .claim := rfl

namespace Validator

/-- The one key that a token has to be confirmed with: the secret, or the key that it names. -/
inductive Bound (v : Validator) (h : Header) (o : FetchOutcome) : Key → Prop
  | secret {k : Key} (source : v.source = .secret k) : Bound v h o k
  | named {n : Nat} {id : String} {s : Snapshot} {k : Key} (source : v.source = .cache n)
      (names : h.keyId = some id) (found : o = .ok s)
      (first : s.keys.keys.find? (·.id == some id) = some k) : Bound v h o k

/-- A key that a token may be confirmed with: the key it is bound to, or any key if it names
none. -/
inductive Candidate (v : Validator) (h : Header) (o : FetchOutcome) : Key → Prop
  | bound {k : Key} (bound : v.Bound h o k) : Candidate v h o k
  | unnamed {n : Nat} {s : Snapshot} {k : Key} (source : v.source = .cache n)
      (names : h.keyId = none) (found : o = .ok s) (mem : k ∈ s.keys.keys) : Candidate v h o k

/-- No key confirms the signature of the token. -/
def Unconfirmed (v : Validator) (token : String) (o : FetchOutcome) : Prop :=
  ∀ d a k, Decomposed.ofToken token = .ok d → d.header.algorithm? = some a →
    v.Candidate d.header o k → k.verify a (Bytes.ofString d.message) d.signature ≠ .ok ()

/-- What it means for a stage of a validation to fail, when the lookup ends with an outcome. -/
inductive Fails (v : Validator) (token : String) (o : FetchOutcome) (now : UnixTime) :
    Stage → ValidationError → Prop
  | format {e : TokenError} (fault : Unreadable token e) :
      Fails v token o now .format (.invalidFormat e)
  | algorithm {d : Decomposed} (parts : Decomposed.ofToken token = .ok d)
      (fault : ∀ a, d.header.algorithm? = some a → v.rules.approves a = false) :
      Fails v token o now .algorithm (.unsupportedAlgorithm d.header.algorithmName)
  | keyId {d : Decomposed} {n : Nat} (parts : Decomposed.ofToken token = .ok d)
      (source : v.source = .cache n) (demanded : v.requireKeyId = true)
      (fault : d.header.keyId = none) : Fails v token o now .keyId .missingKeyId
  | fetch {n : Nat} {e : FetchError} (source : v.source = .cache n) (fault : o = .error e) :
      Fails v token o now .lookup (.fetch e)
  | unknownKey {d : Decomposed} {n : Nat} {id : String} {s : Snapshot}
      (parts : Decomposed.ofToken token = .ok d) (source : v.source = .cache n)
      (names : d.header.keyId = some id) (found : o = .ok s)
      (fault : ∀ k ∈ s.keys.keys, k.id ≠ some id) :
      Fails v token o now .lookup (.unknownKey (some id))
  | noKey {d : Decomposed} {n : Nat} {a : Algorithm} {s : Snapshot}
      (parts : Decomposed.ofToken token = .ok d) (source : v.source = .cache n)
      (names : d.header.keyId = none) (known : d.header.algorithm? = some a) (found : o = .ok s)
      (fault : ∀ k ∈ s.keys.keys, ¬ k.Fits a) : Fails v token o now .lookup (.unknownKey none)
  | key {d : Decomposed} {a : Algorithm} {k : Key} (parts : Decomposed.ofToken token = .ok d)
      (known : d.header.algorithm? = some a) (bound : v.Bound d.header o k)
      (fault : ¬ k.Fits a) :
      Fails v token o now .key (.unsupportedAlgorithm d.header.algorithmName)
  | signature (fault : v.Unconfirmed token o) : Fails v token o now .signature .invalidSignature
  | payload {d : Decomposed} (parts : Decomposed.ofToken token = .ok d)
      (fault : ∀ c, ¬ Encodes Claims.parse? d.payload.toList c) :
      Fails v token o now .payload (.invalidFormat (.malformedSection .payload))
  | claim {d : Decomposed} {c : Claims} {claim : RegisteredClaim} {e : ClaimRejection}
      (parts : Decomposed.ofToken token = .ok d) (reads : Encodes Claims.parse? d.payload.toList c)
      (fault : v.rules.Breaks c now claim e) :
      Fails v token o now (.claim claim) (.invalidClaims e)

/-- The token is rejected for the first stage that fails. -/
def Rejects (v : Validator) (token : String) (o : FetchOutcome) (now : UnixTime)
    (e : ValidationError) : Prop :=
  FirstFails (v.Fails token o now) Stage.order e

end Validator

/-! ## The claims -/

/-- The only error in reading a payload is that it cannot be read, whether it is no base64url, no
JSON or no object. -/
theorem Decomposed.claims_eq_error_iff {e : TokenError} :
    d.claims = .error e ↔
      (∀ c, ¬ Encodes Claims.parse? d.payload.toList c) ∧ e = .malformedSection .payload := by
  -- one error stands for every fault of the payload
  have only : ∀ e, d.claims = .error e → e = .malformedSection .payload := by
    intro e h
    unfold claims at h
    simp only [bind_eq_error_iff, inSection_eq_error_iff] at h
    rcases h with ⟨-, rfl⟩ | ⟨_, _, -, rfl⟩ <;> rfl
  constructor
  · intro h
    refine ⟨fun c reads => ?_, only e h⟩
    rw [claims_eq_ok_iff.mpr reads] at h
    cases h
  · rintro ⟨unreadable, rfl⟩
    cases h : d.claims with
    | error e => rw [only e h]
    | ok c => exact absurd (claims_eq_ok_iff.mp h) (unreadable c)

theorem mapError_mapError {x : Except ε α} {f : ε → ε'} {g : ε' → ε''} :
    (x.mapError f).mapError g = x.mapError (g ∘ f) := by
  cases x <;> rfl

namespace Validator

/-! ## What a stage says of the parts of a token -/

section Parts

variable {e : ValidationError}

/-- The format fails if the token cannot be taken apart, and this is the only stage that is about
the text as a whole. -/
theorem fails_format_iff :
    v.Fails token o now .format e ↔ ∃ u, Unreadable token u ∧ e = .invalidFormat u := by
  constructor
  · rintro ⟨unreadable⟩
    exact ⟨_, unreadable, rfl⟩
  · rintro ⟨u, unreadable, rfl⟩
    exact .format unreadable

/-- The signature fails if no key that may be tried confirms it. With a secret or a named key there
is one such key, and otherwise they are all that fit. -/
theorem fails_signature_iff :
    v.Fails token o now .signature e ↔ v.Unconfirmed token o ∧ e = .invalidSignature := by
  constructor
  · rintro ⟨⟩
    exact ⟨‹_›, rfl⟩
  · rintro ⟨unconfirmed, rfl⟩
    exact .signature unconfirmed

/-- A token has one set of parts. The constructors of `Fails` bring parts of their own, which are
made out to be the known ones by this. -/
theorem parts_unique {d' : Decomposed} (parts : Decomposed.ofToken token = .ok d)
    (parts' : Decomposed.ofToken token = .ok d') : d' = d :=
  Except.ok.inj (parts'.symm.trans parts)

variable (parts : Decomposed.ofToken token = .ok d)

include parts

/-- The algorithm fails if it is unknown or not approved, and the error names it as the header
does. -/
theorem fails_algorithm_iff :
    v.Fails token o now .algorithm e ↔
      (∀ a, d.header.algorithm? = some a → v.rules.approves a = false) ∧
        e = .unsupportedAlgorithm d.header.algorithmName := by
  constructor
  · intro fails
    cases fails with
    | algorithm parts' fault =>
      obtain rfl := parts_unique parts parts'
      exact ⟨fault, rfl⟩
  · rintro ⟨fault, rfl⟩
    exact .algorithm parts fault

/-- The demand for a key identifier is made where keys are looked up, never with a secret. It is the
last of the stages that come before the lookup. -/
theorem fails_keyId_iff :
    v.Fails token o now .keyId e ↔
      (∃ n, v.source = .cache n) ∧ v.requireKeyId = true ∧ d.header.keyId = none ∧
        e = .missingKeyId := by
  constructor
  · intro fails
    cases fails with
    | keyId parts' source demanded names =>
      obtain rfl := parts_unique parts parts'
      exact ⟨⟨_, source⟩, demanded, names, rfl⟩
  · rintro ⟨⟨n, source⟩, demanded, names, rfl⟩
    exact .keyId parts source demanded names

/-- The ways in which the lookup of a named key fails: it ends with an error of the fetch, or with a
snapshot in which no key has the name. -/
theorem fails_lookup_named_iff {n : Nat} {id : String} (source : v.source = .cache n)
    (names : d.header.keyId = some id) :
    v.Fails token o now .lookup e ↔
      (∃ f, o = .error f ∧ e = .fetch f) ∨
        ∃ s, o = .ok s ∧ (∀ k ∈ s.keys.keys, k.id ≠ some id) ∧ e = .unknownKey (some id) := by
  constructor
  · intro fails
    cases fails with
    | fetch _ fault => exact .inl ⟨_, fault, rfl⟩
    | unknownKey parts' _ names' found fault =>
      obtain rfl := parts_unique parts parts'
      obtain rfl := Option.some.inj (names.symm.trans names')
      exact .inr ⟨_, found, fault, rfl⟩
    -- this fault is about tokens that name no key
    | noKey parts' _ names' _ _ _ =>
      obtain rfl := parts_unique parts parts'
      simp [names] at names'
  · rintro (⟨f, fault, rfl⟩ | ⟨s, found, fault, rfl⟩)
    · exact .fetch source fault
    · exact .unknownKey parts source names found fault

/-- The ways in which the lookup of any key that fits fails: it ends with an error of the fetch, or
with a snapshot in which no key fits the algorithm. -/
theorem fails_lookup_unnamed_iff {n : Nat} (known : d.header.algorithm? = some a)
    (source : v.source = .cache n) (names : d.header.keyId = none) :
    v.Fails token o now .lookup e ↔
      (∃ f, o = .error f ∧ e = .fetch f) ∨
        ∃ s, o = .ok s ∧ (∀ k ∈ s.keys.keys, ¬ k.Fits a) ∧ e = .unknownKey none := by
  constructor
  · intro fails
    cases fails with
    | fetch _ fault => exact .inl ⟨_, fault, rfl⟩
    -- this fault is about tokens that name a key
    | unknownKey parts' _ names' _ _ =>
      obtain rfl := parts_unique parts parts'
      simp [names] at names'
    | noKey parts' _ _ known' found fault =>
      obtain rfl := parts_unique parts parts'
      obtain rfl := Option.some.inj (known.symm.trans known')
      exact .inr ⟨_, found, fault, rfl⟩
  · rintro (⟨f, fault, rfl⟩ | ⟨s, found, fault, rfl⟩)
    · exact .fetch source fault
    · exact .noKey parts source names known found fault

/-- The key fails if the token is bound to one that does not fit. A token that is bound to none
cannot fail here; keys that do not fit are not tried for it. -/
theorem fails_key_iff (known : d.header.algorithm? = some a) :
    v.Fails token o now .key e ↔
      (∃ k, v.Bound d.header o k ∧ ¬ k.Fits a) ∧
        e = .unsupportedAlgorithm d.header.algorithmName := by
  constructor
  · intro fails
    cases fails with
    | key parts' known' bound unfit =>
      obtain rfl := parts_unique parts parts'
      obtain rfl := Option.some.inj (known.symm.trans known')
      exact ⟨⟨_, bound, unfit⟩, rfl⟩
  · rintro ⟨⟨k, bound, unfit⟩, rfl⟩
    exact .key parts known bound unfit

/-- The payload fails if it cannot be read as claims. The fault says which section it is in and
nothing about what was found there. -/
theorem fails_payload_iff :
    v.Fails token o now .payload e ↔
      (∀ c, ¬ Encodes Claims.parse? d.payload.toList c) ∧
        e = .invalidFormat (.malformedSection .payload) := by
  constructor
  · intro fails
    cases fails with
    | payload parts' unreadable =>
      obtain rfl := parts_unique parts parts'
      exact ⟨unreadable, rfl⟩
  · rintro ⟨unreadable, rfl⟩
    exact .payload parts unreadable

/-- A claim fails if it breaks the rule about it. The rules are looked at one by one, and only after
the payload was read. -/
theorem fails_claim_iff {c : Claims} {claim : RegisteredClaim}
    (reads : Encodes Claims.parse? d.payload.toList c) :
    v.Fails token o now (.claim claim) e ↔
      ∃ f, v.rules.Breaks c now claim f ∧ e = .invalidClaims f := by
  constructor
  · intro fails
    cases fails with
    | claim parts' reads' broken =>
      obtain rfl := parts_unique parts parts'
      -- a payload reads as one thing only
      have same := Decomposed.claims_eq_ok_iff.mpr reads
      rw [Decomposed.claims_eq_ok_iff.mpr reads', Except.ok.injEq] at same
      subst same
      exact ⟨_, broken, rfl⟩
  · rintro ⟨f, broken, rfl⟩
    exact .claim parts reads broken

end Parts

/-! ## Which keys count -/

/-- A token is bound to one key at most, because the secret is one key and a named key is the first
of its name. -/
theorem Bound.unique {h : Header} {l : Key} (hk : v.Bound h o k) (hl : v.Bound h o l) : k = l := by
  rcases hk with source | ⟨source, names, found, first⟩
  · rcases hl with source' | ⟨source', _, _, _⟩
    · exact KeySource.secret.inj (source.symm.trans source')
    · simp [source] at source'
  · rcases hl with source' | ⟨_, names', found', first'⟩
    · simp [source] at source'
    · obtain rfl := Option.some.inj (names.symm.trans names')
      obtain rfl := Except.ok.inj (found.symm.trans found')
      exact Option.some.inj (first.symm.trans first')

/-- A token that names no key is not bound to one. -/
theorem not_bound {h : Header} {n : Nat} (source : v.source = .cache n) (names : h.keyId = none) :
    ¬ v.Bound h o k := by
  rintro (source' | ⟨-, names', -, -⟩)
  · simp [source] at source'
  · simp [names] at names'

/-- A token that is bound to a key can be confirmed with no other. If it names a key that does not
confirm it, the other keys of the set are not tried. -/
theorem Bound.eq_of_candidate {h : Header} {l : Key} (hk : v.Bound h o k)
    (hl : v.Candidate h o l) : l = k := by
  rcases hl with hl | ⟨source, names, -, -⟩
  · exact hl.unique hk
  · exact absurd hk (not_bound source names)

/-- That no key confirms the token, said of its known parts and algorithm and without the other
errors of a key. -/
theorem unconfirmed_iff (parts : Decomposed.ofToken token = .ok d)
    (known : d.header.algorithm? = some a) :
    v.Unconfirmed token o ↔ ∀ k, v.Candidate d.header o k → k.Fits a →
      ¬ k.material.accepts a (Bytes.ofString d.message) d.signature = true := by
  constructor
  · intro unconfirmed k candidate fits accepts
    exact unconfirmed d a k parts known candidate (Key.verify_eq_ok_iff.mpr ⟨fits, accepts⟩)
  · intro unconfirmed d' b k parts' known' candidate verified
    obtain rfl := parts_unique parts parts'
    obtain rfl := Option.some.inj (known.symm.trans known')
    obtain ⟨fits, accepts⟩ := Key.verify_eq_ok_iff.mp verified
    exact unconfirmed k candidate fits accepts

/-! ## The stages that need keys, from the last one backwards -/

section Late

variable (parts : Decomposed.ofToken token = .ok d) (known : d.header.algorithm? = some a)
  (approved : v.rules.approves a = true)

include parts known approved

/-- After the signature, the payload is read and its claims are checked. These stages are the same
for every kind of key. -/
theorem checkedClaims_follows :
    Follows (v.Fails token o now) (.payload :: ClaimRules.order.map .claim)
      ((d.checkedClaims v.rules now).mapError (.ofTokenError a)) := by
  unfold Decomposed.checkedClaims
  rw [mapError_bind]
  -- the payload is read, and then its claims are checked in order
  refine .bind (fun e => ?_) fun c reads => ?_
  · rw [mapError_eq_error_iff, fails_payload_iff parts]
    constructor
    · rintro ⟨_, fault, rfl⟩
      obtain ⟨unreadable, rfl⟩ := Decomposed.claims_eq_error_iff.mp fault
      exact ⟨unreadable, rfl⟩
    · rintro ⟨unreadable, rfl⟩
      exact ⟨_, Decomposed.claims_eq_error_iff.mpr ⟨unreadable, rfl⟩, rfl⟩
  · rw [mapError_eq_ok_iff, Decomposed.claims_eq_ok_iff] at reads
    rw [mapError_bind, mapError_mapError]
    have checks : Follows (v.rules.Breaks c now) ClaimRules.order (v.rules.check d.header c now) :=
      ClaimRules.check_follows known approved
    exact .andThen (.mapError checks fun claim _ e => fails_claim_iff parts reads) fun _ => c

/-- The stages from the signature on, where a key confirms it. The stage of the signature cannot
fail then, so that the others decide. -/
theorem signature_passed (candidate : v.Candidate d.header o k) (fits : k.Fits a)
    (accepts : k.material.accepts a (Bytes.ofString d.message) d.signature = true) :
    Follows (v.Fails token o now) (.signature :: .payload :: ClaimRules.order.map .claim)
      ((d.checkedClaims v.rules now).mapError (.ofTokenError a)) := by
  refine .passed (fun e fails => ?_) (checkedClaims_follows parts known approved)
  have unconfirmed := (fails_signature_iff.mp fails).1
  exact (unconfirmed_iff parts known).mp unconfirmed k candidate fits accepts

omit parts known approved in
/-- The stages from the signature on, where no key confirms it. -/
theorem signature_failed (unconfirmed : v.Unconfirmed token o) (stages : List Stage) :
    Follows (v.Fails token o now) (.signature :: stages)
      (.error .invalidSignature : ValidationResult) := by
  refine .failed fun e => ?_
  rw [fails_signature_iff]
  exact and_iff_right unconfirmed

/-- The stages from the key on, for a token that is bound to a key. The key itself can be unfit
here, since it was not chosen by the algorithm: it is the secret, or it has the name. -/
theorem checkWith_follows (bound : v.Bound d.header o k) :
    Follows (v.Fails token o now)
      (.key :: .signature :: .payload :: ClaimRules.order.map .claim)
      (v.checkWith d a k now) := by
  by_cases fits : k.Fits a
  · have noFailure : ∀ e, ¬ v.Fails token o now .key e := by
      intro e fails
      obtain ⟨⟨l, bound', unfit⟩, -⟩ := (fails_key_iff parts known).mp fails
      exact unfit (bound.unique bound' ▸ fits)
    refine .passed noFailure ?_
    by_cases accepts : k.material.accepts a (Bytes.ofString d.message) d.signature = true
    · rw [checkWith_of_accepts known fits accepts]
      exact signature_passed parts known approved (.bound bound) fits accepts
    · -- there is no other key to try
      have unconfirmed : v.Unconfirmed token o := by
        refine (unconfirmed_iff parts known).mpr fun l candidate _ => ?_
        rw [bound.eq_of_candidate candidate]
        exact accepts
      rw [checkWith_of_mismatch known fits accepts]
      exact signature_failed unconfirmed _
  · -- the stage of the key itself fails
    rw [checkWith_of_unfit known fits]
    refine .failed fun e => ?_
    rw [fails_key_iff parts known]
    exact and_iff_right ⟨k, bound, fits⟩

/-- A token that names a key is confirmed with it. The lookup ends with an error, without a key of
this name, or with the first one that has it, and only then the stages are those of a bound key. -/
theorem settleNamed_follows {n : Nat} {id : String} (source : v.source = .cache n)
    (names : d.header.keyId = some id) :
    Follows (v.Fails token o now) Stage.late (v.settleNamed d a id o now) := by
  unfold settleNamed FetchOutcome.key
  cases o with
  | error f =>
    -- there is nothing to look into if the fetch failed
    refine .failed fun e => ?_
    rw [fails_lookup_named_iff parts source names]
    simp [ValidationError.ofKeysError]
  | ok s =>
    cases hk : s.get? id with
    | none =>
      -- the index knows the identifier if any key carries it
      have absent : ∀ k ∈ s.keys.keys, k.id ≠ some id := Snapshot.get?_eq_none_iff.mp hk
      simp only [hk]
      refine .failed fun e => ?_
      rw [fails_lookup_named_iff parts source names]
      simpa [ValidationError.ofKeysError] using fun _ => absent
    | some k =>
      -- the key of the index is the first one with the identifier, to which the token is bound
      have first : s.keys.keys.find? (·.id == some id) = some k := by
        rw [← hk]
        exact (s.indexed.scan id).symm
      have noFailure : ∀ e, ¬ v.Fails token (.ok s) now .lookup e := by
        intro e fails
        obtain ⟨f, ⟨⟩, -⟩ | ⟨s', found, absent, -⟩ :=
          (fails_lookup_named_iff parts source names).mp fails
        obtain rfl := Except.ok.inj found
        rw [Snapshot.get?_eq_none_iff.mpr absent] at hk
        cases hk
      simp only [hk]
      exact .passed noFailure
        (checkWith_follows parts known approved (.named source names rfl first))

/-- Keys that fit are tried, of which there is one at least. None of them can be unfit, so the first
stage is the signature. -/
theorem tryKeys_follows {n : Nat} {s : Snapshot} (source : v.source = .cache n)
    (names : d.header.keyId = none) (some_ : ∃ k ∈ s.keys.keys, k.Fits a) :
    Follows (v.Fails token (.ok s) now) (.signature :: .payload :: ClaimRules.order.map .claim)
      (v.tryKeys d a now false (s.keys.compatible a)) := by
  have fits : ∀ k ∈ s.keys.compatible a, k.Fits a :=
    fun k hk => (KeySet.mem_compatible_iff.mp hk).2
  by_cases accepts : ∃ k ∈ s.keys.compatible a,
      k.material.accepts a (Bytes.ofString d.message) d.signature = true
  · rw [tryKeys_of_accepts known fits accepts]
    obtain ⟨k, hk, accepts⟩ := accepts
    obtain ⟨mem, hfits⟩ := KeySet.mem_compatible_iff.mp hk
    exact signature_passed parts known approved (.unnamed source names rfl mem) hfits accepts
  · -- every key that could have confirmed the token was tried
    have unconfirmed : v.Unconfirmed token (.ok s) := by
      refine (unconfirmed_iff parts known).mpr fun k candidate hfits hacc => ?_
      rcases candidate with bound | ⟨-, -, found, mem⟩
      · exact not_bound source names bound
      · obtain rfl := Except.ok.inj found
        exact accepts ⟨k, KeySet.mem_compatible_iff.mpr ⟨mem, hfits⟩, hacc⟩
    have nonempty : (s.keys.compatible a).isEmpty = false := by
      obtain ⟨k, hk, hfits⟩ := some_
      rw [List.isEmpty_eq_false_iff]
      exact List.ne_nil_of_mem (KeySet.mem_compatible_iff.mpr ⟨hk, hfits⟩)
    rw [tryKeys_of_unconfirmed known fits fun k hk hacc => accepts ⟨k, hk, hacc⟩, nonempty]
    exact signature_failed unconfirmed _

/-- A token that names no key is confirmed with any that fits. The lookup ends with an error, with
no key that fits, or with some of them; in the last case they are tried, and no stage of its own is
about the key. -/
theorem settleUnnamed_follows {n : Nat} (source : v.source = .cache n)
    (names : d.header.keyId = none) :
    Follows (v.Fails token o now) Stage.late (v.settleUnnamed d a o now) := by
  unfold settleUnnamed
  cases o with
  | error f =>
    refine .failed fun e => ?_
    rw [fails_lookup_unnamed_iff parts known source names]
    simp
  | ok s =>
    by_cases some_ : ∃ k ∈ s.keys.keys, k.Fits a
    · -- there is a key to try, and the token is not bound to one
      have noFailure : ∀ e, ¬ v.Fails token (.ok s) now .lookup e := by
        intro e fails
        obtain ⟨f, ⟨⟩, -⟩ | ⟨s', found, unfit, -⟩ :=
          (fails_lookup_unnamed_iff parts known source names).mp fails
        obtain rfl := Except.ok.inj found
        obtain ⟨k, hk, hfits⟩ := some_
        exact unfit k hk hfits
      have noKeyFailure : ∀ e, ¬ v.Fails token (.ok s) now .key e := by
        intro e fails
        obtain ⟨⟨k, bound, -⟩, -⟩ := (fails_key_iff parts known).mp fails
        exact not_bound source names bound
      exact .passed noFailure
        (.passed noKeyFailure (tryKeys_follows parts known approved source names some_))
    · have unfit : ∀ k ∈ s.keys.keys, ¬ k.Fits a := fun k hk hfits => some_ ⟨k, hk, hfits⟩
      have empty : s.keys.compatible a = [] := by
        rw [List.eq_nil_iff_forall_not_mem]
        intro k hk
        obtain ⟨mem, hfits⟩ := KeySet.mem_compatible_iff.mp hk
        exact unfit k mem hfits
      dsimp only
      rw [empty]
      refine .failed fun e => ?_
      rw [fails_lookup_unnamed_iff parts known source names]
      simpa using fun _ => unfit

end Late

/-! ## The early stages -/

/-- The early stages by themselves: the parts of the token and its algorithm. -/
def prepare (v : Validator) (token : String) : Except ValidationError (Decomposed × Algorithm) := do
  let d ← (Decomposed.ofToken token).mapError .invalidFormat
  let a ← v.approved d
  match v.source, d.header.keyId with
  | .cache _, none => if v.requireKeyId then .error .missingKeyId else .ok (d, a)
  | _, _ => .ok (d, a)

/-- What is to be done after the early stages. -/
def planWith (v : Validator) (d : Decomposed) (a : Algorithm) (now : UnixTime) : Plan :=
  match v.source, d.header.keyId with
  | .secret k, _ => .decided (v.checkWith d a k now)
  | .cache n, some id => .lookup n (.key id) (v.settleNamed d a id)
  | .cache n, none => .lookup n .all (v.settleUnnamed d a)

/-- A plan is made in two parts, the stages that need no keys and what is to be done after them. The
first part does not look at the clock, and the second one does nothing before the lookup. -/
theorem plan_eq :
    v.plan token now =
      match v.prepare token with
      | .error e => .decided (.error e)
      | .ok (d, a) => v.planWith d a now := by
  unfold plan prepare planWith
  cases Decomposed.ofToken token with
  | error e => rfl
  | ok d =>
    -- with the header taken apart both sides branch on the same fields
    obtain ⟨⟨algorithmName, keyId, mediaType⟩, message, payload, signature⟩ := d
    simp only [mapError_ok]
    show _ = match (v.approved _ >>= _ : Except ValidationError (Decomposed × Algorithm)) with
      | .error e => Plan.decided (.error e)
      | .ok (d, a) => _
    cases v.approved ⟨⟨algorithmName, keyId, mediaType⟩, message, payload, signature⟩ with
    | error e => rfl
    | ok a =>
      cases v.source with
      | secret k => rfl
      | cache n =>
        cases keyId with
        | some id => rfl
        | none => cases v.requireKeyId <;> rfl

/-- The algorithm of a header is refused if it is none of the known ones, or one that is not
approved. -/
theorem approved_eq_error_iff {e : ValidationError} :
    v.approved d = .error e ↔
      (∀ a, d.header.algorithm? = some a → v.rules.approves a = false) ∧
        e = .unsupportedAlgorithm d.header.algorithmName := by
  unfold approved
  cases d.header.algorithm? with
  | none =>
    rw [Except.error.injEq]
    -- a name that no algorithm has is refused like one that is not approved
    exact ⟨fun h => ⟨nofun, h.symm⟩, fun h => h.2.symm⟩
  | some a =>
    dsimp only
    constructor
    · intro h
      split at h
      · cases h
      · next refused =>
        cases h
        exact ⟨fun b hb => by simpa [← Option.some.inj hb] using refused, rfl⟩
    · rintro ⟨fault, rfl⟩
      simp [fault a rfl]

/-- What came through the early stages has parts and an approved algorithm. -/
theorem prepare_of_ok (h : v.prepare token = .ok (d, a)) :
    Decomposed.ofToken token = .ok d ∧ v.approved d = .ok a := by
  unfold prepare at h
  obtain ⟨d', parts, h⟩ := bind_eq_ok_iff.mp h
  obtain ⟨a', approved, h⟩ := bind_eq_ok_iff.mp h
  rw [mapError_eq_ok_iff] at parts
  split at h
  · split at h
    · cases h
    · cases h
      exact ⟨parts, approved⟩
  · cases h
    exact ⟨parts, approved⟩

/-- Format, algorithm and the demand for a key identifier come in this order, whatever a lookup
would end with. The three steps of `prepare` are the three stages, one for one. -/
theorem prepare_follows : Follows (v.Fails token o now) Stage.early (v.prepare token) := by
  unfold prepare
  refine .bind (fun e => ?_) fun d parts => .bind (fun e => ?_) fun a _ => .last fun e => ?_
  · rw [mapError_eq_error_iff, fails_format_iff]
    simp only [Decomposed.ofToken_eq_error_iff]
  · rw [mapError_eq_ok_iff] at parts
    rw [approved_eq_error_iff, fails_algorithm_iff parts]
  · rw [mapError_eq_ok_iff] at parts
    rw [fails_keyId_iff parts]
    split
    · next source names =>
      cases v.requireKeyId with
      | false => simp
      | true => simp [source, names, eq_comm]
    · next other =>
      -- the key is a secret, or is named
      refine ⟨nofun, ?_⟩
      rintro ⟨⟨n, source⟩, -, names, -⟩
      exact absurd names (other n source)

/-- The stages that need keys, for a token that came through the early ones. There are three kinds
of tokens: those checked with a secret, those that name a key and those that name none. -/
theorem planWith_follows (parts : Decomposed.ofToken token = .ok d)
    (approved : v.approved d = .ok a) :
    Follows (v.Fails token o now) Stage.late ((v.planWith d a now).settled o now) := by
  obtain ⟨known, approves⟩ := approved_eq_ok_iff.mp approved
  unfold planWith
  cases source : v.source with
  | secret k =>
    -- no lookup is made, so that none can fail
    refine .passed (fun e fault => ?_) (checkWith_follows parts known approves (.secret source))
    cases fault with
    | fetch source' | unknownKey _ source' | noKey _ source' => simp [source] at source'
  | cache n =>
    cases names : d.header.keyId with
    | some id => exact settleNamed_follows parts known approves source names
    | none => exact settleUnnamed_follows parts known approves source names

/-- **Order of the stages.** What a plan comes to, if its lookup ends with an outcome, is the error
of the first stage that fails, or the claims if none does. -/
theorem settled_follows :
    Follows (v.Fails token o now) Stage.order ((v.plan token now).settled o now) := by
  have stages : (v.plan token now).settled o now =
      v.prepare token >>= fun p => (v.planWith p.1 p.2 now).settled o now := by
    rw [plan_eq]
    cases v.prepare token with
    | error e => rfl
    | ok p => rfl
  rw [stages]
  refine prepare_follows.append fun p hp => ?_
  obtain ⟨parts, approved⟩ := prepare_of_ok hp
  exact planWith_follows parts approved

end Validator
end BearerAuth
