import BearerAuth.Proofs.Validator.Rejection

/-!
# BearerAuth — tokens that name no key

A token that names no key is tried with the keys that fit its algorithm, the best match first, until
one of them confirms the signature. Which one that is depends on the order of the keys; what is said
of the token does not. The verdict (`Validator.Verdict`) is described by what keys there are: if one
of them confirms the signature, the payload and its claims decide, of which no key knows anything;
otherwise it only matters whether a key fits at all.

This rests on two facts about a single key. A key that fits can only fail for a wrong signature, so
that no key stops the search before its end. And a key that does not fit is never tried.

Main results:

* `Verdict.settled`   — trying the keys in order arrives at the verdict.
* `order_independent` — validations end with the verdict, whatever the order of the keys, and more
  keys never turn an acceptance into a rejection.
-/

namespace BearerAuth

variable {v : Validator} {token : String} {now : UnixTime} {d : Decomposed} {a : Algorithm}
  {k : Key} {s : Snapshot}

namespace Validator

/-! ## The verdict -/

/-- What is said of a token that names no key, given the keys that there are. -/
inductive Verdict (v : Validator) (d : Decomposed) (keys : List Key) (now : UnixTime) :
    ValidationResult → Prop
  /-- The algorithm is not approved, whatever the keys are. -/
  | unapproved {e : ValidationError} (refused : v.approved d = .error e) :
      Verdict v d keys now (.error e)
  /-- Some key confirms the signature. Which one it is does not show in the result. -/
  | confirmed {a : Algorithm} {k : Key} (approved : v.approved d = .ok a) (mem : k ∈ keys)
      (compatible : k.isCompatible a = true)
      (confirms : k.verify a (Bytes.ofString d.message) d.signature = .ok ()) :
      Verdict v d keys now ((d.checkedClaims v.rules now).mapError (.ofTokenError a))
  /-- There are keys to try, and none of them confirms the signature. -/
  | unconfirmed {a : Algorithm} (approved : v.approved d = .ok a)
      (compatible : ∃ k ∈ keys, k.isCompatible a = true)
      (unconfirmed : ∀ k ∈ keys, k.isCompatible a = true →
        k.verify a (Bytes.ofString d.message) d.signature ≠ .ok ()) :
      Verdict v d keys now (.error .invalidSignature)
  /-- There are no keys to try. -/
  | unknown {a : Algorithm} (approved : v.approved d = .ok a)
      (incompatible : ∀ k ∈ keys, k.isCompatible a = false) :
      Verdict v d keys now (.error (.unknownKey none))

section Verdict

variable {keys keys' : List Key} {r : ValidationResult} {c : Claims}

/-- The verdict depends on what keys there are, and on nothing else about them, such as their order
or how often they are listed. -/
theorem Verdict.congr (same : ∀ k, k ∈ keys ↔ k ∈ keys') (verdict : v.Verdict d keys now r) :
    v.Verdict d keys' now r := by
  cases verdict with
  | unapproved refused => exact .unapproved refused
  | confirmed approved mem compatible confirms =>
    exact .confirmed approved ((same _).mp mem) compatible confirms
  | unconfirmed approved compatible unconfirmed =>
    obtain ⟨k, mem, compatible⟩ := compatible
    exact .unconfirmed approved ⟨k, (same k).mp mem, compatible⟩
      fun l hl => unconfirmed l ((same l).mpr hl)
  | unknown approved incompatible =>
    exact .unknown approved fun l hl => incompatible l ((same l).mpr hl)

/-- A token that is accepted is accepted with more keys. No verdict but the one of a key that
confirms the signature can be an acceptance. -/
theorem Verdict.extend (more : keys ⊆ keys') (accepted : v.Verdict d keys now (.ok c)) :
    v.Verdict d keys' now (.ok c) := by
  generalize hr : (Except.ok c : ValidationResult) = r at accepted
  -- only a key that confirms the signature can lead to this, and it is still there
  cases accepted with
  | unapproved _ => cases hr
  | unconfirmed _ _ _ => cases hr
  | unknown _ _ => cases hr
  | confirmed approved mem compatible confirms =>
    exact .confirmed approved (more mem) compatible confirms

/-- There is always a verdict, and by `plan_settled_eq_iff` it is the only one. So a verdict
determines the result of a validation, and not only whether the token is accepted. -/
theorem exists_verdict (v : Validator) (d : Decomposed) (keys : List Key) (now : UnixTime) :
    ∃ r, v.Verdict d keys now r := by
  cases approved : v.approved d with
  | error e => exact ⟨_, .unapproved approved⟩
  | ok a =>
    -- first whether there is a key to try, then whether one confirms
    by_cases compatible : ∃ k ∈ keys, k.isCompatible a = true
    · by_cases confirmed : ∃ k ∈ keys, k.isCompatible a = true ∧
          k.verify a (Bytes.ofString d.message) d.signature = .ok ()
      · obtain ⟨k, mem, fits, confirms⟩ := confirmed
        exact ⟨_, .confirmed approved mem fits confirms⟩
      · exact ⟨_, .unconfirmed approved compatible
          fun k mem fits confirms => confirmed ⟨k, mem, fits, confirms⟩⟩
    · exact ⟨_, .unknown approved
        fun k mem => Bool.eq_false_iff.mpr fun fits => compatible ⟨k, mem, fits⟩⟩

end Verdict

/-! ## Trying keys in order -/

/-- A key of the set that can be tried. -/
theorem mem_compatible_of_isCompatible (mem : k ∈ s.keys.keys) (h : k.isCompatible a = true) :
    k ∈ s.keys.compatible a :=
  KeySet.mem_compatible_iff.mpr ⟨mem, Key.isCompatible_iff.mp h⟩

/-- Trying the keys of a set in order arrives at the verdict about them. In each case the keys that
fit are those that can be tried, and the order in which they are tried drops out. -/
theorem Verdict.settled {r : ValidationResult} (approved : v.approved d = .ok a)
    (verdict : v.Verdict d s.keys.keys now r) : v.settleUnnamed d a (.ok s) now = r := by
  have known : d.header.algorithm? = some a := (approved_eq_ok_iff.mp approved).1
  have fits : ∀ k ∈ s.keys.compatible a, k.Fits a :=
    fun k hk => (KeySet.mem_compatible_iff.mp hk).2
  show v.tryKeys d a now false (s.keys.compatible a) = r
  cases verdict with
  | unapproved refused =>
    rw [approved] at refused
    cases refused
  | confirmed approved' mem compatible confirms =>
    obtain rfl := Except.ok.inj (approved.symm.trans approved')
    have accepts := (Key.verify_eq_ok_iff.mp confirms).2
    exact tryKeys_of_accepts known fits
      ⟨_, mem_compatible_of_isCompatible mem compatible, accepts⟩ false
  | unconfirmed approved' compatible unconfirmed =>
    obtain rfl := Except.ok.inj (approved.symm.trans approved')
    -- every key that is tried leads on to the next one, and there is one
    have mismatch : ∀ k ∈ s.keys.compatible a,
        ¬ k.material.accepts a (Bytes.ofString d.message) d.signature = true := by
      intro k hk accepts
      obtain ⟨mem, hfits⟩ := KeySet.mem_compatible_iff.mp hk
      exact unconfirmed k mem (Key.isCompatible_iff.mpr hfits)
        (Key.verify_eq_ok_iff.mpr ⟨hfits, accepts⟩)
    obtain ⟨k, mem, compatible⟩ := compatible
    have nonempty : s.keys.compatible a ≠ [] :=
      List.ne_nil_of_mem (mem_compatible_of_isCompatible mem compatible)
    rw [tryKeys_of_unconfirmed known fits mismatch, List.isEmpty_eq_false_iff.mpr nonempty]
    rfl
  | unknown approved' incompatible =>
    obtain rfl := Except.ok.inj (approved.symm.trans approved')
    -- a key that is tried would be one that fits
    have empty : s.keys.compatible a = [] := by
      refine List.eq_nil_iff_forall_not_mem.mpr fun k hk => ?_
      obtain ⟨mem, hfits⟩ := KeySet.mem_compatible_iff.mp hk
      have refused := incompatible k mem
      rw [Key.isCompatible_iff.mpr hfits] at refused
      cases refused
    rw [empty]
    rfl

section Plan

variable {n : Nat} (source : v.source = .cache n) (lax : v.requireKeyId = false)
  (parts : Decomposed.ofToken token = .ok d) (unnamed : d.header.keyId = none)

include source lax parts unnamed

/-- What is planned for a token that names no key, if it need not name one: all keys of the cache
are looked up, unless its algorithm is not approved. -/
theorem plan_of_unnamed :
    v.plan token now =
      match v.approved d with
      | .error e => .decided (.error e)
      | .ok a => .lookup n .all (v.settleUnnamed d a) := by
  unfold plan
  rw [parts]
  simp only [mapError_ok, source, unnamed, lax]
  cases v.approved d <;> rfl

/-- The stages of a validation arrive at the verdict about the keys that the lookup ends with. The
verdict speaks of the keys as a set, and so the order in which they are tried is gone. -/
theorem plan_settled_eq_iff {r : ValidationResult} :
    (v.plan token now).settled (.ok s) now = r ↔ v.Verdict d s.keys.keys now r := by
  have arrives : ∀ r, v.Verdict d s.keys.keys now r →
      (v.plan token now).settled (.ok s) now = r := by
    intro r verdict
    rw [plan_of_unnamed source lax parts unnamed]
    cases approved : v.approved d with
    | ok a => exact verdict.settled approved
    | error e =>
      cases verdict with
      | unapproved refused =>
        -- the algorithm was refused, and no other verdict is possible
        obtain rfl := Except.error.inj (approved.symm.trans refused)
        rfl
      | confirmed approved' | unconfirmed approved' | unknown approved' =>
        rw [approved] at approved'
        cases approved'
  constructor
  · -- there is some verdict, and the stages arrive at it
    rintro rfl
    obtain ⟨r, verdict⟩ := v.exists_verdict d s.keys.keys now
    rw [arrives r verdict]
    exact verdict
  · exact arrives r

end Plan

end Validator

/-! ## Validations -/

namespace Validation

variable {σ : Type u} {ask : σ → Option ProviderAnswer × σ} {keys : KeySet}
  {p : Poll Suspension ValidationResult}

/-- How a validation of the token ends at a time, if its lookup ends with these keys: a validation
that is started and finds the keys at once, or one that had to wait for them. -/
inductive Concludes (ask : σ → Option ProviderAnswer × σ) (v : Validator) (token : String)
    (now : UnixTime) (keys : KeySet) : Poll Suspension ValidationResult → Prop
  | started {cs : Caches σ} {s : Snapshot} (holds : s.keys = keys)
      (finds : Finds ask cs v token now (.ok s)) :
      Concludes ask v token now keys (start ask [v] token now cs).1
  | resumed {cs : Caches σ} {w : Suspension} {s : Snapshot} (holds : s.keys = keys)
      (waits : Waits ask v token w)
      (found : ((cs w.cache).poll ask w.lookup now).1 = .done (.ok s)) :
      Concludes ask v token now keys (resume ask w now cs).1

/-- A validation ends with what its plan comes to. -/
theorem Concludes.settled (h : Concludes ask v token now keys p) :
    ∃ s, s.keys = keys ∧ p = .done ((v.plan token now).settled (.ok s) now) := by
  cases h with
  | started holds finds => exact ⟨_, holds, start_settled finds⟩
  | resumed holds waits found => exact ⟨_, holds, resume_settled waits found⟩

/-- What the keys that there are have to say about a token that names none. -/
structure OrderFree (ask : σ → Option ProviderAnswer × σ) (v : Validator) (token : String)
    (d : Decomposed) (now : UnixTime) (keys : KeySet) : Prop where
  /-- A validation that ends with these keys ends with the verdict about them. -/
  judged : ∀ p, Concludes ask v token now keys p →
    ∃ r, p = .done r ∧ ∀ r', r = r' ↔ v.Verdict d keys.keys now r'
  /-- With the keys in another order it ends in the same way. -/
  reordered : ∀ keys' : KeySet, keys'.keys.Perm keys.keys →
    ∀ p p', Concludes ask v token now keys p → Concludes ask v token now keys' p' → p' = p
  /-- With more keys, wherever they stand, it accepts a token that it accepts with these. -/
  extended : ∀ keys' : KeySet, keys.keys ⊆ keys'.keys →
    ∀ p p' c, Concludes ask v token now keys p → Concludes ask v token now keys' p' →
      p = .done (.ok c) → p' = .done (.ok c)

/-- **Independence of the order.** Whatever keys a lookup ends with, a token that names none of them
is accepted or rejected for what keys there are and not for how they are listed. Each result is the
verdict about the keys as a set, so it is the same for every order of them, and more keys never undo
an acceptance. -/
theorem order_independent (ask : σ → Option ProviderAnswer × σ) {n : Nat}
    (source : v.source = .cache n) (lax : v.requireKeyId = false)
    (parts : Decomposed.ofToken token = .ok d) (unnamed : d.header.keyId = none) (now : UnixTime)
    (keys : KeySet) : OrderFree ask v token d now keys := by
  have judged : ∀ keys p, Concludes ask v token now keys p →
      ∃ r, p = .done r ∧ ∀ r', r = r' ↔ v.Verdict d keys.keys now r' := by
    intro keys p concludes
    obtain ⟨s, rfl, rfl⟩ := concludes.settled
    exact ⟨_, rfl, fun r' => Validator.plan_settled_eq_iff source lax parts unnamed⟩
  refine ⟨judged keys, ?_, ?_⟩
  · intro keys' perm p p' concludes concludes'
    obtain ⟨r, rfl, verdict⟩ := judged keys p concludes
    obtain ⟨r', rfl, verdict'⟩ := judged keys' p' concludes'
    -- the verdict about the one list is the verdict about the other
    have same : v.Verdict d keys'.keys now r :=
      ((verdict r).mp rfl).congr fun k => perm.mem_iff.symm
    rw [(verdict' r).mpr same]
  · intro keys' more p p' c concludes concludes' accepted
    obtain ⟨r, rfl, verdict⟩ := judged keys p concludes
    obtain ⟨r', rfl, verdict'⟩ := judged keys' p' concludes'
    obtain rfl := Poll.done.inj accepted
    have kept : v.Verdict d keys'.keys now (.ok c) := ((verdict (.ok c)).mp rfl).extend more
    rw [(verdict' (.ok c)).mpr kept]

/-- Caches that hold these keys. -/
def exampleCaches (keys : KeySet) : Caches Unit :=
  fun _ => { provider := (), cached := some (.of keys ⟨0⟩ 0), made := 1 }

/-- The key of the token behind one for encryption only and one that looks like a better match. -/
def exampleKeys : KeySet :=
  ⟨[exampleKey.withUsage .encryption, { material := .secret [2], usage := some .signing },
    exampleKey]⟩

/-- The key of the token is found among others, in whichever order they are. One of the others fits
too, and does not confirm the signature. -/
theorem order_independent_shuffled :
    let ask : Unit → Option ProviderAnswer × Unit := fun u => (none, u)
    let validated (keys : KeySet) :=
      (start ask [exampleUnnamed] exampleToken ⟨1⟩ (exampleCaches keys)).1
    ∃ c, validated exampleKeys = .done (.ok c) ∧
      validated ⟨exampleKeys.keys.reverse⟩ = .done (.ok c) := by
  intro ask validated
  -- the token names no key, and the last of the keys confirms it
  have verified : (Token.verify exampleToken exampleKey exampleUnnamed.rules ⟨1⟩).toOption.map
      (fun p => (p.1.algorithm?, p.1.keyId)) = some (some .hs256, none) := by
    decide +kernel
  cases passes : Token.verify exampleToken exampleKey exampleUnnamed.rules ⟨1⟩ with
  | error e =>
    rw [passes] at verified
    cases verified
  | ok p =>
    rw [passes] at verified
    obtain ⟨known, unnamed⟩ := Prod.mk.inj (Option.some.inj verified)
    obtain ⟨d, parts, rest⟩ := bind_eq_ok_iff.mp passes
    obtain ⟨c, passed, hp⟩ := bind_eq_ok_iff.mp rest
    cases hp
    obtain ⟨⟨fits, accepts⟩, -, approves, -⟩ := (Decomposed.verify_eq_ok_iff known).mp passed
    have claims : (d.checkedClaims exampleUnnamed.rules ⟨1⟩).mapError
        (ValidationError.ofTokenError .hs256) = .ok c := by
      rw [← Validator.checkWith_of_accepts known fits accepts]
      exact mapError_eq_ok_iff.mpr passed
    have verdict : exampleUnnamed.Verdict d exampleKeys.keys ⟨1⟩ (.ok c) := by
      rw [← claims]
      exact .confirmed (Validator.approved_eq_ok_iff.mpr ⟨known, approves⟩) (by decide)
        (Key.isCompatible_iff.mpr fits) (Key.verify_eq_ok_iff.mpr ⟨fits, accepts⟩)
    have concludes : ∀ keys,
        Concludes ask exampleUnnamed exampleToken ⟨1⟩ keys (validated keys) := by
      intro keys
      refine .started (s := .of keys ⟨0⟩ 0) rfl fun n q ⟨t, settle, hplan⟩ => ?_
      rw [Validator.plan_of_unnamed rfl rfl parts unnamed,
        Validator.approved_eq_ok_iff.mpr ⟨known, approves⟩] at hplan
      cases hplan
      have fresh : (exampleCaches keys 0).isStale (.of keys ⟨0⟩ 0) ⟨1⟩ = false := by
        simp [Client.isStale, exampleCaches, Snapshot.of, UnixTime.secondsSince]
      rw [Client.poll_of_answered ask (Client.engage_of_hit rfl rfl fresh rfl)]
    have free : OrderFree ask exampleUnnamed exampleToken d ⟨1⟩ exampleKeys :=
      order_independent ask rfl rfl parts unnamed ⟨1⟩ exampleKeys
    obtain ⟨r, done, judged⟩ := free.judged _ (concludes exampleKeys)
    obtain rfl := (judged (.ok c)).mpr verdict
    refine ⟨c, done, ?_⟩
    rw [← done]
    exact free.reordered _ (List.reverse_perm exampleKeys.keys) _ _ (concludes _) (concludes _)

end Validation
end BearerAuth
