import BearerAuth.Proofs.KeyCache.Index
import BearerAuth.Proofs.KeyCache.Steps
import BearerAuth.Proofs.Validator.Keys
import BearerAuth.Proofs.Validator.Steps

/-!
# BearerAuth — which tokens a validator accepts

A configured validator accepts a token exactly if the token is readable, is signed with an algorithm
that the configuration allows, carries a signature that a key confirms which the validator is to
use, and has claims that the configuration demands (`Acceptable`). The description mentions no
stages, no order of keys and no index. In the layers below, an empty list of algorithms, issuers or
audiences stands for anything; a configured validator never leaves one empty.

A validation may have to wait for keys. Then it counts which keys there are when the lookup ends,
and what time it is then.

Main results:

* `plan_settled_iff`  — the stages before the keys and those after them, put together.
* `acceptance_exact`  — a validation, whether it had to wait or not, ends with the claims of the
  token exactly if the token is acceptable.
-/

namespace BearerAuth

variable {config : ValidatorConfig} {v : Validator} {token : String} {now : UnixTime} {c : Claims}

/-! ## What is acceptable -/

/-- Where a validator is configured to find keys. -/
inductive KeyOrigin where
  /-- In the key cache with this number. -/
  | cache (number : Nat)
  /-- In a shared secret. -/
  | secret (bytes : Bytes)

namespace KeyOrigin

/-- The validator of a configuration. -/
def validator (config : ValidatorConfig) : KeyOrigin → Except ConfigError Validator
  | .cache n => Validator.asymmetric config n
  | .secret s => Validator.symmetric config s

/-- The algorithm that is allowed if none is configured. -/
def defaultAlgorithm : KeyOrigin → Algorithm
  | .cache _ => .rs256
  | .secret _ => .hs256

/-- The key is one that a token which names this key, or none, may be confirmed with. -/
inductive Offers (config : ValidatorConfig) (keys : KeySet) (named : Option String) :
    KeyOrigin → Key → Prop
  | secret (s : Bytes) : Offers config keys named (.secret s) { material := .secret s }
  | named {n : Nat} {id : String} {k : Key} (names : named = some id)
    (first : keys.keys.find? (·.id == some id) = some k) : Offers config keys named (.cache n) k
  | unnamed {n : Nat} {k : Key} (names : named = none) (allowed : config.requireKeyId = false)
    (mem : k ∈ keys.keys) : Offers config keys named (.cache n) k

end KeyOrigin

namespace ValidatorConfig

/-- The algorithms that are allowed. -/
def allowed (config : ValidatorConfig) (default : Algorithm) : List Algorithm :=
  if config.algorithms = [] then [default] else config.algorithms

/-- What a configuration demands of claims at a time. -/
structure Demands (config : ValidatorConfig) (c : Claims) (now : UnixTime) : Prop where
  expiration : ∃ t, c.expiration = .ok (some t) ∧
    now.seconds.toNat < min (t.seconds.toNat + config.leeway.toNat) ClaimRules.lastSecond
  notBefore : c.notBefore = .ok none ∨ ∃ t, c.notBefore = .ok (some t) ∧
    t.seconds.toNat ≤ min (now.seconds.toNat + config.leeway.toNat) ClaimRules.lastSecond
  issuer : ∃ iss, c.issuer = .ok (some iss) ∧ iss ∈ config.issuers
  audience : ∃ aud, c.audience = .ok aud ∧ ∃ a ∈ aud.list, a ∈ config.audiences

end ValidatorConfig

/-- The token has these claims and is acceptable at a time, given a key set. -/
def Acceptable (config : ValidatorConfig) (origin : KeyOrigin) (token : String) (now : UnixTime)
    (keys : KeySet) (c : Claims) : Prop :=
  ∃ header message signature a k,
    Reads token header c message signature ∧
    a.name = header.algorithmName ∧
    a ∈ config.allowed origin.defaultAlgorithm ∧
    origin.Offers config keys header.keyId k ∧
    k.Fits a ∧
    k.material.accepts a (Bytes.ofString message) signature = true ∧
    config.Demands c now

/-! ## Configured validators -/

/-- A validator as it comes from a configuration. -/
structure Configured (config : ValidatorConfig) (origin : KeyOrigin) (v : Validator) : Prop where
  issuers_ne : config.issuers ≠ []
  audiences_ne : config.audiences ≠ []
  rules : v.rules = {
    algorithms := config.allowed origin.defaultAlgorithm
    issuers := config.issuers
    audiences := config.audiences
    leeway := config.leeway }
  /-- The source of keys, and whether a token must name its key. -/
  source : match origin with
    | .cache n => v.source = .cache n ∧ v.requireKeyId = config.requireKeyId
    | .secret s => v.source = .secret { material := .secret s }

/-- A configuration has rules only if it names issuers and audiences, and then they are the rules
that one expects: the lists as they were configured, and every check made. -/
theorem ValidatorConfig.rules_eq_ok {default : Algorithm} {r : ClaimRules}
    (h : config.rules default = .ok r) :
    config.issuers ≠ [] ∧ config.audiences ≠ [] ∧ r = {
      algorithms := config.allowed default
      issuers := config.issuers
      audiences := config.audiences
      leeway := config.leeway } := by
  unfold rules at h
  split at h
  · cases h
  · -- rules are made only if both lists have something in them
    next issuers =>
    split at h
    · cases h
    · next audiences =>
      cases h
      refine ⟨by simpa using issuers, by simpa using audiences, ?_⟩
      unfold allowed
      simp only [List.isEmpty_iff]

/-- Whatever the origin of the keys is, a validator that could be made is one that was configured:
its rules are those of the configuration and its source is the origin. -/
theorem KeyOrigin.configured {origin : KeyOrigin} (h : origin.validator config = .ok v) :
    Configured config origin v := by
  cases origin with
  | cache n =>
    unfold validator Validator.asymmetric at h
    obtain ⟨r, hr, hv⟩ := bind_eq_ok_iff.mp h
    cases hv
    obtain ⟨issuers, audiences, rules⟩ := ValidatorConfig.rules_eq_ok hr
    exact ⟨issuers, audiences, rules, rfl, rfl⟩
  | secret s =>
    -- for a secret there are two more checks, neither of which changes the rules
    unfold validator Validator.symmetric at h
    dsimp only at h
    split at h
    · cases h
    · split at h
      · cases h
      · obtain ⟨r, hr, hv⟩ := bind_eq_ok_iff.mp h
        cases hv
        obtain ⟨issuers, audiences, rules⟩ := ValidatorConfig.rules_eq_ok hr
        exact ⟨issuers, audiences, rules, rfl⟩

namespace Configured

variable {origin : KeyOrigin}

/-- There is always an algorithm that is allowed, if only the default one. -/
theorem allowed_ne (config : ValidatorConfig) (default : Algorithm) :
    config.allowed default ≠ [] := by
  unfold ValidatorConfig.allowed
  split
  · simp
  · assumption

/-- The list of algorithms is never empty, so that only algorithms of the list are approved. With an
empty list any algorithm would be. -/
theorem approves_iff (h : Configured config origin v) {a : Algorithm} :
    v.rules.approves a = true ↔ a ∈ config.allowed origin.defaultAlgorithm := by
  unfold ClaimRules.approves
  rw [h.rules]
  simp [allowed_ne]

/-- Neither the issuers nor the audiences are an empty list, which would stand for anyone. So the
rules are what the configuration demands, in full. -/
theorem meets_iff (h : Configured config origin v) :
    v.rules.Meets c now ↔ config.Demands c now := by
  rw [h.rules]
  constructor
  · rintro ⟨expiration, notBefore, issuer, audience⟩
    exact ⟨expiration rfl, notBefore rfl, issuer h.issuers_ne, audience h.audiences_ne⟩
  · rintro ⟨expiration, notBefore, issuer, audience⟩
    exact ⟨fun _ => expiration, fun _ => notBefore, fun _ => issuer, fun _ => audience⟩

end Configured

/-! ## The stages of a validation -/

variable {origin : KeyOrigin} {d : Decomposed} {a : Algorithm} {keys : KeySet}

/-- What is acceptable about a token that was taken apart. The relation `Reads` between a text and
its parts, from which acceptability is defined, is traded for the parts that the code has. -/
theorem acceptable_iff (hd : Decomposed.ofToken token = .ok d) :
    Acceptable config origin token now keys c ↔
      ∃ a, (d.header.algorithm? = some a ∧ a ∈ config.allowed origin.defaultAlgorithm) ∧
        ∃ k, origin.Offers config keys d.header.keyId k ∧
          (k.Fits a ∧ k.material.accepts a (Bytes.ofString d.message) d.signature = true) ∧
          d.claims = .ok c ∧ config.Demands c now := by
  constructor
  · rintro ⟨header, message, signature, a, k, reads, ha, allowed, offers, fits, accepts, demands⟩
    obtain ⟨d', hd', rfl, claims, rfl, rfl⟩ := reads_iff.mp reads
    obtain rfl : d = d' := Except.ok.inj (hd.symm.trans hd')
    -- a name that was made of an algorithm is read as it
    have known : d.header.algorithm? = some a := by
      unfold Header.algorithm?
      rw [← ha, Algorithm.ofName?_name]
    exact ⟨a, ⟨known, allowed⟩, k, offers, ⟨fits, accepts⟩, claims, demands⟩
  · rintro ⟨a, ⟨known, allowed⟩, k, offers, ⟨fits, accepts⟩, claims, demands⟩
    exact ⟨d.header, d.message, d.signature, a, k, reads_iff.mpr ⟨d, hd, rfl, claims, rfl, rfl⟩,
      Algorithm.name_of_ofName? known, allowed, offers, fits, accepts, demands⟩

namespace Validator

/-- The algorithm of a header is approved if it has a known name and the rules allow it. Names are
not compared any further: from here on it is an algorithm. -/
theorem approved_eq_ok_iff :
    v.approved d = .ok a ↔ d.header.algorithm? = some a ∧ v.rules.approves a = true := by
  unfold approved
  cases d.header.algorithm? with
  | none => simp
  -- an algorithm that is known still has to be approved
  | some b =>
    dsimp only
    constructor
    · intro h
      split at h
      · next hb =>
        cases h
        exact ⟨rfl, hb⟩
      · cases h
    · rintro ⟨hb, happ⟩
      cases hb
      rw [if_pos happ]

/-- The result of a plan whose lookup, if it makes one, ends with an outcome. -/
def Plan.settled (o : FetchOutcome) (now : UnixTime) : Plan → ValidationResult
  | .decided r => r
  | .lookup _ _ settle => settle o now

/-- A token that names a key is checked with the first key of that name. If that one does not accept
the token, no other key of the same name is tried. -/
theorem settleNamed_eq_ok_iff {id : String} {s : Snapshot} :
    v.settleNamed d a id (.ok s) now = .ok c ↔
      ∃ k, s.keys.keys.find? (·.id == some id) = some k ∧ v.checkWith d a k now = .ok c := by
  unfold settleNamed FetchOutcome.key
  dsimp only
  rw [Snapshot.get?_eq_find?, KeySet.find?]
  cases s.keys.keys.find? (·.id == some id) with
  | none => simp
  | some k => simp

/-- A token that names no key is as good as with any one of the keys. The order in which they are
tried has gone, and so has the restriction to keys that fit, since a key that accepts the token
fits. -/
theorem settleUnnamed_eq_ok_iff (ha : d.header.algorithm? = some a) {s : Snapshot} :
    v.settleUnnamed d a (.ok s) now = .ok c ↔
      ∃ k ∈ s.keys.keys, v.checkWith d a k now = .ok c := by
  unfold settleUnnamed
  dsimp only
  rw [tryKeys_eq_ok_iff ha fun k hk => (KeySet.mem_compatible_iff.mp hk).2]
  constructor
  · rintro ⟨k, hk, hok⟩
    exact ⟨k, (KeySet.mem_compatible_iff.mp hk).1, hok⟩
  · rintro ⟨k, hk, hok⟩
    have fits : k.Fits a := ((checkWith_eq_ok_iff ha).mp hok).1.1
    exact ⟨k, KeySet.mem_compatible_iff.mpr ⟨hk, fits⟩, hok⟩

/-- The stages after the algorithm was approved: a key that the origin offers accepts the token.
Each case is one way to offer a key: the secret, a key of the snapshot with the name that the token
gives, or any key of the snapshot that fits if the token gives none. -/
theorem plan_settled_of_approved (h : Configured config origin v)
    (hd : Decomposed.ofToken token = .ok d) (ha : v.approved d = .ok a) {s : Snapshot} :
    (v.plan token now).settled (.ok s) now = .ok c ↔
      ∃ k, origin.Offers config s.keys d.header.keyId k ∧ v.checkWith d a k now = .ok c := by
  have known := (approved_eq_ok_iff.mp ha).1
  have source := h.source
  unfold plan
  rw [hd]
  simp only [mapError_ok, ha]
  cases origin with
  | secret bytes =>
    -- there is one key, whatever the token names
    rw [source]
    constructor
    · intro hok
      exact ⟨_, .secret bytes, hok⟩
    · rintro ⟨_, ⟨⟩, hok⟩
      exact hok
  | cache n =>
    obtain ⟨source, required⟩ := source
    rw [source]
    cases named : d.header.keyId with
    | some id =>
      show v.settleNamed d a id (.ok s) now = .ok c ↔ _
      rw [settleNamed_eq_ok_iff]
      constructor
      · rintro ⟨k, first, hok⟩
        exact ⟨k, .named rfl first, hok⟩
      · rintro ⟨k, offers, hok⟩
        cases offers with
        | named names first =>
          cases names
          exact ⟨k, first, hok⟩
        | unnamed names _ _ => cases names
    | none =>
      dsimp only
      rw [required]
      cases must : config.requireKeyId with
      | true =>
        -- the token must name a key and does not
        refine ⟨nofun, ?_⟩
        rintro ⟨k, offers, -⟩
        cases offers with
        | named names _ => cases names
        | unnamed _ allowed _ =>
          rw [must] at allowed
          cases allowed
      | false =>
        show v.settleUnnamed d a (.ok s) now = .ok c ↔ _
        rw [settleUnnamed_eq_ok_iff known]
        constructor
        · rintro ⟨k, mem, hok⟩
          exact ⟨k, .unnamed rfl must mem, hok⟩
        · rintro ⟨k, offers, hok⟩
          cases offers with
          | named names _ => cases names
          | unnamed _ _ mem => exact ⟨k, mem, hok⟩

/-- **All stages**, for a lookup that ends with a snapshot. Each stage that fails is matched with
the part of `Acceptable` that does not hold. -/
theorem plan_settled_iff (h : Configured config origin v) {s : Snapshot} :
    (v.plan token now).settled (.ok s) now = .ok c ↔
      Acceptable config origin token now s.keys c := by
  cases hd : Decomposed.ofToken token with
  | error e =>
    -- not readable
    have rejected : v.plan token now = .decided (.error (.invalidFormat e)) := by
      unfold plan
      rw [hd]
      rfl
    rw [rejected]
    refine ⟨nofun, ?_⟩
    rintro ⟨_, _, _, _, _, reads, -⟩
    obtain ⟨d, hd', -⟩ := reads_iff.mp reads
    rw [hd] at hd'
    cases hd'
  | ok d =>
    rw [acceptable_iff hd]
    cases ha : v.approved d with
    | error e =>
      -- the algorithm is unknown, or is not allowed
      have rejected : v.plan token now = .decided (.error e) := by
        unfold plan
        rw [hd]
        simp only [mapError_ok, ha]
      rw [rejected]
      refine ⟨nofun, ?_⟩
      rintro ⟨a, ⟨known, allowed⟩, -⟩
      rw [approved_eq_ok_iff.mpr ⟨known, h.approves_iff.mpr allowed⟩] at ha
      cases ha
    | ok a =>
      obtain ⟨known, approved⟩ := approved_eq_ok_iff.mp ha
      rw [plan_settled_of_approved h hd ha]
      -- a key accepts the token, and this says all that is left of being acceptable
      constructor
      · rintro ⟨k, offers, hok⟩
        obtain ⟨confirmed, claims, -, meets⟩ := (checkWith_eq_ok_iff known).mp hok
        exact ⟨a, ⟨known, h.approves_iff.mp approved⟩, k, offers, confirmed, claims,
          h.meets_iff.mp meets⟩
      · rintro ⟨b, ⟨known', -⟩, k, offers, confirmed, claims, demands⟩
        obtain rfl : a = b := Option.some.inj (known.symm.trans known')
        exact ⟨k, offers, (checkWith_eq_ok_iff known).mpr
          ⟨confirmed, claims, approved, h.meets_iff.mpr demands⟩⟩

/-- What keys are needed does not depend on the time, and neither does what is made of them later.
So a plan that was made when the validation began is as good as one that is made when it ends. -/
theorem plan_of_lookup {n : Nat} {q : Query} {settle : FetchOutcome → UnixTime → ValidationResult}
    {t : UnixTime} (h : v.plan token t = .lookup n q settle) (now : UnixTime) :
    v.plan token now = .lookup n q settle := by
  unfold plan at h ⊢
  -- nothing up to the lookup looks at the clock
  cases hd : Decomposed.ofToken token with
  | error e =>
    rw [hd] at h
    cases h
  | ok d =>
    rw [hd] at h
    simp only [mapError_ok] at h ⊢
    cases ha : v.approved d with
    | error e =>
      rw [ha] at h
      cases h
    | ok a =>
      rw [ha] at h
      dsimp only at h ⊢
      cases hs : v.source with
      | secret k =>
        rw [hs] at h
        cases h
      | cache m =>
        rw [hs] at h
        cases hk : d.header.keyId with
        | some id =>
          rw [hk] at h
          exact h
        | none =>
          rw [hk] at h
          exact h

end Validator

/-! ## Validations -/

namespace Validation

variable {σ : Type u} {ask : σ → Option ProviderAnswer × σ} {cs : Caches σ}

/-- The validation of a token needs keys of a cache. -/
def Asks (v : Validator) (token : String) (n : Nat) (q : Query) : Prop :=
  ∃ t settle, v.plan token t = .lookup n q settle

/-- Which keys are needed can be read off the plan at any one time. Whether they are found depends
on the time, and what is asked for does not. -/
theorem asks_iff_asked (now : UnixTime) {n : Nat} {q : Query} :
    Asks v token n q ↔ (v.plan token now).asked = some (n, q) := by
  constructor
  · rintro ⟨t, settle, hp⟩
    -- whoever asks at one time asks at any other
    rw [v.plan_of_lookup hp now]
    rfl
  · intro asked
    cases hp : v.plan token now with
    | decided r =>
      rw [hp] at asked
      cases asked
    | lookup m p settle =>
      rw [hp] at asked
      cases asked
      exact ⟨now, settle, hp⟩

/-- With a secret no keys are looked up, whatever the token names. -/
theorem not_asks_of_secret {k : Key} (h : v.source = .secret k) (n : Nat) (q : Query) :
    ¬ Asks v token n q := by
  rintro ⟨t, settle, hp⟩
  unfold Validator.plan at hp
  split at hp
  · cases hp
  · split at hp
    · cases hp
    · rw [h] at hp
      cases hp

/-- A validation of a token that had to wait each time it was polled. Whatever happened to the
caches in between, it may be polled again at any time. -/
inductive Waits (ask : σ → Option ProviderAnswer × σ) (v : Validator) (token : String) :
    Suspension → Prop
  | started {now : UnixTime} {cs : Caches σ} {w : Suspension}
    (h : (start ask [v] token now cs).1 = .pending w) : Waits ask v token w
  | resumed {now : UnixTime} {cs : Caches σ} {w w' : Suspension} (waits : Waits ask v token w)
    (h : (resume ask w now cs).1 = .pending w') : Waits ask v token w'

/-- What a validation that waits is going to do. -/
structure Remembers (v : Validator) (token : String) (w : Suspension) : Prop where
  plan : ∀ t, v.plan token t = .lookup w.cache w.lookup.query w.settle
  rest : w.rest = []

/-- A lookup that has to wait goes on asking for the same. So the plan of a validation that was
suspended is still about what its lookup will end with. -/
theorem query_of_pending {n : Nat} {l l' : Lookup}
    (h : ((cs n).poll ask l now).1 = .pending l') : l'.query = l.query := by
  obtain ⟨f, -, rfl⟩ := Client.engage_of_pending ask h
  rfl

/-- A validation that waits remembers its plan, however often it was polled and at whatever times.
What it is going to do with the keys is therefore known without its history. -/
theorem Waits.remembers {w : Suspension} (h : Waits ask v token w) : Remembers v token w := by
  induction h with
  | @started now cs w h =>
    cases hp : v.plan token now with
    | decided r =>
      -- then it would be done
      rw [start_of_decided hp] at h
      cases h
    | lookup n q settle =>
      obtain ⟨pending, done⟩ := start_of_lookup ask cs hp
      cases hpoll : ((cs n).poll ask ⟨q, none⟩ now).1 with
      | done o =>
        rw [done o hpoll] at h
        cases h
      | pending l =>
        rw [pending l hpoll] at h
        cases h
        refine ⟨fun t => ?_, rfl⟩
        rw [query_of_pending hpoll]
        exact v.plan_of_lookup hp t
  | @resumed now cs w w' waits h ih =>
    obtain ⟨pending, done⟩ := resume_of_rest ask cs now ih.rest
    cases hpoll : ((cs w.cache).poll ask w.lookup now).1 with
    | done o =>
      rw [done o hpoll] at h
      cases h
    | pending l =>
      rw [pending l hpoll] at h
      cases h
      refine ⟨fun t => ?_, ih.rest⟩
      -- the wait goes on with the same query, and the plan is the same at any time
      rw [query_of_pending hpoll]
      exact ih.plan t

/-- **Exact acceptance.** A configured validator that is started on a token, and needs no keys or
finds them at once, ends with claims exactly if the token has these claims and is acceptable. So
does one that had to wait, any number of times, once its lookup ends with a key set. Which keys
there are and what time it is counts when the validation ends. -/
theorem acceptance_exact (hv : origin.validator config = .ok v)
    (ask : σ → Option ProviderAnswer × σ) (cs : Caches σ) (token : String) (now : UnixTime)
    (keys : KeySet) :
    ((∀ n q, Asks v token n q →
        ∃ s, s.keys = keys ∧ ((cs n).poll ask ⟨q, none⟩ now).1 = .done (.ok s)) →
      ∃ r, (start ask [v] token now cs).1 = .done r ∧
        ∀ c, r = .ok c ↔ Acceptable config origin token now keys c) ∧
    ∀ w, Waits ask v token w →
      (∃ s, s.keys = keys ∧ ((cs w.cache).poll ask w.lookup now).1 = .done (.ok s)) →
      ∃ r, (resume ask w now cs).1 = .done r ∧
        ∀ c, r = .ok c ↔ Acceptable config origin token now keys c := by
  have settled : ∀ s c, (v.plan token now).settled (.ok s) now = .ok c ↔
      Acceptable config origin token now s.keys c :=
    fun s c => Validator.plan_settled_iff (KeyOrigin.configured hv)
  refine ⟨fun found => ?_, fun w waits found => ?_⟩
  · cases hp : v.plan token now with
    | decided r =>
      rw [hp] at settled
      -- no keys are needed, so any snapshot of them will do
      refine ⟨r, ?_, settled (.of keys now 0)⟩
      unfold start run
      rw [hp]
      cases r <;> rfl
    | lookup n q settle =>
      obtain ⟨s, rfl, done⟩ := found n q ⟨now, settle, hp⟩
      rw [hp] at settled
      exact ⟨settle (.ok s) now, (start_of_lookup ask cs hp).2 _ done, settled s⟩
  · obtain ⟨s, rfl, done⟩ := found
    have remembers := waits.remembers
    rw [remembers.plan now] at settled
    exact ⟨w.settle (.ok s) now, (resume_of_rest ask cs now remembers.rest).2 _ done, settled s⟩

/-- A validation that is done has accepted its token. -/
def isAccepted : Poll Suspension ValidationResult → Bool
  | .done (.ok _) => true
  | _ => false

/-- An acceptance that was computed is one of a token with the claims that are required. Which
claims these are need not be computed. -/
theorem exists_of_isAccepted {p : Poll Suspension ValidationResult} {r : ValidationResult}
    {P : Claims → Prop} (done : p = .done r) (required : ∀ c, r = .ok c ↔ P c)
    (accepted : isAccepted p = true) : ∃ c, p = .done (.ok c) ∧ P c := by
  subst done
  cases r with
  | error e => cases accepted
  | ok c => exact ⟨c, rfl, (required c).mp rfl⟩

/-- A rejection that was computed leaves no claims that would do. -/
theorem exists_of_not_isAccepted {p : Poll Suspension ValidationResult} {r : ValidationResult}
    {P : Claims → Prop} (done : p = .done r) (required : ∀ c, r = .ok c ↔ P c)
    (rejected : isAccepted p = false) : (∃ e, p = .done (.error e)) ∧ ¬ ∃ c, P c := by
  subst done
  cases r with
  | ok c => cases rejected
  | error e =>
    refine ⟨⟨e, rfl⟩, ?_⟩
    rintro ⟨c, required'⟩
    cases (required c).mpr required'

/-- A configuration for one issuer and one audience. -/
def exampleConfig : ValidatorConfig := { issuers := ["i"], audiences := ["a"] }

/-- The validator of the configuration with a secret. -/
def exampleValidator : Validator where
  rules := { algorithms := [.hs256], issuers := ["i"], audiences := ["a"] }
  source := .secret { material := .secret [1] }
  requireKeyId := false

/-- A token for the audience, from the issuer, that expires at second 2 and is signed with the
secret. -/
def exampleToken : String :=
  "eyJhbGciOiJIUzI1NiJ9.eyJhdWQiOiJhIiwiZXhwIjoyLCJpc3MiOiJpIn0." ++
    "Tg1ECUb-DXXnCLZYFbZlM3otEBopwCQJ0WXIZPd3YHI"

/-- The same for keys in a cache and tokens that need not name their key. The algorithm is given,
since the one that stands in for it is for public keys. -/
def exampleUnnamedConfig : ValidatorConfig where
  issuers := ["i"]
  audiences := ["a"]
  algorithms := [.hs256]
  requireKeyId := false

/-- The validator of the configuration, with its keys in a cache and for tokens that name none. -/
def exampleUnnamed : Validator := { exampleValidator with source := .cache 0 }

/-- The key of the token. -/
def exampleKey : Key := { material := .secret [1] }

/-- A key set with nothing but the key of the token. -/
def exampleSet : KeySet := ⟨[exampleKey]⟩

/-- A provider that has no answer when it is asked for the first time, and the keys from then on. -/
def exampleAsk (asked : Bool) : Option ProviderAnswer × Bool :=
  (if asked then some (.ok exampleSet) else none, true)

/-- Key caches with nothing in them. -/
def exampleEmpty : Caches Bool := fun _ => { provider := false }

/-- Key caches that were filled at second 0. -/
def exampleFilled : Caches Bool := fun n => (exampleEmpty n).setKeys exampleSet ⟨0⟩

/-- The token makes the validator look up all keys of its cache. -/
theorem exampleUnnamed_asked (now : UnixTime) :
    (exampleUnnamed.plan exampleToken now).asked = some (0, .all) := by
  have asked : (exampleUnnamed.plan exampleToken ⟨0⟩).asked = some (0, .all) := by
    decide +kernel
  exact (asks_iff_asked now).mp ((asks_iff_asked ⟨0⟩).mpr asked)

/-- Keys that are in the cache are found there at once. -/
theorem exampleFilled_found
    (asked : (exampleUnnamed.plan token ⟨1⟩).asked = some (0, .all)) {n : Nat} {q : Query}
    (asks : Asks exampleUnnamed token n q) :
    ((exampleFilled n).poll exampleAsk ⟨q, none⟩ ⟨1⟩).1 =
      .done (.ok (.of exampleSet ⟨0⟩ 0)) := by
  rw [asks_iff_asked ⟨1⟩, asked] at asks
  cases asks
  rfl

/-- Without keys the validation has to wait, and leaves a fetch behind that is in flight. The keys
are there when its lookup is polled again. -/
theorem exampleEmpty_waits :
    ∃ w, start exampleAsk [exampleUnnamed] exampleToken ⟨1⟩ exampleEmpty =
        (.pending w, (pollCache exampleAsk exampleEmpty 0 ⟨.all, none⟩ ⟨1⟩).2) ∧
      Waits exampleAsk exampleUnnamed exampleToken w ∧
      ∀ now, (((pollCache exampleAsk exampleEmpty 0 ⟨.all, none⟩ ⟨1⟩).2 w.cache).poll exampleAsk
        w.lookup now).1 = .done (.ok (.of exampleSet now 0)) := by
  have caches := start_snd exampleAsk exampleEmpty exampleUnnamed exampleToken ⟨1⟩
  have waits := awaited_start exampleAsk exampleEmpty exampleUnnamed exampleToken ⟨1⟩
  rw [exampleUnnamed_asked] at caches waits
  -- the poll of an empty cache is pending, with the fetch that it has started
  replace waits : awaited _ = some (0, ⟨.all, some 0⟩) := waits
  cases hp : start exampleAsk [exampleUnnamed] exampleToken ⟨1⟩ exampleEmpty with
  | mk p cs =>
    rw [hp] at caches waits
    cases p with
    | done r => cases waits
    | pending w =>
      obtain ⟨cache, lookup⟩ := Prod.mk.inj (Option.some.inj waits)
      refine ⟨w, Prod.ext rfl caches, .started (congrArg Prod.fst hp), fun now => ?_⟩
      rw [cache, lookup]
      rfl

/-- A validation that had to wait is polled again at a time. -/
def resumedAt (now : UnixTime) :
    Poll Suspension ValidationResult × Caches Bool → Poll Suspension ValidationResult
  | (.pending w, cs) => (resume exampleAsk w now cs).1
  | (p, _) => p

/-- The token is acceptable in the second before it expires, and no longer when it does. So it is
with the secret, with keys that are in the cache, and with keys that had to be waited for: the
validation that was started in time is too late if it ends after the token has expired. -/
theorem acceptance_exact_instances :
    -- with the secret
    (KeyOrigin.validator exampleConfig (.secret [1]) = .ok exampleValidator ∧
      (∃ c, Acceptable exampleConfig (.secret [1]) exampleToken ⟨1⟩ .empty c) ∧
      ¬ ∃ c, Acceptable exampleConfig (.secret [1]) exampleToken ⟨2⟩ .empty c) ∧
    KeyOrigin.validator exampleUnnamedConfig (.cache 0) = .ok exampleUnnamed ∧
    -- answered from the cache
    (∃ c, (start exampleAsk [exampleUnnamed] exampleToken ⟨1⟩ exampleFilled).1 =
        .done (.ok c) ∧
      Acceptable exampleUnnamedConfig (.cache 0) exampleToken ⟨1⟩ exampleSet c) ∧
    -- resumed after a fetch, in time and too late
    ∃ w cs, start exampleAsk [exampleUnnamed] exampleToken ⟨1⟩ exampleEmpty =
        (.pending w, cs) ∧
      (∃ c, (resume exampleAsk w ⟨1⟩ cs).1 = .done (.ok c) ∧
        Acceptable exampleUnnamedConfig (.cache 0) exampleToken ⟨1⟩ exampleSet c) ∧
      (∃ e, (resume exampleAsk w ⟨2⟩ cs).1 = .done (.error e)) ∧
      ¬ ∃ c, Acceptable exampleUnnamedConfig (.cache 0) exampleToken ⟨2⟩ exampleSet c := by
  have hv : KeyOrigin.validator exampleConfig (.secret [1]) = .ok exampleValidator := rfl
  have hv' : KeyOrigin.validator exampleUnnamedConfig (.cache 0) = .ok exampleUnnamed := rfl
  refine ⟨⟨hv, ?_, ?_⟩, hv', ?_, ?_⟩
  · obtain ⟨r, done, required⟩ :=
      (acceptance_exact hv exampleAsk exampleEmpty exampleToken ⟨1⟩ .empty).1
        fun n q asks => absurd asks (not_asks_of_secret rfl n q)
    obtain ⟨c, -, acceptable⟩ := exists_of_isAccepted done required (by decide +kernel)
    exact ⟨c, acceptable⟩
  · obtain ⟨r, done, required⟩ :=
      (acceptance_exact hv exampleAsk exampleEmpty exampleToken ⟨2⟩ .empty).1
        fun n q asks => absurd asks (not_asks_of_secret rfl n q)
    exact (exists_of_not_isAccepted done required (by decide +kernel)).2
  · obtain ⟨r, done, required⟩ :=
      (acceptance_exact hv' exampleAsk exampleFilled exampleToken ⟨1⟩ exampleSet).1
        fun n q asks => ⟨_, rfl, exampleFilled_found (exampleUnnamed_asked ⟨1⟩) asks⟩
    exact exists_of_isAccepted done required (by decide +kernel)
  · obtain ⟨w, started, waits, found⟩ := exampleEmpty_waits
    have result := fun now =>
      (acceptance_exact hv' exampleAsk _ exampleToken now exampleSet).2 w waits
        ⟨_, rfl, found now⟩
    -- what comes after the start is computed with the suspension in place
    have inTime : isAccepted (resumedAt ⟨1⟩
        (start exampleAsk [exampleUnnamed] exampleToken ⟨1⟩ exampleEmpty)) = true := by
      decide +kernel
    have tooLate : isAccepted (resumedAt ⟨2⟩
        (start exampleAsk [exampleUnnamed] exampleToken ⟨1⟩ exampleEmpty)) = false := by
      decide +kernel
    rw [started] at inTime tooLate
    obtain ⟨r, done, required⟩ := result ⟨1⟩
    obtain ⟨r', done', required'⟩ := result ⟨2⟩
    exact ⟨w, _, started, exists_of_isAccepted done required inTime,
      exists_of_not_isAccepted done' required' tooLate⟩

end Validation
end BearerAuth
