import BearerAuth.Access.Identity
import BearerAuth.Validator.Config

/-!
# BearerAuth — validating tokens

A token is validated in stages: it is taken apart, its algorithm must be approved, a key is found,
the signature is confirmed, and the claims are checked. The first stage that fails is the answer,
and nothing is asked of a key cache before the stage that finds a key (`Validator.plan`).

A token that names no key is tried with every key of the set that fits its algorithm, the best match
first, until the signature is confirmed. A wrong signature is never tried again with newer keys.

Validators may be tried one after another; the first one that accepts a token wins, and if none does
the last rejection is the answer. A validation that needs keys can be suspended; it is then a
`Suspension`, which goes on where it was. The key caches are numbered, and each has a provider with
a state of type `σ`.

There is one clock. The time that is given to a step is what all validators read that are tried in
it, for the rules of the claims, and all caches that they ask, for the age of their snapshots. A
program could set up every validator and every cache with a clock of its own; here such clocks are
assumed to agree while a step lasts. Between two steps the time may change in any way, also back.

## Main definitions

* `ValidationError`      — why a token is not accepted.
* `Validator.plan`       — the stages before the keys, and what to do with the keys.
* `Validation.run`       — tries validators in order.
* `Validation.resume`    — goes on with a suspended validation.
* `identityOf`           — the identity of whoever bears an accepted token.
-/

namespace BearerAuth

/-- Why a token is not accepted. -/
inductive ValidationError where
  | invalidFormat (cause : TokenError)
  | unsupportedAlgorithm (name : String)
  | missingKeyId
  | unknownKey (id : Option String)
  | fetch (cause : FetchError)
  | invalidSignature
  | invalidClaims (cause : ClaimRejection)
deriving DecidableEq

namespace ValidationError

def message : ValidationError → String
  | .invalidFormat _ => "token is not a well-formed JWT"
  | .unsupportedAlgorithm name => "token algorithm `" ++ name ++ "` is not accepted"
  | .missingKeyId => "token header does not name a key"
  | .unknownKey _ => "no matching key found to validate JWT"
  | .fetch cause => cause.message
  | .invalidSignature => "token signature is invalid"
  | .invalidClaims cause => "token claim `" ++ cause.claim ++ "` was rejected"

/-- The stage at which a token failed that was checked with a key. -/
def ofTokenError (a : Algorithm) : TokenError → ValidationError
  | .rejectedByKey .signatureMismatch => .invalidSignature
  | .rejectedByKey _ => .unsupportedAlgorithm a.name
  | .unknownAlgorithm name => .unsupportedAlgorithm name
  | .rejectedClaims cause => .invalidClaims cause
  | e => .invalidFormat e

/-- A failed lookup as the reason why a token is not accepted. -/
def ofKeysError : KeysError → ValidationError
  | .unknownKey id => .unknownKey (some id)
  | .fetch cause => .fetch cause

end ValidationError

/-- The mode of authentication of whoever bears an accepted token. -/
def bearerMode : String := "JWT Bearer"

/-- The identity of whoever bears an accepted token. -/
def identityOf (c : Claims) : Identity := Identity.ofClaims c bearerMode

/-- The outcome of a validation. -/
abbrev ValidationResult := Except ValidationError Claims

namespace Validator

/-- Checks a token with a key at a time. -/
def checkWith (v : Validator) (d : Decomposed) (a : Algorithm) (k : Key) (now : UnixTime) :
    ValidationResult :=
  (d.verify k v.rules now).mapError (.ofTokenError a)

/-- Tries keys in order until one confirms the signature. `tried` says whether some key was tried
before. -/
def tryKeys (v : Validator) (d : Decomposed) (a : Algorithm) (now : UnixTime) (tried : Bool) :
    List Key → ValidationResult
  | [] => .error (if tried then .invalidSignature else .unknownKey none)
  | k :: rest =>
    match v.checkWith d a k now with
    -- Only a wrong signature leads on to the next key.
    | .error .invalidSignature => tryKeys v d a now true rest
    | r => r

/-- How a validation goes on after the stages that need no keys. -/
inductive Plan where
  /-- The token is accepted or rejected. -/
  | decided (result : ValidationResult)
  /-- Keys of a cache are needed; they settle the token at the time when they are there. -/
  | lookup (cache : Nat) (query : Query) (settle : FetchOutcome → UnixTime → ValidationResult)

/-- Settles a token that names a key. -/
def settleNamed (v : Validator) (d : Decomposed) (a : Algorithm) (id : String) (o : FetchOutcome)
    (now : UnixTime) : ValidationResult :=
  match o.key id with
  | .error e => .error (.ofKeysError e)
  | .ok k => v.checkWith d a k now

/-- Settles a token that names no key. -/
def settleUnnamed (v : Validator) (d : Decomposed) (a : Algorithm) (o : FetchOutcome)
    (now : UnixTime) : ValidationResult :=
  match o with
  | .error e => .error (.fetch e)
  | .ok s => v.tryKeys d a now false (s.keys.compatible a)

/-- The algorithm of a token, if it is approved. -/
def approved (v : Validator) (d : Decomposed) : Except ValidationError Algorithm :=
  match d.header.algorithm? with
  | some a =>
    if v.rules.approves a then .ok a else .error (.unsupportedAlgorithm d.header.algorithmName)
  | none => .error (.unsupportedAlgorithm d.header.algorithmName)

/-- The stages before the keys, and what to do with the keys. -/
def plan (v : Validator) (token : String) (now : UnixTime) : Plan :=
  match (Decomposed.ofToken token).mapError .invalidFormat with
  | .error e => .decided (.error e)
  | .ok d =>
    match v.approved d with
    | .error e => .decided (.error e)
    | .ok a =>
      match v.source, d.header.keyId with
      | .secret k, _ => .decided (v.checkWith d a k now)
      | .cache n, some id => .lookup n (.key id) (v.settleNamed d a id)
      | .cache n, none =>
        if v.requireKeyId then .decided (.error .missingKeyId)
        else .lookup n .all (v.settleUnnamed d a)

end Validator

/-! ## Running validations -/

/-- The key caches by number. -/
abbrev Caches (σ : Type u) := Nat → Client σ

/-- The caches with another one at this number. -/
def Caches.set {σ : Type u} (cs : Caches σ) (number : Nat) (c : Client σ) : Caches σ :=
  fun n => if n = number then c else cs n

/-- A validation that waits for keys. -/
structure Suspension where
  token : String
  cache : Nat
  lookup : Lookup
  settle : FetchOutcome → UnixTime → ValidationResult
  /-- The validators to try if this one rejects the token. -/
  rest : List Validator

namespace Validation

variable {σ : Type u}

/-- One step of a lookup in one of the caches. -/
def pollCache (ask : σ → Option ProviderAnswer × σ) (cs : Caches σ) (number : Nat) (l : Lookup)
    (now : UnixTime) : Poll Lookup FetchOutcome × Caches σ :=
  let (p, c) := (cs number).poll ask l now
  (p, cs.set number c)

/-- Tries validators in order, after a rejection by those before them. -/
def run (ask : σ → Option ProviderAnswer × σ) (token : String) (now : UnixTime) :
    List Validator → ValidationError → Caches σ → Poll Suspension ValidationResult × Caches σ
  | [], last, cs => (.done (.error last), cs)
  | v :: rest, _, cs =>
    match v.plan token now with
    | .decided (.ok c) => (.done (.ok c), cs)
    | .decided (.error e) => run ask token now rest e cs
    | .lookup number q settle =>
      match pollCache ask cs number ⟨q, none⟩ now with
      | (.pending l, cs) => (.pending ⟨token, number, l, settle, rest⟩, cs)
      | (.done o, cs) =>
        match settle o now with
        | .ok c => (.done (.ok c), cs)
        | .error e => run ask token now rest e cs

/-- The answer when there is no validator. -/
def noValidator : ValidationError := .unknownKey none

/-- Starts a validation with validators in order. -/
def start (ask : σ → Option ProviderAnswer × σ) (vs : List Validator) (token : String)
    (now : UnixTime) (cs : Caches σ) : Poll Suspension ValidationResult × Caches σ :=
  run ask token now vs noValidator cs

/-- Goes on with a suspended validation. -/
def resume (ask : σ → Option ProviderAnswer × σ) (s : Suspension) (now : UnixTime)
    (cs : Caches σ) : Poll Suspension ValidationResult × Caches σ :=
  match pollCache ask cs s.cache s.lookup now with
  | (.pending l, cs) => (.pending { s with lookup := l }, cs)
  | (.done o, cs) =>
    match s.settle o now with
    | .ok c => (.done (.ok c), cs)
    | .error e => run ask s.token now s.rest e cs

end Validation
end BearerAuth
