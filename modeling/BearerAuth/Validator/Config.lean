import BearerAuth.KeyCache.Client
import BearerAuth.Text.Quoted
import BearerAuth.Token.Compact

/-!
# BearerAuth — configuring validators

A validator accepts tokens from given issuers for given audiences, signed with given algorithms. It
finds keys either in a key cache, where the keys are public, or in a secret. Issuers and audiences
must be given; without algorithms there is one default for each kind of key. With a secret, all
algorithms must be of the kind that uses secrets, and tokens need not name a key.

## Main definitions

* `ValidatorConfig`         — what a validator accepts.
* `Validator`               — rules, a source of keys, and whether tokens must name their key.
* `Validator.asymmetric`, `Validator.symmetric` — the two kinds of validators.
* `ConfigError`             — why there is no validator.
-/

namespace BearerAuth

/-- Why a configuration makes no validator. -/
inductive ConfigError where
  | missingIssuers
  | missingAudiences
  | missingKeySource
  | ambiguousKeySource
  | emptySecret
  | incompatibleAlgorithm (algorithm : Algorithm)
deriving DecidableEq

def ConfigError.message : ConfigError → String
  | .missingIssuers => "no valid issuers configured"
  | .missingAudiences => "no valid audiences configured"
  | .missingKeySource =>
    "no key source configured; set one of `authority`, `jwks_url`, or `secret`"
  | .ambiguousKeySource => "a shared secret cannot be combined with a remote key source"
  | .emptySecret => "shared secret is empty"
  | .incompatibleAlgorithm a => "algorithm `" ++ a.name ++ "` cannot be used with a shared secret"

/-- What a validator accepts. -/
structure ValidatorConfig where
  issuers : List String
  audiences : List String
  algorithms : List Algorithm := []
  /-- The tolerated difference between clocks, in seconds. -/
  leeway : UInt64 := 0
  /-- Whether tokens must name the key that signed them. -/
  requireKeyId : Bool := true
deriving DecidableEq

/-- Where a validator finds keys. -/
inductive KeySource where
  /-- In the key cache with this number. -/
  | cache (number : Nat)
  /-- The one key of a secret. -/
  | secret (key : Key)
deriving DecidableEq

/-- Validates tokens. -/
structure Validator where
  rules : ClaimRules
  source : KeySource
  /-- Whether tokens must name the key that signed them. -/
  requireKeyId : Bool

namespace ValidatorConfig

/-- The rules of a configuration, with an algorithm for when none is given. -/
def rules (c : ValidatorConfig) (default : Algorithm) : Except ConfigError ClaimRules :=
  if c.issuers.isEmpty then .error .missingIssuers
  else if c.audiences.isEmpty then .error .missingAudiences
  else .ok {
    algorithms := if c.algorithms.isEmpty then [default] else c.algorithms
    issuers := c.issuers
    audiences := c.audiences
    leeway := c.leeway }

end ValidatorConfig

namespace Validator

/-- A validator that finds public keys in a cache. -/
def asymmetric (c : ValidatorConfig) (cache : Nat) : Except ConfigError Validator := do
  let rules ← c.rules .rs256
  return ⟨rules, .cache cache, c.requireKeyId⟩

/-- A validator that checks signatures with a secret. -/
def symmetric (c : ValidatorConfig) (secret : Bytes) : Except ConfigError Validator :=
  if secret.isEmpty then .error .emptySecret
  else
    match c.algorithms.find? fun a => !a.isSymmetric with
    | some a => .error (.incompatibleAlgorithm a)
    | none => do
      let rules ← c.rules .hs256
      return ⟨rules, .secret { material := .secret secret }, false⟩

end Validator
end BearerAuth
