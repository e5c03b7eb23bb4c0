import BearerAuth.KeyCache.Provider
import BearerAuth.Validator.Settings

/-!
# BearerAuth — descriptions of configurations

Texts that describe configurations, validators and keys to a person. Secrets are never part of them.

## Main definitions

* `Key.describe`, `KeySet.describe`         — keys, without the bytes of secrets.
* `ValidatorConfig.describe`, `Validator.describeSymmetric` — what a validator accepts.
* `Settings.describe`                       — settings, with three asterisks for the secret.
* `Client.describe?`                        — a key cache with a fixed provider.
-/

namespace BearerAuth

/-- A number of seconds with its unit. No time at all is given in the smallest unit. -/
def describeSeconds (n : UInt64) : String := if n = 0 then "0ns" else toString n.toNat ++ "s"

/-- A list of quoted texts. -/
def describeTexts (l : List String) : String := Text.listed (l.map Text.quoted)

/-- A list of algorithms. -/
def describeAlgorithms (l : List Algorithm) : String := Text.listed (l.map Algorithm.name)

/-- A byte string as a list of numbers. -/
def describeBytes (b : Bytes) : String := Text.listed (b.map fun x => toString x.toNat)

/-- The name of a usage in full. -/
def Usage.describe : Usage → String
  | .signing => "Signing"
  | .encryption => "Encryption"

/-- The name of a curve as an identifier. -/
def Curve.describe : Curve → String
  | .p256 => "P256"
  | .p384 => "P384"

/-- Key material, without the bytes of a secret. -/
def Material.describe : Material → String
  | .rsa k => "Rsa(" ++ Text.record "Rsa"
      [("modulus", describeBytes k.modulus), ("exponent", describeBytes k.exponent)] ++ ")"
  | .curve k => "EllipticCurve(" ++ Text.record "EllipticCurve"
      [("curve", k.curve.describe), ("x", describeBytes k.x), ("y", describeBytes k.y)] ++ ")"
  | .secret _ => "Hmac(Hmac \x7b secret \x7d)"

/-- A key. -/
def Key.describe (k : Key) : String :=
  Text.record "Jwk" [
    ("key_id", Text.optional (k.id.map Text.quoted)),
    ("usage", Text.optional (k.usage.map Usage.describe)),
    ("algorithm", Text.optional (k.algorithm.map Algorithm.name)),
    ("key", k.material.describe)]

/-- A key set. -/
def KeySet.describe (s : KeySet) : String :=
  Text.record "Jwks" [("keys", Text.listed (s.keys.map Key.describe))]

/-- What a validator accepts. -/
def ValidatorConfig.describe (c : ValidatorConfig) : String :=
  Text.partialRecord "ValidatorConfig" [
    ("issuers", describeTexts c.issuers),
    ("audiences", describeTexts c.audiences),
    ("algorithms", describeAlgorithms c.algorithms),
    ("leeway", describeSeconds c.leeway),
    ("require_kid", toString c.requireKeyId)]

/-- Rules for claims. -/
def ClaimRules.describe (r : ClaimRules) : String :=
  Text.record "CoreValidator" [
    ("approved_algorithms", describeAlgorithms r.algorithms),
    ("leeway", describeSeconds r.leeway),
    ("validate_nbf", toString r.checkNotBefore),
    ("validate_exp", toString r.checkExpiration),
    ("allowed_audiences", describeTexts r.audiences),
    ("allowed_issuers", describeTexts r.issuers)]

/-- A validator that has its key at hand; none for one that finds keys in a cache. -/
def Validator.describeSymmetric? (v : Validator) : Option String :=
  match v.source with
  | .cache _ => none
  | .secret k => some (Text.partialRecord "JwtValidator" [
      ("core", v.rules.describe),
      ("keys", "Secret(" ++ k.describe ++ ")"),
      ("require_kid", toString v.requireKeyId)])

/-- Settings. -/
def Settings.describe (s : Settings) : String :=
  Text.record "ValidatorSettings" [
    ("authority", Text.optional (s.authority.map Text.quoted)),
    ("jwks_url", Text.optional (s.keySetUrl.map Text.quoted)),
    ("secret", Text.optional (s.secret.map fun _ => Text.quoted "***")),
    ("valid_issuers", describeTexts s.issuers),
    ("valid_audiences", describeTexts s.audiences),
    ("algorithms", describeAlgorithms s.algorithms),
    ("refresh_interval", toString s.timing.refreshInterval.toNat),
    ("cache_time", toString s.timing.cacheTime.toNat),
    ("leeway", toString s.leeway.toNat),
    ("require_kid", toString s.requireKeyId)]

/-- A key cache with a fixed provider; none for one whose provider is arranged. -/
def Client.describe? (c : Client Provider) : Option String :=
  c.provider.fixedKeys?.map fun keys =>
    Text.record "JwksClient" [("inner", Text.record "JwksClient" [
      ("provider", Text.record "StaticKeysProvider" [("jwks", keys.describe)]),
      ("refresh_interval", describeSeconds c.timing.refreshInterval),
      ("cache_time", describeSeconds c.timing.cacheTime),
      ("fetched_at", Text.optional (c.cached.map fun s =>
        "UnixTime(" ++ toString s.fetchedAt ++ ")"))])]

end BearerAuth
