import BearerAuth.Remote.Provider
import BearerAuth.Validator.Basic

/-!
# BearerAuth — settings

The settings of a validator as they stand in a document. Exactly one source of keys must be set: an
issuer whose discovery document leads to its keys, the URL of a key set, or a secret. An issuer
counts before a URL. Times are in seconds. All settings have defaults.

## Main definitions

* `Settings`             — the settings.
* `Settings.ofText?`     — reads settings.
* `Settings.build`       — the validator that they describe, with the cache that it needs.
-/

namespace BearerAuth

/-- The settings of a validator. -/
structure Settings where
  authority : Option String := none
  keySetUrl : Option String := none
  secret : Option String := none
  issuers : List String := []
  audiences : List String := []
  algorithms : List Algorithm := []
  timing : Timing := {}
  leeway : UInt64 := 0
  requireKeyId : Bool := true
deriving DecidableEq

namespace Settings

/-- The names of the settings, in order. -/
def names : List String :=
  ["authority", "jwks_url", "secret", "valid_issuers", "valid_audiences", "algorithms",
    "refresh_interval", "cache_time", "leeway", "require_kid"]

/-- The algorithms of an array of names. -/
def algorithmsOf? (v : Json) : Option (List Algorithm) := do
  (← v.asArray?).mapM fun v => do Algorithm.ofName? (← v.asName? false)

/-- The settings with these fields. -/
def ofFields? : List Json.Field → Option Settings
  | [authority, url, secret, issuers, audiences, algorithms, refresh, cache, leeway, kid] => do
    let text := Json.Field.withDefault? none (Json.optional Json.asString?)
    return {
      authority := ← text authority
      keySetUrl := ← text url
      secret := ← text secret
      issuers := ← issuers.withDefault? [] Json.asStrings?
      audiences := ← audiences.withDefault? [] Json.asStrings?
      algorithms := ← algorithms.withDefault? [] algorithmsOf?
      timing := {
        refreshInterval := ← refresh.withDefault? 120 Json.asUInt64?
        cacheTime := ← cache.withDefault? 10800 Json.asUInt64? }
      leeway := ← leeway.withDefault? 0 Json.asUInt64?
      requireKeyId := ← kid.withDefault? true Json.asBool? }
  | _ => none

/-- Reads settings. -/
def parse? (s : Bytes) : Option Settings := do ofFields? (← Json.parseRecord? names s)

/-- Reads settings. -/
def ofText? (s : String) : Option Settings := parse? (Bytes.ofString s)

/-- What the validator accepts. -/
def config (s : Settings) : ValidatorConfig where
  issuers := s.issuers
  audiences := s.audiences
  algorithms := s.algorithms
  leeway := s.leeway
  requireKeyId := s.requireKeyId

/-- Where the keys are published. An issuer counts before a URL. -/
def source? (s : Settings) : Option Remote.Source :=
  match s.authority, s.keySetUrl with
  | some authority, _ => some (.publisher ⟨authority, none⟩)
  | none, some url => some (.location ⟨url, none⟩)
  | none, none => none

/-- The validator that the settings describe. A validator of published keys finds them in the cache
with number 0, which is that of the settings' source. -/
def build (s : Settings) : Except ConfigError Validator :=
  match s.secret, s.source? with
  | some _, some _ => .error .ambiguousKeySource
  | some secret, none => Validator.symmetric s.config (Bytes.ofString secret)
  | none, none => .error .missingKeySource
  | none, some _ => Validator.asymmetric s.config 0

end Settings
end BearerAuth
