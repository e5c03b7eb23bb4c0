import BearerAuth.Clock
import BearerAuth.KeySet

/-!
# BearerAuth — snapshots of key sets

A snapshot is a key set as it was at a point in time, with an index of its identifiers. When several
keys share an identifier the first one listed is meant. Every snapshot has a number of its own, by
which two snapshots are told apart even if they hold the same keys.

## Main definitions

* `KeyIndex.ofKeys`      — for each identifier the position of the first key that carries it.
* `Snapshot`             — keys, index, time and number.
* `Snapshot.get?`        — the key of an identifier, found through the index.
* `FetchError`, `KeysError` — why there are no keys, or no such key.
-/

namespace BearerAuth

/-- Why a key set could not be had from where it is published. -/
inductive FetchError where
  /-- It could not be retrieved. The cause is given where it is known in words. -/
  | retrieval (cause : Option String)
  /-- What was retrieved is no key set. -/
  | format (cause : Option String)
deriving DecidableEq

namespace FetchError

def message : FetchError → String
  | .retrieval _ => "unable to fetch JWKS"
  | .format _ => "malformed JWKS document"

/-- The cause in words, where it is known. -/
def cause? : FetchError → Option String
  | .retrieval cause | .format cause => cause

end FetchError

/-- Why there is no key. -/
inductive KeysError where
  /-- No key of the set has this identifier. -/
  | unknownKey (id : String)
  | fetch (cause : FetchError)
deriving DecidableEq

def KeysError.message : KeysError → String
  | .unknownKey id => "no key found with id `" ++ id ++ "`"
  | .fetch cause => cause.message

/-- Positions of keys by identifier. -/
abbrev KeyIndex := OrderedMap Nat

namespace KeyIndex

/-- Enters keys into an index, the first of them at the given position. Identifiers that are in the
index already keep their position. -/
def enter (index : KeyIndex) : Nat → List Key → KeyIndex
  | _, [] => index
  | position, k :: rest =>
    match k.id with
    | none => enter index (position + 1) rest
    | some id => enter (index.insertNew id position) (position + 1) rest

/-- For each identifier the position of the first key that carries it. -/
def ofKeys (keys : List Key) : KeyIndex := enter .empty 0 keys

end KeyIndex

/-- A key set as it was at a point in time. -/
structure Snapshot where
  keys : KeySet
  fetchedAt : UnixTime
  /-- The number of the snapshot among all that were made. -/
  number : Nat
  index : KeyIndex
  index_eq : index = KeyIndex.ofKeys keys.keys

namespace Snapshot

/-- The snapshot of a key set at a time. -/
def of (keys : KeySet) (fetchedAt : UnixTime) (number : Nat) : Snapshot :=
  ⟨keys, fetchedAt, number, KeyIndex.ofKeys keys.keys, rfl⟩

/-- The key of an identifier; the first one listed if several carry it. -/
def get? (s : Snapshot) (id : String) : Option Key := do
  s.keys.keys[← s.index.find? id]?

end Snapshot
end BearerAuth
