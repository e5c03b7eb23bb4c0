import BearerAuth.Key.Document

/-!
# BearerAuth — key sets

A key set is the list of keys that an issuer publishes, in the order of publication; the same key
may stand in it more than once. Reading a set is tolerant: an entry that is no key (of an unknown
kind, for encryption, with a fault) is passed over, so that a set stays usable when its publisher
adds kinds of keys that are not known here.

## Main definitions

* `KeySet`                — the keys, in order.
* `KeySet.compatible`     — the keys for an algorithm, the best match first.
* `KeySet.ofText?`, `KeySet.toJson` — the written form.
-/

namespace BearerAuth

/-- The keys that an issuer publishes. -/
structure KeySet where
  keys : List Key
deriving DecidableEq

namespace KeySet

def empty : KeySet := ⟨[]⟩

def add (s : KeySet) (k : Key) : KeySet := ⟨s.keys ++ [k]⟩

def find? (s : KeySet) (id : String) : Option Key := s.keys.find? (·.id == some id)

/-! ## Choice of keys -/

/-- How well a compatible key matches: a published algorithm outweighs a published usage. -/
def score (k : Key) : Nat :=
  (if k.algorithm.isSome then 2 else 0) + (if k.usage.isSome then 1 else 0)

/-- The keys with which signatures of an algorithm can be checked, the best match first. Keys that
match equally well stay in order. -/
def compatible (s : KeySet) (a : Algorithm) : List Key :=
  (s.keys.filter (·.isCompatible a)).mergeSort fun k l => score l ≤ score k

/-- The positions in the set of the keys for an algorithm, the best match first. -/
def compatiblePositions (s : KeySet) (a : Algorithm) : List Nat :=
  let numbered := s.keys.zipIdx.filter (·.1.isCompatible a)
  (numbered.mergeSort fun k l => decide (score l.1 ≤ score k.1)).map (·.2)

/-! ## The written form -/

def toJson (s : KeySet) : Json := .object [("keys", .array (s.keys.map Key.toJson))]

def render (s : KeySet) : String := s.toJson.render

/-- The keys among entries. None if an entry is neither a key nor one that may be passed over. -/
def keysOf? : List Json → Option (List Key)
  | [] => some []
  | v :: rest =>
    match Key.ofJson v with
    | .ok k => (keysOf? rest).map (k :: ·)
    | .error _ => if Key.isIgnorable v then keysOf? rest else none

def parse? (s : Bytes) : Option KeySet := do
  match ← Json.parseRecord? ["keys"] s with
  | [keys] => return ⟨← keysOf? (← keys.required? Json.asArray?)⟩
  | _ => none

def ofText? (s : String) : Option KeySet := parse? (Bytes.ofString s)

end KeySet
end BearerAuth
