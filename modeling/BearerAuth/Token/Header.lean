import BearerAuth.Algorithm
import BearerAuth.Json.Record
import BearerAuth.Json.Printer

/-!
# BearerAuth — token headers

The header of a token names the algorithm of its signature and may name the key and the media type.
The algorithm is kept as it was received, so that an unknown algorithm is told apart from a header
that cannot be read.

## Main definitions

* `Header`             — the header of a token.
* `Header.algorithm?`  — the algorithm, if it is known.
* `Header.parse?`, `Header.toJson` — the written form.
-/

namespace BearerAuth

structure Header where
  /-- The algorithm as it was received. -/
  algorithmName : String
  keyId : Option String := none
  mediaType : Option String := none
deriving DecidableEq

namespace Header

/-- The header of a token that is signed with an algorithm. -/
def ofAlgorithm (a : Algorithm) : Header := ⟨a.name, none, some "JWT"⟩

def withKeyId (h : Header) (id : String) : Header := { h with keyId := some id }

def algorithm? (h : Header) : Option Algorithm := Algorithm.ofName? h.algorithmName

/-- The written form of a header. Members that are not set are left out. -/
def toJson (h : Header) : Json :=
  .object (
    ("alg", .string h.algorithmName) ::
    ((h.keyId.map fun id => ("kid", Json.string id)).toList ++
      (h.mediaType.map fun t => ("typ", Json.string t)).toList))

def render (h : Header) : String := h.toJson.render

/-- The header with these fields, in the order algorithm, key and media type. -/
def ofFields? : List Json.Field → Option Header
  | [alg, kid, typ] => do
    let algorithmName ← alg.required? Json.asString?
    let keyId ← kid.withDefault? none (Json.optional Json.asString?)
    let mediaType ← typ.withDefault? none (Json.optional Json.asString?)
    return ⟨algorithmName, keyId, mediaType⟩
  | _ => none

def parse? (s : Bytes) : Option Header := do
  ofFields? (← Json.parseRecord? ["alg", "kid", "typ"] s)

def ofText? (s : String) : Option Header := parse? (Bytes.ofString s)

end Header
end BearerAuth
