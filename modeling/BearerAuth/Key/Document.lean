import BearerAuth.Key.Basic
import BearerAuth.Json.Record
import BearerAuth.Json.Printer
import BearerAuth.Text.Base64Url

/-!
# BearerAuth — the written form of keys

A key is written as a JSON object. The members `kid`, `use` and `alg` say what is published about
it, `kty` names the kind of material, and the members that belong to the kind hold its bytes in
base64. Other members are ignored, but a member that counts may stand only once. A key whose
material cannot verify the algorithm it is published for is refused.

## Main definitions

* `Key.toJson`      — the written form of a key.
* `Key.ofJson`      — the key of a value.
* `Key.ofText`      — the key of a text; the message of a refusal is that of the first fault found.
* `KeyError`        — why there is no key.
-/

namespace BearerAuth

/-- Why a document holds no key. -/
inductive KeyError where
  /-- The document is not JSON, or a member is missing, repeated or of the wrong type. -/
  | malformed
  /-- The material itself is refused. -/
  | rejected (cause : KeyRejection)
  /-- The material cannot verify the published algorithm. -/
  | incompatible (algorithm : Algorithm)
deriving DecidableEq

/-- The error in words, where the document is well formed. -/
def KeyError.message? : KeyError → Option String
  | .malformed => none
  | .rejected cause => some cause.message
  | .incompatible a => some (incompatibleMessage a)

namespace Material

/-- The members of an object that hold the material, its kind first. -/
def toMembers : Material → List (String × Json)
  | .rsa k => [("kty", .string "RSA"), ("n", .string (Base64Url.encode k.modulus)),
      ("e", .string (Base64Url.encode k.exponent))]
  | .curve k => [("kty", .string "EC"), ("crv", .string k.curve.name),
      ("x", .string (Base64Url.encode k.x)), ("y", .string (Base64Url.encode k.y))]
  | .secret s => [("kty", .string "oct"), ("k", .string (Base64Url.encode s))]

end Material

namespace Key

/-- The written form of a key. Members that say nothing are left out. -/
def toJson (k : Key) : Json :=
  .object (
    (k.id.map fun id => ("kid", Json.string id)).toList ++
    (k.usage.map fun u => ("use", Json.string u.name)).toList ++
    (k.algorithm.map fun a => ("alg", Json.string a.name)).toList ++
    k.material.toMembers)

def render (k : Key) : String := k.toJson.render

/-! ## Reading -/

/-- A string value as text in base64. -/
def bytesOf? (v : Json) : Option Bytes := do Base64Url.decode? (← v.asString?)

/-- The kind of material that a value names: by its name or by its number. -/
def familyOf? : Json → Option Family
  | .string "RSA" => some .rsa
  | .string "EC" => some .ellipticCurve
  | .string "oct" => some .hmac
  | .number (.integer i) =>
    if i.1 = 0 then some .rsa
    else if i.1 = 1 then some .ellipticCurve
    else if i.1 = 2 then some .hmac
    else none
  | _ => none

/-- A fault of the document, where a part could not be read. -/
def orMalformed (o : Option α) : Except KeyError α :=
  match o with
  | some a => .ok a
  | none => .error .malformed

/-- A refusal of the material, as a fault of the document. -/
def orRejected (r : Except KeyRejection α) : Except KeyError α := r.mapError .rejected

/-- The material of a kind, from the members of an object. -/
def materialOf (family : Family) (members : List (String × Json)) : Except KeyError Material :=
  match family with
  | .rsa => do
    let fields ← orMalformed (Json.Record.fields? ["n", "e"] (.named members))
    match fields with
    | [n, e] =>
      let n ← orMalformed (n.required? bytesOf?)
      let e ← orMalformed (e.required? bytesOf?)
      return .rsa (← orRejected (RsaKey.ofComponents n e))
    | _ => .error .malformed
  | .ellipticCurve => do
    let fields ← orMalformed (Json.Record.fields? ["crv", "x", "y"] (.named members))
    match fields with
    | [crv, x, y] =>
      let curve ← orMalformed (crv.required? fun v => do Curve.ofName? (← v.asName? true))
      let x ← orMalformed (x.required? bytesOf?)
      let y ← orMalformed (y.required? bytesOf?)
      return .curve (← orRejected (CurveKey.ofCoordinates curve x y))
    | _ => .error .malformed
  | .hmac => do
    let fields ← orMalformed (Json.Record.fields? ["k"] (.named members))
    match fields with
    | [k] => return .secret (← orMalformed (k.required? bytesOf?))
    | _ => .error .malformed

/-- A key whose material can verify what it is published for. -/
def checked (k : Key) : Except KeyError Key :=
  match k.algorithm with
  | none => .ok k
  | some a => if k.material.canVerify a then .ok k else .error (.incompatible a)

/-- The key of an object with these members. What is published about the key is read before its
material. -/
def ofMembers (members : List (String × Json)) : Except KeyError Key := do
  let fields ← orMalformed (Json.Record.fields? ["kid", "use", "alg", "kty"] (.named members))
  match fields with
  | [kid, use, alg, kty] =>
    let id ← orMalformed (kid.withDefault? none (Json.optional Json.asString?))
    let usage ← orMalformed
      (use.withDefault? none (Json.optional fun v => do Usage.ofName? (← v.asName? false)))
    let algorithm ← orMalformed
      (alg.withDefault? none (Json.optional fun v => do Algorithm.ofName? (← v.asName? false)))
    let family ← orMalformed (kty.required? familyOf?)
    let material ← materialOf family members
    checked ⟨material, id, usage, algorithm⟩
  | _ => .error .malformed

def ofJson : Json → Except KeyError Key
  | .object members => ofMembers members
  | _ => .error .malformed

/-- The key of a text. A fault of the key itself is found before text that follows it. -/
def ofBytes (s : Bytes) : Except KeyError Key := do
  let (v, rest) ← orMalformed (Json.readValue (Json.stepsFor s) Json.depthLimit s)
  let k ← ofJson v
  if (Json.skipBlanks rest).isEmpty then return k else .error .malformed

def ofText (s : String) : Except KeyError Key := ofBytes (Bytes.ofString s)

/-- Whether a value may be passed over where keys are listed: an object that does not repeat a
member by which keys are told apart, or an array of at most so many items. -/
def isIgnorable (v : Json) : Bool :=
  (Json.recordFields? ["kid", "kty", "use", "alg"] v).isSome

end Key
end BearerAuth
