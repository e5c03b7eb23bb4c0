import BearerAuth.Token.Claims

/-!
# BearerAuth — identities

An identity is what is asserted about whoever acts: for each claim a list of values, in the order in
which they were asserted, and the mode of authentication if there was one. A claim can be carried
without a value, when an empty list was asserted.

## Main definitions

* `Identity`                — claims with their values.
* `Identity.assert`, `Identity.assertJson`, `Identity.authenticatedBy` — building up an identity.
* `Assertion`, `Identity.ofAssertions` — an identity from a list of what is asserted.
* `Identity.ofClaims`       — the identity that a token asserts.
* `Identity.values`, `Identity.first?`, `Identity.carries` — its views.
* `ClaimCursor`             — the values of a claim as they are gone through one by one.
-/

namespace BearerAuth

/-- What is asserted about whoever acts. -/
structure Identity where
  claims : OrderedMap (List Json) := .empty
  /-- The mechanism of authentication; none for an identity that is not authenticated. -/
  mode : Option String := none

/-- Something that is asserted about whoever acts. -/
inductive Assertion where
  | value (name : String) (value : Json)
  /-- A JSON value, of which an array stands for its items. -/
  | json (name : String) (value : Json)
  | authentication (mode : String)

namespace Identity

/-- An identity about which nothing is asserted. -/
def anonymous : Identity := {}

/-- Adds values of a claim after those that it has. -/
def assertAll (i : Identity) (name : String) (values : List Json) : Identity :=
  { i with claims := i.claims.update name fun old => old.getD [] ++ values }

/-- Adds one value of a claim. -/
def assert (i : Identity) (name : String) (value : Json) : Identity := i.assertAll name [value]

/-- The values that a JSON value contributes to a claim: an array contributes each of its items. -/
def spread : Json → List Json
  | .array items => items
  | v => [v]

/-- Adds the values that a JSON value contributes to a claim. -/
def assertJson (i : Identity) (name : String) (value : Json) : Identity :=
  i.assertAll name (spread value)

/-- The identity as authenticated by this mechanism. -/
def authenticatedBy (i : Identity) (mode : String) : Identity := { i with mode := some mode }

/-- Adds an assertion to what is asserted before it. -/
def apply (i : Identity) : Assertion → Identity
  | .value name v => i.assert name v
  | .json name v => i.assertJson name v
  | .authentication mode => i.authenticatedBy mode

/-- The identity about which this is asserted, in order. -/
def ofAssertions (l : List Assertion) : Identity := l.foldl apply anonymous

/-- The identity that claims assert, authenticated by the given mechanism. -/
def ofClaims (c : Claims) (mode : String) : Identity :=
  (c.members.entries.foldl (fun i e => i.assertJson e.1 e.2.1) anonymous).authenticatedBy mode

/-! ## Views -/

/-- Whether the identity was authenticated. -/
def isAuthenticated (i : Identity) : Bool := i.mode.isSome

/-- The values of a claim, in the order in which they were asserted. -/
def values (i : Identity) (name : String) : List Json := (i.claims.find? name).getD []

/-- Whether the identity carries a claim at all, with or without values. -/
def carries (i : Identity) (name : String) : Bool := i.claims.contains name

/-- The first value of a claim. -/
def first? (i : Identity) (name : String) : Option Json := (i.values name).head?

/-- The message about a claim without a value. -/
def missingMessage (name : String) : String := "missing required claim: " ++ name

end Identity

/-- A claim has no value where one is required. -/
structure MissingClaim where
  name : String
deriving DecidableEq

def MissingClaim.message (e : MissingClaim) : String := Identity.missingMessage e.name

/-- The values of a claim as they are gone through one by one. -/
structure ClaimCursor where
  values : List Json
  /-- How many of the values were taken. -/
  position : Nat := 0

namespace ClaimCursor

/-- Takes the next value, if there is one. -/
def next (c : ClaimCursor) : Option Json × ClaimCursor :=
  match c.values[c.position]? with
  | some v => (some v, { c with position := c.position + 1 })
  | none => (none, c)

/-- The cursor after so many attempts to take a value. -/
def advance : Nat → ClaimCursor → ClaimCursor
  | 0, c => c
  | k + 1, c => advance k c.next.2

/-- The number of values that are left. -/
def remaining (c : ClaimCursor) : Nat := c.values.length - c.position

/-- The values that are left. -/
def rest (c : ClaimCursor) : List Json := c.values.drop c.position

end ClaimCursor

namespace Identity

/-- The first value of a claim, which must have one. -/
def require (i : Identity) (name : String) : Except MissingClaim Json :=
  match i.first? name with
  | some v => .ok v
  | none => .error ⟨name⟩

/-- The values of a claim, none of which is taken yet. -/
def cursor (i : Identity) (name : String) : ClaimCursor := { values := i.values name }

/-- The first value of a claim, if that is a string. -/
def text? (i : Identity) (name : String) : Option String := do (← i.first? name).asString?

/-- Whether some value of a claim satisfies a condition. -/
def hasValue (i : Identity) (name : String) (p : Json → Bool) : Bool := (i.values name).any p

/-- The names of the claims, in order. -/
def claimNames (i : Identity) : List String := i.claims.names

def subject? (i : Identity) : Option String := i.text? "sub"

/-- The identifier, or the subject if there is none. -/
def id? (i : Identity) : Option String := (i.text? "id").or i.subject?

def name? (i : Identity) : Option String := i.text? "name"

def email? (i : Identity) : Option String := i.text? "email"

/-- The strings among the values of a claim. -/
def texts (i : Identity) (name : String) : List String := (i.values name).filterMap Json.asString?

def roles (i : Identity) : List String := i.texts "roles"

/-- Equality of identities, with values compared as JSON values. -/
def same (a b : Identity) : Bool :=
  a.mode == b.mode && a.claims.names == b.claims.names &&
    (a.claims.entries.zip b.claims.entries).all fun (x, y) => Json.sameItems x.2 y.2

end Identity

/-! ## Comparing a value with a literal -/

namespace Json

def isText (s : String) (v : Json) : Bool := v.asString? == some s

def isBool (b : Bool) (v : Json) : Bool := v.asBool? == some b

/-- Whether a value is this integer. A double is no integer. -/
def isInt (n : Int) (v : Json) : Bool := v.asInt? == some n

/-- The double nearest to a number. -/
def Number.toDouble? : Number → Option Double
  | .integer i => Double.ofInt? i.1
  | .double d => some d

/-- The double nearest to the number that a value is. -/
def asDouble? : Json → Option Double
  | .number n => n.toDouble?
  | _ => none

/-- Whether a value is a number that becomes this double. -/
def isDouble (d : Double) (v : Json) : Bool := v.asDouble?.any d.sameNumber

end Json
end BearerAuth
