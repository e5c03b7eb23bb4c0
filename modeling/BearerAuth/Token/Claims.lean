import BearerAuth.Clock
import BearerAuth.Json.Parser
import BearerAuth.Json.Printer

/-!
# BearerAuth — claims

The payload of a token maps the names of claims to JSON values. Every member is kept. The claims
that are registered have readers that report a value of the wrong type instead of taking it for
missing.

Times may be written with a fraction, which is dropped. The audience may be one string or an array
of strings.

## Main definitions

* `Claims`                        — the payload of a token.
* `Claims.expiration`, `Claims.notBefore`, `Claims.issuer`, `Claims.subject`, `Claims.audience` —
  the registered claims.
* `Claims.set`                    — sets a claim; `Claims.withAudiences` and others, a registered
  one.
* `Claims.Setting`, `Claims.ofSettings` — a payload from a list of what is set.
* `Audiences`                     — the one-or-many form of an audience.
* `ClaimRejection`                — why the claims of a token are not accepted.
-/

namespace BearerAuth

/-- The claims with a registered meaning. -/
inductive RegisteredClaim where
  | expiration
  | notBefore
  | issuer
  | subject
  | audience
deriving DecidableEq

/-- The member that holds the claim. -/
def RegisteredClaim.name : RegisteredClaim → String
  | .expiration => "exp"
  | .notBefore => "nbf"
  | .issuer => "iss"
  | .subject => "sub"
  | .audience => "aud"

/-- Why a header and claims are not accepted. -/
inductive ClaimRejection where
  | invalidAlgorithm
  | invalidAudience
  | invalidIssuer
  | expired
  | notYetValid
  | missing (claim : RegisteredClaim)
  | malformed (claim : RegisteredClaim)
deriving DecidableEq

namespace ClaimRejection

/-- The name of the claim, or of the header member, that is at fault. -/
def claim : ClaimRejection → String
  | .invalidAlgorithm => "alg"
  | .invalidAudience => "aud"
  | .invalidIssuer => "iss"
  | .expired => "exp"
  | .notYetValid => "nbf"
  | .missing c | .malformed c => c.name

def message : ClaimRejection → String
  | .invalidAlgorithm => "invalid algorithm"
  | .invalidAudience => "invalid audience"
  | .invalidIssuer => "invalid issuer"
  | .expired => "token expired"
  | .notYetValid => "token not yet valid"
  | .missing c => "required " ++ c.name ++ " claim missing"
  | .malformed c => c.name ++ " claim has an unexpected type"

end ClaimRejection

/-! ## Audiences -/

structure Audiences where
  list : List String
deriving DecidableEq

namespace Audiences

def empty : Audiences := ⟨[]⟩

def single (a : String) : Audiences := ⟨[a]⟩

/-- The audiences of a value: one string, or an array of strings. -/
def ofJson? : Json → Option Audiences
  | .string s => some ⟨[s]⟩
  | .array items => (items.mapM Json.asString?).map Audiences.mk
  | _ => none

/-- The written form: a bare string for one audience, an array for none or several. -/
def toJson : Audiences → Json
  | ⟨[a]⟩ => .string a
  | ⟨as⟩ => .array (as.map .string)

def ofText? (s : String) : Option Audiences := do ofJson? (← Json.ofText? s)

end Audiences

/-! ## Claims -/

structure Claims where
  members : OrderedMap CanonicalJson

namespace Claims

def empty : Claims := ⟨.empty⟩

def find? (c : Claims) (name : String) : Option Json := (c.members.find? name).map (·.1)

/-- Sets a claim, in place of the one that may be there. -/
def set (c : Claims) (name : String) (value : Json) : Claims :=
  ⟨c.members.insert name value.toCanonical⟩

/-- The value of a claim that must be a string. -/
def stringAt (c : Claims) (claim : RegisteredClaim) : Except ClaimRejection (Option String) :=
  match c.find? claim.name with
  | none => .ok none
  | some (.string s) => .ok (some s)
  | some _ => .error (.malformed claim)

/-- The time that a number stands for: its integer part, at most the last instant. Negative numbers
stand for no time. -/
def timeOf? : Json.Number → Option UnixTime
  | .integer i => if 0 ≤ i.1 then some (UnixTime.ofNat i.1.toNat) else none
  | .double d => if d.negative && !d.isZero then none else some (UnixTime.ofNat d.truncate)

/-- The value of a claim that must be a time. -/
def timeAt (c : Claims) (claim : RegisteredClaim) : Except ClaimRejection (Option UnixTime) :=
  match c.find? claim.name with
  | none => .ok none
  | some (.number n) =>
    match timeOf? n with
    | some t => .ok (some t)
    | none => .error (.malformed claim)
  | some _ => .error (.malformed claim)

def expiration (c : Claims) : Except ClaimRejection (Option UnixTime) := c.timeAt .expiration

def notBefore (c : Claims) : Except ClaimRejection (Option UnixTime) := c.timeAt .notBefore

def issuer (c : Claims) : Except ClaimRejection (Option String) := c.stringAt .issuer

def subject (c : Claims) : Except ClaimRejection (Option String) := c.stringAt .subject

/-- Whom the token is for. A missing claim is for nobody. -/
def audience (c : Claims) : Except ClaimRejection Audiences :=
  match c.find? RegisteredClaim.audience.name with
  | none => .ok .empty
  | some v =>
    match Audiences.ofJson? v with
    | some a => .ok a
    | none => .error (.malformed .audience)

/-! ## Setting registered claims -/

def withIssuer (c : Claims) (iss : String) : Claims := c.set "iss" (.string iss)

def withSubject (c : Claims) (sub : String) : Claims := c.set "sub" (.string sub)

/-- Sets a single audience, as a bare string. -/
def withAudience (c : Claims) (aud : String) : Claims := c.set "aud" (.string aud)

/-- Sets the audiences, always as an array. -/
def withAudiences (c : Claims) (aud : Audiences) : Claims :=
  c.set "aud" (.array (aud.list.map .string))

def withExpiration (c : Claims) (t : UnixTime) : Claims := c.set "exp" (.ofUInt64 t.seconds)

/-- Sets the time from which the token is valid. -/
def withNotBefore (c : Claims) (t : UnixTime) : Claims := c.set "nbf" (.ofUInt64 t.seconds)

/-- Sets the expiration so many seconds after `now`. -/
def withExpirationIn (c : Claims) (seconds : UInt64) (now : UnixTime) : Claims :=
  c.withExpiration (now.after seconds)

/-- Something that is set in a payload. -/
inductive Setting where
  | issuer (iss : String)
  | subject (sub : String)
  /-- One audience, as a bare string. -/
  | audience (aud : String)
  /-- Audiences, as an array. -/
  | audiences (aud : Audiences)
  | expiration (t : UnixTime)
  | expirationIn (seconds : UInt64) (now : UnixTime)
  | notBefore (t : UnixTime)
  | claim (name : String) (value : Json)

/-- Sets one thing, in place of what was set before under the same name. -/
def apply (c : Claims) : Setting → Claims
  | .issuer iss => c.withIssuer iss
  | .subject sub => c.withSubject sub
  | .audience aud => c.withAudience aud
  | .audiences aud => c.withAudiences aud
  | .expiration t => c.withExpiration t
  | .expirationIn seconds now => c.withExpirationIn seconds now
  | .notBefore t => c.withNotBefore t
  | .claim name value => c.set name value

/-- The payload in which this is set, in order. -/
def ofSettings (l : List Setting) : Claims := l.foldl apply empty

/-! ## The written form -/

/-- The claims of an object with these members, of which the last one of each name counts. -/
def ofMembers (members : List (String × Json)) : Claims :=
  ⟨.ofList (members.map fun m => (m.1, m.2.toCanonical))⟩

/-- The claims of a value, which must be an object. -/
def ofJson? : Json → Option Claims
  | .object members => some (ofMembers members)
  | _ => none

def toJson (c : Claims) : Json := .object (c.members.entries.map fun e => (e.1, e.2.1))

def render (c : Claims) : String := c.toJson.render

def parse? (s : Bytes) : Option Claims := do ofJson? (← Json.parse? s)

def ofText? (s : String) : Option Claims := parse? (Bytes.ofString s)

def count (c : Claims) : Nat := c.members.size

end Claims
end BearerAuth
