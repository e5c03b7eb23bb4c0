import BearerAuth.Token.Claims
import BearerAuth.Token.Header

/-!
# BearerAuth — rules for claims

What a header and claims must satisfy at a point in time. Expiration is required unless it is
ignored; the time from which a token is valid counts when the token carries it; issuers, audiences
and algorithms are restricted once at least one acceptable value is given. The checks are made in a
fixed order and the first one that fails is the answer.

## Main definitions

* `ClaimRules`          — the rules.
* `ClaimRules.approves` — whether signatures of an algorithm may be accepted.
* `ClaimRules.check`    — the first rule that is broken at a time.
-/

namespace BearerAuth

/-- What a header and claims must satisfy. -/
structure ClaimRules where
  /-- The acceptable algorithms; any, if there are none. -/
  algorithms : List Algorithm := []
  /-- The acceptable issuers; any, if there are none. -/
  issuers : List String := []
  /-- The acceptable audiences; any, if there are none. -/
  audiences : List String := []
  /-- The grace period in seconds on either side of a token's life. -/
  leeway : UInt64 := 0
  checkExpiration : Bool := true
  checkNotBefore : Bool := true

namespace ClaimRules

/-- The rules with a grace period in milliseconds, of which whole seconds count. -/
def withLeewayMillis (r : ClaimRules) (millis : UInt64) : ClaimRules :=
  { r with leeway := millis / 1000 }

/-- Whether signatures of an algorithm may be accepted. -/
def approves (r : ClaimRules) (a : Algorithm) : Bool :=
  r.algorithms.isEmpty || r.algorithms.contains a

def require (claim : RegisteredClaim) : Option α → Except ClaimRejection α
  | some a => .ok a
  | none => .error (.missing claim)

/-- Fails unless a condition holds. -/
def ensure (rejection : ClaimRejection) (condition : Bool) : Except ClaimRejection Unit :=
  if condition then .ok () else .error rejection

/-- The header must name an approved algorithm. -/
def checkAlgorithm (r : ClaimRules) (h : Header) : Except ClaimRejection Unit :=
  ensure .invalidAlgorithm (h.algorithm?.any r.approves)

/-- The token must not have expired; within the grace period it has not. -/
def checkExpires (r : ClaimRules) (c : Claims) (now : UnixTime) : Except ClaimRejection Unit :=
  if r.checkExpiration then do
    let t ← require .expiration (← c.expiration)
    -- The second of expiration itself is too late.
    ensure .expired (now.seconds < (t.after r.leeway).seconds)
  else .ok ()

/-- The token must be valid already, or within the grace period. -/
def checkValidFrom (r : ClaimRules) (c : Claims) (now : UnixTime) : Except ClaimRejection Unit :=
  if r.checkNotBefore then do
    match ← c.notBefore with
    | none => .ok ()
    | some t => ensure .notYetValid (t.seconds ≤ (now.after r.leeway).seconds)
  else .ok ()

/-- The issuer must be an acceptable one, if any are given. -/
def checkIssuer (r : ClaimRules) (c : Claims) : Except ClaimRejection Unit :=
  if r.issuers.isEmpty then .ok ()
  else do
    let iss ← require .issuer (← c.issuer)
    ensure .invalidIssuer (r.issuers.contains iss)

/-- One of the audiences must be an acceptable one, if any are given. -/
def checkAudience (r : ClaimRules) (c : Claims) : Except ClaimRejection Unit :=
  if r.audiences.isEmpty then .ok ()
  else do
    let aud ← c.audience
    ensure (.missing .audience) (!aud.list.isEmpty)
    ensure .invalidAudience (aud.list.any r.audiences.contains)

/-- Checks a header and claims at a time. -/
def check (r : ClaimRules) (h : Header) (c : Claims) (now : UnixTime) :
    Except ClaimRejection Unit := do
  r.checkAlgorithm h
  r.checkExpires c now
  r.checkValidFrom c now
  r.checkIssuer c
  r.checkAudience c

end ClaimRules
end BearerAuth
