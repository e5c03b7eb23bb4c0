import BearerAuth.Key.Basic
import BearerAuth.Text.Base64Url
import BearerAuth.Token.ClaimRules

/-!
# BearerAuth — compact tokens

A token is three sections of base64 separated by dots: the header, the payload and the signature.
What is signed is the text of the first two with the dot between them, exactly as it stands in the
token. A token is taken apart (`Decomposed.ofToken`) before anything is known about its signature,
so its payload is left encoded; only after the signature is found to belong to the message is the
payload decoded and are its claims checked (`Decomposed.verify`).

## Main definitions

* `Decomposed`            — the parts of a token.
* `Decomposed.ofToken`    — takes a token apart.
* `Decomposed.verify`     — confirms a token with a key and rules.
* `Token.sign`            — makes a token.
* `TokenError`            — why a token is refused.
-/

namespace BearerAuth

inductive TokenSection where
  | header
  | payload
  | signature
deriving DecidableEq

def TokenSection.name : TokenSection → String
  | .header => "header"
  | .payload => "payload"
  | .signature => "signature"

inductive TokenError where
  /-- The token has not three sections. -/
  | malformed
  /-- A section cannot be decoded. -/
  | malformedSection (tokenSection : TokenSection)
  /-- The header names an algorithm that is not known. -/
  | unknownAlgorithm (name : String)
  /-- The key does not confirm the signature. -/
  | rejectedByKey (cause : VerifyError)
  /-- The header or the claims break a rule. -/
  | rejectedClaims (cause : ClaimRejection)
deriving DecidableEq

def TokenError.message : TokenError → String
  | .malformed => "malformed JWT"
  | .malformedSection s => "malformed JWT " ++ s.name
  | .unknownAlgorithm name => unknownAlgorithmMessage name
  | .rejectedByKey _ => "token rejected by JWK"
  | .rejectedClaims _ => "token rejected by claims validator"

/-! ## Taking a token apart -/

/-- The text before the last dot, and the text after it. -/
def cutAtLastDot : List Char → Option (List Char × List Char)
  | [] => none
  | c :: cs =>
    match cutAtLastDot cs with
    | some (before, after) => some (c :: before, after)
    | none => if c = '.' then some ([], cs) else none

/-- The three sections of a text with exactly two dots. The signature is cut off at the last dot and
the payload at the one before, so that any further dots are left in the header. -/
def sections? (cs : List Char) : Option (List Char × List Char × List Char) := do
  let (message, s) ← cutAtLastDot cs
  let (h, p) ← cutAtLastDot message
  if p.contains '.' || h.contains '.' then none else some (h, p, s)

structure Decomposed where
  header : Header
  /-- The signed text: the first two sections with the dot between them. -/
  message : String
  /-- The payload, still encoded. -/
  payload : String
  signature : Bytes

/-- The value of a section, or the error that the section cannot be decoded. -/
def inSection (s : TokenSection) : Option α → Except TokenError α
  | some a => .ok a
  | none => .error (.malformedSection s)

namespace Decomposed

/-- Takes a token apart. Both encoded sections are decoded before the header is read. -/
def ofToken (token : String) : Except TokenError Decomposed :=
  match sections? token.toList with
  | none => .error .malformed
  | some (h, p, s) => do
    let headerBytes ← inSection .header (Base64Url.decodeChars? h)
    let signature ← inSection .signature (Base64Url.decodeChars? s)
    let header ← inSection .header (Header.parse? headerBytes)
    return ⟨header, String.ofList (h ++ '.' :: p), String.ofList p, signature⟩

def algorithm (d : Decomposed) : Except TokenError Algorithm :=
  match d.header.algorithm? with
  | some a => .ok a
  | none => .error (.unknownAlgorithm d.header.algorithmName)

def claims (d : Decomposed) : Except TokenError Claims := do
  let bytes ← inSection .payload (Base64Url.decode? d.payload)
  inSection .payload (Claims.parse? bytes)

/-- Confirms the signature with a key. -/
def checkSignature (d : Decomposed) (key : Key) : Except TokenError Unit := do
  let a ← d.algorithm
  (key.verify a (Bytes.ofString d.message) d.signature).mapError .rejectedByKey

/-- Decodes the claims and checks them at a time. -/
def checkedClaims (d : Decomposed) (rules : ClaimRules) (now : UnixTime) :
    Except TokenError Claims := do
  let c ← d.claims
  (rules.check d.header c now).mapError .rejectedClaims
  return c

/-- Confirms a token with a key and rules at a time. The payload is not looked at before the
signature is confirmed. -/
def verify (d : Decomposed) (key : Key) (rules : ClaimRules) (now : UnixTime) :
    Except TokenError Claims := do
  d.checkSignature key
  d.checkedClaims rules now

end Decomposed

/-! ## Making and confirming tokens -/

namespace Token

inductive SigningError where
  | unknownAlgorithm (name : String)
  | refused (cause : SignError)
deriving DecidableEq

def SigningError.message : SigningError → String
  | .unknownAlgorithm name => unknownAlgorithmMessage name
  | .refused cause => cause.message

/-- The signed text of a token: header and payload in base64 with a dot between them. -/
def signedText (h : Header) (c : Claims) : String :=
  Base64Url.encode (Bytes.ofString h.render) ++ "." ++ Base64Url.encode (Bytes.ofString c.render)

/-- Makes a token, signed with the algorithm that the header names. -/
def sign (h : Header) (c : Claims) (key : Key) : Except SigningError String :=
  match h.algorithm? with
  | none => .error (.unknownAlgorithm h.algorithmName)
  | some a =>
    let text := signedText h c
    match key.sign a (Bytes.ofString text) with
    | .error e => .error (.refused e)
    | .ok signature => .ok (text ++ "." ++ Base64Url.encode signature)

/-- Confirms a token with a key and rules at a time. -/
def verify (token : String) (key : Key) (rules : ClaimRules) (now : UnixTime) :
    Except TokenError (Header × Claims) := do
  let d ← Decomposed.ofToken token
  let c ← d.verify key rules now
  return (d.header, c)

end Token
end BearerAuth
