import BearerAuth.Access.Authorizer
import BearerAuth.Access.Identity
import BearerAuth.Access.Policy
import BearerAuth.Access.Requirement
import BearerAuth.Algorithm
import BearerAuth.Bytes
import BearerAuth.Clock
import BearerAuth.Decimal.Double
import BearerAuth.Decimal.Shortest
import BearerAuth.Digest.Hmac
import BearerAuth.Digest.Sha2
import BearerAuth.Digest.Sha256
import BearerAuth.Digest.Sha512
import BearerAuth.Json.Number
import BearerAuth.Json.Parser
import BearerAuth.Json.Printer
import BearerAuth.Json.Record
import BearerAuth.Json.Value
import BearerAuth.Key.Basic
import BearerAuth.Key.Document
import BearerAuth.Key.Material
import BearerAuth.Key.Verifier
import BearerAuth.KeyCache.Client
import BearerAuth.KeyCache.Provider
import BearerAuth.KeyCache.Snapshot
import BearerAuth.KeySet
import BearerAuth.OrderedMap
import BearerAuth.Proofs.Access.Authorization
import BearerAuth.Proofs.Access.Evaluation
import BearerAuth.Proofs.Access.Identity
import BearerAuth.Proofs.Access.Offenders
import BearerAuth.Proofs.Access.Registry
import BearerAuth.Proofs.Access.Roles
import BearerAuth.Proofs.Json.Equality
import BearerAuth.Proofs.Json.Records
import BearerAuth.Proofs.Json.RoundTrip
import BearerAuth.Proofs.Json.Scalars
import BearerAuth.Proofs.Json.Skipping
import BearerAuth.Proofs.Key.Capability
import BearerAuth.Proofs.Key.Components
import BearerAuth.Proofs.Key.Document
import BearerAuth.Proofs.Key.Listing
import BearerAuth.Proofs.Key.Republishing
import BearerAuth.Proofs.Key.Selection
import BearerAuth.Proofs.KeyCache.Index
import BearerAuth.Proofs.KeyCache.Run
import BearerAuth.Proofs.KeyCache.Steps
import BearerAuth.Proofs.KeyCache.Throttling
import BearerAuth.Proofs.KeyCache.Writes
import BearerAuth.Proofs.Remote.Conditional
import BearerAuth.Proofs.Remote.Discovery
import BearerAuth.Proofs.Session.Integrity
import BearerAuth.Proofs.Session.Operations
import BearerAuth.Proofs.Session.Provenance
import BearerAuth.Proofs.Session.SingleFlight
import BearerAuth.Proofs.Session.Waiters
import BearerAuth.Proofs.Text.Base64Url
import BearerAuth.Proofs.Text.Canonical
import BearerAuth.Proofs.Token.Building
import BearerAuth.Proofs.Token.Checks
import BearerAuth.Proofs.Token.Decomposition
import BearerAuth.Proofs.Token.Faults
import BearerAuth.Proofs.Token.Reading
import BearerAuth.Proofs.Token.Redaction
import BearerAuth.Proofs.Token.Rules
import BearerAuth.Proofs.Token.Signing
import BearerAuth.Proofs.Token.Values
import BearerAuth.Proofs.Validator.Acceptance
import BearerAuth.Proofs.Validator.Composite
import BearerAuth.Proofs.Validator.Configuration
import BearerAuth.Proofs.Validator.Keys
import BearerAuth.Proofs.Validator.Rejection
import BearerAuth.Proofs.Validator.Repetition
import BearerAuth.Proofs.Validator.Stages
import BearerAuth.Proofs.Validator.Steps
import BearerAuth.Proofs.Validator.Unnamed
import BearerAuth.Remote.Http
import BearerAuth.Remote.Provider
import BearerAuth.Session.Basic
import BearerAuth.Session.Run
import BearerAuth.Signature.Curve
import BearerAuth.Signature.Modular
import BearerAuth.Signature.Rsa
import BearerAuth.Text.Base64Url
import BearerAuth.Text.Printable
import BearerAuth.Text.Quoted
import BearerAuth.Token.ClaimRules
import BearerAuth.Token.Claims
import BearerAuth.Token.Compact
import BearerAuth.Token.Header
import BearerAuth.Token.Redacted
import BearerAuth.Validator.Basic
import BearerAuth.Validator.Config
import BearerAuth.Validator.Describe
import BearerAuth.Validator.Settings
