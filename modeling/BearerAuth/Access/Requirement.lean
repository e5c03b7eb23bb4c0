import BearerAuth.Access.Identity
import BearerAuth.Text.Quoted

/-!
# BearerAuth — requirements

A requirement is one condition on an identity, with a name that stays the same. Its evaluation ends
in one of three ways: it is satisfied, it is not and gives a reason, or no decision could be
reached. The conditions on claims never end in the third way. A condition that the application
supplies may be suspended a finite number of times before it ends, and may be of a kind of its own,
with reasons of its own.

## Main definitions

* `Requirement`           — the conditions.
* `RequiredValues`        — what a requirement on the values of claims is put together from.
* `Outcome`               — satisfied, or not and why.
* `Suspended`             — a result after finitely many suspensions.
* `Requirement.evaluation` — the evaluation for an identity, which may be suspended.
* `Requirement.evaluate`  — how the evaluation ends.
-/

namespace BearerAuth

/-- How an evaluation ends that reaches a decision. -/
inductive Outcome where
  | satisfied
  | unsatisfied (reason : String)
deriving DecidableEq

namespace Outcome

/-- Satisfied, or not for this reason. -/
def ofCheck (satisfied : Bool) (reason : String) : Outcome :=
  if satisfied then .satisfied else .unsatisfied reason

/-- Whether the requirement is satisfied. -/
def isSatisfied : Outcome → Bool
  | .satisfied => true
  | .unsatisfied _ => false

/-- Why the requirement is not satisfied. -/
def reason? : Outcome → Option String
  | .satisfied => none
  | .unsatisfied reason => some reason

end Outcome

/-- No decision could be reached. -/
structure RequirementError where
  cause : String
deriving DecidableEq

def RequirementError.message (_ : RequirementError) : String :=
  "requirement could not be evaluated"

/-- A result that is reached after finitely many suspensions. -/
inductive Suspended (α : Type u) where
  | ready (result : α)
  | later (rest : Suspended α)

namespace Suspended

/-- The result that is reached in the end. -/
def result : Suspended α → α
  | .ready a => a
  | .later rest => rest.result

/-- The number of suspensions before the result. -/
def suspensions : Suspended α → Nat
  | .ready _ => 0
  | .later rest => rest.suspensions + 1

/-- The result after so many suspensions. -/
def after : Nat → α → Suspended α
  | 0, a => .ready a
  | n + 1, a => .later (after n a)

/-- Goes on with what the result leads to. -/
def bind (x : Suspended α) (f : α → Suspended β) : Suspended β :=
  match x with
  | .ready a => f a
  | .later rest => .later (rest.bind f)

/-- The same suspensions, with another result. -/
def map (f : α → β) (x : Suspended α) : Suspended β := x.bind fun a => .ready (f a)

section Laws

variable {α : Type u} {β : Type v}

@[simp] theorem result_after (n : Nat) (a : α) : (after n a).result = a := by
  induction n with
  | zero => rfl
  | succ n ih => exact ih

/-- There is nothing more to a suspended result than the result and when it is reached. -/
theorem eq_after {x : Suspended α} {n : Nat} {a : α} (suspensions : x.suspensions = n)
    (result : x.result = a) : x = after n a := by
  subst suspensions result
  induction x with
  | ready a => rfl
  | later rest ih => exact congrArg later ih

/-- The result of a sequence is that of its second part, for the result of the first. -/
@[simp] theorem result_bind (x : Suspended α) (f : α → Suspended β) :
    (x.bind f).result = (f x.result).result := by
  induction x with
  | ready a => rfl
  | later rest ih => exact ih

/-- The suspensions of a sequence are those of both parts. -/
@[simp] theorem suspensions_bind (x : Suspended α) (f : α → Suspended β) :
    (x.bind f).suspensions = x.suspensions + (f x.result).suspensions := by
  induction x with
  | ready a => exact (Nat.zero_add _).symm
  | later rest ih =>
    simp only [bind, suspensions, result, ih]
    omega

@[simp] theorem result_map (f : α → β) (x : Suspended α) : (x.map f).result = f x.result :=
  result_bind x _

@[simp] theorem suspensions_map (f : α → β) (x : Suspended α) :
    (x.map f).suspensions = x.suspensions :=
  suspensions_bind x _

end Laws

end Suspended

/-- A condition on an identity. -/
inductive Requirement where
  /-- The identity is authenticated. -/
  | authenticated
  /-- The identity is not authenticated. -/
  | anonymous
  /-- The identity carries every one of these claims. -/
  | presence (claims : List String)
  /-- For each pair some value of the claim equals the value. -/
  | equality (expected : List (String × Json))
  /-- Some value of the claim is among the allowed ones. -/
  | membership (claim : String) (allowed : List Json)
  /-- Some value of the claim is one of the roles. -/
  | roles (roles : List String) (claim : String)
  /-- A condition that the application supplies. -/
  | condition (name : String) (holds : Identity → Bool)
  /-- A condition that the application supplies and that may be suspended or fail. -/
  | suspending (name : String)
      (holds : Identity → Suspended (Except RequirementError Bool))
  /-- A requirement of a kind that the application supplies, with its own reasons. -/
  | custom (name description : String)
      (outcome : Identity → Suspended (Except RequirementError Outcome))

namespace Requirement

/-- One of these roles, in the usual claim. -/
def anyRole (rs : List String) : Requirement := .roles rs "roles"

end Requirement

/-- Claims with the values that they must have, as they are put together. -/
structure RequiredValues where
  pairs : List (String × Json)

namespace RequiredValues

def all (pairs : List (String × Json)) : RequiredValues := ⟨pairs⟩

def single (name : String) (value : Json) : RequiredValues := ⟨[(name, value)]⟩

/-- One more pair, after those that there are. -/
def and (e : RequiredValues) (name : String) (value : Json) : RequiredValues :=
  ⟨e.pairs ++ [(name, value)]⟩

/-- The requirement that every claim has its value. -/
def requirement (e : RequiredValues) : Requirement := .equality e.pairs

end RequiredValues

namespace Requirement

/-- The name of the requirement. -/
def name : Requirement → String
  | .authenticated => "authenticated"
  | .anonymous => "anonymous"
  | .presence _ => "claim-presence"
  | .equality _ => "claim-equality"
  | .membership _ _ => "claim-set-membership"
  | .roles _ _ => "role-membership"
  | .condition name _ => name
  | .suspending name _ => name
  | .custom name _ _ => name

/-- The claims that an identity lacks, in the order of the list. -/
def missingClaims (claims : List String) (i : Identity) : List String :=
  claims.filter fun c => !i.carries c

/-- The claims of the pairs that do not match, in the order of the list. -/
def mismatchedClaims (expected : List (String × Json)) (i : Identity) : List String :=
  (expected.filter fun e => !i.hasValue e.1 (·.same e.2)).map (·.1)

/-- Whether some value of a claim is among the allowed ones. -/
def holdsAllowed (claim : String) (allowed : List Json) (i : Identity) : Bool :=
  i.hasValue claim fun v => allowed.any fun a => a.same v

/-- Whether some value of a claim is one of the roles. -/
def holdsRole (rs : List String) (claim : String) (i : Identity) : Bool :=
  (i.texts claim).any rs.contains

/-- The outcome of a condition that the application supplies. -/
def ofCondition (name : String) (met : Bool) : Outcome :=
  .ofCheck met ("condition `" ++ name ++ "` was not met")

/-- The evaluation of a requirement for an identity. -/
def evaluation (r : Requirement) (i : Identity) : Suspended (Except RequirementError Outcome) :=
  match r with
  | .authenticated => .ready (.ok (.ofCheck i.isAuthenticated "identity is not authenticated"))
  | .anonymous => .ready (.ok (.ofCheck (!i.isAuthenticated) "identity is authenticated"))
  | .presence claims =>
    let missing := missingClaims claims i
    .ready (.ok (.ofCheck missing.isEmpty ("missing claim: " ++ ", ".intercalate missing)))
  | .equality expected =>
    let mismatched := mismatchedClaims expected i
    .ready (.ok (.ofCheck mismatched.isEmpty
      ("claim does not have the required value: " ++ ", ".intercalate mismatched)))
  | .membership claim allowed =>
    .ready (.ok (.ofCheck (holdsAllowed claim allowed i)
      ("claim `" ++ claim ++ "` is not one of the allowed values")))
  | .roles rs claim =>
    -- An empty list admits nobody, and says so instead of naming no role.
    if rs.isEmpty then .ready (.ok (.unsatisfied "no roles are accepted"))
    else .ready (.ok (.ofCheck (holdsRole rs claim i)
      ("missing required role: " ++ ", ".intercalate rs)))
  | .condition name holds => .ready (.ok (ofCondition name (holds i)))
  | .suspending name holds => (holds i).map (·.map (ofCondition name))
  | .custom _ _ outcome => outcome i

/-- How the evaluation of a requirement for an identity ends. -/
def evaluate (r : Requirement) (i : Identity) : Except RequirementError Outcome :=
  (r.evaluation i).result

/-- Whether the application supplies the condition, so that it can see when it runs. -/
def isSupplied : Requirement → Bool
  | .condition _ _ | .suspending _ _ | .custom _ _ _ => true
  | _ => false

/-- A description of the requirement. Conditions that the application supplies show their name. -/
def describe : Requirement → String
  | .authenticated => Text.record "AuthenticatedRequirement" []
  | .anonymous => Text.record "AnonymousRequirement" []
  | .presence claims =>
    Text.record "ClaimPresenceRequirement" [("claims", Text.listed (claims.map Text.quoted))]
  | .equality expected =>
    Text.record "ClaimEqualsRequirement" [("expected", Text.listed (expected.map fun e =>
      "(" ++ Text.quoted e.1 ++ ", " ++ e.2.describe ++ ")"))]
  | .membership claim allowed =>
    Text.record "ClaimInRequirement" [("claim", Text.quoted claim),
      ("allowed", Text.listed (allowed.map Json.describe))]
  | .roles rs claim =>
    Text.record "RolesRequirement" [("roles", Text.listed (rs.map Text.quoted)),
      ("claim", Text.quoted claim)]
  | .condition name _ => Text.partialRecord "FnRequirement" [("name", Text.quoted name)]
  | .suspending name _ => Text.partialRecord "AsyncFnRequirement" [("name", Text.quoted name)]
  | .custom _ description _ => description

end Requirement
end BearerAuth
