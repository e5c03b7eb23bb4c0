import BearerAuth.Access.Policy

/-!
# BearerAuth — authorization

An authorizer decides about an identity and a target: a registered policy, one of several roles, or
the default policy, which without further configuration asks for any authenticated identity. Nobody
is treated like an identity about which nothing is asserted. An operation can be put under the
protection of an authorizer; it may be suspended itself, and is not begun before access is granted.

## Main definitions

* `Target`                — what access is asked for.
* `Authorizer`            — a registry and a default policy.
* `Authorizer.evaluation`, `evaluate`       — the decision, to grant or to refuse.
* `Authorizer.authorization`, `authorize`   — the decision to grant, or the error that access is
  refused with.
* `Authorizer.guarded`, `guard`             — runs an operation once access is granted.
-/

namespace BearerAuth

inductive Target where
  | policy (name : String)
  | roles (roles : List String)
  | default
deriving DecidableEq

instance : ToString Target where
  toString
    | .policy name => "policy:" ++ name
    | .roles rs => "roles:" ++ ",".intercalate rs
    | .default => "default"

structure Authorizer where
  registry : Registry := .empty
  /-- The policy for the default target. -/
  defaultPolicy : Option Policy := none

namespace Authorizer

/-- The policy that a target stands for. -/
def policyOf (a : Authorizer) : Target → Except AccessError Policy
  | .policy name => a.registry.get name
  | .roles rs => .ok { name := "roles", requirements := [.anyRole rs] }
  | .default => .ok (a.defaultPolicy.getD (.authenticated "default"))

/-- The decision about an identity and a target, which may be suspended. -/
def evaluation (a : Authorizer) (i : Option Identity) (t : Target) :
    Suspended (Evaluation Decision) :=
  match a.policyOf t with
  | .error e => .ready ⟨.error e, []⟩
  | .ok p => p.evaluation (i.getD .anonymous)

/-- The decision about an identity and a target. -/
def evaluate (a : Authorizer) (i : Option Identity) (t : Target) : Evaluation Decision :=
  (a.evaluation i t).result

/-- The decision as seen by an identity: a refusal becomes an error. -/
def enforce (i : Option Identity) : Decision → Except AccessError Decision
  | .granted => .ok .granted
  | .refused fs =>
    if i.any (·.isAuthenticated) then .error (.forbidden fs) else .error (.unauthenticated fs)

/-- The decision to grant access, or the error that it is refused with, which may be suspended. -/
def authorization (a : Authorizer) (i : Option Identity) (t : Target) :
    Suspended (Evaluation Decision) :=
  (a.evaluation i t).map fun e => ⟨e.result.bind (enforce i), e.evaluated⟩

/-- The decision to grant access, or the error that it is refused with. -/
def authorize (a : Authorizer) (i : Option Identity) (t : Target) : Evaluation Decision :=
  (a.authorization i t).result

/-- What happened on the way to a guarded value, in order. -/
inductive Event where
  | evaluated (r : Requirement)
  /-- The guarded operation ran. -/
  | ran

/-- Runs an operation if access is granted: its value or the error that access is refused with, and
what happened on the way. -/
def guarded (a : Authorizer) (i : Option Identity) (t : Target) (operation : Unit → Suspended α) :
    Suspended (Except AccessError α × List Event) :=
  (a.authorization i t).bind fun e =>
    let before := e.evaluated.map Event.evaluated
    match e.result with
    | .ok _ => (operation ()).map fun value => (.ok value, before ++ [.ran])
    | .error err => .ready (.error err, before)

/-- Runs an operation that is not suspended if access is granted. -/
def guard (a : Authorizer) (i : Option Identity) (t : Target) (operation : Unit → α) :
    Except AccessError α × List Event :=
  (a.guarded i t fun _ => .ready (operation ())).result

end Authorizer
end BearerAuth
