import BearerAuth.Access.Requirement

/-!
# BearerAuth — policies

A policy is a named list of requirements with a rule for combining them. Requirements are evaluated
one at a time in the order of the list. Under the rule `all` every one is evaluated and all must be
satisfied; under the rule `sufficient` evaluation stops at the first that is satisfied, and that is
enough. Whenever no decision can be reached about a requirement, evaluation stops with its error.
While a requirement is suspended so is the policy, and the next requirement waits.

## Main definitions

* `Policy`              — requirements and the rule that combines them.
* `Decision`            — granted, or refused with the failures that led to it.
* `Policy.evaluation`   — the evaluation for an identity, which may be suspended.
* `Policy.evaluate`     — the decision, and the requirements that were evaluated.
* `Registry`            — policies by name; the first policy of a name is kept.
* `Registry.register`, `registerAll`, `extend`, `ofList` — the ways to build one.
* `AccessError`         — why access is not granted.
-/

namespace BearerAuth

/-- How the requirements of a policy combine. -/
inductive Policy.Mode where
  | all
  | sufficient
deriving DecidableEq

def Policy.Mode.name : Policy.Mode → String
  | .all => "all"
  | .sufficient => "sufficient"

/-- A named list of requirements and the rule that combines them. -/
structure Policy where
  name : String
  requirements : List Requirement := []
  mode : Policy.Mode := .all

/-- A requirement that was not satisfied, and its reason. -/
structure Failure where
  requirement : String
  reason : String
deriving DecidableEq

/-- What a policy says about an identity. -/
inductive Decision where
  | granted
  | refused (failures : List Failure)
deriving DecidableEq

namespace Decision

def succeeded : Decision → Bool
  | .granted => true
  | .refused _ => false

/-- The requirements that were not satisfied, in the order of evaluation. -/
def failures : Decision → List Failure
  | .granted => []
  | .refused fs => fs

end Decision

inductive AccessError where
  /-- The decision was to refuse, and nobody is authenticated. -/
  | unauthenticated (failures : List Failure)
  /-- The decision was to refuse somebody who is authenticated. -/
  | forbidden (failures : List Failure)
  /-- There is no policy of this name. -/
  | policyNotFound (name : String)
  /-- No decision could be reached about a requirement. -/
  | requirement (name : String) (cause : RequirementError)
deriving DecidableEq

namespace AccessError

def message : AccessError → String
  | .unauthenticated _ => "authentication is required"
  | .forbidden _ => "access denied by policy"
  | .policyNotFound name => "policy not found: " ++ name
  | .requirement name _ => "requirement `" ++ name ++ "` could not be evaluated"

/-- The decision behind the error. -/
def decision? : AccessError → Option Decision
  | .unauthenticated fs | .forbidden fs => some (.refused fs)
  | _ => none

/-- Whether the caller should be asked to authenticate. -/
def isUnauthenticated : AccessError → Bool
  | .unauthenticated _ => true
  | _ => false

def isForbidden : AccessError → Bool
  | .forbidden _ => true
  | _ => false

end AccessError

/-- A result, and the requirements that were evaluated on the way to it, in order. -/
structure Evaluation (α : Type u) where
  result : Except AccessError α
  evaluated : List Requirement

/-- The same, after requirements that were evaluated before. -/
def Evaluation.after (before : List Requirement) (e : Evaluation α) : Evaluation α :=
  { e with evaluated := before ++ e.evaluated }

namespace Policy

/-- The policy with one more requirement at its end. -/
def require (p : Policy) (r : Requirement) : Policy :=
  { p with requirements := p.requirements ++ [r] }

/-- A policy that any one requirement is enough for. -/
def sufficient (name : String) : Policy := { name, mode := .sufficient }

/-- A policy for whoever is authenticated. -/
def authenticated (name : String) : Policy := { name, requirements := [.authenticated] }

/-- A policy for whoever is not authenticated. -/
def anonymous (name : String) : Policy := { name, requirements := [.anonymous] }

/-- The decision when every requirement was evaluated, with the failures seen. -/
def conclude (mode : Mode) (failures : List Failure) : Decision :=
  match mode, failures with
  -- Under `sufficient` the list was exhausted without a requirement that was satisfied.
  | .all, [] => .granted
  | _, _ => .refused failures

/-- Evaluates requirements in order, after some that were evaluated before with these failures. -/
def evaluationFrom (mode : Mode) (i : Identity) (failures : List Failure) :
    List Requirement → Suspended (Evaluation Decision)
  | [] => .ready ⟨.ok (conclude mode failures), []⟩
  | r :: rest => (r.evaluation i).bind fun
    | .error e => .ready ⟨.error (.requirement r.name e), [r]⟩
    | .ok outcome =>
      match outcome, mode with
      | .satisfied, .sufficient => .ready ⟨.ok .granted, [r]⟩
      | .satisfied, .all => (evaluationFrom mode i failures rest).map (.after [r])
      | .unsatisfied reason, _ =>
        (evaluationFrom mode i (failures ++ [⟨r.name, reason⟩]) rest).map (.after [r])

/-- The evaluation of a policy for an identity. -/
def evaluation (p : Policy) (i : Identity) : Suspended (Evaluation Decision) :=
  evaluationFrom p.mode i [] p.requirements

/-- How the evaluation of a policy for an identity ends. -/
def evaluate (p : Policy) (i : Identity) : Evaluation Decision := (p.evaluation i).result

end Policy

/-! ## Registries -/

structure Registry where
  policies : OrderedMap Policy := .empty

namespace Registry

def empty : Registry := {}

/-- Registers a policy, unless its name is taken. -/
def register (r : Registry) (p : Policy) : Registry := ⟨r.policies.insertNew p.name p⟩

def registerAll (r : Registry) (ps : List Policy) : Registry := ps.foldl register r

/-- Registers policies in place. For each one the registry is taken out, which leaves the empty one
behind, and put back with the policy. -/
def extend (ps : List Policy) : StateM Registry PUnit :=
  ps.forM fun p => do
    let taken ← modifyGet fun r => (r, empty)
    set (taken.register p)

/-- The registry of a list of policies: an empty one that is extended by them. -/
def ofList (ps : List Policy) : Registry := ((extend ps).run empty).2

def get (r : Registry) (name : String) : Except AccessError Policy :=
  match r.policies.find? name with
  | some p => .ok p
  | none => .error (.policyNotFound name)

def size (r : Registry) : Nat := r.policies.size

def isEmpty (r : Registry) : Bool := r.policies.entries.isEmpty

end Registry
end BearerAuth
