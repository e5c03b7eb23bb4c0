import BearerAuth.Access.Authorizer
import BearerAuth.Proofs.Access.Evaluation
import BearerAuth.Proofs.Access.Registry

/-!
# BearerAuth — what an authorizer grants, and what it guards

An authorizer turns the decision of a policy into an answer for whoever asks. A refusal is told
apart by whether there is anybody to refuse: somebody authenticated is forbidden to go on, anybody
else is asked to authenticate first. That no decision could be reached is passed on as it is. A
guarded operation runs once, after every requirement, if access is granted, and does not begin
otherwise.

Main results:

* `Authorizer.enforces`         — the five answers, each with the decision behind it.
* `Authorizer.authorization_exact` — when each is given, for which policy, and what is guarded by
  it.
-/

namespace BearerAuth

namespace Authorizer

variable {a : Authorizer} {i : Option Identity} {t : Target} {d : Decision} {e : AccessError}
  {α : Type u}

/-- Somebody asks, and is authenticated. -/
def Known (i : Option Identity) : Prop := ∃ j, i = some j ∧ j.isAuthenticated = true

theorem any_isAuthenticated_iff : i.any (·.isAuthenticated) = true ↔ Known i := by
  simp [Known, Option.any_eq_true]

/-- Somebody who is known is forbidden to go on, and told the failures. -/
theorem enforce_refused_of_known (known : Known i) (fs : List Failure) :
    enforce i (.refused fs) = .error (.forbidden fs) :=
  if_pos (any_isAuthenticated_iff.mpr known)

/-- Anybody else is asked to authenticate, with the same failures. -/
theorem enforce_refused_of_not_known (unknown : ¬ Known i) (fs : List Failure) :
    enforce i (.refused fs) = .error (.unauthenticated fs) :=
  if_neg fun h => unknown (any_isAuthenticated_iff.mp h)

/-! ## The answers -/

/-- Authorizing is evaluating and making an answer of the decision, for which no requirement is
evaluated. -/
theorem authorize_eq (a : Authorizer) (i : Option Identity) (t : Target) :
    a.authorize i t =
      ⟨(a.evaluate i t).result.bind (enforce i), (a.evaluate i t).evaluated⟩ :=
  Suspended.result_map _ _

theorem suspensions_authorization (a : Authorizer) (i : Option Identity) (t : Target) :
    (a.authorization i t).suspensions = (a.evaluation i t).suspensions :=
  Suspended.suspensions_map _ _

/-- Only a policy that is asked for by its name can be missing; the error has that name. Policies
for roles and for what is asked for by default are made on the spot. -/
theorem exists_of_policyOf_error (h : a.policyOf t = .error e) :
    ∃ name, e = .policyNotFound name := by
  cases t with
  | policy name =>
    have missing : a.registry.get name = .error e := h
    unfold Registry.get at missing
    cases found : a.registry.policies.find? name with
    | none =>
      rw [found] at missing
      cases missing
      exact ⟨name, rfl⟩
    | some p =>
      rw [found] at missing
      cases missing
  -- a policy for roles is made when asked for, and there is always one by default
  | roles | default => cases h

/-- If there is no decision, there is no policy or a requirement could not be decided. These are the
two errors that an authorizer passes on. -/
theorem evaluate_error_cases (h : (a.evaluate i t).result = .error e) :
    (∃ name, e = .policyNotFound name) ∨ ∃ name cause, e = .requirement name cause := by
  unfold evaluate evaluation at h
  cases chosen : a.policyOf t with
  | error e' =>
    rw [chosen] at h
    cases h
    exact .inl (exists_of_policyOf_error chosen)
  | ok p =>
    rw [chosen] at h
    -- no policy gives an error of its own: it is about one of its requirements
    obtain ⟨r, -, cause, -, named⟩ := (p.settles (i.getD .anonymous)).exists_of_error h
    exact .inr ⟨r.name, cause, named⟩

/-- What becomes of a decision, or of there being none, for whoever asks. -/
inductive Enforces (i : Option Identity) :
    Except AccessError Decision → Except AccessError Decision → Prop
  | granted : Enforces i (.ok .granted) (.ok .granted)
  | forbidden (fs : List Failure) (known : Known i) :
      Enforces i (.ok (.refused fs)) (.error (.forbidden fs))
  | unauthenticated (fs : List Failure) (unknown : ¬ Known i) :
      Enforces i (.ok (.refused fs)) (.error (.unauthenticated fs))
  | policyNotFound (name : String) :
      Enforces i (.error (.policyNotFound name)) (.error (.policyNotFound name))
  | requirement (name : String) (cause : RequirementError) :
      Enforces i (.error (.requirement name cause)) (.error (.requirement name cause))

/-- Every answer is one of the five. There is one case for each way in which an evaluation can end,
and a refusal depends on whether somebody is known. -/
theorem enforces (a : Authorizer) (i : Option Identity) (t : Target) :
    Enforces i (a.evaluate i t).result (a.authorize i t).result := by
  rw [authorize_eq]
  cases ended : (a.evaluate i t).result with
  | error e =>
    rcases evaluate_error_cases ended with ⟨name, rfl⟩ | ⟨name, cause, rfl⟩
    · exact .policyNotFound name
    · exact .requirement name cause
  | ok d =>
    cases d with
    | granted => exact .granted
    -- of somebody known or not, a refusal makes two different answers
    | refused fs =>
      show Enforces i (.ok (.refused fs)) (enforce i (.refused fs))
      by_cases known : Known i
      · rw [enforce_refused_of_known known]
        exact .forbidden fs known
      · rw [enforce_refused_of_not_known known]
        exact .unauthenticated fs known

namespace Enforces

variable {x y : Except AccessError Decision} {fs : List Failure} {name : String}
  {cause : RequirementError}

/-- Access is granted exactly if the policy granted it. The decision is passed on. -/
theorem ok_iff (h : Enforces i x y) : y = .ok d ↔ x = .ok d ∧ d.succeeded = true := by
  cases h <;> cases d <;> simp [Decision.succeeded]

theorem forbidden_iff (h : Enforces i x y) :
    y = .error (.forbidden fs) ↔ x = .ok (.refused fs) ∧ Known i := by
  cases h <;> simp [*]

theorem unauthenticated_iff (h : Enforces i x y) :
    y = .error (.unauthenticated fs) ↔ x = .ok (.refused fs) ∧ ¬ Known i := by
  cases h <;> simp [*]

theorem policyNotFound_iff (h : Enforces i x y) :
    y = .error (.policyNotFound name) ↔ x = .error (.policyNotFound name) := by
  cases h <;> simp

theorem requirement_iff (h : Enforces i x y) :
    y = .error (.requirement name cause) ↔ x = .error (.requirement name cause) := by
  cases h <;> simp

end Enforces

/-! ## Who asks -/

/-- Nobody is answered like an identity about which nothing is asserted: neither of them is
authenticated, so a refusal asks them to be. -/
theorem enforce_none : enforce none = enforce (some .anonymous) := by
  funext d
  cases d <;> rfl

/-- Nobody gets the answer that an anonymous identity gets, for every target. -/
theorem authorization_none (a : Authorizer) (t : Target) :
    a.authorization none t = a.authorization (some .anonymous) t := by
  unfold authorization
  rw [enforce_none]
  rfl

/-- Somebody is known exactly if the identity that stands for whoever asks is authenticated. -/
theorem known_iff : Known i ↔ (i.getD .anonymous).isAuthenticated = true := by
  cases i with
  | none =>
    constructor
    · rintro ⟨_, ⟨⟩, _⟩
    · nofun
  | some j =>
    constructor
    · rintro ⟨_, ⟨⟩, known⟩
      exact known
    · exact fun known => ⟨j, rfl, known⟩

/-! ## Guarded operations -/

/-- Once access is granted the operation runs. What it returns is returned, and it is the last
event. -/
theorem guarded_of_granted (operation : Unit → Suspended α)
    (granted : (a.authorize i t).result = .ok d) :
    a.guarded i t operation =
      .after ((a.authorization i t).suspensions + (operation ()).suspensions)
        (.ok (operation ()).result,
          (a.authorize i t).evaluated.map Event.evaluated ++ [.ran]) := by
  have result : (a.authorization i t).result.result = .ok d := granted
  -- the operation begins when the authorization is reached, so the suspensions add up
  refine Suspended.eq_after ?_ ?_
  · rw [guarded, Suspended.suspensions_bind, result]
    simp
  · rw [guarded, Suspended.result_bind, result]
    simp [authorize]

/-- If access is refused the operation is not begun: the events end with the last requirement. -/
theorem guarded_of_refused (operation : Unit → Suspended α)
    (refused : (a.authorize i t).result = .error e) :
    a.guarded i t operation = .after (a.authorization i t).suspensions
      (.error e, (a.authorize i t).evaluated.map Event.evaluated) := by
  have result : (a.authorization i t).result.result = .error e := refused
  refine Suspended.eq_after ?_ ?_
  · rw [guarded, Suspended.suspensions_bind, result]
    rfl
  · rw [guarded, Suspended.result_bind, result]
    rfl

/-! ## Authorization -/

/-- What an authorizer answers, and by which policy. -/
structure Answers (a : Authorizer) (i : Option Identity) (t : Target) : Prop where
  granted : ∀ d, (a.authorize i t).result = .ok d ↔
    (a.evaluate i t).result = .ok d ∧ d.succeeded = true
  clean : ∀ d, (a.authorize i t).result = .ok d → d.failures = []
  forbidden : ∀ fs, (a.authorize i t).result = .error (.forbidden fs) ↔
    (a.evaluate i t).result = .ok (.refused fs) ∧ Known i
  unauthenticated : ∀ fs, (a.authorize i t).result = .error (.unauthenticated fs) ↔
    (a.evaluate i t).result = .ok (.refused fs) ∧ ¬ Known i
  policyNotFound : ∀ name, (a.authorize i t).result = .error (.policyNotFound name) ↔
    (a.evaluate i t).result = .error (.policyNotFound name)
  requirement : ∀ name cause, (a.authorize i t).result = .error (.requirement name cause) ↔
    (a.evaluate i t).result = .error (.requirement name cause)
  /-- The answer takes what the decision takes, and no requirement more. -/
  alike : (a.authorize i t).evaluated = (a.evaluate i t).evaluated ∧
    (a.authorization i t).suspensions = (a.evaluation i t).suspensions
  nobody : a.evaluation none t = a.evaluation (some .anonymous) t ∧
    a.authorization none t = a.authorization (some .anonymous) t
  registered : ∀ name p, t = .policy name → a.registry.policies.find? name = some p →
    a.evaluation i t = p.evaluation (i.getD .anonymous)
  unregistered : ∀ name, t = .policy name → a.registry.policies.find? name = none →
    a.evaluation i t = .ready ⟨.error (.policyNotFound name), []⟩
  /-- Of several policies with one name the first is registered. -/
  first : ∀ ps name, a.registry = .ofList ps →
    a.registry.policies.find? name = ps.find? fun p => p.name == name
  default : ∀ p, t = .default → a.defaultPolicy = some p →
    a.evaluation i t = p.evaluation (i.getD .anonymous)
  noDefault : t = .default → a.defaultPolicy = none →
    ((∃ d, (a.authorize i t).result = .ok d) ↔ Known i)

/-- How an authorizer guards an operation. -/
structure Guards (a : Authorizer) (i : Option Identity) (t : Target)
    (operation : Unit → Suspended α) : Prop where
  /-- Once access is granted the operation runs, once and after every requirement. -/
  granted : ∀ d, (a.authorize i t).result = .ok d → a.guarded i t operation =
    .after ((a.authorization i t).suspensions + (operation ()).suspensions)
      (.ok (operation ()).result, (a.authorize i t).evaluated.map Event.evaluated ++ [.ran])
  /-- If it is refused the operation does not begin, and the error is the answer. -/
  refused : ∀ e, (a.authorize i t).result = .error e → a.guarded i t operation =
    .after (a.authorization i t).suspensions
      (.error e, (a.authorize i t).evaluated.map Event.evaluated)
  ran : .ran ∈ (a.guarded i t operation).result.2 ↔ ∃ d, (a.authorize i t).result = .ok d
  returned : (∃ value, (a.guarded i t operation).result.1 = .ok value) ↔
    ∃ d, (a.authorize i t).result = .ok d
  nobody : a.guarded none t operation = a.guarded (some .anonymous) t operation

/-- A policy that is asked for by name is the one that the registry has, if it has one. -/
theorem evaluation_policy (name : String) : a.evaluation i (.policy name) =
    match a.registry.policies.find? name with
    | some p => p.evaluation (i.getD .anonymous)
    | none => .ready ⟨.error (.policyNotFound name), []⟩ := by
  have chosen : a.policyOf (.policy name) = a.registry.get name := rfl
  rw [evaluation, chosen, Registry.get]
  cases a.registry.policies.find? name <;> rfl

/-- Without a default policy, whoever is authenticated is granted what is asked for by default. The
policy that is made for the purpose has this one requirement. -/
theorem exists_authorize_default_iff (missing : a.defaultPolicy = none) :
    (∃ d, (a.authorize i .default).result = .ok d) ↔ Known i := by
  have chosen : a.evaluate i .default =
      (Policy.authenticated "default").evaluate (i.getD .anonymous) := by
    unfold evaluate evaluation policyOf
    rw [missing]
    rfl
  have granted : ∀ d, (a.authorize i .default).result = .ok d ↔
      (a.evaluate i .default).result = .ok d ∧ d.succeeded = true :=
    fun d => (a.enforces i .default).ok_iff
  simp only [granted, chosen, Policy.evaluate_authenticated, known_iff]
  cases (i.getD .anonymous).isAuthenticated <;> simp [Decision.succeeded]

/-- The answers of an authorizer. Those that stand for a decision are read off from the five that
there are; the others say which policy the decision is made by. -/
theorem answers (a : Authorizer) (i : Option Identity) (t : Target) : a.Answers i t where
  granted := fun _ => (a.enforces i t).ok_iff
  clean := by
    intro d granted
    -- what is granted is the decision itself, and it did succeed
    have succeeded := ((a.enforces i t).ok_iff.mp granted).2
    cases d with
    | granted => rfl
    | refused fs => cases succeeded
  forbidden := fun _ => (a.enforces i t).forbidden_iff
  unauthenticated := fun _ => (a.enforces i t).unauthenticated_iff
  policyNotFound := fun _ => (a.enforces i t).policyNotFound_iff
  requirement := fun _ _ => (a.enforces i t).requirement_iff
  alike := by
    refine ⟨?_, a.suspensions_authorization i t⟩
    rw [authorize_eq]
  nobody := ⟨rfl, a.authorization_none t⟩
  registered := by
    rintro name p rfl found
    rw [evaluation_policy, found]
  unregistered := by
    rintro name rfl missing
    rw [evaluation_policy, missing]
  first := by
    rintro ps name h
    rw [h, Registry.find?_ofList]
  default := by
    rintro p rfl given
    unfold evaluation policyOf
    rw [given]
    rfl
  noDefault := by
    rintro rfl missing
    exact exists_authorize_default_iff missing

theorem guards (a : Authorizer) (i : Option Identity) (t : Target)
    (operation : Unit → Suspended α) : a.Guards i t operation where
  granted := fun _ => guarded_of_granted operation
  refused := fun _ => guarded_of_refused operation
  ran := by
    -- only of the first two events lists does the last one tell that the operation ran
    cases h : (a.authorize i t).result with
    | ok d => simp [guarded_of_granted operation h]
    | error e => simp [guarded_of_refused operation h]
  returned := by
    cases h : (a.authorize i t).result with
    | ok d => simp [guarded_of_granted operation h]
    | error e => simp [guarded_of_refused operation h]
  nobody := by
    unfold guarded
    rw [authorization_none]

/-- **What is granted and what is guarded.** For every authorizer, whoever asks and whatever is
asked for, the answer is told by the decision of one policy, and the operation runs exactly if
access is granted. -/
theorem authorization_exact (a : Authorizer) (i : Option Identity) (t : Target)
    (operation : Unit → Suspended α) : a.Answers i t ∧ a.Guards i t operation :=
  ⟨a.answers i t, a.guards i t operation⟩

/-- The second policy of the name would grant access, but the first is the one that counts: nobody
is asked to authenticate, and the operation does not run. -/
example : guard { registry := .ofList [.authenticated "p", .anonymous "p"] } none (.policy "p")
      (fun _ => 7) =
    (.error (.unauthenticated [⟨"authenticated", "identity is not authenticated"⟩]),
      [.evaluated .authenticated]) := rfl

end Authorizer
end BearerAuth
