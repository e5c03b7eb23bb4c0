import BearerAuth.Access.Policy
import Mathlib.Algebra.GroupWithZero.Nat
import Mathlib.Data.List.Forall2

/-!
# BearerAuth — what a policy decides

The evaluation of a policy takes its requirements one at a time, in the order of the list. It goes
on past a requirement that is decided, unless the requirement is satisfied and the rule is
`sufficient` (`Requirement.Passes`); past any other it does not go. So the list falls into the
requirements that are passed, then the one that the evaluation ends at, if there is one, and then
those that are never looked at.

`Policy.Settles` says how an evaluation ends without mentioning how it runs: by the first
requirement that ends it, or by the whole list.

Main results:

* `Policy.evaluationFrom_append`      — what is passed adds its failures, and nothing else.
* `Policy.suspensions_evaluationFrom` — a policy is suspended as long as what it evaluates, in turn.
* `Policy.evaluation_exact`           — what a policy decides, and what it evaluates to decide it.
-/

namespace BearerAuth

variable {mode : Policy.Mode} {i : Identity} {r : Requirement} {rs before rest : List Requirement}
  {failures : List Failure} {e : RequirementError} {reason : String}

namespace Requirement

/-- What a refusal says about the requirement, if it is not satisfied. -/
def failure? (i : Identity) (r : Requirement) : Option Failure :=
  match r.evaluate i with
  | .ok (.unsatisfied reason) => some ⟨r.name, reason⟩
  | _ => none

theorem failure?_of_satisfied (h : r.evaluate i = .ok .satisfied) : r.failure? i = none := by
  rw [failure?, h]

theorem failure?_of_unsatisfied (h : r.evaluate i = .ok (.unsatisfied reason)) :
    r.failure? i = some ⟨r.name, reason⟩ := by
  rw [failure?, h]

/-- The requirement is not satisfied, and this is what a refusal says about it. -/
def FailsWith (i : Identity) (r : Requirement) (f : Failure) : Prop :=
  f.requirement = r.name ∧ r.evaluate i = .ok (.unsatisfied f.reason)

/-- An evaluation goes on past the requirement: it is decided, and does not decide the policy. -/
def Passes (mode : Policy.Mode) (i : Identity) (r : Requirement) : Prop :=
  ∃ outcome, r.evaluate i = .ok outcome ∧ (outcome = .satisfied → mode = .all)

/-- An evaluation ends at a requirement that fails or is enough by itself. A requirement that is
merely not satisfied never ends it. -/
theorem not_passes_cases (h : ¬ r.Passes mode i) :
    (∃ e, r.evaluate i = .error e) ∨ (r.evaluate i = .ok .satisfied ∧ mode = .sufficient) := by
  cases ended : r.evaluate i with
  | error e => exact .inl ⟨e, rfl⟩
  | ok outcome =>
    cases outcome with
    | unsatisfied reason => exact absurd ⟨_, ended, nofun⟩ h
    | satisfied =>
      cases mode with
      | all => exact absurd ⟨_, ended, fun _ => rfl⟩ h
      | sufficient => exact .inr ⟨rfl, rfl⟩

/-- If all are required, an evaluation goes on past every requirement that is decided. -/
theorem passes_all_iff : r.Passes .all i ↔ ∃ outcome, r.evaluate i = .ok outcome := by
  simp [Passes]

/-- If one is enough, it goes on past those that are not satisfied. -/
theorem passes_sufficient_iff :
    r.Passes .sufficient i ↔ ∃ reason, r.evaluate i = .ok (.unsatisfied reason) := by
  constructor
  · rintro ⟨outcome | reason, ended, only⟩
    · cases only rfl
    · exact ⟨_, ended⟩
  · rintro ⟨reason, ended⟩
    exact ⟨_, ended, nofun⟩

end Requirement

namespace Policy

/-! ## One requirement -/

theorem evaluationFrom_nil :
    (evaluationFrom mode i failures []).result = ⟨.ok (conclude mode failures), []⟩ := rfl

/-- A requirement that is passed adds its failure, if it has one, and is the first that was
evaluated. This is the step of everything below. -/
theorem evaluationFrom_of_passes (passes : r.Passes mode i) :
    (evaluationFrom mode i failures (r :: rest)).result =
      (evaluationFrom mode i (failures ++ (r.failure? i).toList) rest).result.after [r] := by
  obtain ⟨outcome, ended, only⟩ := passes
  have result : (r.evaluation i).result = .ok outcome := ended
  rw [evaluationFrom, Suspended.result_bind, result]
  cases outcome with
  | satisfied =>
    rw [only rfl, Requirement.failure?_of_satisfied ended]
    simp
  | unsatisfied reason =>
    rw [Requirement.failure?_of_unsatisfied ended]
    simp

/-- A requirement that cannot be decided ends the evaluation, and the failures before it are
dropped. -/
theorem evaluationFrom_of_error (ended : r.evaluate i = .error e) :
    (evaluationFrom mode i failures (r :: rest)).result =
      ⟨.error (.requirement r.name e), [r]⟩ := by
  have result : (r.evaluation i).result = .error e := ended
  rw [evaluationFrom, Suspended.result_bind, result]
  rfl

/-- A requirement that is enough ends the evaluation too, whatever failed before it. -/
theorem evaluationFrom_of_enough (ended : r.evaluate i = .ok .satisfied) :
    (evaluationFrom .sufficient i failures (r :: rest)).result = ⟨.ok .granted, [r]⟩ := by
  have result : (r.evaluation i).result = .ok .satisfied := ended
  rw [evaluationFrom, Suspended.result_bind, result]
  rfl

/-! ## The list of requirements -/

/-- Requirements that are passed are evaluated, add their failures, and leave the rest to decide.
Every way in which an evaluation can end is brought back to this lemma and to one step. -/
theorem evaluationFrom_append (passed : ∀ r ∈ before, r.Passes mode i) :
    (evaluationFrom mode i failures (before ++ rest)).result =
      (evaluationFrom mode i (failures ++ before.filterMap (·.failure? i)) rest).result.after
        before := by
  -- the failures seen so far grow on the way, so the induction is over any of them
  induction before generalizing failures with
  | nil => simp [Evaluation.after]
  | cons r before ih =>
    have first : r.Passes mode i := passed r List.mem_cons_self
    have others : ∀ r ∈ before, r.Passes mode i := fun r h => passed r (List.mem_cons_of_mem _ h)
    rw [List.cons_append, evaluationFrom_of_passes first, ih others, List.append_assoc]
    cases h : r.failure? i <;> simp [h, Evaluation.after]

/-- If every requirement is passed the evaluation ends with the list. -/
theorem evaluate_of_passed (passed : ∀ r ∈ rs, r.Passes mode i) :
    (evaluationFrom mode i [] rs).result =
      ⟨.ok (conclude mode (rs.filterMap (·.failure? i))), rs⟩ := by
  have whole : (evaluationFrom mode i [] (rs ++ [])).result =
      (evaluationFrom mode i (rs.filterMap (·.failure? i)) []).result.after rs :=
    evaluationFrom_append passed
  rw [List.append_nil] at whole
  rw [whole, evaluationFrom_nil, Evaluation.after, List.append_nil]

/-- A policy is suspended as long as the requirements that it evaluates are, one after the other. No
requirement is begun while another one is suspended. -/
theorem suspensions_evaluationFrom (mode : Mode) (i : Identity) (failures : List Failure)
    (rs : List Requirement) :
    (evaluationFrom mode i failures rs).suspensions =
      ((evaluationFrom mode i failures rs).result.evaluated.map
        fun r => (r.evaluation i).suspensions).sum := by
  induction rs generalizing failures with
  | nil => rfl
  | cons r rest ih =>
    -- the suspensions of the first requirement come before whatever it leads to
    rw [evaluationFrom, Suspended.suspensions_bind, Suspended.result_bind]
    cases (r.evaluation i).result with
    | error e => simp [Suspended.suspensions, Suspended.result]
    | ok outcome =>
      cases outcome <;> cases mode <;>
        simp [Suspended.suspensions, Suspended.result, Evaluation.after, ih]

/-! ## How an evaluation ends -/

/-- How the evaluation of requirements under a rule ends, and which of them are evaluated. -/
inductive Settles (i : Identity) : Mode → List Requirement → Evaluation Decision → Prop
  /-- No decision can be reached about a requirement, and none before it was enough. -/
  | failed {mode : Mode} {before after : List Requirement} {r : Requirement} {e : RequirementError}
      (passed : ∀ q ∈ before, q.Passes mode i) (failed : r.evaluate i = .error e) :
      Settles i mode (before ++ r :: after) ⟨.error (.requirement r.name e), before ++ [r]⟩
  /-- Every requirement is satisfied. -/
  | granted {rs : List Requirement} (satisfied : ∀ r ∈ rs, r.evaluate i = .ok .satisfied) :
      Settles i .all rs ⟨.ok .granted, rs⟩
  /-- Every requirement is decided, but some are not satisfied. -/
  | refused {rs : List Requirement} (decided : ∀ r ∈ rs, ∃ outcome, r.evaluate i = .ok outcome)
      (unsatisfied : ∃ r ∈ rs, ∃ reason, r.evaluate i = .ok (.unsatisfied reason)) :
      Settles i .all rs ⟨.ok (.refused (rs.filterMap (·.failure? i))), rs⟩
  /-- A requirement is satisfied that is enough, and none before it is. -/
  | enough {before after : List Requirement} {r : Requirement}
      (unsatisfied : ∀ q ∈ before, ∃ reason, q.evaluate i = .ok (.unsatisfied reason))
      (satisfied : r.evaluate i = .ok .satisfied) :
      Settles i .sufficient (before ++ r :: after) ⟨.ok .granted, before ++ [r]⟩
  /-- No requirement is satisfied that would be enough; each has its failure. -/
  | exhausted {rs : List Requirement} {failures : List Failure}
      (unsatisfied : List.Forall₂ (Requirement.FailsWith i) rs failures) :
      Settles i .sufficient rs ⟨.ok (.refused failures), rs⟩

/-- Requirements that all have their failure are all passed, and the failures are these. -/
theorem passed_of_forall₂ (unsatisfied : List.Forall₂ (Requirement.FailsWith i) rs failures) :
    (∀ r ∈ rs, r.Passes .sufficient i) ∧ rs.filterMap (·.failure? i) = failures := by
  induction unsatisfied with
  | nil => exact ⟨nofun, rfl⟩
  | @cons r f rs failures first _ ih =>
    obtain ⟨named, ended⟩ := first
    obtain ⟨passed, found⟩ := ih
    constructor
    · exact List.forall_mem_cons.mpr
        ⟨Requirement.passes_sufficient_iff.mpr ⟨_, ended⟩, passed⟩
    · rw [List.filterMap_cons_some (Requirement.failure?_of_unsatisfied ended), found, ← named]

/-- Requirements none of which is satisfied all have their failure. -/
theorem forall₂_failure?
    (unsatisfied : ∀ r ∈ rs, ∃ reason, r.evaluate i = .ok (.unsatisfied reason)) :
    List.Forall₂ (Requirement.FailsWith i) rs (rs.filterMap (·.failure? i)) := by
  induction rs with
  | nil => exact .nil
  | cons r rs ih =>
    obtain ⟨reason, ended⟩ := unsatisfied r List.mem_cons_self
    rw [List.filterMap_cons_some (Requirement.failure?_of_unsatisfied ended)]
    exact .cons ⟨rfl, ended⟩ (ih fun r h => unsatisfied r (List.mem_cons_of_mem _ h))

/-- How an evaluation ends is what the evaluation computes. In each of the five ways there are
requirements that are passed, so `evaluationFrom_append` leads up to the one that ends the
evaluation, or to the end of the list, where the rule decides. -/
theorem Settles.result_eq {x : Evaluation Decision} (h : Settles i mode rs x) :
    (evaluationFrom mode i [] rs).result = x := by
  cases h with
  | failed passed failed =>
    rw [evaluationFrom_append passed, evaluationFrom_of_error failed]
    rfl
  | granted satisfied =>
    have passed : ∀ r ∈ rs, r.Passes .all i :=
      fun r h => Requirement.passes_all_iff.mpr ⟨_, satisfied r h⟩
    have clean : rs.filterMap (·.failure? i) = [] :=
      List.filterMap_eq_nil_iff.mpr fun r h => Requirement.failure?_of_satisfied (satisfied r h)
    rw [evaluate_of_passed passed, clean, conclude]
  | refused decided unsatisfied =>
    have passed : ∀ r ∈ rs, r.Passes .all i :=
      fun r h => Requirement.passes_all_iff.mpr (decided r h)
    obtain ⟨r, member, reason, ended⟩ := unsatisfied
    have failed : rs.filterMap (·.failure? i) ≠ [] := List.ne_nil_of_mem
      (List.mem_filterMap.mpr ⟨r, member, Requirement.failure?_of_unsatisfied ended⟩)
    -- under `all` only an empty list of failures grants access
    rw [evaluate_of_passed passed, conclude]
    exact fun _ => failed
  | enough unsatisfied satisfied =>
    have passed := fun q h => Requirement.passes_sufficient_iff.mpr (unsatisfied q h)
    rw [evaluationFrom_append passed, evaluationFrom_of_enough satisfied]
    rfl
  | exhausted unsatisfied =>
    obtain ⟨passed, found⟩ := passed_of_forall₂ unsatisfied
    rw [evaluate_of_passed passed, found]
    rfl

/-- What is evaluated is the list, or the beginning of it. -/
theorem Settles.evaluated_isPrefix {x : Evaluation Decision} (h : Settles i mode rs x) :
    x.evaluated <+: rs := by
  cases h with
  | failed | enough => exact ⟨_, List.append_assoc _ _ _⟩
  | granted | refused | exhausted => exact List.prefix_rfl

/-- Only a requirement that is evaluated and fails keeps a policy from deciding. -/
theorem Settles.exists_of_error {x : Evaluation Decision} {error : AccessError}
    (h : Settles i mode rs x) (ended : x.result = .error error) :
    ∃ r ∈ x.evaluated, ∃ e, r.evaluate i = .error e ∧ error = .requirement r.name e := by
  cases h with
  | failed _ failed =>
    cases ended
    exact ⟨_, List.mem_append_right _ List.mem_cons_self, _, failed, rfl⟩
  | granted | refused | enough | exhausted => cases ended

/-- A list is passed as a whole, or up to a first requirement that is not. Whether a requirement is
passed need not be computed for this. -/
theorem passed_or_exists (mode : Mode) (i : Identity) (rs : List Requirement) :
    (∀ r ∈ rs, r.Passes mode i) ∨ ∃ before r after, rs = before ++ r :: after ∧
      (∀ q ∈ before, q.Passes mode i) ∧ ¬ r.Passes mode i := by
  classical
  -- the first that is not passed, if there is one
  cases found : rs.find? fun r => ¬ r.Passes mode i with
  | none => exact .inl fun r h => by simpa using List.find?_eq_none.mp found r h
  | some r =>
    obtain ⟨stops, before, after, split, passed⟩ := List.find?_eq_some_iff_append.mp found
    exact .inr ⟨before, r, after, split, fun q h => by simpa using passed q h, by simpa using stops⟩

/-- Every list of requirements settles in one of the ways, under either rule. The list is split at
the first requirement that is not passed. If there is one it ends the evaluation, and otherwise the
rule says what follows from there being none. -/
theorem exists_settles (mode : Mode) (i : Identity) (rs : List Requirement) :
    ∃ x, Settles i mode rs x := by
  rcases passed_or_exists mode i rs with passed | ⟨before, r, after, rfl, passed, stops⟩
  · -- nothing ends the evaluation before the list does, so the rule decides
    cases mode with
    | sufficient =>
      have unsatisfied := forall₂_failure? fun r h =>
        Requirement.passes_sufficient_iff.mp (passed r h)
      exact ⟨_, .exhausted unsatisfied⟩
    | all =>
      have decided := fun r h => Requirement.passes_all_iff.mp (passed r h)
      by_cases unsatisfied : ∃ r ∈ rs, ∃ reason, r.evaluate i = .ok (.unsatisfied reason)
      · exact ⟨_, .refused decided unsatisfied⟩
      · refine ⟨_, .granted fun r h => ?_⟩
        obtain ⟨outcome | reason, ended⟩ := decided r h
        · exact ended
        · exact absurd ⟨r, h, reason, ended⟩ unsatisfied
  · -- the evaluation ends at `r`, whatever the rule is and whatever comes after
    rcases Requirement.not_passes_cases stops with ⟨e, failed⟩ | ⟨satisfied, rfl⟩
    · exact ⟨_, .failed passed failed⟩
    · have unsatisfied := fun q h => Requirement.passes_sufficient_iff.mp (passed q h)
      exact ⟨_, .enough unsatisfied satisfied⟩

/-- The evaluation of a policy ends in one of these ways. As the ways exclude each other, they tell
what a policy decides. -/
theorem settles (p : Policy) (i : Identity) : Settles i p.mode p.requirements (p.evaluate i) := by
  obtain ⟨x, settled⟩ := exists_settles p.mode i p.requirements
  have result : p.evaluate i = x := settled.result_eq
  rw [result]
  exact settled

/-- A policy for whoever is authenticated has the one requirement, which decides it. -/
theorem evaluate_authenticated (name : String) (i : Identity) :
    ((Policy.authenticated name).evaluate i).result = .ok (if i.isAuthenticated then .granted
      else .refused [⟨"authenticated", "identity is not authenticated"⟩]) := by
  have outcome : Requirement.authenticated.evaluate i =
      .ok (.ofCheck i.isAuthenticated "identity is not authenticated") := rfl
  have passed : ∀ r ∈ [Requirement.authenticated], r.Passes .all i := by
    intro r mem
    rw [List.mem_singleton.mp mem]
    exact Requirement.passes_all_iff.mpr ⟨_, outcome⟩
  rw [evaluate, evaluation, Policy.authenticated, evaluate_of_passed passed]
  cases known : i.isAuthenticated <;>
    simp [Requirement.failure?, outcome, known, Outcome.ofCheck, conclude, Requirement.name]

/-- What a policy decides about an identity, and how it goes about it. -/
structure Semantics (p : Policy) (i : Identity) : Prop where
  ends : ∀ x, p.evaluate i = x ↔ Settles i p.mode p.requirements x
  /-- The requirements are evaluated in the order of the list. -/
  ordered : (p.evaluate i).evaluated <+: p.requirements
  /-- They are evaluated one at a time: each is suspended for as long as it takes, and only then is
  the next one begun. -/
  inTurn : p.evaluation i = .after
    ((p.evaluate i).evaluated.map fun r => (r.evaluation i).suspensions).sum (p.evaluate i)

/-- **What a policy decides.** The evaluation ends in one of the five ways and in no other, and its
suspensions are those of the requirements that it evaluates, one after the other. -/
theorem evaluation_exact (p : Policy) (i : Identity) : p.Semantics i := by
  have inTurn := suspensions_evaluationFrom p.mode i [] p.requirements
  refine ⟨fun x => ⟨?_, Settles.result_eq⟩, (p.settles i).evaluated_isPrefix, ?_⟩
  · rintro rfl
    exact p.settles i
  · exact Suspended.eq_after inTurn rfl

/-- An error wins over a failure that was seen before it, and what comes after is not evaluated. -/
example :
    let lookup := Requirement.suspending "lookup" fun _ => .after 2 (.error ⟨"unreachable"⟩)
    let p : Policy := { name := "p", requirements := [.authenticated, lookup, .anonymous] }
    p.evaluation .anonymous =
      .after 2 ⟨.error (.requirement "lookup" ⟨"unreachable"⟩), [.authenticated, lookup]⟩ := rfl

end Policy
end BearerAuth
