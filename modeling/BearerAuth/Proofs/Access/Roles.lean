import BearerAuth.Access.Authorizer
import BearerAuth.Proofs.Access.Evaluation
import BearerAuth.Proofs.Json.Equality

/-!
# BearerAuth — asking for one of several roles

There are four ways to ask whether somebody has one of several roles: as a target of an authorizer,
by a policy with one requirement for each role any of which is enough, by one requirement with all
of the roles, and by a requirement that a claim has one of these roles among its values. They take
different paths through the library, and each has its own notion of an empty list: the target leaves
it to a requirement that refuses it on its own, the policy has nothing that could be enough, and the
last finds no value that is allowed.

All of them come to the same: a role is a text that stands among the values of the claim `roles`
itself. A text inside of a value is none.

Main results:

* `Policy.exists_decision_all`, `exists_decision_sufficient` — policies whose requirements are
  decided.
* `RoleQuestion.exists_answer` — every way to ask comes to the same look at the values of the claim.
* `RoleQuestion.answers_agree` — when the answer is success, and what it does not depend on.
-/

namespace BearerAuth

variable {i j : Identity} {rs : List String}

/-! ## Policies whose requirements are decided -/

namespace Policy

/-- A requirement that is decided does not fail, so of the ways in which a policy settles the one
that ends with an error is out of the question. -/
theorem evaluate_ne_error {requirements : List Requirement}
    (decided : ∀ r ∈ requirements, ∃ outcome, r.evaluate i = .ok outcome) {r : Requirement}
    (member : r ∈ requirements) (e : RequirementError) : r.evaluate i ≠ .error e := by
  obtain ⟨outcome, ended⟩ := decided r member
  rw [ended]
  exact nofun

/-- If all requirements are decided, a policy that asks for all of them grants access exactly if all
are satisfied. -/
theorem exists_decision_all (name : String) (i : Identity) (requirements : List Requirement)
    (decided : ∀ r ∈ requirements, ∃ outcome, r.evaluate i = .ok outcome) :
    ∃ d : Decision, (evaluate ⟨name, requirements, .all⟩ i).result = .ok d ∧
      (d.succeeded = true ↔ ∀ r ∈ requirements, r.evaluate i = .ok .satisfied) := by
  have settled := (Policy.mk name requirements .all).settles i
  generalize evaluate ⟨name, requirements, .all⟩ i = x at settled
  cases settled with
  | @failed _ before after r e _ failed =>
    exact absurd failed (evaluate_ne_error decided (by simp) e)
  | granted satisfied => exact ⟨.granted, rfl, iff_of_true rfl satisfied⟩
  | refused _ unsatisfied =>
    obtain ⟨r, member, reason, ended⟩ := unsatisfied
    refine ⟨.refused _, rfl, iff_of_false nofun fun satisfied => ?_⟩
    rw [satisfied r member] at ended
    cases ended

/-- If all requirements are decided, a policy that any of them is enough for grants access exactly
if one is satisfied. Access is refused at the end of the list only, and by then no requirement was
enough. -/
theorem exists_decision_sufficient (name : String) (i : Identity) (requirements : List Requirement)
    (decided : ∀ r ∈ requirements, ∃ outcome, r.evaluate i = .ok outcome) :
    ∃ d : Decision, (evaluate ⟨name, requirements, .sufficient⟩ i).result = .ok d ∧
      (d.succeeded = true ↔ ∃ r ∈ requirements, r.evaluate i = .ok .satisfied) := by
  have settled := (Policy.mk name requirements .sufficient).settles i
  generalize evaluate ⟨name, requirements, .sufficient⟩ i = x at settled
  cases settled with
  | @failed _ before after r e _ failed =>
    exact absurd failed (evaluate_ne_error decided (by simp) e)
  | @enough before after r _ satisfied =>
    exact ⟨.granted, rfl, iff_of_true rfl ⟨r, by simp, satisfied⟩⟩
  | exhausted unsatisfied =>
    -- the policy went past all requirements, and it does not go past a satisfied one
    refine ⟨.refused _, rfl, iff_of_false nofun ?_⟩
    rintro ⟨r, member, satisfied⟩
    have passes := (passed_of_forall₂ unsatisfied).1 r member
    obtain ⟨reason, ended⟩ := Requirement.passes_sufficient_iff.mp passes
    rw [satisfied] at ended
    cases ended

/-- A policy with one requirement for each of the roles, any of which is enough. -/
def anyRole (name : String) (rs : List String) : Policy :=
  rs.foldl (fun p r => p.require (.anyRole [r])) (sufficient name)

/-- Requirements that are added one by one stand in the order in which they were added. -/
theorem foldl_require (f : String → Requirement) (p : Policy) (rs : List String) :
    rs.foldl (fun p r => p.require (f r)) p =
      { p with requirements := p.requirements ++ rs.map f } := by
  induction rs generalizing p with
  | nil => rw [List.map_nil, List.append_nil]; rfl
  | cons r rs ih =>
    rw [List.foldl_cons, ih]
    simp [require]

/-- The policy that is built up has one requirement for each role, under the rule that one is
enough. -/
theorem anyRole_eq (name : String) (rs : List String) :
    anyRole name rs = ⟨name, rs.map fun r => .anyRole [r], .sufficient⟩ :=
  foldl_require _ _ rs

end Policy

/-! ## Roles -/

/-- Some role of the list stands as a text among the values of the claim `roles`. -/
def Identity.HasRole (i : Identity) (rs : List String) : Prop :=
  ∃ r ∈ rs, Json.string r ∈ i.values "roles"

namespace Requirement

/-- The requirement looks for a text among the values that is one of the roles. -/
theorem holdsRole_iff : holdsRole rs "roles" i = true ↔ i.HasRole rs := by
  unfold holdsRole Identity.texts Identity.HasRole
  simp only [List.any_eq_true, List.mem_filterMap, Json.asString?_eq_some_iff,
    List.contains_iff_mem]
  constructor
  · rintro ⟨r, ⟨v, held, rfl⟩, listed⟩
    exact ⟨r, listed, held⟩
  · rintro ⟨r, listed, held⟩
    exact ⟨r, ⟨_, held, rfl⟩, listed⟩

/-- The requirement on the values of a claim comes to the same, since a text equals nothing but
itself. -/
theorem holdsAllowed_roles_iff : holdsAllowed "roles" (rs.map .string) i = true ↔ i.HasRole rs := by
  unfold holdsAllowed Identity.hasValue Identity.HasRole
  simp only [List.any_eq_true, List.mem_map]
  constructor
  · rintro ⟨v, held, _, ⟨r, listed, rfl⟩, same⟩
    rw [Json.string_same_iff.mp same] at held
    exact ⟨r, listed, held⟩
  · rintro ⟨r, listed, held⟩
    exact ⟨_, held, _, ⟨r, listed, rfl⟩, Json.string_same_iff.mpr rfl⟩

/-- A requirement of roles is decided, and the empty list is no exception to what it asks for. It is
refused with a reason of its own, but it would be unmet in any case. -/
theorem exists_outcome_anyRole (rs : List String) (i : Identity) :
    ∃ outcome, (anyRole rs).evaluate i = .ok outcome ∧
      (outcome.isSatisfied = true ↔ i.HasRole rs) := by
  unfold anyRole evaluate evaluation
  cases rs with
  | nil => exact ⟨_, rfl, iff_of_false nofun (by rintro ⟨r, ⟨⟩, _⟩)⟩
  | cons r rs =>
    refine ⟨_, rfl, ?_⟩
    rw [← holdsRole_iff]
    cases holdsRole (r :: rs) "roles" i <;> simp [Outcome.ofCheck, Outcome.isSatisfied]

theorem evaluate_anyRole_iff : (anyRole rs).evaluate i = .ok .satisfied ↔ i.HasRole rs := by
  obtain ⟨outcome, ended, met⟩ := exists_outcome_anyRole rs i
  rw [ended, ← met]
  cases outcome <;> simp [Outcome.isSatisfied]

theorem decided_anyRole : ∃ outcome, (anyRole rs).evaluate i = .ok outcome := by
  obtain ⟨outcome, ended, _⟩ := exists_outcome_anyRole rs i
  exact ⟨outcome, ended⟩

end Requirement

/-! ## Questions -/

/-- The ways to ask whether somebody has one of several roles. -/
inductive RoleQuestion where
  /-- The roles as the target of an authorizer. -/
  | target (a : Authorizer)
  /-- A policy of this name with a requirement for each role, any of which is enough. -/
  | policy (name : String)
  /-- One requirement of the roles. -/
  | requirement
  /-- A requirement that the claim `roles` has one of the roles among its values. -/
  | membership

namespace RoleQuestion

/-- Whether the question is answered with success; none if it is not answered. -/
def answer? (i : Identity) (rs : List String) : RoleQuestion → Option Bool
  | target a => (a.evaluate (some i) (.roles rs)).result.toOption.map (·.succeeded)
  | policy name => ((Policy.anyRole name rs).evaluate i).result.toOption.map (·.succeeded)
  | requirement => ((Requirement.anyRole rs).evaluate i).toOption.map (·.isSatisfied)
  | membership =>
    ((Requirement.membership "roles" (rs.map .string)).evaluate i).toOption.map (·.isSatisfied)

/-- Every question is answered, and with success exactly if some role of the list is there. There is
one case for each way to ask: two of them go through a policy whose requirements are decided, and
two are requirements by themselves. After this nobody needs to know how an answer was found. -/
theorem exists_answer (q : RoleQuestion) (i : Identity) (rs : List String) :
    ∃ success, q.answer? i rs = some success ∧ (success = true ↔ i.HasRole rs) := by
  cases q with
  | target a =>
    -- the roles become one requirement of a policy that is made for them
    have decided : ∀ r ∈ [Requirement.anyRole rs], ∃ outcome, r.evaluate i = .ok outcome := by
      intro r member
      rw [List.mem_singleton.mp member]
      exact Requirement.decided_anyRole
    obtain ⟨d, ended, granted⟩ := Policy.exists_decision_all "roles" i _ decided
    have result : (a.evaluate (some i) (.roles rs)).result = .ok d := ended
    refine ⟨d.succeeded, by rw [answer?, result]; rfl, granted.trans ?_⟩
    rw [List.forall_mem_singleton]
    exact Requirement.evaluate_anyRole_iff
  | policy name =>
    have decided : ∀ r ∈ rs.map fun r => Requirement.anyRole [r],
        ∃ outcome, r.evaluate i = .ok outcome :=
      List.forall_mem_map.mpr fun _ _ => Requirement.decided_anyRole
    obtain ⟨d, ended, granted⟩ := Policy.exists_decision_sufficient name i _ decided
    refine ⟨d.succeeded, by rw [answer?, Policy.anyRole_eq, ended]; rfl, granted.trans ?_⟩
    simp [Requirement.evaluate_anyRole_iff, Identity.HasRole]
  | requirement =>
    obtain ⟨outcome, ended, met⟩ := Requirement.exists_outcome_anyRole rs i
    exact ⟨outcome.isSatisfied, by rw [answer?, ended]; rfl, met⟩
  | membership =>
    -- no policy and no case of its own for the empty list
    refine ⟨_, rfl, ?_⟩
    rw [← Requirement.holdsAllowed_roles_iff]
    cases Requirement.holdsAllowed "roles" (rs.map .string) i <;>
      simp [Outcome.ofCheck, Outcome.isSatisfied]

/-- The answer depends on nothing but whether some role of the list is there. It may be asked in
another way, of another identity, and with another list. -/
theorem answer?_congr {q q' : RoleQuestion} {rs' : List String}
    (same : i.HasRole rs ↔ j.HasRole rs') : q.answer? i rs = q'.answer? j rs' := by
  obtain ⟨success, answer, met⟩ := q.exists_answer i rs
  obtain ⟨success', answer', met'⟩ := q'.exists_answer j rs'
  have equal : success = success' := Bool.eq_iff_iff.mpr (met.trans (same.trans met'.symm))
  rw [answer, answer', equal]

theorem answer?_eq_some_true_iff {q : RoleQuestion} :
    q.answer? i rs = some true ↔ i.HasRole rs := by
  obtain ⟨success, answer, met⟩ := q.exists_answer i rs
  rw [answer, Option.some.injEq, met]

/-- How the answer to a question goes with the list of roles and with the values of the claim. -/
structure Agrees (q : RoleQuestion) (i : Identity) (rs : List String) : Prop where
  answered : ∃ success, q.answer? i rs = some success
  succeeds : q.answer? i rs = some true ↔ i.HasRole rs
  /-- Whichever way one asks, the answer is the same. -/
  alike : ∀ q' : RoleQuestion, q'.answer? i rs = q.answer? i rs
  /-- The order of the roles does not matter, nor does repetition. -/
  unordered : ∀ rs', (∀ r, r ∈ rs' ↔ r ∈ rs) → q.answer? i rs' = q.answer? i rs
  /-- Of the values of the claim none but texts matter. -/
  texts : ∀ j : Identity, (∀ r, .string r ∈ j.values "roles" ↔ .string r ∈ i.values "roles") →
    q.answer? j rs = q.answer? i rs
  nobody : q.answer? i [] = some false
  /-- More roles never turn success into failure. -/
  more : ∀ rs', rs ⊆ rs' → q.answer? i rs = some true → q.answer? i rs' = some true

/-- **The ways to ask for a role agree.** Each of them is answered, and the answer depends on
nothing but whether some role of the list stands among the texts of the claim. So it is the same
whichever way one asks, in whatever order the roles are listed and whatever else the claim has for
values. -/
theorem answers_agree (q : RoleQuestion) (i : Identity) (rs : List String) : q.Agrees i rs where
  answered := by
    obtain ⟨success, answer, -⟩ := q.exists_answer i rs
    exact ⟨success, answer⟩
  succeeds := answer?_eq_some_true_iff
  alike := fun _ => answer?_congr Iff.rfl
  unordered := by
    intro rs' same
    exact answer?_congr (exists_congr fun r => and_congr_left' (same r))
  texts := by
    intro j same
    exact answer?_congr (exists_congr fun r => and_congr_right' (same r))
  nobody := by
    obtain ⟨success, answer, met⟩ := q.exists_answer i []
    -- no role is in the empty list
    have failed : success = false := by
      rw [← Bool.not_eq_true, met]
      rintro ⟨r, ⟨⟩, -⟩
    rw [answer, failed]
  more := by
    intro rs' sub success
    obtain ⟨r, listed, held⟩ := answer?_eq_some_true_iff.mp success
    exact answer?_eq_some_true_iff.mpr ⟨r, sub listed, held⟩

/-- An inner array is no role, whatever it contains. -/
example : answer? (Identity.anonymous.assert "roles" (.array [.string "admin"])) ["admin"]
    (.policy "p") = some false := by decide

end RoleQuestion
end BearerAuth
