import BearerAuth.Access.Requirement
import BearerAuth.Proofs.Json.Equality

/-!
# BearerAuth — which claims a refusal names

Two requirements are lists of demands on the claims of an identity: that a claim is there, and that
a claim has a value. Both are satisfied if every demand is met, and otherwise name the claims of
those that are not, in the order in which the demands were listed and as often. That is what
`Offenders` says, one demand at a time. It follows that a requirement of two lists, one after the
other, is nothing but the two requirements: it is satisfied if both are, and names the claims that
they name.

Main results:

* `Offenders.append`              — the offenders of two lists are those of the one and of the
  other.
* `Requirement.reports_of_outcomes` — all about a list of demands follows from its outcomes.
* `Requirement.offenders_exact`   — what is demanded of claims, and which of them are named.
-/

namespace BearerAuth

universe u

/-- The claims of the demands in a list that are not met, in the order of the list. -/
inductive Offenders {α : Type u} (Met : α → Prop) (claim : α → String) : List α → List String → Prop
  | nil : Offenders Met claim [] []
  /-- The claim of a demand that is not met is named. -/
  | named {a : α} {l : List α} {names : List String} (unmet : ¬ Met a)
      (rest : Offenders Met claim l names) : Offenders Met claim (a :: l) (claim a :: names)
  | passed {a : α} {l : List α} {names : List String} (met : Met a)
      (rest : Offenders Met claim l names) : Offenders Met claim (a :: l) names

namespace Offenders

variable {α : Type u} {Met : α → Prop} {claim : α → String} {l l' : List α}
  {names names' : List String}

/-- There is one list of offenders. So a reason that lists them is determined by the demands, and by
which of them are met. -/
theorem unique (h : Offenders Met claim l names) (h' : Offenders Met claim l names') :
    names = names' := by
  induction h generalizing names' with
  | nil => cases h'; rfl
  | named unmet _ ih =>
    cases h' with
    | named _ rest => rw [ih rest]
    | passed met _ => exact absurd met unmet
  | passed met _ ih =>
    cases h' with
    | named unmet _ => exact absurd met unmet
    | passed _ rest => exact ih rest

/-- The offenders of two lists are those of the one and of the other. Whether a demand is met does
not depend on the others. -/
theorem append (h : Offenders Met claim l names) (h' : Offenders Met claim l' names') :
    Offenders Met claim (l ++ l') (names ++ names') := by
  induction h with
  | nil => exact h'
  | named unmet _ ih => exact .named unmet ih
  | passed met _ ih => exact .passed met ih

/-- There are no offenders if every demand is met, and only then. -/
theorem eq_nil_iff (h : Offenders Met claim l names) : names = [] ↔ ∀ a ∈ l, Met a := by
  induction h with
  | nil => simp
  | named unmet _ _ => simp [unmet]
  | passed met _ ih => simp [met, ih]

/-- The offenders that are computed with a test for what is met. To filter a list and take the
claims is to go through it one demand at a time. -/
theorem of_filter (met : α → Bool) (h : ∀ a, met a = true ↔ Met a) (l : List α) :
    Offenders Met claim l ((l.filter fun a => !met a).map claim) := by
  induction l with
  | nil => exact .nil
  | cons a l ih =>
    cases known : met a with
    | true =>
      -- a demand that is met is left out, and adds no name
      rw [List.filter_cons_of_neg (by simp [known])]
      exact .passed ((h a).mp known) ih
    | false =>
      rw [List.filter_cons_of_pos (by simp [known])]
      refine .named (fun met => ?_) ih
      rw [(h a).mpr met] at known
      cases known

end Offenders

namespace Requirement

variable {i : Identity} {α : Type u} {Met : α → Prop} {claim : α → String} {l : List α}

/-- Nothing to name is satisfaction; otherwise the reason begins as given and lists the names. -/
def naming (opening : String) : List String → Outcome
  | [] => .satisfied
  | names => .unsatisfied (opening ++ ", ".intercalate names)

theorem naming_eq_satisfied_iff {opening : String} {names : List String} :
    naming opening names = .satisfied ↔ names = [] := by
  cases names <;> simp [naming]

theorem naming_eq_unsatisfied_iff {opening reason : String} {names : List String} :
    naming opening names = .unsatisfied reason ↔
      names ≠ [] ∧ reason = opening ++ ", ".intercalate names := by
  cases names <;> simp [naming, eq_comm]

theorem ofCheck_isEmpty (opening : String) (names : List String) :
    Outcome.ofCheck names.isEmpty (opening ++ ", ".intercalate names) = naming opening names := by
  cases names <;> rfl

/-- How a requirement that is a list of demands is evaluated. -/
structure Reports (i : Identity) (r : List α → Requirement) (Met : α → Prop) (claim : α → String)
    (opening : String) (l : List α) : Prop where
  /-- It is never an error, -/
  decided : ∃ outcome, (r l).evaluate i = .ok outcome
  /-- and is satisfied if every demand is met. -/
  satisfied : (r l).evaluate i = .ok .satisfied ↔ ∀ a ∈ l, Met a
  /-- Otherwise the reason lists the offenders, of which there is one list. -/
  offenders : ∃ names, Offenders Met claim l names ∧
    (∀ names', Offenders Met claim l names' → names' = names) ∧
    (r l).evaluate i = .ok (naming opening names)
  unsatisfied : ∀ reason, (r l).evaluate i = .ok (.unsatisfied reason) ↔
    ∃ names, Offenders Met claim l names ∧ names ≠ [] ∧
      reason = opening ++ ", ".intercalate names
  /-- A list is nothing but its parts. -/
  both : ∀ l', (r (l ++ l')).evaluate i = .ok .satisfied ↔
    (r l).evaluate i = .ok .satisfied ∧ (r l').evaluate i = .ok .satisfied
  joined : ∀ l' names names', (Offenders Met claim l names) → Offenders Met claim l' names' →
    (r (l ++ l')).evaluate i = .ok (naming opening (names ++ names'))

/-- If each list names its offenders, it is satisfied if every demand is met. -/
theorem satisfied_of_outcomes {r : List α → Requirement} {opening : String}
    (outcome : ∀ l, ∃ names, Offenders Met claim l names ∧
      (r l).evaluate i = .ok (naming opening names)) (l : List α) :
    (r l).evaluate i = .ok .satisfied ↔ ∀ a ∈ l, Met a := by
  obtain ⟨names, listed, ended⟩ := outcome l
  rw [ended, Except.ok.injEq, naming_eq_satisfied_iff, listed.eq_nil_iff]

/-- What is demanded is told by the outcomes of all lists: each names its offenders. Both
requirements come from this, with what it means to meet a demand as the only difference. About two
lists nothing new is needed, since the outcome is known of their concatenation too. -/
theorem reports_of_outcomes {r : List α → Requirement} {opening : String}
    (outcome : ∀ l, ∃ names, Offenders Met claim l names ∧
      (r l).evaluate i = .ok (naming opening names)) (l : List α) :
    Reports i r Met claim opening l where
  decided := by
    obtain ⟨names, -, ended⟩ := outcome l
    exact ⟨_, ended⟩
  satisfied := satisfied_of_outcomes outcome l
  offenders := by
    obtain ⟨names, listed, ended⟩ := outcome l
    exact ⟨names, listed, fun _ others => others.unique listed, ended⟩
  unsatisfied := by
    intro reason
    obtain ⟨names, listed, ended⟩ := outcome l
    rw [ended, Except.ok.injEq, naming_eq_unsatisfied_iff]
    constructor
    · rintro ⟨some, told⟩
      exact ⟨names, listed, some, told⟩
    · rintro ⟨names', listed', some, told⟩
      -- there is one list of offenders
      rw [listed.unique listed']
      exact ⟨some, told⟩
  both := by
    intro l'
    simp only [satisfied_of_outcomes outcome, List.forall_mem_append]
  joined := by
    intro l' names names' here there
    obtain ⟨names'', listed, ended⟩ := outcome (l ++ l')
    rw [ended, listed.unique (here.append there)]

/-! ## The two requirements -/

theorem presence_reports (i : Identity) (claims : List String) :
    Reports i .presence (· ∈ i.claimNames) id "missing claim: " claims := by
  refine reports_of_outcomes (fun l => ⟨missingClaims l i, ?_, ?_⟩) claims
  · have listed : Offenders (· ∈ i.claimNames) id l ((missingClaims l i).map id) :=
      Offenders.of_filter i.carries (fun c => OrderedMap.mem_names_iff.symm) l
    rwa [List.map_id] at listed
  · rw [← ofCheck_isEmpty]
    rfl

/-- Some value of the claim is equal to the one that is required. -/
def HasRequired (i : Identity) (e : String × Json) : Prop :=
  ∃ v ∈ i.values e.1, v.unsigned = e.2.unsigned

/-- A claim has the value if one of its values is the same as JSON: the sign of a zero does not
count. -/
theorem hasValue_same_iff {e : String × Json} :
    i.hasValue e.1 (·.same e.2) = true ↔ HasRequired i e := by
  unfold Identity.hasValue HasRequired
  simp only [List.any_eq_true, Json.same_iff]

theorem equality_reports (i : Identity) (pairs : List (String × Json)) :
    Reports i .equality (HasRequired i) (·.1) "claim does not have the required value: " pairs := by
  refine reports_of_outcomes (fun l => ⟨mismatchedClaims l i, ?_, ?_⟩) pairs
  · exact Offenders.of_filter _ (fun _ => hasValue_same_iff) l
  · rw [← ofCheck_isEmpty]
    rfl

/-! ## The ways to list pairs -/

/-- Pairs that are listed one after the other make the list of all pairs. -/
theorem foldl_and (e : RequiredValues) (rest : List (String × Json)) :
    rest.foldl (fun e p => e.and p.1 p.2) e = .all (e.pairs ++ rest) := by
  induction rest generalizing e with
  | nil => rw [List.append_nil]; rfl
  | cons p rest ih =>
    rw [List.foldl_cons, ih, RequiredValues.and, List.append_assoc]
    rfl

/-- **What is demanded of claims, and which of them are named.** Pairs can be listed one after the
other or all at once. -/
theorem offenders_exact (i : Identity) :
    (∀ claims, Reports i .presence (· ∈ i.claimNames) id "missing claim: " claims) ∧
    (∀ pairs, Reports i (fun l => (RequiredValues.all l).requirement) (HasRequired i) (·.1)
      "claim does not have the required value: " pairs) ∧
    ∀ name value rest, (rest.foldl (fun e p => e.and p.1 p.2) (.single name value)) =
      RequiredValues.all ((name, value) :: rest) :=
  ⟨presence_reports i, equality_reports i,
    fun name value rest => foldl_and (.single name value) rest⟩

/-- A claim for which an empty array was asserted is there, but has no value that could be
required. -/
example :
    let i := Identity.anonymous.assertJson "a" (.array [])
    ((Requirement.presence ["b", "a", "b"]).evaluate i,
      (Requirement.equality [("a", .null)]).evaluate i) =
    (.ok (.unsatisfied "missing claim: b, b"),
      .ok (.unsatisfied "claim does not have the required value: a")) := rfl

end Requirement
end BearerAuth
