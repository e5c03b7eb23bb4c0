import BearerAuth.Access.Identity
import Mathlib.Data.List.Nodup

/-!
# BearerAuth — what an identity remembers

An identity is built up by assertions in any order, which may repeat a claim or take turns with
those of other claims. Nothing of that is lost or mixed up: the values of a claim are what its
assertions contribute, in their order. An array in an assertion stands for its items, but only the
outermost one; an array among these is a value like any other.

Three things are told apart that look alike. A claim may be carried, it may have values, and it may
have a first value. The last two go together, but a claim for which only empty arrays were asserted
is carried and has none.

The identity of a payload is built up by one assertion for each member and the mode of
authentication, so what holds of assertions holds of payloads.

Main results:

* `values_ofAssertions`  — the values of a claim are the contributions to it.
* `rest_advance`, `next_advance` — what a cursor gives after any number of steps.
* `preserves_payload`    — the views of any identity, of the identity of a payload, and of an
  identity that was built up.
-/

namespace BearerAuth

/-! ## Assertions -/

namespace Assertion

/-- What an assertion contributes to the values of a claim. -/
def contribution (name : String) : Assertion → List Json
  | .value n v => if n = name then [v] else []
  | .json n (.array items) => if n = name then items else []
  | .json n v => if n = name then [v] else []
  | .authentication _ => []

/-- An assertion is about a claim, whether it contributes a value or not. -/
def IsAbout (name : String) : Assertion → Prop
  | .value n _ | .json n _ => n = name
  | .authentication _ => False

/-- The mode of authentication, if this is what is asserted. -/
def mode? : Assertion → Option String
  | .authentication mode => some mode
  | _ => none

/-- An assertion of a JSON value contributes what the value is spread to. -/
theorem contribution_json (name n : String) (v : Json) :
    (json n v).contribution name = if n = name then Identity.spread v else [] := by
  cases v <;> rfl

end Assertion

namespace Identity

variable {i : Identity} {name : String}

/-! ### One assertion -/

/-- Values are put behind those of their claim, and no other claim is touched. -/
theorem find?_assertAll (i : Identity) (n : String) (vs : List Json) (name : String) :
    (i.assertAll n vs).claims.find? name =
      if n = name then some (i.values name ++ vs) else i.claims.find? name := by
  unfold assertAll values
  split
  · next same =>
    subst same
    rw [OrderedMap.find?_update_self]
  · next other => rw [OrderedMap.find?_update_of_ne _ (Ne.symm other)]

/-- The values of a claim after one assertion. If the assertion is about another claim nothing is
added. -/
theorem values_assertAll (i : Identity) (n : String) (vs : List Json) (name : String) :
    (i.assertAll n vs).values name = i.values name ++ if n = name then vs else [] := by
  have found := find?_assertAll i n vs name
  unfold values at found ⊢
  rw [found]
  split
  · rfl
  · rw [List.append_nil]

/-- A claim is carried from its first assertion on, also if that brings no value. -/
theorem carries_assertAll (i : Identity) (n : String) (vs : List Json) (name : String) :
    (i.assertAll n vs).carries name = true ↔ i.carries name = true ∨ n = name := by
  unfold carries OrderedMap.contains
  rw [find?_assertAll]
  split
  · next same => simp [same]
  · next other => simp [other]

/-- What one assertion adds to a claim and to the mode of authentication. -/
structure Adds (i : Identity) (a : Assertion) (name : String) : Prop where
  values : (i.apply a).values name = i.values name ++ a.contribution name
  carries : (i.apply a).carries name = true ↔ i.carries name = true ∨ a.IsAbout name
  mode : (i.apply a).mode = a.mode?.or i.mode

/-- What each kind of assertion adds: values to one claim, or the mode of authentication. Everything
about identities that are built up follows from this by induction. -/
theorem apply_adds (i : Identity) (a : Assertion) (name : String) : i.Adds a name := by
  cases a with
  | value n v => exact ⟨values_assertAll i n [v] name, carries_assertAll i n [v] name, rfl⟩
  | json n v =>
    refine ⟨?_, carries_assertAll i n (spread v) name, rfl⟩
    rw [Assertion.contribution_json]
    exact values_assertAll i n (spread v) name
  | authentication mode =>
    refine ⟨(List.append_nil _).symm, ?_, rfl⟩
    show i.carries name = true ↔ i.carries name = true ∨ False
    rw [or_false]

/-! ### Any number of assertions -/

/-- Assertions add their contributions in order, whichever claims lie between them. An identity that
was begun elsewhere keeps what it has in front. -/
theorem values_foldl (i : Identity) (l : List Assertion) (name : String) :
    (l.foldl apply i).values name = i.values name ++ l.flatMap (·.contribution name) := by
  induction l generalizing i with
  | nil => exact (List.append_nil _).symm
  | cons a l ih => rw [List.foldl_cons, ih, (apply_adds i a name).values, List.append_assoc,
      List.flatMap_cons]

/-- A claim is carried if it was before or if any assertion is about it. -/
theorem carries_foldl (i : Identity) (l : List Assertion) (name : String) :
    (l.foldl apply i).carries name = true ↔ i.carries name = true ∨ ∃ a ∈ l, a.IsAbout name := by
  induction l generalizing i with
  | nil => simp
  | cons a l ih => simp [ih, (apply_adds i a name).carries, or_assoc]

/-- The last mode that is asserted counts. If none is, the one from before stays. -/
theorem mode_foldl (i : Identity) (l : List Assertion) :
    (l.foldl apply i).mode = (l.filterMap Assertion.mode?).getLast?.or i.mode := by
  induction l generalizing i with
  | nil => rfl
  | cons a l ih =>
    rw [List.foldl_cons, ih, (apply_adds i a "").mode]
    cases here : a.mode? with
    | none => rw [List.filterMap_cons_none here, Option.none_or]
    | some mode =>
      rw [List.filterMap_cons_some here, List.getLast?_cons]
      cases (l.filterMap Assertion.mode?).getLast? <;> rfl

/-- The values of a claim are the contributions to it. -/
theorem values_ofAssertions (l : List Assertion) (name : String) :
    (ofAssertions l).values name = l.flatMap (·.contribution name) :=
  values_foldl anonymous l name

theorem carries_ofAssertions (l : List Assertion) (name : String) :
    (ofAssertions l).carries name = true ↔ ∃ a ∈ l, a.IsAbout name := by
  unfold ofAssertions
  rw [carries_foldl]
  exact or_iff_right nofun

theorem mode_ofAssertions (l : List Assertion) :
    (ofAssertions l).mode = (l.filterMap Assertion.mode?).getLast? :=
  (mode_foldl anonymous l).trans (Option.or_none)

/-! ## Cursors -/

end Identity

namespace ClaimCursor

/-- Asking for a value takes the first one that is left. The values themselves stay, so a cursor
never takes anything away from the identity. -/
theorem next_eq (c : ClaimCursor) :
    c.next.1 = c.rest.head? ∧ c.next.2.rest = c.rest.tail ∧ c.next.2.values = c.values := by
  unfold next rest
  cases here : c.values[c.position]? with
  | some v =>
    refine ⟨?_, ?_, rfl⟩
    · rw [List.head?_drop, here]
    · rw [List.tail_drop]
  | none =>
    -- beyond the last value the cursor stays where it is
    have gone : c.values.drop c.position = [] :=
      List.drop_eq_nil_of_le (List.getElem?_eq_none_iff.mp here)
    dsimp only
    rw [gone]
    exact ⟨rfl, rfl, rfl⟩

/-- After so many steps a cursor has this much left, and nothing if that is beyond the end. Further
steps leave it there. -/
theorem rest_advance (c : ClaimCursor) (k : Nat) : (c.advance k).rest = c.rest.drop k := by
  induction k generalizing c with
  | zero => rfl
  | succ k ih =>
    rw [advance, ih, c.next_eq.2.1, List.drop_tail]

/-- The next value after so many steps is the one at that place, if there is one. -/
theorem next_advance (c : ClaimCursor) (k : Nat) : (c.advance k).next.1 = c.rest[k]? := by
  rw [(next_eq _).1, rest_advance, List.head?_drop]

theorem remaining_eq (c : ClaimCursor) : c.remaining = c.rest.length := List.length_drop.symm

end ClaimCursor

namespace Identity

variable {i : Identity} {name mode : String} {c : Claims} {l : List Assertion}

/-! ## Views -/

/-- How the views of a claim belong together. -/
structure Shows (i : Identity) (name : String) : Prop where
  first : i.first? name = (i.values name).head?
  required : ∀ v, i.require name = .ok v ↔ (i.values name).head? = some v
  /-- A claim is missing where one is required if it has no value; the error names it. -/
  missing : ∀ e, i.require name = .error e ↔ i.values name = [] ∧ e.name = name
  /-- After so many steps a cursor gives what is left, and tells how much that is. -/
  left : ∀ k, ((i.cursor name).advance k).rest = (i.values name).drop k ∧
    ((i.cursor name).advance k).remaining = ((i.values name).drop k).length
  next : ∀ k, ((i.cursor name).advance k).next.1 = (i.values name)[k]?
  named : name ∈ i.claimNames ↔ i.carries name = true
  ascending : i.claimNames.Pairwise (· < ·)

/-- The views of one claim all come from the list of its values. -/
theorem shows (i : Identity) (name : String) : i.Shows name where
  first := rfl
  required := by
    intro v
    unfold require first?
    cases (i.values name).head? <;> simp
  missing := by
    rintro ⟨n⟩
    -- the error names the claim, and there is one exactly if there is no value
    unfold require first?
    cases i.values name with
    | nil => simp [eq_comm]
    | cons v vs => simp
  left := by
    intro k
    rw [ClaimCursor.remaining_eq, ClaimCursor.rest_advance]
    exact ⟨rfl, rfl⟩
  next := fun k => ClaimCursor.next_advance (i.cursor name) k
  named := OrderedMap.mem_names_iff
  ascending := OrderedMap.pairwise_names

/-! ## Payloads -/

/-- The assertions that a payload consists of. -/
def assertionsOf (c : Claims) (mode : String) : List Assertion :=
  c.members.entries.map (fun e => .json e.1 e.2.1) ++ [.authentication mode]

/-- The identity of a payload is built up by assertions, one for each member and one for the
mode. -/
theorem ofClaims_eq (c : Claims) (mode : String) :
    ofClaims c mode = ofAssertions (assertionsOf c mode) := by
  unfold ofClaims ofAssertions assertionsOf
  rw [List.foldl_append, List.foldl_map]
  rfl

/-- Of entries with different names, only the one of a claim contributes to it. So the identity of a
payload can be read off the payload, name by name. -/
theorem flatMap_contribution {entries : List (String × CanonicalJson)}
    (distinct : (entries.map (·.1)).Nodup) (name : String) :
    (entries.flatMap fun e => (Assertion.json e.1 e.2.1).contribution name) =
      ((entries.find? (·.1 == name)).map fun e => spread e.2.1).getD [] := by
  induction entries with
  | nil => rfl
  | cons e rest ih =>
    rw [List.map_cons, List.nodup_cons] at distinct
    rw [List.flatMap_cons, Assertion.contribution_json, ih distinct.2, List.find?_cons]
    by_cases here : e.1 = name
    · -- no other entry has the name
      have absent : rest.find? (·.1 == name) = none := by
        rw [List.find?_eq_none]
        intro e' he' named
        exact distinct.1 (List.mem_map.mpr ⟨e', he', (eq_of_beq named).trans here.symm⟩)
      rw [if_pos here, absent, beq_iff_eq.mpr here]
      exact List.append_nil _
    · rw [if_neg here, beq_eq_false_iff_ne.mpr here]
      rfl

/-- The values of a claim are those of the member of the payload with its name. -/
theorem values_ofClaims (c : Claims) (mode name : String) :
    (ofClaims c mode).values name = ((c.find? name).map spread).getD [] := by
  rw [ofClaims_eq, values_ofAssertions]
  unfold assertionsOf
  rw [List.flatMap_append, List.flatMap_map, flatMap_contribution c.members.nodup_names]
  unfold Claims.find? OrderedMap.find?
  rw [Option.map_map, Option.map_map]
  exact List.append_nil _

/-- The claims that are carried are the members, also those that are empty arrays. -/
theorem carries_ofClaims : (ofClaims c mode).carries name = true ↔ name ∈ c.members.names := by
  rw [ofClaims_eq, carries_ofAssertions]
  unfold assertionsOf OrderedMap.names
  simp [Assertion.IsAbout]

/-- What the identity of a payload shows of a claim. -/
structure Payload (c : Claims) (mode name : String) : Prop where
  authenticated : (ofClaims c mode).isAuthenticated = true ∧ (ofClaims c mode).mode = some mode
  carried : (ofClaims c mode).carries name = true ↔ name ∈ c.members.names
  /-- The items of an array are the values, whatever they are. -/
  array : ∀ items, c.find? name = some (.array items) → (ofClaims c mode).values name = items
  /-- Any other value is the only one. -/
  single : ∀ v, c.find? name = some v → (∀ items, v ≠ .array items) →
    (ofClaims c mode).values name = [v]
  absent : c.find? name = none → (ofClaims c mode).values name = []
  /-- The claims are the members of the payload, in the order of their names. -/
  names : (ofClaims c mode).claimNames = c.members.names ∧
    (ofClaims c mode).claimNames.Pairwise (· < ·)

/-- What the identity of a payload shows. The payload is a sequence of assertions, one for each
member, so all of this follows from what assertions do; that names are not repeated is what makes
the values of a claim those of one member. -/
theorem payload (c : Claims) (mode name : String) : Payload c mode name where
  authenticated := ⟨rfl, rfl⟩
  carried := carries_ofClaims
  array := by
    intro items found
    rw [values_ofClaims, found]
    rfl
  single := by
    intro v found other
    rw [values_ofClaims, found]
    cases v with
    | array items => exact absurd rfl (other items)
    | null | bool _ | number _ | string _ | object _ => rfl
  absent := by
    intro missing
    rw [values_ofClaims, missing]
    rfl
  names := by
    have same : ∀ n, n ∈ (ofClaims c mode).claimNames ↔ n ∈ c.members.names :=
      fun n => (shows _ n).named.trans carries_ofClaims
    -- two lists in strict order with the same members are one list
    have perm : (ofClaims c mode).claimNames.Perm c.members.names :=
      (List.perm_ext_iff_of_nodup OrderedMap.nodup_names OrderedMap.nodup_names).mpr same
    refine ⟨perm.eq_of_pairwise ?_ OrderedMap.pairwise_names OrderedMap.pairwise_names,
      OrderedMap.pairwise_names⟩
    intro a b _ _ (less : a < b) (greater : b < a)
    exact absurd (String.lt_trans less greater) (String.lt_irrefl a)

/-! ## Identities that are built up -/

/-- What an identity that was built up shows of a claim. -/
structure Recorded (l : List Assertion) (name : String) : Prop where
  /-- The values are the contributions of all assertions, in order. -/
  values : (ofAssertions l).values name = l.flatMap (·.contribution name)
  carried : (ofAssertions l).carries name = true ↔ ∃ a ∈ l, a.IsAbout name
  /-- An empty array, wherever it was asserted, adds no value, and yet the claim is carried. -/
  empty : ∀ before after, l = before ++ .json name (.array []) :: after →
    (ofAssertions l).carries name = true ∧
      (ofAssertions l).values name = (ofAssertions (before ++ after)).values name
  authenticated : (ofAssertions l).isAuthenticated = true ↔ ∃ mode, .authentication mode ∈ l
  /-- The last mode of authentication counts. -/
  mode : ∀ before mode after, l = before ++ .authentication mode :: after →
    (∀ m, .authentication m ∉ after) → (ofAssertions l).mode = some mode

/-- The modes among assertions are those that were asserted. -/
theorem mem_filterMap_mode? : mode ∈ l.filterMap Assertion.mode? ↔ .authentication mode ∈ l := by
  rw [List.mem_filterMap]
  constructor
  · rintro ⟨a, ha, asserted⟩
    cases a with
    | authentication m =>
      cases asserted
      exact ha
    | value _ _ | json _ _ => cases asserted
  · intro ha
    exact ⟨_, ha, rfl⟩

/-- What an identity shows that was built up by assertions, from what a sequence of assertions adds
to the identity with which it begins. -/
theorem recorded (l : List Assertion) (name : String) : Recorded l name where
  values := values_ofAssertions l name
  carried := carries_ofAssertions l name
  empty := by
    rintro before after rfl
    -- an empty array is about the claim, but contributes nothing to it
    have nothing : (Assertion.json name (.array [])).contribution name = [] := if_pos rfl
    refine ⟨(carries_ofAssertions _ name).mpr ⟨.json name (.array []), by simp, rfl⟩, ?_⟩
    simp only [values_ofAssertions, List.flatMap_append, List.flatMap_cons, nothing,
      List.nil_append]
  authenticated := by
    unfold isAuthenticated
    rw [mode_ofAssertions, List.getLast?_isSome]
    simp only [← mem_filterMap_mode?]
    exact ⟨List.exists_mem_of_ne_nil _, fun ⟨_, asserted⟩ => List.ne_nil_of_mem asserted⟩
  mode := by
    rintro before mode after rfl final
    -- nothing after the assertion takes the mode back
    have none_after : after.filterMap Assertion.mode? = [] :=
      List.eq_nil_iff_forall_not_mem.mpr fun m hm => final m (mem_filterMap_mode?.mp hm)
    have here : (Assertion.authentication mode).mode? = some mode := rfl
    rw [mode_ofAssertions, List.filterMap_append, List.filterMap_cons_some here, none_after]
    exact List.getLast?_concat

/-- **An identity preserves what is asserted.** However the identity came about, its views agree.
The identity of a payload has the members of the payload as its claims, with the items of arrays as
values. The identity that was built up by any assertions in any order has all that they
contribute. -/
theorem preserves_payload (name : String) :
    (∀ i : Identity, i.Shows name) ∧ (∀ c mode, Payload c mode name) ∧ ∀ l, Recorded l name :=
  ⟨fun i => i.shows name, fun c mode => payload c mode name, fun l => recorded l name⟩

/-- An empty array adds no value, and the inner array stays one. -/
example : (ofAssertions [.json "a" (.array []), .value "b" .null,
    .json "a" (.array [.bool true, .array [.null]])]).values "a" = [.bool true, .array [.null]] :=
  rfl

end Identity
end BearerAuth
