import BearerAuth.Access.Policy
import Mathlib.Data.List.Dedup

/-!
# BearerAuth — which policies a registry keeps

There are several ways to build a registry: policies are registered one by one, several at once in
place, or all of them from a list, and a registry that was begun in one way can be continued in
another. What it keeps depends on the sequence of the policies alone. Of several policies with one
name the first is kept as it is, and those after it leave no trace.

Main results:

* `Registry.find?_ofList`  — of several policies with one name the first is registered.
* `Registry.run_extend`    — in place or not, policies are registered in turn.
* `Registry.keeps_first`   — what is built in any of the ways, and what it keeps.
-/

namespace BearerAuth.Registry

variable {r : Registry} {p : Policy} {ps qs : List Policy} {name : String}

/-! ## Ways to build a registry -/

/-- To register the policies of two lists is to register those of the one and then of the other. -/
theorem registerAll_append (r : Registry) (ps qs : List Policy) :
    r.registerAll (ps ++ qs) = (r.registerAll ps).registerAll qs :=
  List.foldl_append

/-- The registry that is taken out is the one that is put back, with the policy in it. So to
register in place is to register, and the empty registry that stands there in the meantime is never
seen. -/
theorem run_extend (ps : List Policy) (r : Registry) :
    ((extend ps).run r).2 = r.registerAll ps := by
  induction ps generalizing r with
  | nil => rfl
  | cons p ps ih =>
    have rest : ((extend (p :: ps)).run r).2 = ((extend ps).run (r.register p)).2 := rfl
    rw [rest, ih]
    rfl

/-- A registry made of a list is the empty one with the policies registered in turn. -/
theorem ofList_eq (ps : List Policy) : ofList ps = empty.registerAll ps := run_extend ps empty

/-- A registry that was built from a sequence of policies, in any mixture of the ways to do so. -/
inductive Built : List Policy → Registry → Prop
  | empty : Built [] .empty
  /-- One more policy is registered. -/
  | register {ps : List Policy} {r : Registry} (built : Built ps r) (p : Policy) :
      Built (ps ++ [p]) (r.register p)
  /-- Any number of policies are registered in place. -/
  | extend {ps : List Policy} {r : Registry} (built : Built ps r) (qs : List Policy) :
      Built (ps ++ qs) ((Registry.extend qs).run r).2
  /-- All policies are registered at once. -/
  | ofList (ps : List Policy) : Built ps (.ofList ps)

/-- However a registry was built, it is the one that is made of the whole sequence. By induction on
how it was built: each step appends to the sequence what it registers. -/
theorem Built.eq_ofList (built : Built ps r) : r = .ofList ps := by
  induction built with
  | empty => rfl
  | @register ps r _ p ih =>
    rw [ih, ofList_eq, ofList_eq]
    exact (registerAll_append .empty ps [p]).symm
  | @extend ps r _ qs ih =>
    rw [run_extend, ih, ofList_eq, ofList_eq]
    exact (registerAll_append .empty ps qs).symm
  | ofList ps => rfl

/-! ## Policies by name -/

/-- A policy that is there stays; otherwise the first one of the list with the name is found. By
induction on the list, over any registry that it is registered in. -/
theorem find?_registerAll (r : Registry) (ps : List Policy) (name : String) :
    (r.registerAll ps).policies.find? name =
      (r.policies.find? name).or (ps.find? fun p => p.name == name) := by
  induction ps generalizing r with
  | nil => simp [registerAll]
  | cons p ps ih =>
    -- `p` is registered before the rest, unless its name is taken
    have rest : (r.registerAll (p :: ps)).policies.find? name =
        ((r.register p).policies.find? name).or (ps.find? fun p => p.name == name) :=
      ih (r.register p)
    rw [rest, register]
    by_cases same : p.name = name
    · subst same
      rw [OrderedMap.find?_insertNew_self]
      cases r.policies.find? p.name <;> simp
    · rw [OrderedMap.find?_insertNew_of_ne _ (Ne.symm same),
        List.find?_cons_of_neg (by simpa using same)]

/-- Of several policies with one name the first is registered. -/
theorem find?_ofList (ps : List Policy) (name : String) :
    (ofList ps).policies.find? name = ps.find? fun p => p.name == name := by
  have first := empty.find?_registerAll ps name
  rw [empty, OrderedMap.find?_empty, Option.none_or] at first
  rw [ofList_eq]
  exact first

theorem get_eq_ok_iff : r.get name = .ok p ↔ r.policies.find? name = some p := by
  unfold get
  cases r.policies.find? name <;> simp

theorem get_eq_error_iff {e : AccessError} :
    r.get name = .error e ↔ e = .policyNotFound name ∧ r.policies.find? name = none := by
  unfold get
  cases r.policies.find? name <;> simp [eq_comm]

/-- The names of a registry are those of the policies that it was built from. -/
theorem mem_names_ofList : name ∈ (ofList ps).policies.names ↔ name ∈ ps.map (·.name) := by
  rw [OrderedMap.mem_names_iff, OrderedMap.contains, find?_ofList, List.find?_isSome, List.mem_map]
  simp only [beq_iff_eq]

/-- Each name counts once, however many policies have it. The policies that were left out do not
show in the size. -/
theorem size_ofList (ps : List Policy) : (ofList ps).size = (ps.map (·.name)).dedup.length := by
  have same : (ofList ps).policies.names.Perm (ps.map (·.name)).dedup :=
    (List.perm_ext_iff_of_nodup OrderedMap.nodup_names (List.nodup_dedup _)).mpr fun name => by
      rw [mem_names_ofList, List.mem_dedup]
  have counted : (ofList ps).policies.names.length = (ofList ps).size := List.length_map _
  rw [← counted, same.length_eq]

/-- A registry is empty only if it was made of no policies. -/
theorem isEmpty_ofList_iff : (ofList ps).isEmpty = true ↔ ps = [] := by
  constructor
  · intro none
    cases ps with
    | nil => rfl
    | cons p ps =>
      -- the name of the first policy is taken
      have member : p.name ∈ (ofList (p :: ps)).policies.names :=
        mem_names_ofList.mpr List.mem_cons_self
      rw [OrderedMap.names, List.isEmpty_iff.mp none] at member
      cases member
  · rintro rfl
    rfl

/-! ## What is kept -/

/-- The first policy of the sequence with the name. -/
def First (name : String) (ps : List Policy) (p : Policy) : Prop :=
  ∃ before after, ps = before ++ p :: after ∧ p.name = name ∧ ∀ q ∈ before, q.name ≠ name

theorem first_iff : First name ps p ↔ (ps.find? fun p => p.name == name) = some p := by
  rw [List.find?_eq_some_iff_append]
  constructor
  · rintro ⟨before, after, split, named, others⟩
    exact ⟨beq_iff_eq.mpr named, before, after, split, fun q hq => by simpa using others q hq⟩
  · rintro ⟨named, before, after, split, others⟩
    exact ⟨before, after, split, beq_iff_eq.mp named, fun q hq => by simpa using others q hq⟩

/-- What a registry keeps of a sequence of policies. -/
structure Keeps (r : Registry) (ps : List Policy) : Prop where
  /-- The policy that is found is the first of its name, just as it was given. -/
  found : ∀ name p, r.get name = .ok p ↔ First name ps p
  notFound : ∀ name e, r.get name = .error e ↔
    e = .policyNotFound name ∧ ∀ p ∈ ps, p.name ≠ name
  size : r.size = (ps.map (·.name)).dedup.length
  isEmpty : r.isEmpty = true ↔ ps = []

theorem keeps_ofList (ps : List Policy) : (ofList ps).Keeps ps where
  found := by
    intro name p
    rw [get_eq_ok_iff, find?_ofList, first_iff]
  notFound := by
    intro name e
    rw [get_eq_error_iff, find?_ofList, List.find?_eq_none]
    simp only [beq_iff_eq, ne_eq]
  size := size_ofList ps
  isEmpty := isEmpty_ofList_iff

/-- **A registry keeps the first policy of each name.** All ways to build one from a sequence of
policies lead to one registry, and that keeps the first policy of each name and no other. -/
theorem keeps_first (ps : List Policy) :
    (∀ r, Built ps r ↔ r = .ofList ps) ∧ (ofList ps).Keeps ps := by
  refine ⟨fun r => ⟨Built.eq_ofList, ?_⟩, keeps_ofList ps⟩
  rintro rfl
  exact .ofList ps

/-- The second policy of the name would let in whom the first keeps out; it leaves no trace. -/
example : (ofList [.authenticated "p", .anonymous "p", .sufficient "q"]).get "p" =
    .ok (.authenticated "p") := rfl

end BearerAuth.Registry
