import BearerAuth.Proofs.Key.Document
import BearerAuth.Proofs.Key.Listing

/-!
# BearerAuth — key sets published anew

A key set can be put together from keys of any origin: read from documents, or made and added one by
one. It is written key by key and read by the tolerant reader, which passes over entries that are no
keys. So there is one way to lose a key on the way: it is written, but what is written is no key.
This happens to keys that are published for an algorithm which their material cannot verify, and to
no others. All that is left stands where it stood, and as often.

A set that was read has no such keys and survives as it is. So nothing is lost by writing and
reading a second time.

Main results:

* `ofText?_render`     — a written key set reads as its consistent keys.
* `consistent_of_parse?` — the keys of a document are consistent.
* `keeps_consistent`   — what becomes of any key set, of one that was read, and of one that was read
  back.
-/

namespace BearerAuth

/-! ## Entries -/

namespace Key

/-- Whether the material can verify the algorithm that the key is published for, if there is one. -/
def isConsistent (k : Key) : Bool := k.algorithm.all k.material.canVerify

theorem isConsistent_iff {k : Key} : k.isConsistent = true ↔ k.Consistent := by
  unfold isConsistent Consistent
  exact Option.all_eq_true _ _

/-- The check of a key that was written leaves it out or leaves it alone. -/
theorem toOption_checked (k : Key) :
    (checked k).toOption = Option.guard isConsistent k := by
  by_cases consistent : k.isConsistent = true
  · rw [checked_of_consistent (isConsistent_iff.mp consistent), Option.guard, if_pos consistent]
    rfl
  · rw [Option.guard, if_neg consistent]
    cases check : checked k with
    | error e => rfl
    | ok k' =>
      obtain ⟨rfl, fits⟩ := checked_eq_ok_iff.mp check
      exact absurd (isConsistent_iff.mpr fits) consistent

/-- A written key is a key on its own if it is consistent. This is the one place where writing a set
can lose a key. -/
theorem alone?_toJson (k : Key) : alone? k.toJson = Option.guard isConsistent k := by
  rw [← toOption_checked, ← ofMembers_members]
  rfl

theorem nodup_members (k : Key) : (k.members.map (·.1)).Nodup := by
  obtain ⟨m, id, usage, algorithm⟩ := k
  cases m <;> cases id <;> cases usage <;> cases algorithm <;>
    simp [members, Material.toMembers]

end Key

namespace KeySet

open Key (alone? isConsistent)

theorem isEntry_toJson (k : Key) : IsEntry k.toJson := ⟨k.members, rfl, k.nodup_members⟩

/-! ## Documents -/

/-- The document that is written of a set reads as a value: it is an object with one list of objects
with texts, nested three deep. -/
theorem parse?_ofString_render (s : KeySet) :
    Json.parse? (Bytes.ofString s.render) = some s.toJson := by
  have entries : ∀ v ∈ s.keys.map Key.toJson, v.Integral ∧ v.depth ≤ 1 := by
    intro v hv
    obtain ⟨k, -, rfl⟩ := List.mem_map.mp hv
    exact ⟨k.integral_toJson, k.depth_toJson_le⟩
  have integral : s.toJson.Integral := by
    refine .object fun m hm => ?_
    obtain rfl := List.mem_singleton.mp hm
    exact .array fun v hv => (entries v hv).1
  -- the object of the set, its list, and an object for each key
  have shallow : s.toJson.depth ≤ Json.depthLimit := by
    have items : Json.itemsDepth (s.keys.map Key.toJson) ≤ 1 :=
      Json.itemsDepth_le_iff.mpr fun v hv => (entries v hv).2
    show max (Json.itemsDepth (s.keys.map Key.toJson) + 1) 0 + 1 ≤ 127
    omega
  exact Json.parse?_render integral shallow

/-- A written key set reads as its consistent keys, by the lemma about lists of entries. -/
theorem ofText?_render (s : KeySet) : ofText? s.render = some ⟨s.keys.filter isConsistent⟩ := by
  have list : Lists [("keys", .array (s.keys.map Key.toJson))] (s.keys.map Key.toJson) := by
    refine ⟨rfl, fun v hv => ?_⟩
    obtain ⟨k, -, rfl⟩ := List.mem_map.mp hv
    exact isEntry_toJson k
  have kept : (s.keys.map Key.toJson).filterMap alone? = s.keys.filter isConsistent := by
    rw [List.filterMap_map, ← List.filterMap_eq_filter]
    exact congrArg (s.keys.filterMap ·) (funext Key.alone?_toJson)
  rw [ofText?, parse?_of_lists s.parse?_ofString_render list, kept]

/-! ## Sets that were read -/

/-- The keys that are read from entries have passed the check of their own. -/
theorem consistent_of_keysOf? {entries : List Json} {keys : List Key}
    (h : keysOf? entries = some keys) : ∀ k ∈ keys, k.Consistent := by
  induction entries generalizing keys with
  | nil =>
    cases h
    exact List.forall_mem_nil _
  | cons v rest ih =>
    unfold keysOf? at h
    split at h
    · next k read =>
      obtain ⟨others, left, rfl⟩ := Option.map_eq_some_iff.mp h
      exact List.forall_mem_cons.mpr ⟨Key.consistent_of_ofJson read, ih left⟩
    · -- an entry that is passed over brings no key
      split at h
      · exact ih h
      · cases h

theorem consistent_of_parse? {document : Bytes} {s : KeySet} (h : parse? document = some s) :
    ∀ k ∈ s.keys, k.Consistent := by
  unfold parse? at h
  obtain ⟨fields, -, h⟩ := Option.bind_eq_some_iff.mp h
  split at h
  · obtain ⟨entries, -, h⟩ := Option.bind_eq_some_iff.mp h
    obtain ⟨keys, read, h⟩ := Option.bind_eq_some_iff.mp h
    cases h
    exact consistent_of_keysOf? read
  · cases h

theorem filter_isConsistent_of_parse? {document : Bytes} {s : KeySet}
    (h : parse? document = some s) : s.keys.filter isConsistent = s.keys :=
  List.filter_eq_self.mpr fun k hk => Key.isConsistent_iff.mpr (consistent_of_parse? h k hk)

/-- **Writing and reading keeps exactly the consistent keys.** Whatever keys are in the set, its
written form is read, as those of them that are published for no algorithm or for one that their
material can verify, in the same order and as often. A set that was read from any document is
reproduced. Writing and reading a second time changes nothing. -/
theorem keeps_consistent (s : KeySet) :
    ofText? s.render =
        some ⟨s.keys.filter fun k => k.algorithm.all fun a => k.material.canVerify a⟩ ∧
      (∀ document, parse? document = some s → ofText? s.render = some s) ∧
      (ofText? s.render).bind (fun t => ofText? t.render) = ofText? s.render := by
  refine ⟨s.ofText?_render, ?_, ?_⟩
  · intro document read
    rw [ofText?_render, filter_isConsistent_of_parse? read]
  · simp only [ofText?_render, Option.bind_some, List.filter_filter, Bool.and_self]

end KeySet
end BearerAuth
