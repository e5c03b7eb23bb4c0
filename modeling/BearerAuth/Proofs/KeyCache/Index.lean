import BearerAuth.KeyCache.Snapshot

/-!
# BearerAuth — the index of a snapshot

A snapshot finds keys through an index of positions. This module shows that the index is no more
than a shortcut: looking a key up through it gives the first key of the set that carries the
identifier, and nothing if no key carries it.

Main results:

* `KeyIndex.find?_ofKeys` — the index holds the position of the first key of each identifier.
* `Snapshot.get?_eq_find?` — looking up through the index is a scan of the key set.
* `Snapshot.indexed` — every position in the index lies in the list.
-/

namespace BearerAuth

/-- What is in an index stays there; a new identifier gets the position of its first key. The
statement is about entering keys at any position, since the induction goes on behind the first
key. -/
theorem KeyIndex.find?_enter (keys : List Key) (index : KeyIndex) (position : Nat) (id : String) :
    (index.enter position keys).find? id =
      (index.find? id).or ((keys.findIdx? (·.id == some id)).map (position + ·)) := by
  induction keys generalizing index position with
  | nil => simp [enter]
  | cons k rest ih =>
    unfold enter
    rw [List.findIdx?_cons]
    cases hk : k.id with
    | none =>
      -- a key without an identifier is passed over, and only moves the positions on
      rw [ih]
      simp [Option.map_map, Function.comp_def, Nat.add_assoc, Nat.add_comm 1]
    | some other =>
      dsimp only
      rw [ih]
      by_cases h : other = id
      · -- the key is the first one of its identifier, unless the index had it before
        subst h
        rw [OrderedMap.find?_insertNew_self]
        cases index.find? other <;> simp
      · rw [OrderedMap.find?_insertNew_of_ne _ (Ne.symm h)]
        simp [h, Option.map_map, Function.comp_def, Nat.add_assoc, Nat.add_comm 1]

/-- The index holds the position of the first key of each identifier. Keys are entered in their
order, and an identifier that has a position keeps it, so a later key with the same identifier is
not found. -/
theorem KeyIndex.find?_ofKeys (keys : List Key) (id : String) :
    (ofKeys keys).find? id = keys.findIdx? (·.id == some id) := by
  rw [ofKeys, find?_enter]
  simp

/-- Looking a key up through the index is a scan for the first key that carries the identifier. From
here on nothing is said about the index any more. -/
theorem Snapshot.get?_eq_find? (s : Snapshot) (id : String) : s.get? id = s.keys.find? id := by
  rw [Snapshot.get?, s.index_eq, KeyIndex.find?_ofKeys, KeySet.find?,
    List.find?_eq_bind_findIdx?_getElem?]
  rfl

/-- An index that is as good as the list of keys. -/
structure Snapshot.Indexed (s : Snapshot) : Prop where
  inside : ∀ id i, s.index.find? id = some i → i < s.keys.keys.length
  scan : ∀ id, s.get? id = s.keys.keys.find? (·.id == some id)

/-- Both facts hold of every snapshot, because the index is made from its keys and is never
changed. -/
theorem Snapshot.indexed (s : Snapshot) : s.Indexed := by
  constructor
  · intro id i h
    rw [s.index_eq, KeyIndex.find?_ofKeys, List.findIdx?_eq_some_iff_getElem] at h
    exact h.1
  · exact s.get?_eq_find?

/-- A snapshot lacks an identifier exactly if none of its keys carries it. -/
theorem Snapshot.get?_eq_none_iff {s : Snapshot} {id : String} :
    s.get? id = none ↔ ∀ k ∈ s.keys.keys, k.id ≠ some id := by
  rw [get?_eq_find?, KeySet.find?, List.find?_eq_none]
  simp

end BearerAuth
