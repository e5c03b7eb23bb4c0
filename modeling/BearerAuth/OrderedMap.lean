/-!
# BearerAuth — maps ordered by name

A map from names to values whose entries stand in the order of their names, which is the order of
the bytes of the names. There is one such list for each map, so equal maps are equal values.

All changes go through `update`, which replaces the value at a name by a function of the value
that is there, if any.

## Main definitions

* `OrderedMap`              — entries in strictly ascending order of names.
* `OrderedMap.find?`        — the value at a name.
* `OrderedMap.update`       — replaces the value at a name.
* `OrderedMap.insert`       — puts a value at a name.

## Main results

* `find?_update_self`, `find?_update_of_ne` — what an update does to the view `find?`.
* `mem_names_iff`, `nodup_names` — each name at which there is a value is listed once.
-/

namespace BearerAuth

/-- A map from names to values, in the order of the names. -/
structure OrderedMap (α : Type u) where
  entries : List (String × α)
  ascending : entries.Pairwise fun a b => a.1 < b.1

namespace OrderedMap

variable {α : Type u} {β : Type v}

/-! ## Ordered entries -/

/-- Replaces the value at a name by a function of the value that is there, in ordered entries. -/
def updateEntries (name : String) (f : Option α → α) : List (String × α) → List (String × α)
  | [] => [(name, f none)]
  | (n, v) :: rest =>
    if name < n then (name, f none) :: (n, v) :: rest
    else if name = n then (n, f (some v)) :: rest
    else (n, v) :: updateEntries name f rest

/-- An update brings no name into the entries but its own. -/
theorem fst_mem_updateEntries {name : String} {f : Option α → α} {l : List (String × α)}
    {e : String × α} (h : e ∈ updateEntries name f l) : e.1 = name ∨ ∃ e' ∈ l, e'.1 = e.1 := by
  induction l with
  | nil => simp_all [updateEntries]
  | cons p rest ih =>
    obtain ⟨n, v⟩ := p
    -- the new entry is in front, takes the place of the first one, or lies among the rest
    unfold updateEntries at h
    split at h
    · rcases List.mem_cons.1 h with rfl | h
      · exact .inl rfl
      · exact .inr ⟨e, h, rfl⟩
    · split at h
      · rcases List.mem_cons.1 h with rfl | h
        · exact .inr ⟨(n, v), by simp, rfl⟩
        · exact .inr ⟨e, List.mem_cons_of_mem _ h, rfl⟩
      · rcases List.mem_cons.1 h with rfl | h
        · exact .inr ⟨(n, v), by simp, rfl⟩
        · rcases ih h with h | ⟨e', he', hn⟩
          · exact .inl h
          · exact .inr ⟨e', List.mem_cons_of_mem _ he', hn⟩

/-- An update keeps the entries in order. This is what makes `update` a map again. -/
theorem pairwise_updateEntries (name : String) (f : Option α → α) {l : List (String × α)}
    (h : l.Pairwise fun a b => a.1 < b.1) :
    (updateEntries name f l).Pairwise fun a b => a.1 < b.1 := by
  induction l with
  | nil => simp [updateEntries]
  | cons p rest ih =>
    obtain ⟨n, v⟩ := p
    rw [List.pairwise_cons] at h
    unfold updateEntries
    split
    · next hlt =>
      -- the new name goes in front of the first one that is greater
      refine List.pairwise_cons.2 ⟨fun e he => ?_, List.pairwise_cons.2 h⟩
      rcases List.mem_cons.1 he with rfl | he
      · exact hlt
      · exact String.lt_trans hlt (h.1 e he)
    · next hnlt =>
      split
      · exact List.pairwise_cons.2 ⟨fun e he => h.1 e he, h.2⟩
      · next hne =>
        -- the first entry stays, and it lies before the updated name as well as before the others
        refine List.pairwise_cons.2 ⟨fun e he => ?_, ih h.2⟩
        rcases fst_mem_updateEntries he with he | ⟨e', he', hn⟩
        · rw [he]
          exact Std.lt_of_le_of_ne (String.not_lt.1 hnlt) (Ne.symm hne)
        · rw [← hn]
          exact h.1 e' he'

/-! ## Maps -/

def empty : OrderedMap α := ⟨[], .nil⟩

instance : Inhabited (OrderedMap α) := ⟨empty⟩

def find? (m : OrderedMap α) (name : String) : Option α :=
  (m.entries.find? (·.1 == name)).map (·.2)

def contains (m : OrderedMap α) (name : String) : Bool := (m.find? name).isSome

/-- Replaces the value at a name by a function of the value that is there. -/
def update (m : OrderedMap α) (name : String) (f : Option α → α) : OrderedMap α :=
  ⟨updateEntries name f m.entries, pairwise_updateEntries name f m.ascending⟩

/-- Puts a value at a name, in place of the one that may be there. -/
def insert (m : OrderedMap α) (name : String) (value : α) : OrderedMap α :=
  m.update name fun _ => value

/-- Puts a value at a name unless there is one already. -/
def insertNew (m : OrderedMap α) (name : String) (value : α) : OrderedMap α :=
  m.update name fun old => old.getD value

/-- Takes the value at a name away, if there is one. -/
def erase (m : OrderedMap α) (name : String) : OrderedMap α :=
  ⟨m.entries.filter fun e => e.1 != name, m.ascending.filter _⟩

/-- The names, in order. -/
def names (m : OrderedMap α) : List String := m.entries.map (·.1)

/-- The number of entries. -/
def size (m : OrderedMap α) : Nat := m.entries.length

/-- The map with every value replaced by a function of it. -/
def map (f : α → β) (m : OrderedMap α) : OrderedMap β :=
  ⟨m.entries.map fun e => (e.1, f e.2), List.pairwise_map.2 m.ascending⟩

/-- The map of a list of entries, of which the last one of each name counts. -/
def ofList (l : List (String × α)) : OrderedMap α :=
  l.foldl (fun m e => m.insert e.1 e.2) empty

/-! ## The view `find?` -/

theorem ext_entries {a b : OrderedMap α} (h : a.entries = b.entries) : a = b := by
  cases a; cases b; cases h; rfl

instance [DecidableEq α] : DecidableEq (OrderedMap α) := fun a b =>
  if h : a.entries = b.entries then isTrue (ext_entries h)
  else isFalse fun e => h (e ▸ rfl)

@[simp] theorem find?_empty (name : String) : (empty : OrderedMap α).find? name = none := rfl

/-- At the name of the update the entries hold the function of the value that was there. That
entries are in order is needed: otherwise a value might stand behind the place where the new one is
put. -/
theorem find?_updateEntries_self (name : String) (f : Option α → α) {l : List (String × α)}
    (h : l.Pairwise fun a b => a.1 < b.1) :
    (updateEntries name f l).find? (·.1 == name) =
      some (name, f ((l.find? (·.1 == name)).map (·.2))) := by
  induction l with
  | nil => simp [updateEntries]
  | cons p rest ih =>
    obtain ⟨n, v⟩ := p
    rw [List.pairwise_cons] at h
    unfold updateEntries
    split
    · next hlt =>
      -- a name below the first one is below all of them, so it had no value
      have absent : ((n, v) :: rest).find? (·.1 == name) = none := by
        rw [List.find?_eq_none]
        intro e he heq
        have hn : e.1 = name := by simpa using heq
        rcases List.mem_cons.1 he with rfl | he
        · exact String.lt_irrefl _ (hn ▸ hlt)
        · exact String.lt_irrefl _ (hn ▸ String.lt_trans hlt (h.1 e he))
      simp [absent]
    · split
      · next heq => simp [heq]
      · next hne => simp [Ne.symm hne, ih h.2]

theorem find?_updateEntries_of_ne {name other : String} (hne : other ≠ name)
    (f : Option α → α) (l : List (String × α)) :
    (updateEntries name f l).find? (·.1 == other) = l.find? (·.1 == other) := by
  induction l with
  | nil => simp [updateEntries, Ne.symm hne]
  | cons p rest ih =>
    obtain ⟨n, v⟩ := p
    unfold updateEntries
    split
    · simp [List.find?_cons, Ne.symm hne]
    · split
      · next heq =>
        -- the entry that is replaced has the name of the update, so it was not the one looked for
        subst heq
        simp [Ne.symm hne]
      · rw [List.find?_cons, List.find?_cons, ih]

@[simp] theorem find?_update_self (m : OrderedMap α) (name : String) (f : Option α → α) :
    (m.update name f).find? name = some (f (m.find? name)) := by
  simp [update, find?, find?_updateEntries_self name f m.ascending]

theorem find?_update_of_ne (m : OrderedMap α) {name other : String} (h : other ≠ name)
    (f : Option α → α) : (m.update name f).find? other = m.find? other := by
  simp [update, find?, find?_updateEntries_of_ne h]

@[simp] theorem find?_insert_self (m : OrderedMap α) (name : String) (value : α) :
    (m.insert name value).find? name = some value :=
  find?_update_self m name _

theorem find?_insert_of_ne (m : OrderedMap α) {name other : String} (h : other ≠ name)
    (value : α) : (m.insert name value).find? other = m.find? other :=
  find?_update_of_ne m h _

/-- A value that is there already stays, and the new one is dropped. -/
@[simp] theorem find?_insertNew_self (m : OrderedMap α) (name : String) (value : α) :
    (m.insertNew name value).find? name = some ((m.find? name).getD value) :=
  find?_update_self m name _

theorem find?_insertNew_of_ne (m : OrderedMap α) {name other : String} (h : other ≠ name)
    (value : α) : (m.insertNew name value).find? other = m.find? other :=
  find?_update_of_ne m h _

@[simp] theorem find?_erase_self (m : OrderedMap α) (name : String) :
    (m.erase name).find? name = none := by
  simp only [find?, erase, List.find?_filter, Option.map_eq_none_iff, List.find?_eq_none]
  simp

theorem find?_erase_of_ne (m : OrderedMap α) {name other : String} (h : other ≠ name) :
    (m.erase name).find? other = m.find? other := by
  simp only [find?, erase, List.find?_filter]
  congr 2
  funext e
  by_cases he : e.1 = other <;> simp [he, h]

/-! ## The names -/

/-- The names that are listed are those at which there is a value. -/
theorem mem_names_iff {m : OrderedMap α} {name : String} :
    name ∈ m.names ↔ m.contains name = true := by
  unfold names contains find?
  rw [Option.isSome_map, List.find?_isSome, List.mem_map]
  constructor
  · rintro ⟨e, he, rfl⟩
    exact ⟨e, he, beq_self_eq_true e.1⟩
  · rintro ⟨e, he, named⟩
    exact ⟨e, he, eq_of_beq named⟩

/-- The names are listed in ascending order. -/
theorem pairwise_names {m : OrderedMap α} : m.names.Pairwise (· < ·) :=
  List.pairwise_map.mpr m.ascending

theorem nodup_names {m : OrderedMap α} : m.names.Nodup :=
  pairwise_names.imp fun {a b} (less : a < b) (same : a = b) => String.lt_irrefl b (same ▸ less)

end OrderedMap
end BearerAuth
