import BearerAuth.Bytes
import BearerAuth.Decimal.Double
import BearerAuth.OrderedMap

/-!
# BearerAuth — JSON values

A JSON value as it stands in a document: the members of an object keep their order and may repeat
a name. Numbers keep their kind. A number written as an integer that fits a signed or unsigned
64-bit word is an integer; every other number is a double, and the two are never the same number.

`Json.canonical` forgets what a mapping from names to values cannot show: of members with one name
the last one stays, and members are ordered by the bytes of their names.

## Main definitions

* `Json`, `Json.Number`   — values and numbers.
* `Json.same`             — equality of values, for which positive and negative zero are the same.
* `Json.canonical`        — the value with every object as a mapping.
* `CanonicalJson`         — values in that form.

## Main results

* `canonical_canonical`   — the mapping form of a mapping form is itself.
-/

namespace BearerAuth

/-- An integer that fits a signed or an unsigned 64-bit word. -/
abbrev Json.Integer := { i : Int // -9223372036854775808 ≤ i ∧ i < 18446744073709551616 }

/-- A number, by the kind of its written form. -/
inductive Json.Number where
  | integer (value : Json.Integer)
  | double (value : Double)
deriving DecidableEq

inductive Json where
  | null
  | bool (value : Bool)
  | number (value : Json.Number)
  | string (value : String)
  | array (items : List Json)
  | object (members : List (String × Json))

namespace Json

instance : Inhabited Json := ⟨.null⟩

/-- The number of a 64-bit word. -/
def ofUInt64 (n : UInt64) : Json :=
  .number (.integer ⟨n.toNat, by have := n.toNat_lt; omega⟩)

/-- The number of a small count. Counts beyond a 64-bit word are not represented. -/
def ofNat (n : Nat) : Json := ofUInt64 (UInt64.ofNat n)

/-! ## Equality -/

/-- Numeric equality within a kind. -/
def Number.same : Number → Number → Bool
  | .integer a, .integer b => a.1 == b.1
  | .double a, .double b => a.sameNumber b
  | _, _ => false

mutual

/-- Equality of values: numbers of one kind compare as numbers, objects member by member. -/
def same : Json → Json → Bool
  | .null, .null => true
  | .bool a, .bool b => a == b
  | .number a, .number b => a.same b
  | .string a, .string b => a == b
  | .array a, .array b => sameItems a b
  | .object a, .object b => sameMembers a b
  | _, _ => false

/-- Equality of arrays, item by item. -/
def sameItems : List Json → List Json → Bool
  | [], [] => true
  | a :: as, b :: bs => a.same b && sameItems as bs
  | _, _ => false

/-- Equality of objects, member by member in their order. -/
def sameMembers : List (String × Json) → List (String × Json) → Bool
  | [], [] => true
  | (m, a) :: as, (n, b) :: bs => m == n && a.same b && sameMembers as bs
  | _, _ => false

end

instance : BEq Json := ⟨same⟩

/-! ## The mapping form -/

mutual

/-- The value as a mapping: members ordered by name, the last one of a name, at every level. -/
def canonical : Json → Json
  | .array items => .array (canonicalItems items)
  | .object members => .object (canonicalMembers members)
  | v => v

/-- The items, each as a mapping. -/
def canonicalItems : List Json → List Json
  | [] => []
  | v :: rest => v.canonical :: canonicalItems rest

/-- The members in the order of their names, the last one of each name. -/
def canonicalMembers : List (String × Json) → List (String × Json)
  | [] => []
  | (n, v) :: rest =>
    OrderedMap.updateEntries n (fun later => later.getD v.canonical) (canonicalMembers rest)

end

/-- In the mapping form the names of the members ascend, so none of them is repeated. -/
theorem canonicalMembers_ascending (ms : List (String × Json)) :
    (canonicalMembers ms).Pairwise fun a b => a.1 < b.1 := by
  induction ms with
  | nil => exact .nil
  | cons m rest ih => exact OrderedMap.pairwise_updateEntries _ _ ih

/-- Ordered members whose values are in the mapping form are unchanged by it. -/
theorem canonicalMembers_eq_self {ms : List (String × Json)}
    (ascending : ms.Pairwise fun a b => a.1 < b.1)
    (values : ∀ m ∈ ms, m.2.canonical = m.2) : canonicalMembers ms = ms := by
  induction ms with
  | nil => rfl
  | cons m rest ih =>
    obtain ⟨n, v⟩ := m
    rw [List.pairwise_cons] at ascending
    rw [canonicalMembers, ih ascending.2 fun m hm => values m (List.mem_cons_of_mem _ hm),
      values (n, v) List.mem_cons_self]
    -- the first member is put in front of the others, where it already was
    cases rest with
    | nil => rfl
    | cons next rest =>
      have h : n < next.1 := ascending.1 next List.mem_cons_self
      simp [OrderedMap.updateEntries, h]

/-- Values that an update puts into ordered entries come from the update or were there. The property
`p` is any that the update preserves: it holds of what is made of nothing, and of what is made of a
value for which it held before. -/
theorem snd_mem_updateEntries {name : String} {f : Option α → α} {l : List (String × α)}
    {p : α → Prop} (hf : ∀ o, (∀ v, o = some v → p v) → p (f o)) (hl : ∀ e ∈ l, p e.2) :
    ∀ e ∈ OrderedMap.updateEntries name f l, p e.2 := by
  induction l with
  | nil =>
    intro e he
    rw [OrderedMap.updateEntries, List.mem_singleton] at he
    subst he
    exact hf none (by simp)
  | cons m rest ih =>
    obtain ⟨n, v⟩ := m
    have hv : p v := hl (n, v) List.mem_cons_self
    have hrest : ∀ e ∈ rest, p e.2 := fun e he => hl e (List.mem_cons_of_mem _ he)
    intro e he
    -- three places for the update: in front, here, or further on
    unfold OrderedMap.updateEntries at he
    split at he
    · rcases List.mem_cons.1 he with rfl | he
      · exact hf none (by simp)
      · exact hl e he
    · split at he
      · rcases List.mem_cons.1 he with rfl | he
        · exact hf (some v) (by simp [hv])
        · exact hrest e he
      · rcases List.mem_cons.1 he with rfl | he
        · exact hv
        · exact ih hrest e he

mutual

/-- The mapping form of a mapping form is itself. By recursion on the value, together with the lists
of items and of members in it. -/
theorem canonical_canonical (v : Json) : v.canonical.canonical = v.canonical := by
  match v with
  | .null | .bool _ | .number _ | .string _ => rfl
  | .array items =>
    rw [canonical, canonical, canonicalItems_canonicalItems items]
  | .object members =>
    rw [canonical, canonical,
      canonicalMembers_eq_self (canonicalMembers_ascending members)
        (canonical_of_mem_canonicalMembers members)]

theorem canonicalItems_canonicalItems (vs : List Json) :
    canonicalItems (canonicalItems vs) = canonicalItems vs := by
  match vs with
  | [] => rfl
  | v :: rest =>
    rw [canonicalItems, canonicalItems, canonical_canonical v, canonicalItems_canonicalItems rest]

/-- The values of members are brought into the mapping form, and the one that is put at a name is
the new value or the one that was there. -/
theorem canonical_of_mem_canonicalMembers (ms : List (String × Json)) :
    ∀ m ∈ canonicalMembers ms, m.2.canonical = m.2 := by
  match ms with
  | [] => simp [canonicalMembers]
  | (n, v) :: rest =>
    refine snd_mem_updateEntries (p := fun (v : Json) => v.canonical = v) (fun o ho => ?_)
      (canonical_of_mem_canonicalMembers rest)
    cases o with
    | none => exact canonical_canonical v
    | some w => exact ho w rfl

end

end Json

/-- A value in which every object is a mapping. -/
abbrev CanonicalJson := { v : Json // v.canonical = v }

namespace Json

/-- The mapping form of a value. -/
def toCanonical (v : Json) : CanonicalJson := ⟨v.canonical, canonical_canonical v⟩

/-! ## Views -/

def asString? : Json → Option String
  | .string s => some s
  | _ => none

/-- Only texts are viewed as texts; numbers and words are not converted. -/
theorem asString?_eq_some_iff {v : Json} {s : String} : v.asString? = some s ↔ v = .string s := by
  cases v <;> simp [asString?]

theorem asString?_eq_none_iff {v : Json} : v.asString? = none ↔ ∀ s, v ≠ .string s := by
  cases v <;> simp [asString?]

def asArray? : Json → Option (List Json)
  | .array items => some items
  | _ => none

def asObject? : Json → Option (List (String × Json))
  | .object members => some members
  | _ => none

/-- The texts of an array of strings. -/
def asStrings? (v : Json) : Option (List String) := do
  (← v.asArray?).mapM asString?

def asBool? : Json → Option Bool
  | .bool b => some b
  | _ => none

def asInt? : Json → Option Int
  | .number (.integer i) => some i.1
  | _ => none

/-- The value of an integer that is not negative; it fits an unsigned 64-bit word. -/
def asUInt64? : Json → Option UInt64
  | .number (.integer i) => if 0 ≤ i.1 then some (UInt64.ofNat i.1.toNat) else none
  | _ => none

/-- The value of a member of an object, the first one of this name. -/
def member? (v : Json) (name : String) : Option Json := do
  let (_, value) ← (← v.asObject?).find? (·.1 == name)
  return value

end Json
end BearerAuth
