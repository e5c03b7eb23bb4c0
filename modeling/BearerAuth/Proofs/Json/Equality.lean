import BearerAuth.Json.Value

/-!
# BearerAuth — which JSON values are equal

Values are compared by their kinds and from the outside inwards, and of two numbers of one kind the
values count. What that comes to is said without following the comparison: values are equal if they
become one value when every zero is taken to be positive (`Json.unsigned`). In particular an integer
equals no double, and a text nothing but itself.

Main results:

* `Json.same_iff`        — equal values are those that differ in the signs of zeros at most.
* `Json.string_same_iff` — a text equals itself alone.
-/

namespace BearerAuth

/-- The same number, with zero as the positive one. -/
def Double.unsigned (d : Double) : Double := if d.isZero then .zero else d

/-- Doubles are compared as numbers, and as numbers only the two zeros agree with different
signs. -/
theorem Double.sameNumber_iff {a b : Double} :
    a.sameNumber b = true ↔ a.unsigned = b.unsigned := by
  obtain ⟨_, _, _⟩ := a
  obtain ⟨_, _, _⟩ := b
  simp only [sameNumber, unsigned, isZero, zero]
  grind

namespace Json

/-- The same number of the same kind, with zero as the positive one. -/
def Number.unsigned : Number → Number
  | .integer i => .integer i
  | .double d => .double d.unsigned

/-- Numbers of different kinds are never the same; of one kind, their values decide. -/
theorem Number.same_iff {a b : Number} : a.same b = true ↔ a.unsigned = b.unsigned := by
  cases a <;> cases b <;>
    simp [Number.same, Number.unsigned, Double.sameNumber_iff, Subtype.ext_iff]

mutual

/-- The value with positive zeros alone, at every level. -/
def unsigned : Json → Json
  | .number n => .number n.unsigned
  | .array items => .array (unsignedItems items)
  | .object members => .object (unsignedMembers members)
  | v => v

/-- The items, each with positive zeros alone. -/
def unsignedItems : List Json → List Json
  | [] => []
  | v :: rest => v.unsigned :: unsignedItems rest

/-- The members, each with positive zeros alone. -/
def unsignedMembers : List (String × Json) → List (String × Json)
  | [] => []
  | (n, v) :: rest => (n, v.unsigned) :: unsignedMembers rest

end

mutual

/-- Values are equal that differ in the signs of zeros at most. By recursion on the first value,
together with the lists of items and of members in it. -/
theorem same_iff (v w : Json) : v.same w = true ↔ v.unsigned = w.unsigned := by
  match v with
  | .null | .bool _ | .string _ => cases w <;> simp [same, unsigned]
  | .number _ => cases w <;> simp [same, unsigned, Number.same_iff]
  | .array items => cases w <;> simp [same, unsigned, sameItems_iff items]
  | .object members => cases w <;> simp [same, unsigned, sameMembers_iff members]

theorem sameItems_iff (vs ws : List Json) :
    sameItems vs ws = true ↔ unsignedItems vs = unsignedItems ws := by
  match vs, ws with
  | [], [] | [], _ :: _ | _ :: _, [] => simp [sameItems, unsignedItems]
  | v :: vs, w :: ws => simp [sameItems, unsignedItems, same_iff v w, sameItems_iff vs ws]

/-- Objects are compared member by member, in the order in which they hold them. In the mapping form
the order is that of the names, and then this is the comparison of maps. -/
theorem sameMembers_iff (ms ns : List (String × Json)) :
    sameMembers ms ns = true ↔ unsignedMembers ms = unsignedMembers ns := by
  match ms, ns with
  | [], [] | [], _ :: _ | _ :: _, [] => simp [sameMembers, unsignedMembers]
  | (m, v) :: ms, (n, w) :: ns =>
    simp [sameMembers, unsignedMembers, same_iff v w, sameMembers_iff ms ns, and_assoc]

end

/-- A text equals itself alone. -/
theorem string_same_iff {v : Json} {s : String} :
    (Json.string s).same v = true ↔ v = .string s := by
  rw [same_iff]
  cases v with
  | string t => simp [unsigned, eq_comm]
  | null | bool _ | number _ | array _ | object _ => simp [unsigned]

/-- Zero as an integer is no double, and as a double it is one number with two signs. -/
example : Json.same (.number (.integer ⟨0, by decide⟩)) (.number (.double .zero)) = false ∧
    Json.same (.number (.double .zero)) (.number (.double (.neg .zero))) = true := by decide

end Json
end BearerAuth
