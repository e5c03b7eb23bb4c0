import BearerAuth.Key.Document
import BearerAuth.Proofs.Json.RoundTrip
import BearerAuth.Proofs.Text.Base64Url
import BearerAuth.Proofs.Token.Reading

/-!
# BearerAuth — keys read back

A key is written member by member and read through readers that know nothing of the writer: the
members that say what is published about it, then the kind of its material, then the members of
that kind, whose bytes are decoded and checked once more. Whatever is in the key survives that:
material of any length, an identifier of any characters, what is published or left out. The one
thing that is not taken back is a contradiction. A key can be made that is published for an
algorithm which its material cannot verify; it can be written but not read.

Main results:

* `ofText_render`        — a written key is read, checked for that contradiction.
* `consistent_of_ofText` — a key that was read has none.
* `reads_back_exact`     — which keys read back, and what becomes of the others.
-/

namespace BearerAuth

open Json (Record Field)

/-! ## Material -/

/-- Material that was checked once passes the check again, as it is: the structure of a key holds
that its components are trimmed and within the limits. -/
theorem RsaKey.ofComponents_self (k : RsaKey) :
    ofComponents k.modulus k.exponent = .ok k := by
  have short : ¬ k.modulus.length < minLength := Nat.not_lt.mpr k.min_length
  have long : ¬ maxLength < k.modulus.length := Nat.not_lt.mpr k.max_length
  unfold ofComponents
  simp only [k.modulus_trimmed, k.exponent_trimmed, dif_neg short, dif_neg long,
    dif_neg k.exponent_ne_nil]

theorem CurveKey.ofCoordinates_self (k : CurveKey) :
    ofCoordinates k.curve k.x k.y = .ok k := by
  unfold ofCoordinates
  rw [dif_pos k.x_length, dif_pos k.y_length]

theorem Curve.ofName?_name (c : Curve) : ofName? c.name = some c := by
  cases c <;> decide

/-- The name of the kind of material in a written key. -/
def Material.kindName : Material → String
  | .rsa _ => "RSA"
  | .curve _ => "EC"
  | .secret _ => "oct"

namespace Key

/-- The members of a written key. -/
def members (k : Key) : List (String × Json) :=
  (k.id.map fun id => ("kid", Json.string id)).toList ++
  (k.usage.map fun u => ("use", Json.string u.name)).toList ++
  (k.algorithm.map fun a => ("alg", Json.string a.name)).toList ++
  k.material.toMembers

/-- A field that holds a text or is left out. -/
def textField : Option String → Field
  | none => .unnamed
  | some s => .present (.string s)

/-- A field of bytes in base64. -/
def bytesField (b : Bytes) : Field := textField (some (Base64Url.encode b))

/-- Of a written key the reader finds the members that are published about it, and those that are
left out it finds left out. -/
theorem fields?_published (k : Key) :
    Record.fields? ["kid", "use", "alg", "kty"] (.named k.members) =
      some [textField k.id, textField (k.usage.map Usage.name),
        textField (k.algorithm.map Algorithm.name),
        textField (some k.material.kindName)] := by
  -- there are three kinds of material, and each of the other members is there or not
  obtain ⟨m, id, usage, algorithm⟩ := k
  cases m <;> cases id <;> cases usage <;> cases algorithm <;> rfl

theorem orMalformed_some (a : α) : orMalformed (some a) = .ok a := rfl

theorem ok_bind (a : α) (f : α → Except ε β) : (Except.ok a >>= f) = f a := rfl

theorem required?_bytesField (b : Bytes) : (bytesField b).required? bytesOf? = some b :=
  Base64Url.decode?_encode b

/-- The material is read from the members of its kind. Each kind has members of its own, and the
bytes in them pass the checks of that kind once more. -/
theorem materialOf_members (k : Key) {family : Family}
    (h : familyOf? (.string k.material.kindName) = some family) :
    materialOf family k.members = .ok k.material := by
  obtain ⟨m, id, usage, algorithm⟩ := k
  -- one case for each kind: its members, and the check that its bytes pass once more
  match m with
  | .rsa r =>
    obtain rfl : Family.rsa = family := Option.some.inj h
    have fields : Record.fields? ["n", "e"] (.named (members ⟨.rsa r, id, usage, algorithm⟩)) =
        some [bytesField r.modulus, bytesField r.exponent] := by
      cases id <;> cases usage <;> cases algorithm <;> rfl
    unfold materialOf
    simp only [fields, orMalformed_some, ok_bind, required?_bytesField, r.ofComponents_self]
    rfl
  | .curve c =>
    obtain rfl : Family.ellipticCurve = family := Option.some.inj h
    have fields : Record.fields? ["crv", "x", "y"]
        (.named (members ⟨.curve c, id, usage, algorithm⟩)) =
        some [textField (some c.curve.name), bytesField c.x, bytesField c.y] := by
      cases id <;> cases usage <;> cases algorithm <;> rfl
    have curve : (textField (some c.curve.name)).required?
        (fun v => do Curve.ofName? (← v.asName? true)) = some c.curve := c.curve.ofName?_name
    unfold materialOf
    simp only [fields, orMalformed_some, ok_bind, required?_bytesField, curve,
      c.ofCoordinates_self]
    rfl
  | .secret s =>
    obtain rfl : Family.hmac = family := Option.some.inj h
    have fields : Record.fields? ["k"] (.named (members ⟨.secret s, id, usage, algorithm⟩)) =
        some [bytesField s] := by
      cases id <;> cases usage <;> cases algorithm <;> rfl
    unfold materialOf
    simp only [fields, orMalformed_some, ok_bind, required?_bytesField]
    rfl

/-- A written key is read member by member, and checked. Nothing about the key is assumed: whether
it passes is left to the check. -/
theorem ofMembers_members (k : Key) : ofMembers k.members = checked k := by
  -- what each reader of a published member gives
  have id : (textField k.id).withDefault? none (Json.optional Json.asString?) = some k.id := by
    cases k.id <;> rfl
  have usage : (textField (k.usage.map Usage.name)).withDefault? none
      (Json.optional fun v => do Usage.ofName? (← v.asName? false)) = some k.usage := by
    cases k.usage with
    | none => rfl
    | some u => exact congrArg (Option.map some) u.ofName?_name
  have algorithm : (textField (k.algorithm.map Algorithm.name)).withDefault? none
      (Json.optional fun v => do Algorithm.ofName? (← v.asName? false)) = some k.algorithm := by
    cases k.algorithm with
    | none => rfl
    | some a => exact congrArg (Option.map some) a.ofName?_name
  have kind : ∃ family, familyOf? (.string k.material.kindName) = some family := by
    cases k.material <;> exact ⟨_, rfl⟩
  obtain ⟨family, kind⟩ := kind
  have kty : (textField (some k.material.kindName)).required? familyOf? = some family := kind
  unfold ofMembers
  simp only [fields?_published, orMalformed_some, ok_bind, id, usage, algorithm, kty,
    materialOf_members k kind]

/-! ## Texts -/

theorem string_of_mem_members {k : Key} {m : String × Json} (h : m ∈ k.members) :
    ∃ s, m.2 = .string s := by
  have material : ∀ m ∈ k.material.toMembers, ∃ s, m.2 = .string s := by
    cases k.material <;> simp [Material.toMembers]
  simp only [members, List.mem_append, Option.mem_toList, Option.map_eq_some_iff] at h
  rcases h with ((⟨id, -, rfl⟩ | ⟨u, -, rfl⟩) | ⟨a, -, rfl⟩) | h
  · exact ⟨id, rfl⟩
  · exact ⟨u.name, rfl⟩
  · exact ⟨a.name, rfl⟩
  · exact material m h

theorem integral_toJson (k : Key) : k.toJson.Integral := by
  refine .object fun m hm => ?_
  obtain ⟨s, hs⟩ := string_of_mem_members hm
  rw [hs]
  exact .string s

/-- A written key is an object of strings, which is nested one deep. -/
theorem depth_toJson_le (k : Key) : k.toJson.depth ≤ 1 := by
  have inner : Json.membersDepth k.members ≤ 0 := by
    refine Json.membersDepth_le_iff.mpr fun m hm => ?_
    obtain ⟨s, hs⟩ := string_of_mem_members hm
    rw [hs]
    exact Nat.le_refl 0
  exact Nat.succ_le_succ inner

/-- A written key reads as the key that it was, checked. -/
theorem ofText_render (k : Key) : ofText k.render = checked k := by
  have shallow : k.toJson.depth ≤ Json.depthLimit := Nat.le_trans k.depth_toJson_le (by decide)
  have read := k.integral_toJson.readValue_stepsFor shallow Json.endsNumber_nil
  rw [List.append_nil] at read
  unfold ofText ofBytes render
  rw [Json.ofString_render, read]
  show (ofMembers k.members >>= fun k => .ok k) = _
  rw [ofMembers_members]
  cases checked k <;> rfl

/-! ## Contradictions -/

/-- A key is not published for an algorithm that its material cannot verify. -/
def Consistent (k : Key) : Prop := ∀ a, k.algorithm = some a → k.material.canVerify a = true

theorem checked_of_consistent {k : Key} (h : k.Consistent) : checked k = .ok k := by
  unfold checked
  split
  · rfl
  · next a ha => rw [if_pos (h a ha)]

theorem checked_of_contradiction {k : Key} {a : Algorithm} (published : k.algorithm = some a)
    (h : k.material.canVerify a = false) : checked k = .error (.incompatible a) := by
  unfold checked
  rw [published]
  dsimp only
  rw [h]
  rfl

/-- The check passes a key on as it is or not at all. -/
theorem checked_eq_ok_iff {k k' : Key} : checked k = .ok k' ↔ k = k' ∧ k.Consistent := by
  constructor
  · intro h
    have consistent : k.Consistent := by
      intro a ha
      by_contra unfit
      rw [checked_of_contradiction ha (Bool.eq_false_iff.mpr unfit)] at h
      cases h
    rw [checked_of_consistent consistent] at h
    exact ⟨Except.ok.inj h, consistent⟩
  · rintro ⟨rfl, consistent⟩
    exact checked_of_consistent consistent

/-- Whatever else is read, the check comes last. So a key that was read from members has passed
it. -/
theorem consistent_of_ofMembers {members : List (String × Json)} {k : Key}
    (h : ofMembers members = .ok k) : k.Consistent := by
  unfold ofMembers at h
  obtain ⟨fields, -, h⟩ := bind_eq_ok_iff.mp h
  split at h
  · obtain ⟨id, -, h⟩ := bind_eq_ok_iff.mp h
    obtain ⟨usage, -, h⟩ := bind_eq_ok_iff.mp h
    obtain ⟨algorithm, -, h⟩ := bind_eq_ok_iff.mp h
    obtain ⟨family, -, h⟩ := bind_eq_ok_iff.mp h
    obtain ⟨material, -, h⟩ := bind_eq_ok_iff.mp h
    obtain ⟨rfl, consistent⟩ := checked_eq_ok_iff.mp h
    exact consistent
  · cases h

theorem consistent_of_ofJson {v : Json} {k : Key} (h : ofJson v = .ok k) : k.Consistent := by
  match v with
  | .object members => exact consistent_of_ofMembers h
  | .null | .bool _ | .number _ | .string _ | .array _ => cases h

theorem consistent_of_ofText {text : String} {k : Key} (h : ofText text = .ok k) :
    k.Consistent := by
  unfold ofText ofBytes at h
  obtain ⟨⟨v, rest⟩, -, h⟩ := bind_eq_ok_iff.mp h
  obtain ⟨k', read, h⟩ := bind_eq_ok_iff.mp h
  split at h
  · cases h
    exact consistent_of_ofJson read
  · cases h

/-- **Keys read back, exactly if they are consistent.** Whatever the key is, the text that is
written of it reads as the same key, unless it is published for an algorithm that its material
cannot verify. Then the text is refused, for that reason. So every key that was read from a text
reads back. -/
theorem reads_back_exact (k : Key) :
    (ofText k.render = .ok k ↔
        ∀ a, k.algorithm = some a → k.material.canVerify a = true) ∧
      (∀ a, k.algorithm = some a → k.material.canVerify a = false →
        ∃ e, ofText k.render = .error e ∧
          e.message? = some ("key incompatible with algorithm '" ++ a.name ++ "'")) ∧
      ∀ text, ofText text = .ok k → ofText k.render = .ok k := by
  rw [ofText_render]
  refine ⟨?_, ?_, ?_⟩
  · -- what is read is the key itself, checked, so only the check can be in the way
    rw [checked_eq_ok_iff]
    exact ⟨fun h => h.2, fun consistent => ⟨rfl, consistent⟩⟩
  · intro a published unfit
    exact ⟨_, checked_of_contradiction published unfit, rfl⟩
  · intro text read
    exact checked_of_consistent (consistent_of_ofText read)

end Key
end BearerAuth
