import BearerAuth.Json.Record
import BearerAuth.Proofs.Json.Skipping

/-!
# BearerAuth — records are values

A record is read off a text by a reader of its own, which looks at the wanted members only and
passes over the others. The text may be a value as well, and then there are two readings of it.
They agree: the fields of the record are those of the value, whatever the other members hold.

Main results:

* `readWantedMembers_of_readMoreMembers` — of members that are read, a record keeps the wanted ones.
* `parseRecord?_of_parse?`               — a record that is a value has the fields of the value.
-/

namespace BearerAuth.Json

/-! ## Members -/

/-- The steps for which a record reads one of its values are enough, since they are counted by the
text that is left. -/
theorem Takes.stepsFor {d : Nat} {s rest : Bytes} {v : Json} (h : TakesValue d s v rest) :
    readValue (stepsFor s) d s = some (v, rest) ∧ skipValue (stepsFor s) s = some rest :=
  h.enough _ (by unfold Json.stepsFor; omega)

/-- One member of a record, wanted or not. A wanted member is read and another one is skipped; since
both leave the same rest, the step is the same but for what is kept. -/
theorem readWantedMembers_step {wanted : List String} {k d : Nat} {s s₁ s₂ : Bytes}
    {name : String} {v : Json} (named : readName s = some (name, s₁))
    (taken : TakesValue d s₁ v s₂) :
    readWantedMembers wanted (k + 1) d s =
      match skipBlanks s₂ with
      | [] => none
      | b :: t =>
        let here := [(name, v)].filter (wanted.contains ·.1)
        if b = 125 then some (here, t)
        else if b = 44 then
          (readWantedMembers wanted k d t).map fun (ms, rest) => (here ++ ms, rest)
        else none := by
  obtain ⟨reads, skips⟩ := taken.stepsFor
  -- the rest is the same whether the member was read or skipped
  rw [readWantedMembers, named]
  simp only [Option.bind_eq_bind, Option.bind_some]
  by_cases here : wanted.contains name = true
  · have kept : [(name, v)].filter (wanted.contains ·.1) = [(name, v)] :=
      List.filter_cons_of_pos here
    rw [if_pos here, reads, kept]
    rfl
  · have dropped : [(name, v)].filter (wanted.contains ·.1) = [] :=
      List.filter_cons_of_neg here
    rw [if_neg here, skips, dropped]
    rfl

/-- **Of members that are read, a record keeps the wanted ones.** The others are passed over. By
induction on the steps of the reading that there is; the reader of the record counts its own steps,
one for each member, and is given at least one for each byte. -/
theorem readWantedMembers_of_readMoreMembers {wanted : List String} {n d : Nat} {s rest : Bytes}
    {ms : List (String × Json)} (h : readMoreMembers n d s = some (ms, rest)) {steps : Nat}
    (enough : s.length ≤ rest.length + steps) :
    readWantedMembers wanted steps d s = some (ms.filter (wanted.contains ·.1), rest) := by
  induction n generalizing s ms steps with
  | zero => simp [readMoreMembers] at h
  | succ n ih =>
    -- each member takes bytes off the text, so one step for each byte is enough
    have shorter := (Takes.moreMembers h).shorter
    obtain ⟨k, rfl⟩ : ∃ k, steps = k + 1 := ⟨steps - 1, by omega⟩
    rw [readMoreMembers] at h
    split at h
    · cases h
    next name s₁ named =>
    have zeroth := (skips_of_readName named).2
    split at h
    · cases h
    next v s₂ read =>
    have taken := Takes.value read
    have first := taken.shorter
    split at h
    · cases h
    next b s₃ front =>
    have before := length_lt_of_skipBlanks front
    rw [readWantedMembers_step named taken, front]
    dsimp only
    by_cases close : b = 125
    · rw [if_pos close] at h ⊢
      cases h
      rfl
    · rw [if_neg close] at h ⊢
      by_cases comma : b = 44
      · rw [if_pos comma] at h ⊢
        obtain ⟨ms, others, rfl⟩ := exists_of_map_wrap h
        -- the filter of a list is that of its first member and that of the others
        rw [ih others (by omega)]
        show some (_ ++ _, _) = _
        rw [← List.filter_append]
        rfl
      · rw [if_neg comma] at h
        cases h

/-! ## Fields -/

/-- Members that are not wanted do not count for a record. -/
theorem onlyMember?_filter {wanted : List String} {name : String}
    (isWanted : wanted.contains name = true) (ms : List (String × Json)) :
    onlyMember? name (ms.filter (wanted.contains ·.1)) = onlyMember? name ms := by
  have same : (ms.filter (wanted.contains ·.1)).filter (·.1 == name) =
      ms.filter (·.1 == name) := by
    rw [List.filter_filter]
    apply List.filter_congr
    intro m _
    by_cases here : (m.1 == name) = true
    · rw [eq_of_beq here, isWanted, Bool.and_true]
    · rw [Bool.not_eq_true] at here
      rw [here, Bool.false_and]
  rw [onlyMember?, onlyMember?, same]

/-- The fields of a record are those of its wanted members. Every name that is looked up is wanted,
and the other members do not come up. -/
theorem Record.fields?_filter (wanted : List String) (ms : List (String × Json)) :
    fields? wanted (.named (ms.filter (wanted.contains ·.1))) = fields? wanted (.named ms) := by
  -- for any names that are wanted, so that an induction over the names goes through
  suffices h : ∀ names : List String, (∀ n ∈ names, n ∈ wanted) →
      names.mapM (onlyMember? · (ms.filter (wanted.contains ·.1))) =
        names.mapM (onlyMember? · ms) from
    h wanted fun _ isWanted => isWanted
  intro names areWanted
  induction names with
  | nil => rfl
  | cons name names ih =>
    have isWanted : wanted.contains name = true :=
      List.contains_iff_mem.mpr (areWanted name List.mem_cons_self)
    rw [List.mapM_cons, List.mapM_cons, onlyMember?_filter isWanted,
      ih fun n hn => areWanted n (List.mem_cons_of_mem name hn)]

/-- A field that is there was written as a member. -/
theorem mem_of_onlyMember? {name : String} {ms : List (String × Json)} {v : Json}
    (h : onlyMember? name ms = some (.present v)) : (name, v) ∈ ms := by
  unfold onlyMember? at h
  split at h
  · cases h
  · next n w only =>
    cases h
    have kept : (n, v) ∈ ms.filter (·.1 == name) := by
      rw [only]
      exact List.mem_singleton_self _
    obtain ⟨here, named⟩ := List.mem_filter.mp kept
    exact eq_of_beq named ▸ here
  · cases h

/-- Where no name is repeated, a field is there once or not at all. Both are fine for a record, and
only a repeated field is refused. -/
theorem isSome_onlyMember? {ms : List (String × Json)} (distinct : (ms.map (·.1)).Nodup)
    (name : String) : (onlyMember? name ms).isSome = true := by
  have few : ((ms.filter (·.1 == name)).map (·.1)).Nodup :=
    distinct.sublist (List.filter_sublist.map _)
  unfold onlyMember?
  cases eq : ms.filter (·.1 == name) with
  | nil => rfl
  | cons a rest =>
  cases rest with
  | nil => rfl
  | cons b rest =>
    -- the two would have the same name
    have named : ∀ m ∈ ms.filter (·.1 == name), m.1 = name :=
      fun m hm => eq_of_beq (List.mem_filter.mp hm).2
    rw [eq] at few named
    have same : a.1 = b.1 := by rw [named a (by simp), named b (by simp)]
    simp [same] at few

/-- Members without a repeated name make a record, whichever fields are asked for. -/
theorem Record.isSome_fields? {ms : List (String × Json)} (distinct : (ms.map (·.1)).Nodup)
    (names : List String) : (fields? names (.named ms)).isSome = true := by
  show (names.mapM fun name => onlyMember? name ms).isSome = true
  induction names with
  | nil => rfl
  | cons name names ih =>
    obtain ⟨f, field⟩ := Option.isSome_iff_exists.mp (isSome_onlyMember? distinct name)
    obtain ⟨fs, fields⟩ := Option.isSome_iff_exists.mp ih
    rw [List.mapM_cons, field, fields]
    rfl

/-- What is neither a string, nor an array, nor an object is not a record. -/
theorem recordFields?_of_scalar {b : UInt8} {t rest : Bytes} {v : Json}
    (read : (if b = 45 ∨ isDigit b then readNumber (b :: t) else readLiteral b t) =
      some (v, rest)) (wanted : List String) : recordFields? wanted v = none := by
  by_cases number : b = 45 ∨ isDigit b = true
  · rw [if_pos number] at read
    obtain ⟨_, -, read⟩ := Option.bind_eq_some_iff.mp read
    obtain ⟨_, -, read⟩ := Option.bind_eq_some_iff.mp read
    cases read
    rfl
  · rw [if_neg number] at read
    obtain ⟨rfl | rfl | rfl, -⟩ := readLiteral_eq_some read
    all_goals rfl

/-! ## Records -/

/-- A record that is an object, before its fields are looked up. -/
theorem readRecord_of_object {wanted : List String} {n : Nat} {s t rest : Bytes}
    {ms : List (String × Json)} (front : skipBlanks s = 123 :: t)
    (read : readMembers n (depthLimit - 1) t = some (ms, rest)) :
    readRecord wanted s = some (.named (ms.filter (wanted.contains ·.1)), rest) := by
  rw [readRecord, front]
  dsimp only
  rw [if_pos rfl]
  -- an object without members needs no reader of members
  obtain ⟨close, rfl⟩ | ⟨b, u, k, -, inside, brace, read⟩ := readMembers_eq_some read
  · rw [close]
    rfl
  · rw [inside]
    dsimp only
    rw [if_neg brace, readWantedMembers_of_readMoreMembers read (Nat.le_add_left _ _)]
    rfl

/-- A record may be written as an array, whose items are its fields in order. -/
theorem readRecord_of_array {wanted : List String} {n : Nat} {s t rest : Bytes}
    {vs : List Json} (front : skipBlanks s = 91 :: t)
    (read : readItems n (depthLimit - 1) t = some (vs, rest)) :
    readRecord wanted s = some (.positional vs, rest) := by
  rw [readRecord, front]
  dsimp only
  rw [if_neg (by decide), if_pos rfl, stepsFor, readItems]
  obtain ⟨close, rfl⟩ | ⟨b, u, k, -, inside, bracket, read⟩ := readItems_eq_some read
  · rw [close]
    rfl
  · -- the reader of the record has one step for each byte, which is enough for the items
    have shorter := length_skipBlanks_le t
    rw [inside] at shorter ⊢
    dsimp only
    rw [if_neg bracket, ((Takes.moreItems read).enough _ (by omega)).1]
    rfl

/-- A text that is a value is read to its end, but for blanks. -/
theorem exists_of_parse? {s : Bytes} {v : Json} (h : parse? s = some v) :
    ∃ rest, readValue (stepsFor s) depthLimit s = some (v, rest) ∧
      (skipBlanks rest).isEmpty = true := by
  obtain ⟨⟨v', rest⟩, read, h⟩ := Option.bind_eq_some_iff.mp h
  dsimp only at h
  split at h
  · next nothing =>
    cases h
    exact ⟨rest, read, nothing⟩
  · cases h

/-- **A record that is a value has the fields of the value.** The two readings agree on every text
that is a value, also on whether it is a record at all. -/
theorem parseRecord?_of_parse? {s : Bytes} {v : Json} (h : parse? s = some v)
    (wanted : List String) : parseRecord? wanted s = recordFields? wanted v := by
  obtain ⟨rest, read, nothing⟩ := exists_of_parse? h
  -- what is left after the value is left after the record
  have ends : ∀ r, readRecord wanted s = some (r, rest) →
      parseRecord? wanted s = r.fields? wanted := by
    intro r record
    rw [parseRecord?, record]
    simp only [Option.bind_eq_bind, Option.bind_some, if_pos nothing]
    exact Option.bind_fun_some _
  -- by the first byte, as the reader of the value sees it
  cases front_of_readValue read with
  | string front _ =>
    rw [parseRecord?, readRecord, front]
    rfl
  | scalar front other read =>
    -- neither reading finds a record
    rw [recordFields?_of_scalar read, parseRecord?, readRecord, front]
    dsimp only
    rw [if_neg other.2.2, if_neg other.2.1]
    rfl
  | object deeper front read =>
    -- the record has fewer members, but the same fields
    cases deeper
    exact (ends _ (readRecord_of_object front read)).trans (Record.fields?_filter wanted _)
  | array deeper front read =>
    cases deeper
    exact ends _ (readRecord_of_array front read)

end BearerAuth.Json
