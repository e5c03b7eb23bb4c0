import BearerAuth.Json.Record
import BearerAuth.Proofs.Json.Scalars

/-!
# BearerAuth — JSON values read back

A value without doubles that is not nested too deeply is written as a text that reads as the same
value (`parse?_render`). This is true of every value, also of objects with a name that repeats. The
argument is about a written value with anything behind it (`ReadsBack`): what is behind is left
over, unless it could belong to a number.

A record whose members are all wanted reads as its members (`parseRecord?_render`).

Main results:

* `parse?_render`       — reading a written value.
* `parseRecord?_render` — reading a written record.
-/

namespace BearerAuth.Json

/-! ## Values without doubles and their depth -/

/-- No number in the value is a double. -/
inductive Integral : Json → Prop
  | null : Integral .null
  | bool (b : Bool) : Integral (.bool b)
  | integer (i : Integer) : Integral (.number (.integer i))
  | string (s : String) : Integral (.string s)
  | array {items : List Json} (h : ∀ v ∈ items, Integral v) : Integral (.array items)
  | object {members : List (String × Json)} (h : ∀ m ∈ members, Integral m.2) :
      Integral (.object members)

mutual

/-- How deep arrays and objects are nested. -/
def depth : Json → Nat
  | .array items => itemsDepth items + 1
  | .object members => membersDepth members + 1
  | _ => 0

def itemsDepth : List Json → Nat
  | [] => 0
  | v :: rest => max v.depth (itemsDepth rest)

def membersDepth : List (String × Json) → Nat
  | [] => 0
  | (_, v) :: rest => max v.depth (membersDepth rest)

end

/-- The items of an array lie within a bound exactly when each of them does, so a level that is used
up by the array leaves the same room to every item. -/
theorem itemsDepth_le_iff {items : List Json} {d : Nat} :
    itemsDepth items ≤ d ↔ ∀ v ∈ items, v.depth ≤ d := by
  induction items with
  | nil => simp [itemsDepth]
  | cons v rest ih =>
    rw [itemsDepth, Nat.max_le, ih]
    simp

/-- The members of an object lie within a bound exactly when the value of each of them does; names
add no depth. -/
theorem membersDepth_le_iff {members : List (String × Json)} {d : Nat} :
    membersDepth members ≤ d ↔ ∀ m ∈ members, m.2.depth ≤ d := by
  induction members with
  | nil => simp [membersDepth]
  | cons m rest ih =>
    rw [membersDepth, Nat.max_le, ih]
    simp

/-! ## What stands before and after a value -/

/-- Skipping blanks stops at once at a byte that is none. Nothing that is written begins with a
blank, so this is the only form in which `skipBlanks` comes up below. -/
theorem skipBlanks_cons {b : UInt8} (h : isBlank b = false) (s : Bytes) :
    skipBlanks (b :: s) = b :: s := by
  simp [skipBlanks, h]

theorem endsNumber_nil : EndsNumber [] := nofun

/-- A byte that is no digit, no point and no letter of an exponent ends a number, whatever follows
it. -/
theorem endsNumber_cons {b : UInt8} (h : isDigit b = false ∧ b ≠ 46 ∧ b ≠ 101 ∧ b ≠ 69)
    (t : Bytes) : EndsNumber (b :: t) := by
  intro b' hb
  cases hb
  exact h

theorem ne_of_isDigit {b x : UInt8} (h : isDigit b = true) (hx : isDigit x = false) : b ≠ x := by
  rintro rfl
  rw [h] at hx
  cases hx

theorem isBlank_of_isDigit {b : UInt8} (h : isDigit b = true) : isBlank b = false := by
  simp [isBlank, ne_of_isDigit h (x := 32) rfl, ne_of_isDigit h (x := 10) rfl,
    ne_of_isDigit h (x := 13) rfl, ne_of_isDigit h (x := 9) rfl]

/-- A written integer begins with a sign or a digit. -/
theorem exists_integer_cons (i : Integer) (t : Bytes) :
    ∃ b s, utf8 (Number.integer i).chars ++ t = b :: s ∧ (b = 45 ∨ isDigit b = true) := by
  unfold Number.chars
  dsimp only
  split
  · exact ⟨45, _, rfl, .inl rfl⟩
  · obtain ⟨b, s, front, digit⟩ := exists_digits_cons i.1.natAbs t
    exact ⟨b, s, front, .inr digit⟩

/-- A written value begins neither with a blank nor with a closing bracket. So the reader of an
array that looks for the end first is not led astray by its first item. -/
theorem Integral.exists_cons {v : Json} (h : v.Integral) :
    ∃ b s, utf8 v.chars = b :: s ∧ isBlank b = false ∧ b ≠ 93 := by
  cases h with
  | null => exact ⟨110, _, rfl, rfl, by decide⟩
  | bool b => cases b <;> exact ⟨_, _, rfl, rfl, by decide⟩
  | string s => exact ⟨34, _, rfl, rfl, by decide⟩
  | @array items _ => cases items <;> exact ⟨91, _, rfl, rfl, by decide⟩
  | @object members _ => cases members <;> exact ⟨123, _, rfl, rfl, by decide⟩
  | integer i =>
    obtain ⟨b, s, front, rfl | digit⟩ := exists_integer_cons i []
    · exact ⟨45, s, by simpa [chars] using front, rfl, by decide⟩
    · exact ⟨b, s, by simpa [chars] using front, isBlank_of_isDigit digit, ne_of_isDigit digit rfl⟩

/-- A written value has at least one character. The steps of the reader are counted by characters,
so there is always a step for a value. -/
theorem Integral.length_pos {v : Json} (h : v.Integral) : 0 < v.chars.length := by
  obtain ⟨b, s, front, -⟩ := h.exists_cons
  have nonempty : v.chars ≠ [] := by
    intro empty
    rw [empty] at front
    cases front
  exact List.length_pos_iff.mpr nonempty

/-! ## Bytes of a value -/

/-- The bytes of a written string: its escaped characters between two quotation marks. -/
theorem utf8_quote (n : String) : utf8 (quote n) = 34 :: (utf8 (escape n) ++ [34]) := by
  rw [quote, utf8_append, utf8_cons]
  rfl

theorem utf8_itemChars_cons (v : Json) (rest : List Json) :
    utf8 (itemChars (v :: rest)) = 44 :: (utf8 v.chars ++ utf8 (itemChars rest)) := by
  rw [itemChars, utf8_append, utf8_cons, List.append_assoc]
  rfl

/-- The characters of a member and those after it: the name in quotation marks, a colon, the
value. -/
theorem utf8_member (n : String) (v : Json) (cs : List Char) :
    utf8 (quote n ++ ':' :: v.chars ++ cs) = utf8 (quote n) ++ 58 :: (utf8 v.chars ++ utf8 cs) := by
  rw [utf8_append, utf8_append, utf8_cons, List.append_assoc, List.append_assoc]
  rfl

theorem utf8_memberChars_cons (n : String) (v : Json) (rest : List (String × Json)) :
    utf8 (memberChars ((n, v) :: rest)) =
      44 :: (utf8 (quote n) ++ 58 :: (utf8 v.chars ++ utf8 (memberChars rest))) := by
  have front : memberChars ((n, v) :: rest) =
      ',' :: (quote n ++ ':' :: v.chars ++ memberChars rest) := by simp [memberChars]
  rw [front, utf8_cons, utf8_member]
  rfl

theorem utf8_array_cons (v : Json) (rest : List Json) :
    utf8 (chars (.array (v :: rest))) = 91 :: (utf8 v.chars ++ utf8 (itemChars rest)) := by
  rw [chars, utf8_append, utf8_cons]
  rfl

theorem utf8_object_cons (n : String) (v : Json) (rest : List (String × Json)) :
    utf8 (chars (.object ((n, v) :: rest))) =
      123 :: (utf8 (quote n) ++ 58 :: (utf8 v.chars ++ utf8 (memberChars rest))) := by
  have front : chars (.object ((n, v) :: rest)) =
      '{' :: (quote n ++ ':' :: v.chars ++ memberChars rest) := by simp [chars]
  rw [front, utf8_cons, utf8_member]
  rfl

/-! ## Values -/

/-- Nested so deep, a written value reads as itself. Three steps for each character are enough. -/
def ReadsBack (v : Json) (depth : Nat) : Prop :=
  ∀ steps t, 3 * v.chars.length ≤ steps → EndsNumber t →
    readValue steps depth (utf8 v.chars ++ t) = some (v, t)

/-- A bound of one more than `n` leaves a step to take and `n` for what follows. -/
theorem exists_succ {n steps : Nat} (h : n + 1 ≤ steps) : ∃ k, steps = k + 1 ∧ n ≤ k :=
  ⟨steps - 1, by omega, by omega⟩

/-- No value is written with no characters, so there is a step to begin with. -/
theorem Integral.exists_step {v : Json} (h : v.Integral) {steps : Nat}
    (enough : 3 * v.chars.length ≤ steps) : ∃ k, steps = k + 1 := by
  have pos := h.length_pos
  exact ⟨steps - 1, by omega⟩

/-- The items of an array are read one by one, each up to the comma or the bracket after it. If
every item reads as itself, so does the list; one step for each item is spent besides those of the
items. -/
theorem readMoreItems_chars {v : Json} {rest : List Json} {d : Nat}
    (h : ∀ w ∈ v :: rest, w.ReadsBack d) (steps : Nat) (t : Bytes)
    (enough : 3 * (v.chars.length + (itemChars rest).length) + 1 ≤ steps) :
    readMoreItems steps d (utf8 v.chars ++ (utf8 (itemChars rest) ++ t)) =
      some (v :: rest, t) := by
  -- on the items after the first one, which is why the first one is generalized too
  induction rest generalizing v steps with
  | nil =>
    obtain ⟨k, rfl, hk⟩ := exists_succ enough
    have hv : v.ReadsBack d := h v List.mem_cons_self
    -- neither a bracket nor a comma could belong to a number
    have value : readValue k d (utf8 v.chars ++ 93 :: t) = some (v, 93 :: t) :=
      hv k (93 :: t) (by omega) (endsNumber_cons (by decide) t)
    show readMoreItems (k + 1) d (utf8 v.chars ++ 93 :: t) = _
    rw [readMoreItems, value]
    dsimp only
    rw [skipBlanks_cons rfl]
    rfl
  | cons w rest ih =>
    have length : (itemChars (w :: rest)).length =
        1 + (w.chars.length + (itemChars rest).length) := by
      simp [itemChars]
      omega
    obtain ⟨k, rfl, hk⟩ := exists_succ enough
    have hv : v.ReadsBack d := h v List.mem_cons_self
    have others : readMoreItems k d (utf8 w.chars ++ (utf8 (itemChars rest) ++ t)) =
        some (w :: rest, t) :=
      ih (fun u hu => h u (List.mem_cons_of_mem v hu)) k (by omega)
    have value := hv k (44 :: (utf8 w.chars ++ (utf8 (itemChars rest) ++ t))) (by omega)
      (endsNumber_cons (by decide) _)
    rw [utf8_itemChars_cons, List.cons_append, List.append_assoc, readMoreItems, value]
    dsimp only
    rw [skipBlanks_cons rfl]
    dsimp only
    rw [if_neg (by decide), if_pos rfl, others]
    rfl

/-- The name of a member reads as itself and the colon after it is consumed. -/
theorem readName_quote (n : String) (t : Bytes) :
    readName (utf8 (quote n) ++ 58 :: t) = some (n, t) := by
  rw [utf8_quote, List.cons_append, List.append_assoc, readName, skipBlanks_cons rfl]
  dsimp only
  rw [if_pos rfl]
  show (readString (utf8 (escape n) ++ 34 :: 58 :: t)).bind _ = _
  rw [readString_escape]
  rfl

/-- The members of an object are read one by one, as the items of an array are, with a name and a
colon in front of each value. Names may repeat: the reader keeps every member in its order, and what
a repeated name means is left to whoever uses the object. -/
theorem readMoreMembers_chars {n : String} {v : Json} {rest : List (String × Json)} {d : Nat}
    (h : ∀ m ∈ (n, v) :: rest, m.2.ReadsBack d) (steps : Nat) (t : Bytes)
    (enough : 3 * (v.chars.length + (memberChars rest).length) + 1 ≤ steps) :
    readMoreMembers steps d
        (utf8 (quote n) ++ 58 :: (utf8 v.chars ++ (utf8 (memberChars rest) ++ t))) =
      some ((n, v) :: rest, t) := by
  induction rest generalizing n v steps with
  | nil =>
    obtain ⟨k, rfl, hk⟩ := exists_succ enough
    have hv : v.ReadsBack d := h (n, v) List.mem_cons_self
    -- the closing bracket ends the last value
    have value : readValue k d (utf8 v.chars ++ 125 :: t) = some (v, 125 :: t) :=
      hv k (125 :: t) (by omega) (endsNumber_cons (by decide) t)
    show readMoreMembers (k + 1) d (utf8 (quote n) ++ 58 :: (utf8 v.chars ++ 125 :: t)) = _
    rw [readMoreMembers, readName_quote]
    dsimp only
    rw [value]
    dsimp only
    rw [skipBlanks_cons rfl]
    rfl
  | cons m rest ih =>
    obtain ⟨n', w⟩ := m
    have length : w.chars.length + (memberChars rest).length + 1 ≤
        (memberChars ((n', w) :: rest)).length := by
      simp [memberChars]
      omega
    obtain ⟨k, rfl, hk⟩ := exists_succ enough
    have hv : v.ReadsBack d := h (n, v) List.mem_cons_self
    have others := ih (fun u hu => h u (List.mem_cons_of_mem _ hu)) k (by omega)
    -- a comma ends any other
    have value := hv k (44 :: (utf8 (quote n') ++
      58 :: (utf8 w.chars ++ (utf8 (memberChars rest) ++ t)))) (by omega)
      (endsNumber_cons (by decide) _)
    rw [utf8_memberChars_cons, List.cons_append, List.append_assoc, List.cons_append,
      List.append_assoc, readMoreMembers, readName_quote]
    dsimp only
    rw [value]
    dsimp only
    rw [skipBlanks_cons rfl]
    dsimp only
    rw [if_neg (by decide), if_pos rfl, others]
    rfl

/-! ## By the first byte -/

section Kinds

variable (k d : Nat) (s : Bytes)

theorem readValue_string :
    readValue (k + 1) d (34 :: s) =
      (readString s).map fun (text, rest) => (.string text, rest) := by
  rw [readValue, skipBlanks_cons rfl]
  rfl

theorem readValue_array :
    readValue (k + 1) (d + 1) (91 :: s) =
      (readItems k d s).map fun (items, rest) => (.array items, rest) := by
  rw [readValue, skipBlanks_cons rfl]
  rfl

theorem readValue_object :
    readValue (k + 1) (d + 1) (123 :: s) =
      (readMembers k d s).map fun (ms, rest) => (.object ms, rest) := by
  rw [readValue, skipBlanks_cons rfl]
  rfl

/-- A value that begins with a sign or a digit is a number; the byte belongs to its text. -/
theorem readValue_number {b : UInt8} (h : b = 45 ∨ isDigit b = true) :
    readValue (k + 1) d (b :: s) = readNumber (b :: s) := by
  -- none of the other kinds of values begins with a sign or a digit
  have blank : isBlank b = false := by
    rcases h with rfl | digit
    · rfl
    · exact isBlank_of_isDigit digit
  have other : ∀ x : UInt8, x ≠ 45 → isDigit x = false → b ≠ x := by
    rintro x minus notDigit rfl
    rcases h with rfl | digit
    · exact minus rfl
    · exact ne_of_isDigit digit notDigit rfl
  rw [readValue, skipBlanks_cons blank]
  dsimp only
  rw [if_neg (other 34 (by decide) rfl), if_neg (other 91 (by decide) rfl),
    if_neg (other 123 (by decide) rfl), if_pos h]

/-- A value that begins with a letter is one of the words `null`, `true` and `false`. -/
theorem readValue_letter {b : UInt8} (h : b = 110 ∨ b = 116 ∨ b = 102) :
    readValue (k + 1) d (b :: s) = readLiteral b s := by
  rw [readValue]
  rcases h with rfl | rfl | rfl
  all_goals
    rw [skipBlanks_cons rfl]
    rfl

end Kinds

/-- An array reads as itself if its items do. The items must be free of doubles as well: that tells
how the first of them begins, so the array is not taken for an empty one. Two of the steps go into
finding that out, and both brackets make up for them. -/
theorem readsBack_array {items : List Json} {d : Nat}
    (h : ∀ v ∈ items, v.Integral ∧ v.ReadsBack d) : ReadsBack (.array items) (d + 1) := by
  intro steps t enough _
  cases items with
  | nil =>
    obtain ⟨k, rfl, hk⟩ := exists_succ (show 1 + 1 ≤ steps by simp [chars] at enough; omega)
    obtain ⟨j, rfl, -⟩ := exists_succ hk
    show readValue (j + 1 + 1) (d + 1) (91 :: 93 :: t) = _
    rw [readValue_array, readItems, skipBlanks_cons rfl]
    rfl
  | cons v rest =>
    obtain ⟨integral, _⟩ := h v List.mem_cons_self
    have length : 3 * (v.chars.length + (itemChars rest).length) + 1 + 1 + 1 ≤ steps := by
      simp [chars] at enough
      omega
    obtain ⟨k, rfl, hk⟩ := exists_succ length
    obtain ⟨j, rfl, hj⟩ := exists_succ hk
    have others := readMoreItems_chars (fun w hw => (h w hw).2) j t hj
    -- the array is not taken for an empty one
    obtain ⟨b, s, front, blank, bracket⟩ := integral.exists_cons
    rw [utf8_array_cons, List.cons_append, List.append_assoc, readValue_array]
    rw [front] at others ⊢
    rw [List.cons_append, readItems, skipBlanks_cons blank]
    dsimp only
    rw [if_neg bracket, ← List.cons_append, others]
    rfl

/-- An object reads as itself if the values of its members do. -/
theorem readsBack_object {members : List (String × Json)} {d : Nat}
    (h : ∀ m ∈ members, m.2.ReadsBack d) : ReadsBack (.object members) (d + 1) := by
  intro steps t enough _
  cases members with
  | nil =>
    obtain ⟨k, rfl, hk⟩ := exists_succ (show 1 + 1 ≤ steps by simp [chars] at enough; omega)
    obtain ⟨j, rfl, -⟩ := exists_succ hk
    show readValue (j + 1 + 1) (d + 1) (123 :: 125 :: t) = _
    rw [readValue_object, readMembers, skipBlanks_cons rfl]
    rfl
  | cons m rest =>
    obtain ⟨n, v⟩ := m
    have length : 3 * (v.chars.length + (memberChars rest).length) + 1 + 1 + 1 ≤ steps := by
      simp [chars, quote] at enough
      omega
    obtain ⟨k, rfl, hk⟩ := exists_succ length
    obtain ⟨j, rfl, hj⟩ := exists_succ hk
    have others := readMoreMembers_chars h j t hj
    -- the name of the first member, in its quotation marks, is no closing bracket
    rw [utf8_object_cons, List.cons_append, List.append_assoc, List.cons_append,
      List.append_assoc, readValue_object]
    rw [utf8_quote, List.cons_append] at others ⊢
    rw [readMembers, skipBlanks_cons rfl]
    dsimp only
    rw [if_neg (by decide), others]
    rfl

/-- A value without doubles reads as itself at any depth at which it may be nested. By induction on
the value: a word or a string is delimited by itself, a number by what follows it, arrays and
objects by their brackets. -/
theorem Integral.readsBack {v : Json} (h : v.Integral) {d : Nat} (shallow : v.depth ≤ d) :
    v.ReadsBack d := by
  induction h generalizing d with
  | null =>
    intro steps t enough _
    obtain ⟨k, rfl⟩ := Integral.null.exists_step enough
    exact readValue_letter k d _ (.inl rfl)
  | bool b =>
    intro steps t enough _
    obtain ⟨k, rfl⟩ := (Integral.bool b).exists_step enough
    cases b with
    | true => exact readValue_letter k d _ (.inr (.inl rfl))
    | false => exact readValue_letter k d _ (.inr (.inr rfl))
  | integer i =>
    intro steps t enough ends
    obtain ⟨k, rfl⟩ := (Integral.integer i).exists_step enough
    obtain ⟨b, s, front, kind⟩ := exists_integer_cons i t
    have number := readNumber_integer i ends
    show readValue (k + 1) d (utf8 (Number.integer i).chars ++ t) = _
    rw [front] at number ⊢
    rw [readValue_number k d s kind, number]
  | string s =>
    intro steps t enough _
    obtain ⟨k, rfl⟩ := (Integral.string s).exists_step enough
    show readValue (k + 1) d (utf8 (quote s) ++ t) = _
    rw [utf8_quote, List.cons_append, List.append_assoc, readValue_string]
    show (readString (utf8 (escape s) ++ 34 :: t)).map _ = _
    rw [readString_escape]
    rfl
  | array integral ih =>
    -- one level is used up, and the items lie one level deeper
    rw [depth] at shallow
    obtain ⟨e, rfl, inner⟩ := exists_succ shallow
    exact readsBack_array fun v hv => ⟨integral v hv, ih v hv (itemsDepth_le_iff.mp inner v hv)⟩
  | object integral ih =>
    rw [depth] at shallow
    obtain ⟨e, rfl, inner⟩ := exists_succ shallow
    exact readsBack_object fun m hm => ih m hm (membersDepth_le_iff.mp inner m hm)

/-- Reading may go on for as many steps as the text has room for. That number is counted in bytes,
and there are at least as many bytes as characters. -/
theorem Integral.readValue_stepsFor {v : Json} (h : v.Integral) {d : Nat} (shallow : v.depth ≤ d)
    {t : Bytes} (ends : EndsNumber t) :
    readValue (stepsFor (utf8 v.chars ++ t)) d (utf8 v.chars ++ t) = some (v, t) := by
  have length := length_le_utf8 v.chars
  refine h.readsBack shallow _ t ?_ ends
  rw [stepsFor, List.length_append]
  omega

theorem ofString_render (v : Json) : Bytes.ofString v.render = utf8 v.chars := by
  rw [render, Bytes.ofString_eq, String.toList_ofList]

/-- **A written value reads as itself.** It must hold no doubles, whose written form is not the
subject here, and may be nested as deep as the reader goes. -/
theorem parse?_render {v : Json} (integral : v.Integral) (shallow : v.depth ≤ depthLimit) :
    parse? (Bytes.ofString v.render) = some v := by
  have read := integral.readValue_stepsFor shallow endsNumber_nil
  rw [List.append_nil] at read
  rw [ofString_render, parse?, read]
  rfl

/-! ## Records -/

/-- A reader of a record that wants every name among the members reads them all, as the reader of a
value does. It counts steps by members and not by characters, since each value is read with steps of
its own. -/
theorem readWantedMembers_chars {wanted : List String} {n : String} {v : Json}
    {rest : List (String × Json)} {d : Nat}
    (h : ∀ m ∈ (n, v) :: rest, m.1 ∈ wanted ∧ m.2.Integral ∧ m.2.depth ≤ d) (steps : Nat)
    (t : Bytes) (enough : rest.length + 1 ≤ steps) :
    readWantedMembers wanted steps d
        (utf8 (quote n) ++ 58 :: (utf8 v.chars ++ (utf8 (memberChars rest) ++ t))) =
      some ((n, v) :: rest, t) := by
  induction rest generalizing n v steps with
  | nil =>
    obtain ⟨k, rfl, -⟩ := exists_succ enough
    obtain ⟨isWanted, integral, shallow⟩ := h (n, v) List.mem_cons_self
    have value : readValue (stepsFor (utf8 v.chars ++ 125 :: t)) d (utf8 v.chars ++ 125 :: t) =
        some (v, 125 :: t) :=
      integral.readValue_stepsFor shallow (endsNumber_cons (by decide) t)
    show readWantedMembers wanted (k + 1) d (utf8 (quote n) ++ 58 :: (utf8 v.chars ++ 125 :: t)) = _
    rw [readWantedMembers, readName_quote]
    simp only [Option.bind_eq_bind, Option.bind_some]
    -- a wanted member is read as a value and not skipped
    rw [if_pos (List.contains_iff_mem.mpr isWanted), value]
    simp only [Option.map_some, Option.bind_some]
    rw [skipBlanks_cons rfl]
    rfl
  | cons m rest ih =>
    obtain ⟨n', w⟩ := m
    obtain ⟨k, rfl, hk⟩ := exists_succ enough
    obtain ⟨isWanted, integral, shallow⟩ := h (n, v) List.mem_cons_self
    have others := ih (fun u hu => h u (List.mem_cons_of_mem _ hu)) k hk
    have ends : EndsNumber
        (44 :: (utf8 (quote n') ++ 58 :: (utf8 w.chars ++ (utf8 (memberChars rest) ++ t)))) :=
      endsNumber_cons (by decide) _
    have value := integral.readValue_stepsFor shallow ends
    rw [utf8_memberChars_cons, List.cons_append, List.append_assoc, List.cons_append,
      List.append_assoc, readWantedMembers, readName_quote]
    simp only [Option.bind_eq_bind, Option.bind_some]
    rw [if_pos (List.contains_iff_mem.mpr isWanted), value]
    simp only [Option.map_some, Option.bind_some]
    rw [skipBlanks_cons rfl]
    dsimp only
    rw [if_neg (by decide), if_pos rfl, others]
    rfl

/-- Each member after the first takes at least a character, and the closing bracket takes one
more. -/
theorem length_le_memberChars (members : List (String × Json)) :
    members.length + 1 ≤ (memberChars members).length := by
  induction members with
  | nil => exact Nat.le_refl 1
  | cons m rest ih =>
    simp [memberChars]
    omega

/-- **A written record reads as its fields**, if there are no members but wanted ones. Whether the
fields are accepted is decided by `Record.fields?` alone: what is written adds no reason to
refuse. -/
theorem parseRecord?_render {wanted : List String} {members : List (String × Json)}
    (h : ∀ m ∈ members, m.1 ∈ wanted ∧ m.2.Integral ∧ m.2.depth + 1 ≤ depthLimit) :
    parseRecord? wanted (Bytes.ofString (render (.object members))) =
      Record.fields? wanted (.named members) := by
  have read : readRecord wanted (utf8 (chars (.object members))) = some (.named members, []) := by
    cases members with
    | nil => rfl
    | cons m rest =>
      obtain ⟨n, v⟩ := m
      -- there are at least as many bytes as members
      have enough : rest.length + 1 ≤
          (utf8 (quote n) ++ 58 :: (utf8 v.chars ++ (utf8 (memberChars rest) ++ []))).length := by
        have count := length_le_memberChars rest
        have bytes := length_le_utf8 (memberChars rest)
        simp
        omega
      have members_ := readWantedMembers_chars
        (fun m hm => ⟨(h m hm).1, (h m hm).2.1, Nat.le_sub_of_add_le (h m hm).2.2⟩) _ [] enough
      rw [utf8_object_cons, readRecord, skipBlanks_cons rfl]
      dsimp only
      rw [List.append_nil] at members_
      rw [if_pos rfl]
      rw [utf8_quote, List.cons_append] at members_ ⊢
      rw [skipBlanks_cons rfl]
      dsimp only
      rw [if_neg (by decide), members_]
      rfl
  rw [ofString_render, parseRecord?, read]
  show (Record.fields? wanted (.named members)).bind some = _
  exact Option.bind_fun_some _

end BearerAuth.Json
