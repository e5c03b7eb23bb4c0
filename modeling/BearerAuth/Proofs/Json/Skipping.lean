import BearerAuth.Json.Parser

/-!
# BearerAuth — what is read can be skipped

A text is gone over in two ways: a reader finds the value at its front, and a skipper only passes
over it. The two are separate functions, and the skipper is the more lenient of them: it does not
look at what strings hold, and it goes to any depth. So a value that is read can be skipped, and
both leave the same rest.

Readers and skippers count their steps, and are started with different numbers of them at different
places. That makes no difference: fewer than three steps are taken for each byte that is taken off
the text, so that one reading with enough steps is like any other (`Takes`).

Main results:

* `skipString_of_readStringBytes` — strings, in which a pair of surrogates is skipped by halves.
* `Takes.value`                   — a value that is read is read with any steps that are enough, and
  skipped.
-/

namespace BearerAuth.Json

/-! ## Bytes taken off a text -/

theorem length_skipBlanks_le (s : Bytes) : (skipBlanks s).length ≤ s.length :=
  (List.dropWhile_suffix isBlank).length_le

/-- After the blanks and a byte there is less than there was. -/
theorem length_lt_of_skipBlanks {s t : Bytes} {b : UInt8} (h : skipBlanks s = b :: t) :
    t.length < s.length := by
  have shorter := length_skipBlanks_le s
  rw [h, List.length_cons] at shorter
  omega

/-- What a reading gives may be wrapped. The rest stays. -/
theorem exists_of_map_wrap {o : Option (α × Bytes)} {f : α → β} {b : β} {rest : Bytes}
    (h : (o.map fun (a, rest) => (f a, rest)) = some (b, rest)) :
    ∃ a, o = some (a, rest) ∧ f a = b := by
  obtain ⟨⟨a, r⟩, read, eq⟩ := Option.map_eq_some_iff.mp h
  cases eq
  exact ⟨a, read, rfl⟩

/-- The rest of a word lies behind it. The word may be empty, so the rest need not be shorter. -/
theorem length_le_of_readWord {w s rest : Bytes} (h : readWord w s = some rest) :
    rest.length ≤ s.length := by
  induction w generalizing s with
  | nil =>
    cases h
    exact Nat.le_refl _
  | cons b w ih =>
    cases s with
    | nil => cases h
    | cons c s =>
      -- each letter of the word takes a byte off, if it is the right one
      rw [readWord] at h
      split at h
      · exact Nat.le_succ_of_le (ih h)
      · cases h

/-- A word that is read is one of three values. Which letters are left is that of `readWord`. -/
theorem readLiteral_eq_some {b : UInt8} {s rest : Bytes} {v : Json}
    (h : readLiteral b s = some (v, rest)) :
    (v = .null ∨ v = .bool true ∨ v = .bool false) ∧ ∃ w, readWord w s = some rest := by
  -- three first letters, each with a word and a value of its own
  unfold readLiteral at h
  split at h
  · obtain ⟨_, read, eq⟩ := Option.map_eq_some_iff.mp h
    cases eq
    exact ⟨.inl rfl, _, read⟩
  split at h
  · obtain ⟨_, read, eq⟩ := Option.map_eq_some_iff.mp h
    cases eq
    exact ⟨.inr (.inl rfl), _, read⟩
  split at h
  · obtain ⟨_, read, eq⟩ := Option.map_eq_some_iff.mp h
    cases eq
    exact ⟨.inr (.inr rfl), _, read⟩
  · cases h

/-! ## Numbers -/

/-- Digits that are read are there: at least one byte is taken off. -/
theorem length_lt_of_readDigits {s rest : Bytes} {ds : List Nat}
    (h : readDigits s = some (ds, rest)) : rest.length < s.length := by
  unfold readDigits at h
  split at h
  · cases h
  · next nonempty =>
    -- the digits and the rest make up the text, and there is a digit
    obtain ⟨rfl, rfl⟩ : _ ∧ s.dropWhile isDigit = rest := by simpa [spanDigits] using h
    have parts := congrArg List.length (List.takeWhile_append_dropWhile (p := isDigit) (l := s))
    rw [List.length_append] at parts
    have some_ : 0 < (s.takeWhile isDigit).length := by
      apply List.length_pos_iff.mpr
      intro none_
      apply nonempty (s.dropWhile isDigit)
      rw [spanDigits, none_]
      rfl
    omega

/-- A fraction may be absent. If it is there, its point and its digits are taken off. -/
theorem length_le_of_readFraction {s rest : Bytes} {f : Option (List Nat)}
    (h : readFraction s = some (f, rest)) : rest.length ≤ s.length := by
  cases s with
  | nil =>
    cases h
    exact Nat.le_refl _
  | cons b s =>
    rw [readFraction] at h
    split at h
    · -- behind a point there must be digits
      obtain ⟨⟨ds, t⟩, digits, eq⟩ := Option.map_eq_some_iff.mp h
      cases eq
      have := length_lt_of_readDigits digits
      rw [List.length_cons]
      omega
    · cases h
      exact Nat.le_refl _

theorem length_lt_of_readExponentDigits {negative : Bool} {s rest : Bytes} {e : Option Int}
    (h : readExponentDigits negative s = some (e, rest)) : rest.length < s.length := by
  obtain ⟨⟨ds, t⟩, digits, eq⟩ := Option.bind_eq_some_iff.mp h
  cases eq
  exact length_lt_of_readDigits digits

/-- An exponent may be absent. If it is there, its letter, its sign and its digits are taken off. -/
theorem length_le_of_readExponent {s rest : Bytes} {e : Option Int}
    (h : readExponent s = some (e, rest)) : rest.length ≤ s.length := by
  cases s with
  | nil =>
    cases h
    exact Nat.le_refl _
  | cons b s =>
    unfold readExponent at h
    dsimp only at h
    split at h
    · cases s with
      | nil => cases h
      | cons sign t =>
        have shorter : rest.length < (sign :: t).length := by
          dsimp only at h
          split at h
          · -- a sign is taken off as well
            exact Nat.lt_succ_of_lt (length_lt_of_readExponentDigits h)
          · split at h
            · exact Nat.lt_succ_of_lt (length_lt_of_readExponentDigits h)
            · -- without a sign the digits begin here
              exact length_lt_of_readExponentDigits h
        exact Nat.le_succ_of_le (Nat.le_of_lt shorter)
    · cases h
      exact Nat.le_refl _

/-- A number takes the digits of its whole part off the text, and what may follow them takes no byte
back. -/
theorem length_lt_of_readUnsigned {negative : Bool} {s rest : Bytes} {t : NumberText}
    (h : readUnsigned negative s = some (t, rest)) : rest.length < s.length := by
  obtain ⟨⟨whole, s₁⟩, hwhole, h⟩ := Option.bind_eq_some_iff.mp h
  obtain ⟨⟨fraction, s₂⟩, hfraction, h⟩ := Option.bind_eq_some_iff.mp h
  obtain ⟨⟨exponent, s₃⟩, hexponent, h⟩ := Option.bind_eq_some_iff.mp h
  cases h
  -- only the whole part is sure to take something off
  have first : s₁.length < s.length := by
    obtain ⟨⟨ds, r⟩, digits, h⟩ := Option.bind_eq_some_iff.mp hwhole
    dsimp only at h
    split at h
    · cases h
    · cases h
      exact length_lt_of_readDigits digits
  exact Nat.lt_of_le_of_lt
    (Nat.le_trans (length_le_of_readExponent hexponent) (length_le_of_readFraction hfraction)) first

/-- A number is passed over by reading its text and forgetting it. The reader also asks for a value
in range, so it refuses numbers that the skipper does not. -/
theorem skips_of_readNumber {s rest : Bytes} {v : Json} (h : readNumber s = some (v, rest)) :
    rest.length < s.length ∧ (NumberText.read s).map (·.2) = some rest := by
  obtain ⟨⟨t, r⟩, read, h⟩ := Option.bind_eq_some_iff.mp h
  obtain ⟨n, -, h⟩ := Option.bind_eq_some_iff.mp h
  cases h
  refine ⟨?_, by rw [read]; rfl⟩
  cases s with
  | nil => cases read
  | cons b s =>
    rw [NumberText.read] at read
    split at read
    · exact Nat.lt_succ_of_lt (length_lt_of_readUnsigned read)
    · exact length_lt_of_readUnsigned read

/-! ## Strings -/

theorem length_lt_of_skipString {s rest : Bytes} (h : skipString s = some rest) :
    rest.length < s.length := by
  fun_induction skipString s generalizing rest with
  | case2 s =>
    cases h
    exact Nat.lt_succ_self _
  | case5 p q r t s n digits quote ih | case8 e s letter c escaped quote ih
  | case10 b s quote backslash control ih =>
    have := ih h
    simp only [List.length_cons]
    omega
  | _ => cases h

/-- Any code point is passed over, half of a pair or not: only the four digits are looked at. -/
theorem skipString_codePoint {p q r t : UInt8} {n : Nat} (h : hexWord? p q r t = some n)
    (s : Bytes) : skipString (92 :: 117 :: p :: q :: r :: t :: s) = skipString s := by
  rw [skipString.eq_def]
  dsimp only
  rw [if_neg (by decide), if_pos rfl, if_pos rfl, h]

/-- A string that can be read can be passed over. The reader joins the halves of a pair of
surrogates into one character, and the skipper passes over them one by one, so one step of the one
may be two of the other. -/
theorem skipString_of_readStringBytes {s bs rest : Bytes}
    (h : readStringBytes s = some (bs, rest)) : skipString s = some rest := by
  fun_induction readStringBytes s generalizing bs rest with
  | case2 s =>
    cases h
    rw [skipString.eq_def]
    rfl
  | case6 p q r t high first surrogate x y p' q' r' t' s isEscape low second half n quote =>
    -- a pair of surrogates is read in one step and skipped in two
    rename_i ih
    obtain ⟨_, read, -⟩ := exists_of_map_wrap h
    obtain ⟨rfl, rfl⟩ := isEscape
    rw [skipString_codePoint first, skipString_codePoint second, ih read]
  | case11 p q r t s n digits high low quote ih =>
    obtain ⟨_, read, -⟩ := exists_of_map_wrap h
    rw [skipString_codePoint digits, ih read]
  | case14 e s letter c escaped quote ih =>
    obtain ⟨_, read, -⟩ := exists_of_map_wrap h
    rw [skipString.eq_def]
    dsimp only
    rw [if_neg (by decide), if_pos rfl, if_neg letter, escaped]
    exact ih read
  | case16 b s quote backslash control ih =>
    obtain ⟨_, read, -⟩ := exists_of_map_wrap h
    rw [skipString.eq_def]
    dsimp only
    rw [if_neg quote, if_neg backslash, if_neg control, ih read]
  | _ => cases h

/-- The characters must be valid for a string that is read, and this the skipper does not ask. -/
theorem skipString_of_readString {s rest : Bytes} {text : String}
    (h : readString s = some (text, rest)) : skipString s = some rest := by
  obtain ⟨⟨bs, r⟩, read, h⟩ := Option.bind_eq_some_iff.mp h
  obtain ⟨t, -, h⟩ := Option.bind_eq_some_iff.mp h
  cases h
  exact skipString_of_readStringBytes read

/-- A name with its colon is passed over as it is read. Both look for a quotation mark first, and
both want a colon after the string; what the string holds makes no difference to where it ends. -/
theorem skips_of_readName {s rest : Bytes} {name : String}
    (h : readName s = some (name, rest)) : skipName s = some rest ∧ rest.length < s.length := by
  unfold readName at h
  unfold skipName
  split at h
  · cases h
  · next b t front =>
    split at h
    · next quote =>
      obtain ⟨⟨n, u⟩, read, h⟩ := Option.bind_eq_some_iff.mp h
      -- both go over the name as a string, and then look for the colon in the same place
      have skipped := skipString_of_readString read
      have shorter := length_lt_of_skipString skipped
      have before := length_lt_of_skipBlanks front
      dsimp only at h
      split at h
      · cases h
      · next c v colon =>
        split at h
        · next isColon =>
          cases h
          have after := length_lt_of_skipBlanks colon
          refine ⟨?_, by omega⟩
          rw [if_pos quote, skipped]
          simp only [Option.bind_eq_bind, Option.bind_some]
          rw [colon]
          dsimp only
          rw [if_pos isColon]
        · cases h
    · cases h

/-! ## By the first byte -/

/-- How a value is read in one step, by its first byte. Numbers and words are not told apart. -/
inductive Front (n d : Nat) (s : Bytes) : Json → Bytes → Prop
  -- a quotation mark
  | string {t rest : Bytes} {text : String} (front : skipBlanks s = 34 :: t)
      (read : readString t = some (text, rest)) : Front n d s (.string text) rest
  -- a bracket, and what is in it is nested deeper
  | array {d' : Nat} {t rest : Bytes} {vs : List Json} (deeper : d = d' + 1)
      (front : skipBlanks s = 91 :: t) (read : readItems n d' t = some (vs, rest)) :
      Front n d s (.array vs) rest
  -- a brace
  | object {d' : Nat} {t rest : Bytes} {ms : List (String × Json)} (deeper : d = d' + 1)
      (front : skipBlanks s = 123 :: t) (read : readMembers n d' t = some (ms, rest)) :
      Front n d s (.object ms) rest
  | scalar {b : UInt8} {t rest : Bytes} {v : Json} (front : skipBlanks s = b :: t)
      (other : b ≠ 34 ∧ b ≠ 91 ∧ b ≠ 123)
      (read : (if b = 45 ∨ isDigit b then readNumber (b :: t) else readLiteral b t) =
        some (v, rest)) : Front n d s v rest

/-- Every step of the reader is one of those kinds. There is one case for each test of the reader,
in their order; at the depth limit arrays and objects are refused. -/
theorem front_of_readValue {n d : Nat} {s rest : Bytes} {v : Json}
    (h : readValue (n + 1) d s = some (v, rest)) : Front n d s v rest := by
  rw [readValue] at h
  split at h
  · cases h
  · next b t front =>
    by_cases string : b = 34
    · subst string
      rw [if_pos rfl] at h
      obtain ⟨text, read, rfl⟩ := exists_of_map_wrap h
      exact .string front read
    rw [if_neg string] at h
    -- from here on each test is what remains of the reader once the one before it failed
    by_cases array : b = 91
    · subst array
      rw [if_pos rfl] at h
      cases d with
      | zero => cases h
      | succ d =>
        obtain ⟨vs, read, rfl⟩ := exists_of_map_wrap h
        exact .array rfl front read
    rw [if_neg array] at h
    by_cases object : b = 123
    · subst object
      rw [if_pos rfl] at h
      cases d with
      | zero => cases h
      | succ d =>
        obtain ⟨ms, read, rfl⟩ := exists_of_map_wrap h
        exact .object rfl front read
    rw [if_neg object] at h
    exact .scalar front ⟨string, array, object⟩ h

/-- An array is closed at once or has a first item. To look for it costs a step. -/
theorem readItems_eq_some {n d : Nat} {s rest : Bytes} {vs : List Json}
    (h : readItems n d s = some (vs, rest)) :
    (skipBlanks s = 93 :: rest ∧ vs = []) ∨
      ∃ b t k, n = k + 1 ∧ skipBlanks s = b :: t ∧ b ≠ 93 ∧
        readMoreItems k d (b :: t) = some (vs, rest) := by
  cases n with
  | zero => simp [readItems] at h
  | succ k =>
    rw [readItems] at h
    split at h
    · cases h
    · next b t front =>
      -- a bracket ends the array at once
      by_cases bracket : b = 93
      · rw [if_pos bracket] at h
        cases h
        exact .inl ⟨bracket ▸ front, rfl⟩
      · rw [if_neg bracket] at h
        exact .inr ⟨b, t, k, rfl, front, bracket, h⟩

/-- An object is closed at once or has a first member. To look for it costs a step. -/
theorem readMembers_eq_some {n d : Nat} {s rest : Bytes} {ms : List (String × Json)}
    (h : readMembers n d s = some (ms, rest)) :
    (skipBlanks s = 125 :: rest ∧ ms = []) ∨
      ∃ b t k, n = k + 1 ∧ skipBlanks s = b :: t ∧ b ≠ 125 ∧
        readMoreMembers k d (b :: t) = some (ms, rest) := by
  cases n with
  | zero => simp [readMembers] at h
  | succ k =>
    rw [readMembers] at h
    split at h
    · cases h
    · next b t front =>
      -- a brace ends the object at once
      by_cases brace : b = 125
      · rw [if_pos brace] at h
        cases h
        exact .inl ⟨brace ▸ front, rfl⟩
      · rw [if_neg brace] at h
        exact .inr ⟨b, t, k, rfl, front, brace, h⟩

/-- What is not a string, an array or an object is passed over as it is read. -/
theorem skips_of_scalar {b : UInt8} {t rest : Bytes} {v : Json}
    (read : (if b = 45 ∨ isDigit b then readNumber (b :: t) else readLiteral b t) =
      some (v, rest)) :
    rest.length < (b :: t).length ∧
      (if b = 45 ∨ isDigit b then (NumberText.read (b :: t)).map (·.2)
        else (readLiteral b t).map (·.2)) = some rest := by
  by_cases number : b = 45 ∨ isDigit b = true
  · rw [if_pos number] at read ⊢
    exact skips_of_readNumber read
  · rw [if_neg number] at read ⊢
    obtain ⟨-, w, word⟩ := readLiteral_eq_some read
    exact ⟨Nat.lt_succ_of_le (length_le_of_readWord word), by rw [read]; rfl⟩

/-! ## Values -/

/-- What is taken off the front of a text, by a reader and by a skipper that count their steps. As
many steps as three for each byte taken off are enough, less those that are spared. -/
structure Takes (read : Nat → Bytes → Option (α × Bytes)) (skip : Nat → Bytes → Option Bytes)
    (spared : Nat) (s : Bytes) (a : α) (rest : Bytes) : Prop where
  shorter : rest.length < s.length
  enough : ∀ steps, 3 * s.length ≤ 3 * rest.length + spared + steps →
    read steps s = some (a, rest) ∧ skip steps s = some rest

/-- Since something is taken off, there is a step to begin with. Every case of the induction is
proved in this form, with the first step split off. -/
theorem Takes.of_succ {read : Nat → Bytes → Option (α × Bytes)}
    {skip : Nat → Bytes → Option Bytes} {spared : Nat} {s rest : Bytes} {a : α}
    (few : spared ≤ 2) (shorter : rest.length < s.length)
    (h : ∀ k, 3 * s.length ≤ 3 * rest.length + spared + (k + 1) →
      read (k + 1) s = some (a, rest) ∧ skip (k + 1) s = some rest) :
    Takes read skip spared s a rest := by
  refine ⟨shorter, fun steps enough => ?_⟩
  obtain ⟨k, rfl⟩ : ∃ k, steps = k + 1 := ⟨steps - 1, by omega⟩
  exact h k enough

abbrev TakesValue (d : Nat) := Takes (readValue · d) skipValue 0

abbrev TakesItems (d : Nat) := Takes (readMoreItems · d) skipMoreItems 1

abbrev TakesMembers (d : Nat) := Takes (readMoreMembers · d) skipMoreMembers 1

/-- An array or an object with something in it. Two steps lead to what is inside: one for the value
and one to see that it is not empty, of which the skipper is spared the second. -/
theorem Takes.enclosed {read : Nat → Bytes → Option (α × Bytes)} {skip : Nat → Bytes → Option Bytes}
    {d : Nat} {s t u rest : Bytes} {first b : UInt8} {a : α} {v : Json}
    (front : skipBlanks s = first :: t) (inside : skipBlanks t = b :: u)
    (taken : Takes read skip 1 (b :: u) a rest)
    (reads : ∀ k, read k (b :: u) = some (a, rest) → readValue (k + 2) d s = some (v, rest))
    (skips : ∀ k, skip k (b :: u) = some rest → skipValue (k + 1) s = some rest) :
    TakesValue d s v rest := by
  have before := length_lt_of_skipBlanks front
  have after := length_skipBlanks_le t
  have shorter := taken.shorter
  rw [inside] at after
  -- the byte in front makes up for both steps
  refine .of_succ (by omega) (by omega) fun k enough => ⟨?_, ?_⟩
  · obtain ⟨k, rfl⟩ : ∃ j, k = j + 1 := ⟨k - 1, by omega⟩
    exact reads k (taken.enough k (by omega)).1
  · exact skips k (taken.enough k (by omega)).2

/-- An array or an object with nothing in it. The same two steps are taken, and two bytes come
off. -/
theorem Takes.empty {d : Nat} {s t rest : Bytes} {first last : UInt8} {v : Json}
    (front : skipBlanks s = first :: t) (close : skipBlanks t = last :: rest)
    (reads : ∀ k, readValue (k + 2) d s = some (v, rest))
    (skips : ∀ k, skipValue (k + 1) s = some rest) : TakesValue d s v rest := by
  have before := length_lt_of_skipBlanks front
  have after := length_lt_of_skipBlanks close
  refine .of_succ (by omega) (by omega) fun k enough => ⟨?_, skips k⟩
  obtain ⟨k, rfl⟩ : ∃ j, k = j + 1 := ⟨k - 1, by omega⟩
  exact reads k

/-- One step of reading a value, where fewer steps are enough for what is in it. What is known of
the items and members of this very reading is a hypothesis, and becomes a recursive call below. -/
theorem Front.takes {n d : Nat} {s rest : Bytes} {v : Json} (h : Front n d s v rest)
    (items : ∀ k d s vs rest, n = k + 1 → readMoreItems k d s = some (vs, rest) →
      TakesItems d s vs rest)
    (members : ∀ k d s ms rest, n = k + 1 → readMoreMembers k d s = some (ms, rest) →
      TakesMembers d s ms rest) : TakesValue d s v rest := by
  cases h with
  | string front read =>
    have skipped := skipString_of_readString read
    have before := length_lt_of_skipBlanks front
    have after := length_lt_of_skipString skipped
    refine .of_succ (by omega) (by omega) fun k _ => ⟨?_, ?_⟩
    · simp only [readValue, front, if_pos, read]
      rfl
    · simp only [skipValue, front, if_pos, skipped]
  | array deeper front read =>
    subst deeper
    -- the reader sees at once whether the array is empty, and so does the skipper
    obtain ⟨close, rfl⟩ | ⟨b, u, j, step, inside, bracket, read⟩ := readItems_eq_some read
    · refine .empty front close (fun k => ?_) (fun k => ?_)
      · simp only [readValue, front, readItems, close]
        rfl
      · simp only [skipValue, front, close]
        rfl
    · refine .enclosed front inside (items j _ _ _ _ step read) (fun k reads => ?_)
        (fun k skips => ?_)
      · simp only [readValue, front, readItems, inside, if_neg bracket, reads]
        rfl
      · simp only [skipValue, front, inside, if_neg bracket, skips]
        rfl
  | object deeper front read =>
    subst deeper
    obtain ⟨close, rfl⟩ | ⟨b, u, j, step, inside, brace, read⟩ := readMembers_eq_some read
    · refine .empty front close (fun k => ?_) (fun k => ?_)
      · simp only [readValue, front, readMembers, close]
        rfl
      · simp only [skipValue, front, close]
        rfl
    · refine .enclosed front inside (members j _ _ _ _ step read) (fun k reads => ?_)
        (fun k skips => ?_)
      · simp only [readValue, front, readMembers, inside, if_neg brace, reads]
        rfl
      · simp only [skipValue, front, inside, if_neg brace, skips]
        rfl
  | scalar front other read =>
    obtain ⟨string, array, object⟩ := other
    -- no step is spent on what is inside, for there is nothing inside
    have before := length_skipBlanks_le s
    obtain ⟨shorter, skipped⟩ := skips_of_scalar read
    rw [front] at before
    refine .of_succ (by omega) (by omega) fun k _ => ⟨?_, ?_⟩
    · simp only [readValue, front, if_neg string, if_neg array, if_neg object, read]
    · simp only [skipValue, front, if_neg string, if_neg array, if_neg object, skipped]

-- The induction is over the steps of the reading that there is. What it gives is free of them.
mutual

/-- **A value that is read may be passed over.** It is read alike with any steps that are enough.
The steps of the one reading that there is do not show in what is proved. -/
theorem Takes.value {n d : Nat} {s rest : Bytes} {v : Json}
    (h : readValue n d s = some (v, rest)) : TakesValue d s v rest := by
  match n with
  | 0 => simp [readValue] at h
  | n + 1 =>
    refine (front_of_readValue h).takes ?_ ?_
    · rintro k d s vs rest rfl read
      exact Takes.moreItems read
    · rintro k d s ms rest rfl read
      exact Takes.moreMembers read

/-- The items of an array up to its bracket, by recursion with the values in them. One step is taken
for each item besides those of the item, and the comma or the bracket behind it pays for that. -/
theorem Takes.moreItems {n d : Nat} {s rest : Bytes} {vs : List Json}
    (h : readMoreItems n d s = some (vs, rest)) : TakesItems d s vs rest := by
  match n with
  | 0 => simp [readMoreItems] at h
  | n + 1 =>
    rw [readMoreItems] at h
    split at h
    · cases h
    next v s₁ read =>
    have taken := Takes.value read
    have first := taken.shorter
    split at h
    · cases h
    next b s₂ front =>
    have before := length_lt_of_skipBlanks front
    by_cases close : b = 93
    · -- the last item
      rw [if_pos close] at h
      cases h
      refine .of_succ (by omega) (by omega) fun k enough => ?_
      obtain ⟨reads, skips⟩ := taken.enough k (by omega)
      simp only [readMoreItems, skipMoreItems, reads, skips, front, if_pos close, and_self]
    · rw [if_neg close] at h
      by_cases comma : b = 44
      · -- an item with others after it
        rw [if_pos comma] at h
        obtain ⟨vs, others, rfl⟩ := exists_of_map_wrap h
        have taken' := Takes.moreItems others
        have second := taken'.shorter
        refine .of_succ (by omega) (by omega) fun k enough => ?_
        obtain ⟨reads, skips⟩ := taken.enough k (by omega)
        obtain ⟨reads', skips'⟩ := taken'.enough k (by omega)
        simp only [readMoreItems, skipMoreItems, reads, skips, front, if_neg close, if_pos comma,
          reads', skips', Option.map_some, and_self]
      · rw [if_neg comma] at h
        cases h

/-- The members of an object up to its brace. Unlike an item, a member brings a name with it, which
is read in no step and takes bytes off all the same. -/
theorem Takes.moreMembers {n d : Nat} {s rest : Bytes} {ms : List (String × Json)}
    (h : readMoreMembers n d s = some (ms, rest)) : TakesMembers d s ms rest := by
  match n with
  | 0 => simp [readMoreMembers] at h
  | n + 1 =>
    rw [readMoreMembers] at h
    split at h
    · cases h
    next name s₁ named =>
    obtain ⟨skipped, zeroth⟩ := skips_of_readName named
    split at h
    · cases h
    next v s₂ read =>
    have taken := Takes.value read
    have first := taken.shorter
    split at h
    · cases h
    next b s₃ front =>
    have before := length_lt_of_skipBlanks front
    by_cases close : b = 125
    · -- the last member
      rw [if_pos close] at h
      cases h
      refine .of_succ (by omega) (by omega) fun k enough => ?_
      obtain ⟨reads, skips⟩ := taken.enough k (by omega)
      simp only [readMoreMembers, skipMoreMembers, named, skipped, reads, skips, front,
        if_pos close, and_self]
    · rw [if_neg close] at h
      by_cases comma : b = 44
      · -- a member with others after it
        rw [if_pos comma] at h
        obtain ⟨ms, others, rfl⟩ := exists_of_map_wrap h
        have taken' := Takes.moreMembers others
        have second := taken'.shorter
        refine .of_succ (by omega) (by omega) fun k enough => ?_
        obtain ⟨reads, skips⟩ := taken.enough k (by omega)
        obtain ⟨reads', skips'⟩ := taken'.enough k (by omega)
        simp only [readMoreMembers, skipMoreMembers, named, skipped, reads, skips, front,
          if_neg close, if_pos comma, reads', skips', Option.map_some, and_self]
      · rw [if_neg comma] at h
        cases h

end

end BearerAuth.Json
