import BearerAuth.Token.Redacted

/-!
# BearerAuth — what the text of a token discloses

Texts are cut at positions of their bytes, found by looking for the last dot from the end and by
stepping over characters from the start. What comes of it is said here about characters alone: a
token falls into a shown part and a protected part (`Parts`), and the protected part is written
under a limit in one of four ways (`Written`). Both are told without positions, and there is no
third part of a token that a text could depend on. So two tokens that differ behind the characters
that may be shown cannot be told apart by their texts.

Main results:

* `Redacted.parts_boundary`  — the position that is found is the one behind the last dot.
* `Redacted.written_cut`     — stepping over `m - 1` characters leaves the first `m - 1` of them.
* `Redacted.redaction_exact` — every form of a token, how much it discloses, and what it hides.
-/

namespace BearerAuth.Redacted

open String (singleton)

variable {token shown hidden shown' hidden' r : String} {limit : Option Nat} {m : Nat}

/-! ## Parts of a token -/

/-- The part of a token up to its last dot, and the part after it. Without a dot all of it is the
second part. -/
structure Parts (token shown hidden : String) : Prop where
  whole : token = shown ++ hidden
  ends : shown = "" ∨ ∃ s, shown = s ++ "."
  free : '.' ∉ hidden.toList

/-- No dot follows the position. The search from the end has passed over every character behind it,
and passes over no dot. -/
theorem get_ne_of_boundary_le {position : token.Pos} (behind : boundary token ≤ position)
    (inside : position ≠ token.endPos) : position.get inside ≠ '.' := by
  have before : position < token.endPos :=
    Std.lt_of_le_of_ne (String.Pos.le_endPos position) inside
  exact String.apply_of_skipSuffixWhile_le_prop behind before

/-- The search stops at a dot, if it does not run through the whole token. This is the last dot,
since the search goes from the end to the front. -/
theorem get_prev_boundary (start : boundary token ≠ token.startPos) :
    ((boundary token).prev start).get (by simp) = '.' := by
  exact Decidable.not_not.mp (String.apply_skipSuffixWhile_prop (h := start))

/-- The position that is found falls between the two parts of the token. From here on the parts are
texts, and positions do not come up any more. -/
theorem parts_boundary (token : String) :
    Parts token (token.sliceTo (boundary token)).copy (token.sliceFrom (boundary token)).copy := by
  have splits := (boundary token).splits
  refine ⟨splits.eq_append, ?_, ?_⟩
  · -- without a dot nothing is shown
    by_cases start : boundary token = token.startPos
    · exact .inl (splits.eq_startPos_iff.mp start)
    · obtain ⟨s, ends⟩ := splits.exists_eq_append_singleton_of_ne_startPos start
      rw [get_prev_boundary start] at ends
      exact .inr ⟨s, ends⟩
  · -- a dot in the rest would stand behind the position
    intro member
    obtain ⟨x, y, cut⟩ := List.append_of_mem member
    have rest : (token.sliceFrom (boundary token)).copy =
        String.ofList x ++ (singleton '.' ++ String.ofList y) := by
      rw [← String.toList_inj, cut]
      simp
    have whole : token = (token.sliceTo (boundary token)).copy ++ String.ofList x ++
        (singleton '.' ++ String.ofList y) := by
      rw [String.append_assoc, ← rest]
      exact splits.eq_append
    have there := String.Pos.splits_ofEqAppend whole
    have behind : boundary token ≤ String.Pos.ofEqAppend whole :=
      (splits.le_iff_exists_eq_append there).mpr ⟨String.ofList x, rfl, rest⟩
    exact get_ne_of_boundary_le behind there.ne_endPos_of_singleton there.next.get_eq_of_singleton

/-- A shown part ends in a dot, so it does not reach over characters that are none. -/
theorem Parts.eq_nil {x : List Char} (parts : Parts token shown hidden)
    (longer : shown.toList = shown'.toList ++ x) (free : '.' ∉ x) : x = [] := by
  by_cases nothing : x = []
  · exact nothing
  · have last : shown.toList.getLast? = some (x.getLast nothing) := by
      rw [longer, List.getLast?_append, List.getLast?_eq_some_getLast nothing, Option.some_or]
    rcases parts.ends with empty | ⟨s, ends⟩
    · simp [empty] at last
    · have dot : '.' = x.getLast nothing := by simpa [ends] using last
      exact absurd (dot ▸ List.getLast_mem nothing) free

/-- If the one shown part reaches over characters of the other protected part, there are none of
them, and the parts are the same. -/
theorem Parts.eq_of_append {x : List Char} (parts : Parts token shown hidden)
    (others : Parts token shown' hidden') (longer : shown.toList = shown'.toList ++ x)
    (rest : hidden'.toList = x ++ hidden.toList) : shown = shown' ∧ hidden = hidden' := by
  have nothing : x = [] := parts.eq_nil longer fun dot => others.free (by simp [rest, dot])
  rw [nothing, List.append_nil] at longer
  rw [nothing, List.nil_append] at rest
  exact ⟨String.toList_inj.mp longer, (String.toList_inj.mp rest).symm⟩

/-- A token falls into its parts in one way. So what is shown of a token can be said of its parts,
whichever way they were found. -/
theorem Parts.unique (parts : Parts token shown hidden) (others : Parts token shown' hidden') :
    shown = shown' ∧ hidden = hidden' := by
  have same : shown.toList ++ hidden.toList = shown'.toList ++ hidden'.toList := by
    rw [← String.toList_append, ← String.toList_append, ← parts.whole, ← others.whole]
  -- one of the two shown parts reaches at least as far as the other
  rcases List.append_eq_append_iff.mp same with ⟨x, longer, rest⟩ | ⟨x, longer, rest⟩
  · obtain ⟨first, second⟩ := others.eq_of_append parts longer rest
    exact ⟨first.symm, second.symm⟩
  · exact parts.eq_of_append others longer rest

/-! ## The protected part under a limit -/

/-- How a protected part is written under a limit. -/
inductive Written (hidden : String) : Option Nat → String → Prop
  | unlimited : Written hidden none hidden
  | nothing {m : Nat} (small : m ≤ 1) : Written hidden (some m) "…"
  | first {m : Nat} {kept rest : String} (large : 1 < m) (enough : m ≤ hidden.length)
      (cut : hidden = kept ++ rest) (most : kept.length = m - 1) :
      Written hidden (some m) (kept ++ "…")
  | whole {m : Nat} (large : 1 < m) (short : hidden.length < m) : Written hidden (some m) hidden

/-- How the protected part is written under a limit is what stepping over its first characters
leaves. A limit of `m` allows for `m - 1` characters and an ellipsis. -/
theorem written_cut (limit : Option Nat) (hidden : String.Slice) :
    Written hidden.copy limit (cut limit hidden) := by
  cases limit with
  | none => exact .unlimited
  | some m =>
    unfold cut
    by_cases small : m ≤ 1
    · simp only [small, if_true]
      exact .nothing small
    · -- the position falls between the first `m - 1` characters and the others, if there are any
      have splits := hidden.splits_nextn_startPos (m - 1)
      have atEnd : hidden.startPos.nextn (m - 1) = hidden.endPos ↔ hidden.copy.length ≤ m - 1 := by
        rw [splits.eq_endPos_iff, String.ofList_eq_empty_iff, List.drop_eq_nil_iff,
          String.length_toList]
      simp only [small, if_false]
      split
      case isTrue reached => exact .whole (by omega) (by have := atEnd.mp reached; omega)
      case isFalse before =>
        have enough : m - 1 < hidden.copy.length := by
          rw [atEnd] at before
          omega
        rw [splits.copy_sliceTo_eq]
        refine .first (by omega) (by omega) splits.eq_append ?_
        rw [String.length_ofList, List.length_take, String.length_toList]
        omega

/-- A limit bounds the text, and how much of the protected part is in it. What is kept is a prefix;
an ellipsis stands for the rest unless there is none. -/
theorem Written.bounded (written : Written hidden (some m) r) :
    ∃ kept rest mark, hidden = kept ++ rest ∧ (mark = "…" ∨ mark = "" ∧ rest = "") ∧
      r = kept ++ mark ∧ kept.length ≤ m - 1 ∧ r.length ≤ max m 1 := by
  have one : ("…" : String).length = 1 := rfl
  cases written with
  | nothing small => exact ⟨"", hidden, "…", by simp, .inl rfl, by simp, by simp, by omega⟩
  | @first _ kept rest large enough cut most =>
    refine ⟨kept, rest, "…", cut, .inl rfl, rfl, by omega, ?_⟩
    rw [String.length_append]
    omega
  | whole large short =>
    exact ⟨hidden, "", "", by simp, .inr ⟨rfl, rfl⟩, by simp, by omega, by omega⟩

/-- A protected part that is long enough is told by its first characters. Tokens that agree in these
characters are written alike. -/
theorem Written.eq_of_le (written : Written hidden (some m) r) (enough : m ≤ hidden.length) :
    r = String.ofList (hidden.toList.take (m - 1)) ++ "…" := by
  cases written with
  | nothing small =>
    -- nothing is the first `m - 1` characters as well
    rw [Nat.sub_eq_zero_of_le small]
    simp
  | @first _ kept rest large enough cut most =>
    rw [cut, String.toList_append, List.take_left' (by rw [String.length_toList, most]),
      String.ofList_toList]
  | whole large short => omega

/-! ## The forms of a token -/

/-- What a form discloses of a token. Its text is the shown part and the protected part under the
limit, between quotation marks if there are any. A limit bounds how much of the protected part is in
the text, and tokens that agree on as much of it have the same text. -/
structure Reveals (write : String → String) (quote : String) (limit : Option Nat) : Prop where
  parts : ∀ token shown hidden, Parts token shown hidden →
    ∃ r, Written hidden limit r ∧ write token = quote ++ shown ++ r ++ quote
  bounded : ∀ m, limit = some m → ∀ token shown hidden, Parts token shown hidden →
    ∃ kept rest mark, hidden = kept ++ rest ∧ (mark = "…" ∨ mark = "" ∧ rest = "") ∧
      write token = quote ++ shown ++ (kept ++ mark) ++ quote ∧
      kept.length ≤ m - 1 ∧ (kept ++ mark).length ≤ max m 1
  alike : ∀ m, limit = some m → ∀ token token' shown hidden hidden',
    Parts token shown hidden → Parts token' shown hidden' →
    m ≤ hidden.length → m ≤ hidden'.length →
    hidden.toList.take (m - 1) = hidden'.toList.take (m - 1) → write token = write token'

/-- What is shown of a token is its first part in full and the second one under the limit. -/
theorem written_reveal (limit : Option Nat) (parts : Parts token shown hidden) :
    ∃ r, Written hidden limit r ∧ reveal limit token = shown ++ r := by
  obtain ⟨rfl, rfl⟩ := parts.unique (parts_boundary token)
  exact ⟨cut limit (token.sliceFrom (boundary token)), written_cut limit _, rfl⟩

example : reveal (some 5) "e30.e30.c2lnbmF0dXJl" = "e30.e30.c2ln…" := by
  have parts : Parts "e30.e30.c2lnbmF0dXJl" "e30.e30." "c2lnbmF0dXJl" :=
    ⟨by decide, .inr ⟨"e30.e30", by decide⟩, by decide⟩
  obtain ⟨r, written, text⟩ := written_reveal (some 5) parts
  rw [text, written.eq_of_le (by decide)]
  decide

/-- Every form that puts the same quotation on both sides discloses what the limit allows. The two
forms of a token are instances. -/
theorem reveals_quoted (quote : String) (limit : Option Nat) :
    Reveals (fun token => quote ++ reveal limit token ++ quote) quote limit where
  parts _ _ _ parts := by
    obtain ⟨r, written, text⟩ := written_reveal limit parts
    exact ⟨r, written, by rw [text, ← String.append_assoc]⟩
  bounded _ bound _ _ _ parts := by
    obtain ⟨r, written, text⟩ := written_reveal limit parts
    rw [bound] at written
    -- of a limit nothing is known but that what is kept lies within it
    obtain ⟨kept, rest, mark, cut, ending, rfl, few, short⟩ := written.bounded
    exact ⟨kept, rest, mark, cut, ending, by rw [text, ← String.append_assoc], few, short⟩
  alike _ bound _ _ _ _ _ parts parts' enough enough' same := by
    obtain ⟨r, written, text⟩ := written_reveal limit parts
    obtain ⟨r', written', text'⟩ := written_reveal limit parts'
    rw [bound] at written written'
    -- what is written is told by the part that both have in common
    have agree : r = r' := by
      rw [written.eq_of_le enough, written'.eq_of_le enough', same]
    simp only [text, text', agree]

/-- What the texts of a token disclose. Unless the long form is asked for they are one constant
text, whatever the token and the width. The long forms consist of the part up to the last dot and of
what the width leaves of the rest; where no width is given, the form for display has no limit, and
the form for inspection, which stands between quotation marks, has the limit zero. -/
theorem redaction_exact :
    (∀ width token, display ⟨false, width⟩ token = plain ∧ debug ⟨false, width⟩ token = plain) ∧
    (∀ token, ∃ shown hidden, Parts token shown hidden ∧
      ∀ shown' hidden', Parts token shown' hidden' → shown' = shown ∧ hidden' = hidden) ∧
    (∀ width, Reveals (display ⟨true, width⟩) "" width) ∧
    (∀ width, Reveals (debug ⟨true, width⟩) "\"" (some (width.getD 0))) := by
  refine ⟨fun width token => ⟨rfl, rfl⟩, fun token => ?_, fun width => ?_, fun width => ?_⟩
  · exact ⟨_, _, parts_boundary token, fun _ _ parts => parts.unique (parts_boundary token)⟩
  · -- shown without quotation marks is shown between two empty texts
    have text : display ⟨true, width⟩ = fun token => "" ++ reveal width token ++ "" := by
      funext token
      simp [display, long]
    rw [text]
    exact reveals_quoted "" width
  · exact reveals_quoted "\"" (some (width.getD 0))

end BearerAuth.Redacted
