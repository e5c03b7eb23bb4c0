import BearerAuth.Proofs.Token.Faults

/-!
# BearerAuth — taking a token apart

What is signed is a piece of the token itself, and it is compared byte by byte. So taking a token
apart must neither lose nor change a character: header, payload and signature joined with dots are
the token again, the signed text is all of it before the last dot, and the payload stands in it as
it came. Of the texts with exactly two dots only those are refused in which the header or the
signature cannot be decoded, and the two are told apart in a fixed order (`Decomposed.order`).

Main results:

* `compact_iff`        — the compact form of strings is that of their characters.
* `ofToken_follows`    — why a token is not taken apart, in order.
* `decomposition_exact` — which tokens are taken apart, into what, and why the others are not.
-/

namespace BearerAuth

variable {token h p s : String}

/-- A token in compact form: three sections joined by dots, and no dot besides these. -/
structure Compact (token h p s : String) : Prop where
  text : token = h ++ "." ++ p ++ "." ++ s
  two : token.toList.count '.' = 2

/-- The compact form of strings is that of their characters. That the sections hold no dots is said
on one side by counting dots in the whole token. -/
theorem compact_iff : Compact token h p s ↔ Sections token.toList h.toList p.toList s.toList := by
  have joined : token = h ++ "." ++ p ++ "." ++ s ↔
      token.toList = h.toList ++ '.' :: (p.toList ++ '.' :: s.toList) := by
    rw [← String.toList_inj]
    simp
  constructor
  · rintro ⟨text, two⟩
    have text := joined.mp text
    -- the two dots between the sections are all there are
    have dotless : h.toList.count '.' = 0 ∧ p.toList.count '.' = 0 ∧ s.toList.count '.' = 0 := by
      rw [text, List.count_append, List.count_cons_self, List.count_append,
        List.count_cons_self] at two
      omega
    exact ⟨text, List.count_eq_zero.mp dotless.1, List.count_eq_zero.mp dotless.2.1,
      List.count_eq_zero.mp dotless.2.2⟩
  · intro sections
    exact ⟨joined.mpr sections.text, exists_sections_iff.mp ⟨_, _, _, sections⟩⟩

/-- Sections that were found as characters, put back as strings. -/
theorem compact_of_sections {h p s : List Char} (sections : Sections token.toList h p s) :
    Compact token (String.ofList h) (String.ofList p) (String.ofList s) := by
  rw [compact_iff, String.toList_ofList, String.toList_ofList, String.toList_ofList]
  exact sections

/-- There is one way only to take a token apart. -/
theorem Compact.unique {h' p' s' : String} (a : Compact token h p s) (b : Compact token h' p' s') :
    h' = h ∧ p' = p ∧ s' = s := by
  obtain ⟨hh, hp, hs⟩ := (compact_iff.mp a).unique (compact_iff.mp b)
  exact ⟨String.toList_inj.mp hh, String.toList_inj.mp hp, String.toList_inj.mp hs⟩

namespace Decomposed

/-- What must hold for a token to be taken apart. -/
inductive Condition where
  /-- There are three sections. -/
  | sections
  /-- The header is base64. -/
  | headerEncoding
  /-- The signature is base64. -/
  | signatureEncoding
  /-- What the header encodes is one. -/
  | headerText

/-- The order in which the conditions count. -/
def order : List Condition := [.sections, .headerEncoding, .signatureEncoding, .headerText]

/-- How a token fails a condition, each by itself. -/
inductive Fails (token : String) : Condition → TokenError → Prop
  | sections (fault : token.toList.count '.' ≠ 2) : Fails token .sections .malformed
  | headerEncoding {h p s : String} (compact : Compact token h p s)
      (fault : Base64Url.decode? h = none) :
      Fails token .headerEncoding (.malformedSection .header)
  | signatureEncoding {h p s : String} (compact : Compact token h p s)
      (fault : Base64Url.decode? s = none) :
      Fails token .signatureEncoding (.malformedSection .signature)
  | headerText {h p s : String} {b : Bytes} (compact : Compact token h p s)
      (decoded : Base64Url.decode? h = some b) (fault : Header.parse? b = none) :
      Fails token .headerText (.malformedSection .header)

section Compact

variable {e : TokenError} {b : Bytes}

/-- With three known sections, a fault of the encoding of the header is one of the first section.
The constructor brings sections of its own, which are the known ones. -/
theorem fails_headerEncoding_iff (compact : Compact token h p s) :
    Fails token .headerEncoding e ↔
      Base64Url.decode? h = none ∧ e = .malformedSection .header := by
  constructor
  · intro fails
    cases fails with
    | headerEncoding compact' fault =>
      obtain ⟨rfl, rfl, rfl⟩ := compact.unique compact'
      exact ⟨fault, rfl⟩
  · rintro ⟨fault, rfl⟩
    exact .headerEncoding compact fault

/-- In the same way a fault of the encoding of the signature is one of the last section. -/
theorem fails_signatureEncoding_iff (compact : Compact token h p s) :
    Fails token .signatureEncoding e ↔
      Base64Url.decode? s = none ∧ e = .malformedSection .signature := by
  constructor
  · intro fails
    cases fails with
    | signatureEncoding compact' fault =>
      obtain ⟨rfl, rfl, rfl⟩ := compact.unique compact'
      exact ⟨fault, rfl⟩
  · rintro ⟨fault, rfl⟩
    exact .signatureEncoding compact fault

/-- A fault of the header itself is one of what the first section encodes. It goes by the same error
as a fault of the encoding. -/
theorem fails_headerText_iff (compact : Compact token h p s)
    (decoded : Base64Url.decode? h = some b) :
    Fails token .headerText e ↔ Header.parse? b = none ∧ e = .malformedSection .header := by
  constructor
  · intro fails
    cases fails with
    | headerText compact' decoded' fault =>
      obtain ⟨rfl, rfl, rfl⟩ := compact.unique compact'
      obtain rfl := Option.some.inj (decoded.symm.trans decoded')
      exact ⟨fault, rfl⟩
  · rintro ⟨fault, rfl⟩
    exact .headerText compact decoded fault

end Compact

/-- Why a token is not taken apart, in order. Both encodings are looked at before the header is
read, so a token whose header holds no JSON is still refused for the encoding of its signature if
that is wrong. -/
theorem ofToken_follows (token : String) : Follows (Fails token) order (ofToken token) := by
  unfold ofToken
  cases cut : sections? token.toList with
  | none =>
    -- without three sections nothing else is looked at
    have fault : token.toList.count '.' ≠ 2 := by
      intro two
      obtain ⟨h, p, s, sections⟩ := exists_sections_iff.mpr two
      rw [sections?_eq_some_iff.mpr sections] at cut
      cases cut
    refine .failed fun e => ⟨?_, ?_⟩
    · rintro ⟨⟩
      rfl
    · rintro rfl
      exact .sections fault
  | some parts =>
    obtain ⟨h, p, s⟩ := parts
    have compact := compact_of_sections (sections?_eq_some_iff.mp cut)
    have decode (cs : List Char) :
        Base64Url.decode? (String.ofList cs) = Base64Url.decodeChars? cs := by
      rw [Base64Url.decode?, String.toList_ofList]
    -- with three sections the other conditions count in the order of the stages
    refine .passed (fun e fails => ?_) ?_
    · cases fails with
      | sections fault => exact fault compact.two
    refine .bind (fun e => ?_) fun b header => ?_
    · rw [inSection_eq_error_iff, fails_headerEncoding_iff compact, decode]
    refine .bind (fun e => ?_) fun signature _ => ?_
    · rw [inSection_eq_error_iff, fails_signatureEncoding_iff compact, decode]
    refine .andThen (.last fun e => ?_) _
    have decoded := (decode h).trans (inSection_eq_ok_iff.mp header)
    rw [inSection_eq_error_iff, fails_headerText_iff compact decoded]

/-- **Taking a token apart.** It succeeds exactly for the texts with two dots whose first section is
the base64 of a header and whose last one is base64. The signed text is then the first two sections
with the dot between them, the payload is the second one, unread, and with the last dot and the last
section the signed text is the token again. Otherwise the error is that of the first condition that
fails: the number of dots, the base64 of the header, that of the signature, the header. -/
theorem decomposition_exact (token : String) :
    (∀ d, ofToken token = .ok d ↔ ∃ h p s b, Compact token h p s ∧
      Base64Url.decode? h = some b ∧ Header.parse? b = some d.header ∧
      Base64Url.decode? s = some d.signature ∧ d.message = h ++ "." ++ p ∧ d.payload = p ∧
      token = d.message ++ "." ++ s) ∧
    ∀ e, ofToken token = .error e ↔ FirstFails (Fails token) order e := by
  refine ⟨fun d => ?_, ofToken_follows token⟩
  rw [ofToken_eq_ok_iff]
  constructor
  · rintro ⟨h, p, s, sections, ⟨b, decoded, parsed⟩, signature, message, payload⟩
    have compact := compact_of_sections sections
    -- the signed text is the first two sections as they came
    have signed : d.message = String.ofList h ++ "." ++ String.ofList p := by
      rw [message, ← String.toList_inj]
      simp
    refine ⟨_, _, _, b, compact, ?_, parsed, ?_, signed, payload, ?_⟩
    · rw [Base64Url.decode?, String.toList_ofList, decoded]
    · rw [Base64Url.decode?, String.toList_ofList, signature]
    · rw [signed]
      exact compact.text
  · rintro ⟨h, p, s, b, compact, decoded, parsed, signature, message, payload, -⟩
    refine ⟨_, _, _, compact_iff.mp compact, ⟨b, decoded, parsed⟩, signature, ?_, ?_⟩
    · rw [message, ← String.toList_inj]
      simp
    · rw [payload, String.ofList_toList]

end Decomposed
end BearerAuth
