import BearerAuth.Token.Compact

/-!
# BearerAuth — how a token reads

Taking a token apart is a computation in stages. This module says what it amounts to: the text is
three sections without dots, joined by dots, and each section is the base64 of what it should be.
Nothing else is accepted and nothing of the kind is refused.

The claims of a token are read after its signature is confirmed, so the stages are stated apart
(`ofToken_eq_ok_iff`, `claims_eq_ok_iff`) and then put together (`reads_iff`).

Main results:

* `sections?_eq_some_iff` — taking apart at dots is the inverse of joining with dots.
* `exists_sections_iff`   — a text has three sections if it has exactly two dots.
* `reads_iff`             — when a token reads as a header, claims and a signature.
-/

namespace BearerAuth

/-! ## Stages -/

/-- Stages in a row end well if each of them does. Computations are peeled apart with this lemma,
one stage at a time. -/
theorem bind_eq_ok_iff {x : Except ε α} {f : α → Except ε β} {b : β} :
    (x >>= f) = .ok b ↔ ∃ a, x = .ok a ∧ f a = .ok b := by
  cases x with
  | error e => exact ⟨nofun, nofun⟩
  | ok a =>
    constructor
    · intro h
      exact ⟨a, rfl, h⟩
    · rintro ⟨a', ha, h⟩
      obtain rfl : a = a' := Except.ok.inj ha
      exact h

theorem mapError_ok (f : ε → ε') (a : α) : (Except.ok a).mapError f = .ok a := rfl

theorem mapError_error (f : ε → ε') (e : ε) :
    (Except.error e : Except ε α).mapError f = .error (f e) := rfl

theorem mapError_eq_ok_iff {x : Except ε α} {f : ε → ε'} {a : α} :
    x.mapError f = .ok a ↔ x = .ok a := by
  cases x with
  | error e => exact ⟨nofun, nofun⟩
  | ok b => rw [mapError_ok, Except.ok.injEq, Except.ok.injEq]

theorem map_eq_ok_iff {x : Except ε α} {f : α → β} {b : β} :
    x.map f = .ok b ↔ ∃ a, x = .ok a ∧ f a = b := by
  cases x with
  | error e => simp [Except.map]
  | ok a => simp [Except.map]

theorem map_eq_error_iff {x : Except ε α} {f : α → β} {e : ε} :
    x.map f = .error e ↔ x = .error e := by
  cases x with
  | error e' => simp [Except.map]
  | ok a => simp [Except.map]

/-- A section is read if what it is to hold can be had from it. -/
theorem inSection_eq_ok_iff {s : TokenSection} {x : Option α} {a : α} :
    inSection s x = .ok a ↔ x = some a := by
  cases x with
  | none => exact ⟨nofun, nofun⟩
  | some b => simp [inSection]

/-! ## Sections -/

/-- There is nothing to cut at exactly where there is no dot. -/
theorem cutAtLastDot_eq_none_iff {cs : List Char} : cutAtLastDot cs = none ↔ '.' ∉ cs := by
  induction cs with
  | nil => simp [cutAtLastDot]
  | cons c cs ih =>
    unfold cutAtLastDot
    rw [List.mem_cons, not_or, ← ih]
    cases cutAtLastDot cs with
    | some parts => simp
    | none => simp [eq_comm]

/-- Cutting at the last dot is the inverse of joining two texts with a dot, of which the second has
none. A text that has a dot further on is never cut at this one. -/
theorem cutAtLastDot_eq_some_iff {cs a b : List Char} :
    cutAtLastDot cs = some (a, b) ↔ cs = a ++ '.' :: b ∧ '.' ∉ b := by
  induction cs generalizing a b with
  | nil => simp [cutAtLastDot]
  | cons c cs ih =>
    unfold cutAtLastDot
    cases cut : cutAtLastDot cs with
    | some parts =>
      -- the last dot is further on, and this character stands before it
      obtain ⟨x, y⟩ := parts
      obtain ⟨split, free⟩ := ih.mp cut
      constructor
      · intro same
        obtain ⟨rfl, rfl⟩ := Prod.mk.inj (Option.some.inj same)
        exact ⟨congrArg (c :: ·) split, free⟩
      · rintro ⟨split', free'⟩
        cases a with
        | nil =>
          obtain ⟨-, rfl⟩ := List.cons.inj split'
          rw [split] at free'
          exact absurd (by simp) free'
        | cons z a =>
          obtain ⟨rfl, rest⟩ := List.cons.inj split'
          have same := cut.symm.trans (ih.mpr ⟨rest, free'⟩)
          obtain ⟨rfl, rfl⟩ := Prod.mk.inj (Option.some.inj same)
          rfl
    | none =>
      -- no dot is left, so that only this character can be one
      have none_left := cutAtLastDot_eq_none_iff.mp cut
      constructor
      · intro here
        dsimp only at here
        split at here
        · next dot =>
          obtain ⟨rfl, rfl⟩ := Prod.mk.inj (Option.some.inj here)
          exact ⟨congrArg (· :: cs) dot, none_left⟩
        · cases here
      · rintro ⟨split', -⟩
        cases a with
        | nil =>
          obtain ⟨rfl, rfl⟩ := List.cons.inj split'
          exact if_pos rfl
        | cons z a =>
          obtain ⟨-, rest⟩ := List.cons.inj split'
          rw [rest] at none_left
          exact absurd (by simp) none_left

/-- A text that is three sections without dots, joined by dots. -/
structure Sections (token h p s : List Char) : Prop where
  text : token = h ++ '.' :: (p ++ '.' :: s)
  header : '.' ∉ h
  payload : '.' ∉ p
  signature : '.' ∉ s

/-- **Taking apart at dots is the inverse of joining with dots.** The two cuts leave dots in the
header only, where they are looked for in the end; so the order of the cuts does not show. -/
theorem sections?_eq_some_iff {cs h p s : List Char} :
    sections? cs = some (h, p, s) ↔ Sections cs h p s := by
  unfold sections?
  simp only [Option.bind_eq_bind, Option.bind_eq_some_iff, Prod.exists]
  constructor
  · rintro ⟨message, s', hlast, h', p', hsecond, hfree⟩
    -- the two cuts, and then the search for dots in what is left
    split at hfree
    · cases hfree
    · next hdot =>
      cases hfree
      obtain ⟨rfl, hs⟩ := cutAtLastDot_eq_some_iff.mp hlast
      obtain ⟨rfl, hp⟩ := cutAtLastDot_eq_some_iff.mp hsecond
      simp only [Bool.or_eq_true, List.contains_iff_mem, not_or] at hdot
      exact ⟨by rw [List.append_assoc, List.cons_append], hdot.2, hp, hs⟩
  · rintro ⟨rfl, hh, hp, hs⟩
    -- joined again, the sections are cut where they were joined
    have last : cutAtLastDot (h ++ '.' :: (p ++ '.' :: s)) = some (h ++ '.' :: p, s) :=
      cutAtLastDot_eq_some_iff.mpr ⟨by rw [List.append_assoc, List.cons_append], hs⟩
    have second : cutAtLastDot (h ++ '.' :: p) = some (h, p) :=
      cutAtLastDot_eq_some_iff.mpr ⟨rfl, hp⟩
    refine ⟨_, s, last, h, p, second, ?_⟩
    rw [if_neg]
    simp [hh, hp]

/-- The texts with three sections are those with exactly two dots. For the way back the text is cut
at its first dots, which are then all there are. -/
theorem exists_sections_iff {cs : List Char} :
    (∃ h p s, Sections cs h p s) ↔ cs.count '.' = 2 := by
  constructor
  · rintro ⟨h, p, s, rfl, hh, hp, hs⟩
    rw [List.count_append, List.count_cons, List.count_append, List.count_cons,
      List.count_eq_zero.mpr hh, List.count_eq_zero.mpr hp, List.count_eq_zero.mpr hs]
    rfl
  · intro two
    -- cut at the first dot, and then at the first dot of what follows
    have first : '.' ∈ cs := List.count_pos_iff.mp (by omega)
    obtain ⟨h, rest, rfl, hh⟩ := List.eq_append_cons_of_mem first
    have one : rest.count '.' = 1 := by
      rw [List.count_append, List.count_eq_zero.mpr hh, List.count_cons_self] at two
      omega
    have second : '.' ∈ rest := List.count_pos_iff.mp (by omega)
    obtain ⟨p, s, rfl, hp⟩ := List.eq_append_cons_of_mem second
    -- both dots are used up
    have hs : '.' ∉ s := by
      rw [List.count_append, List.count_eq_zero.mpr hp, List.count_cons_self] at one
      exact List.count_eq_zero.mp (by omega)
    exact ⟨h, p, s, rfl, hh, hp, hs⟩

/-! ## Contents -/

/-- A section is the base64 of the written form of a value. -/
def Encodes (parse? : Bytes → Option α) (cs : List Char) (a : α) : Prop :=
  ∃ b, Base64Url.decodeChars? cs = some b ∧ parse? b = some a

/-- What a token says: its header and claims, the text that is signed, and the signature. -/
def Reads (token : String) (header : Header) (claims : Claims) (message : String)
    (signature : Bytes) : Prop :=
  ∃ h p s, Sections token.toList h p s ∧ Encodes Header.parse? h header ∧
    Encodes Claims.parse? p claims ∧ message = String.ofList (h ++ '.' :: p) ∧
    Base64Url.decodeChars? s = some signature

namespace Decomposed

/-- When a token is taken apart, and into what. The payload is not looked into; it is kept as the
text that it is, and so is what was signed. -/
theorem ofToken_eq_ok_iff {token : String} {d : Decomposed} :
    ofToken token = .ok d ↔
      ∃ h p s, Sections token.toList h p s ∧ Encodes Header.parse? h d.header ∧
        Base64Url.decodeChars? s = some d.signature ∧
        d.message = String.ofList (h ++ '.' :: p) ∧ d.payload = String.ofList p := by
  unfold ofToken
  cases hs : sections? token.toList with
  | none =>
    -- there are not three sections
    refine ⟨nofun, ?_⟩
    rintro ⟨h, p, s, sections, -⟩
    rw [sections?_eq_some_iff.mpr sections] at hs
    cases hs
  | some parts =>
    obtain ⟨h, p, s⟩ := parts
    have sections := sections?_eq_some_iff.mp hs
    simp only [bind_eq_ok_iff, inSection_eq_ok_iff]
    constructor
    · rintro ⟨b, hb, signature, hsignature, header, hheader, hd⟩
      cases hd
      exact ⟨h, p, s, sections, ⟨b, hb, hheader⟩, hsignature, rfl, rfl⟩
    · rintro ⟨h', p', s', sections', ⟨b, hb, hheader⟩, hsignature, hmessage, hpayload⟩
      -- there is one way only to take a text apart
      rw [sections?_eq_some_iff.mpr sections'] at hs
      cases hs
      refine ⟨b, hb, d.signature, hsignature, d.header, hheader, ?_⟩
      rw [← hmessage, ← hpayload]
      rfl

/-- The claims of a token that was taken apart are what its payload encodes. They are decoded when
they are asked for, and not before. -/
theorem claims_eq_ok_iff {d : Decomposed} {c : Claims} :
    d.claims = .ok c ↔ Encodes Claims.parse? d.payload.toList c := by
  unfold claims Encodes
  simp only [bind_eq_ok_iff, inSection_eq_ok_iff]
  rfl

end Decomposed

/-- A token reads as a header, claims and a signature if it is taken apart into them. The relation
on the left knows nothing of stages, and the computation on the right nothing of relations. -/
theorem reads_iff {token : String} {header : Header} {claims : Claims} {message : String}
    {signature : Bytes} :
    Reads token header claims message signature ↔
      ∃ d, Decomposed.ofToken token = .ok d ∧ d.header = header ∧ d.claims = .ok claims ∧
        d.message = message ∧ d.signature = signature := by
  constructor
  · rintro ⟨h, p, s, sections, hheader, hclaims, rfl, hsignature⟩
    -- the parts are put together as the code has them
    refine ⟨⟨header, String.ofList (h ++ '.' :: p), String.ofList p, signature⟩, ?_, rfl, ?_, rfl,
      rfl⟩
    · exact Decomposed.ofToken_eq_ok_iff.mpr ⟨h, p, s, sections, hheader, hsignature, rfl, rfl⟩
    · rw [Decomposed.claims_eq_ok_iff, String.toList_ofList]
      exact hclaims
  · rintro ⟨d, hd, rfl, hclaims, rfl, rfl⟩
    obtain ⟨h, p, s, sections, hheader, hsignature, hmessage, hpayload⟩ :=
      Decomposed.ofToken_eq_ok_iff.mp hd
    rw [Decomposed.claims_eq_ok_iff, hpayload, String.toList_ofList] at hclaims
    exact ⟨h, p, s, sections, hheader, hclaims, hmessage, hsignature⟩

end BearerAuth
