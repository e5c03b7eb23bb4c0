import BearerAuth.Proofs.Token.Rules

/-!
# BearerAuth — what is wrong with a token

A computation in stages ends with the error of the first stage that fails. What it means for a stage
to fail is said here of each stage by itself, without the stages around it, and the order is put on
top of it (`FirstFails`). So no order of checks is hidden in the conditions.

For taking a token apart the faults are those of its sections (`Unreadable`); for the claims they
are those of the single rules (`ClaimRules.Breaks`). A claim of the wrong type is a fault of its own
and is never taken for a missing claim.

Main results:

* `Follows.bind`         — a stage in front of others.
* `ofToken_eq_error_iff` — why a token cannot be taken apart.
* `check_follows`        — expiration, start, issuer and audience are checked in this order.
-/

namespace BearerAuth

/-! ## Stages and their order -/

/-- One of the stages fails with this error, and none of the stages before it fails. -/
inductive FirstFails (fails : σ → ε → Prop) : List σ → ε → Prop
  | here {s : σ} {rest : List σ} {e : ε} (fault : fails s e) : FirstFails fails (s :: rest) e
  | later {s : σ} {rest : List σ} {e : ε} (passes : ∀ e', ¬ fails s e')
      (h : FirstFails fails rest e) : FirstFails fails (s :: rest) e

/-- A computation ends with an error exactly if this is the error of the first stage that fails. -/
def Follows (fails : σ → ε → Prop) (stages : List σ) (x : Except ε α) : Prop :=
  ∀ e, x = .error e ↔ FirstFails fails stages e

variable {fails : σ → ε → Prop} {s : σ} {stages : List σ}

/-- The first of several stages fails, or it passes and another one is the first to fail. This is
the recursion that everything about first failures goes by. -/
theorem firstFails_cons_iff {e : ε} :
    FirstFails fails (s :: stages) e ↔
      fails s e ∨ (∀ e', ¬ fails s e') ∧ FirstFails fails stages e := by
  constructor
  · intro first
    cases first with
    | here fault => exact .inl fault
    | later passes rest => exact .inr ⟨passes, rest⟩
  · rintro (fault | ⟨passes, rest⟩)
    · exact .here fault
    · exact .later passes rest

/-- The same with any number of stages in front. -/
theorem firstFails_append_iff {rest : List σ} {e : ε} :
    FirstFails fails (stages ++ rest) e ↔
      FirstFails fails stages e ∨
        (∀ e', ¬ FirstFails fails stages e') ∧ FirstFails fails rest e := by
  induction stages with
  | nil =>
    constructor
    · exact fun first => .inr ⟨nofun, first⟩
    · rintro (⟨⟨⟩⟩ | ⟨-, first⟩)
      exact first
  | cons s stages ih =>
    rw [List.cons_append, firstFails_cons_iff, ih]
    simp only [firstFails_cons_iff, not_or, not_and]
    by_cases passes : ∀ e', ¬ fails s e'
    · simp [passes]
    · -- then nothing behind this stage matters
      simp [passes]

/-- No stage is the first to fail if none fails at all. -/
theorem forall_not_firstFails_iff :
    (∀ e, ¬ FirstFails fails stages e) ↔ ∀ s ∈ stages, ∀ e, ¬ fails s e := by
  induction stages with
  | nil => exact ⟨fun _ => nofun, fun _ _ => nofun⟩
  | cons s rest ih =>
    simp only [firstFails_cons_iff, List.forall_mem_cons, ← ih]
    by_cases passes : ∀ e, ¬ fails s e
    · simp [passes]
    · -- the first stage is enough to fail
      simp only [passes, false_and, or_false]

/-- Only the stages that there are count. -/
theorem firstFails_congr {fails' : σ → ε → Prop} (h : ∀ s ∈ stages, ∀ e, fails s e ↔ fails' s e)
    {e : ε} : FirstFails fails stages e ↔ FirstFails fails' stages e := by
  induction stages with
  | nil => exact ⟨nofun, nofun⟩
  | cons s rest ih =>
    simp only [firstFails_cons_iff, h s List.mem_cons_self,
      ih fun s hs => h s (List.mem_cons_of_mem _ hs)]

/-- Errors and stages under other names. A system of stages is moved into a larger one by this, as
the checks of claims are moved into the validation of a token. -/
theorem firstFails_map_iff {fails' : σ' → ε' → Prop} {label : σ → σ'} {f : ε → ε'}
    (h : ∀ s ∈ stages, ∀ e', fails' (label s) e' ↔ ∃ e, fails s e ∧ e' = f e) {e' : ε'} :
    FirstFails fails' (stages.map label) e' ↔ ∃ e, FirstFails fails stages e ∧ e' = f e := by
  induction stages with
  | nil =>
    refine ⟨nofun, ?_⟩
    rintro ⟨e, ⟨⟩, -⟩
  | cons s rest ih =>
    have head := h s List.mem_cons_self
    -- a stage passes under its new name exactly if it does under the old one
    have passes : (∀ e', ¬ fails' (label s) e') ↔ ∀ e, ¬ fails s e := by
      constructor
      · intro none e fault
        exact none (f e) ((head (f e)).mpr ⟨e, fault, rfl⟩)
      · intro none e' fault
        obtain ⟨e, fault, -⟩ := (head e').mp fault
        exact none e fault
    rw [List.map_cons, firstFails_cons_iff, head e', passes,
      ih fun s hs => h s (List.mem_cons_of_mem _ hs)]
    simp only [firstFails_cons_iff, or_and_right, exists_or, and_assoc, exists_and_left]

/-- If two systems of stages fail alike up to a stage at which both fail, both end alike. What comes
after that stage may be as different as it likes. -/
theorem exists_firstFails_common {fails' : σ → ε → Prop} {before after : List σ} {e : ε}
    (same : ∀ t ∈ before, ∀ e, fails t e ↔ fails' t e) (h : fails s e) (h' : fails' s e) :
    ∃ e, FirstFails fails (before ++ s :: after) e ∧
      FirstFails fails' (before ++ s :: after) e := by
  induction before with
  | nil => exact ⟨e, .here h, .here h'⟩
  | cons t rest ih =>
    have head := same t List.mem_cons_self
    by_cases passes : ∀ e, ¬ fails t e
    · obtain ⟨e, first, first'⟩ := ih fun t ht => same t (List.mem_cons_of_mem _ ht)
      have passes' : ∀ e, ¬ fails' t e := fun e fault => passes e ((head e).mpr fault)
      exact ⟨e, .later passes first, .later passes' first'⟩
    · -- the first stage fails in both, with one error of the two
      obtain ⟨e, fault⟩ := Classical.not_forall_not.mp passes
      exact ⟨e, .here fault, .here ((head e).mp fault)⟩

namespace Follows

variable {x : Except ε α}

theorem ok (a : α) : Follows fails [] (.ok a : Except ε α) :=
  fun _ => ⟨nofun, nofun⟩

/-- A stage that fails is the end, whatever stages come after it. It must have this one error and no
other. -/
theorem failed {e : ε} (h : ∀ e', fails s e' ↔ e' = e) :
    Follows fails (s :: stages) (.error e : Except ε α) := by
  intro e'
  rw [Except.error.injEq]
  constructor
  · rintro rfl
    exact .here ((h e).mpr rfl)
  · intro first
    cases first with
    | here fault => exact ((h e').mp fault).symm
    | later passes _ => exact absurd ((h e).mpr rfl) (passes e)

/-- A stage that cannot fail counts for nothing, which is how conditions that a program does not
even check are fitted into the order. -/
theorem passed (h : ∀ e, ¬ fails s e) (hx : Follows fails stages x) :
    Follows fails (s :: stages) x := by
  intro e
  rw [hx e]
  constructor
  · exact .later h
  · intro first
    cases first with
    | here fault => exact absurd fault (h e)
    | later _ rest => exact rest

theorem last (h : ∀ e, x = .error e ↔ fails s e) : Follows fails [s] x := by
  cases x with
  | error e =>
    refine failed fun e' => ?_
    rw [← h e', Except.error.injEq, eq_comm]
  | ok a =>
    have passes : ∀ e, ¬ fails s e := fun e fault => nomatch (h e).mpr fault
    exact passed passes (ok a)

/-- A stage that fails under a condition, in front of others that may rely on having passed it. This
is how a test at the beginning of a computation becomes a stage. -/
theorem guard {c : Prop} [Decidable c] {e : ε} {rest : ¬ c → Except ε α}
    (h : ∀ e', fails s e' ↔ c ∧ e' = e) (hrest : ∀ hc, Follows fails stages (rest hc)) :
    Follows fails (s :: stages) (if hc : c then .error e else rest hc) := by
  by_cases hc : c
  · rw [dif_pos hc]
    exact failed fun e' => (h e').trans (and_iff_right hc)
  · rw [dif_neg hc]
    exact passed (fun e' fault => hc ((h e').mp fault).1) (hrest hc)

/-- Stages in front of others. The stages behind may rely on the value that the ones in front have
given. -/
theorem append {f : α → Except ε β} {rest : List σ} (hx : Follows fails stages x)
    (hf : ∀ a, x = .ok a → Follows fails rest (f a)) :
    Follows fails (stages ++ rest) (x >>= f) := by
  intro e
  rw [firstFails_append_iff, ← hx e]
  cases x with
  | error e' =>
    -- the stages behind are not reached
    have fault : FirstFails fails stages e' := (hx e').mp rfl
    show (Except.error e' : Except ε β) = .error e ↔ _
    rw [Except.error.injEq, Except.error.injEq]
    constructor
    · exact .inl
    · rintro (h | ⟨passes, -⟩)
      · exact h
      · exact absurd fault (passes e')
  | ok a =>
    have passes : ∀ e, ¬ FirstFails fails stages e := fun e fault => nomatch (hx e).mpr fault
    rw [← hf a rfl e]
    constructor
    · exact fun h => .inr ⟨passes, h⟩
    · rintro (h | ⟨-, h⟩)
      · cases h
      · exact h

/-- A stage in front of others. What comes after may depend on the value that the stage has found,
and it follows its stages for every such value. -/
theorem bind {f : α → Except ε β} (h : ∀ e, x = .error e ↔ fails s e)
    (rest : ∀ a, x = .ok a → Follows fails stages (f a)) :
    Follows fails (s :: stages) (x >>= f) :=
  (last h).append rest

/-- What is made of the value in the end does not matter. -/
theorem andThen (hx : Follows fails stages x) (g : α → β) :
    Follows fails stages (x >>= fun a => .ok (g a)) := by
  intro e
  rw [← hx e]
  cases x with
  | error e' => simp [Bind.bind, Except.bind]
  | ok a => exact ⟨nofun, nofun⟩

/-- Stages that fail in the same cases with the same errors can stand for each other. So a
computation can be said to follow stages that do not mention how it is written. -/
theorem congr {fails' : σ → ε → Prop} (hx : Follows fails stages x)
    (h : ∀ s ∈ stages, ∀ e, fails s e ↔ fails' s e) : Follows fails' stages x :=
  fun e => (hx e).trans (firstFails_congr h)

/-- A computation whose errors are renamed follows the stages under their new names. Errors of an
inner layer become those of an outer one in this way. -/
theorem mapError {fails' : σ' → ε' → Prop} {label : σ → σ'} {f : ε → ε'}
    (hx : Follows fails stages x)
    (h : ∀ s ∈ stages, ∀ e', fails' (label s) e' ↔ ∃ e, fails s e ∧ e' = f e) :
    Follows fails' (stages.map label) (x.mapError f) := by
  intro e'
  rw [firstFails_map_iff h]
  simp only [← hx _]
  cases x with
  | error e => simp [mapError_error, eq_comm]
  | ok a => simp [mapError_ok]

/-- A computation ends well exactly if no stage fails. So the relation of first failures tells not
only which error there is but also when there is none. -/
theorem exists_ok_iff (hx : Follows fails stages x) :
    (∃ a, x = .ok a) ↔ ∀ s ∈ stages, ∀ e, ¬ fails s e := by
  rw [← forall_not_firstFails_iff]
  simp only [← hx _]
  cases x with
  | error e => simp
  | ok a => simp

/-- Without a value to speak of, it ends well in one way. -/
theorem eq_ok_iff {x : Except ε Unit} (hx : Follows fails stages x) :
    x = .ok () ↔ ∀ s ∈ stages, ∀ e, ¬ fails s e := by
  rw [← hx.exists_ok_iff]
  exact ⟨fun ended => ⟨(), ended⟩, fun ⟨_, ended⟩ => ended⟩

end Follows

/-! ## Errors of a stage -/

/-- Stages in a row end with an error of the first or of the second. If the first ends with an
error, the second is not begun. -/
theorem bind_eq_error_iff {x : Except ε α} {f : α → Except ε β} {e : ε} :
    (x >>= f) = .error e ↔ x = .error e ∨ ∃ a, x = .ok a ∧ f a = .error e := by
  cases x with
  | error e' => simp [bind, Except.bind]
  | ok a => simp [bind, Except.bind]

/-- To rename the errors of stages in a row is to rename those of each. -/
theorem mapError_bind {x : Except ε α} {f : α → Except ε β} {g : ε → ε'} :
    (x >>= f).mapError g = x.mapError g >>= fun a => (f a).mapError g := by
  cases x <;> rfl

/-- A renamed error comes from an error. -/
theorem mapError_eq_error_iff {x : Except ε α} {f : ε → ε'} {e' : ε'} :
    x.mapError f = .error e' ↔ ∃ e, x = .error e ∧ e' = f e := by
  cases x with
  | error e => simp [mapError_error, eq_comm]
  | ok a => simp [mapError_ok]

/-- A section is malformed if what it is to hold cannot be had from it. -/
theorem inSection_eq_error_iff {s : TokenSection} {x : Option α} {e : TokenError} :
    inSection s x = .error e ↔ x = none ∧ e = .malformedSection s := by
  cases x with
  | none => simp [inSection, eq_comm]
  | some a => simp [inSection]

/-! ## Faults of the sections -/

/-- Why a token cannot be taken apart. Both encoded sections are decoded before the header is
read. -/
inductive Unreadable (token : String) : TokenError → Prop
  | sections (two : token.toList.count '.' ≠ 2) : Unreadable token .malformed
  | header {h p s : List Char} (sections : Sections token.toList h p s)
      (fault : Base64Url.decodeChars? h = none) : Unreadable token (.malformedSection .header)
  | signature {h p s : List Char} {b : Bytes} (sections : Sections token.toList h p s)
      (header : Base64Url.decodeChars? h = some b)
      (fault : Base64Url.decodeChars? s = none) : Unreadable token (.malformedSection .signature)
  | headerText {h p s : List Char} {b signature : Bytes} (sections : Sections token.toList h p s)
      (header : Base64Url.decodeChars? h = some b)
      (signature : Base64Url.decodeChars? s = some signature)
      (fault : Header.parse? b = none) : Unreadable token (.malformedSection .header)

/-- There is one way only to take a text apart, since no section has a dot in it. -/
theorem Sections.unique {token h p s h' p' s' : List Char} (a : Sections token h p s)
    (b : Sections token h' p' s') : h' = h ∧ p' = p ∧ s' = s := by
  have ha := sections?_eq_some_iff.mpr a
  rw [sections?_eq_some_iff.mpr b] at ha
  simpa using ha

/-- Why a token cannot be taken apart. Each fault stands by itself in `Unreadable`, together with
what has to be in order for it to be reported. No fault is about the payload, which is not looked
at. -/
theorem Decomposed.ofToken_eq_error_iff {token : String} {e : TokenError} :
    ofToken token = .error e ↔ Unreadable token e := by
  unfold ofToken
  cases hs : sections? token.toList with
  | none =>
    -- every other fault is one of a token that has three sections
    have two : token.toList.count '.' ≠ 2 := by
      intro two
      obtain ⟨h, p, s, sections⟩ := exists_sections_iff.mpr two
      rw [sections?_eq_some_iff.mpr sections] at hs
      cases hs
    have none_ : ∀ h p s, ¬ Sections token.toList h p s :=
      fun h p s sections => two (exists_sections_iff.mp ⟨h, p, s, sections⟩)
    constructor
    · rintro ⟨⟩
      exact .sections two
    · rintro (_ | ⟨sections, _⟩ | ⟨sections, _, _⟩ | ⟨sections, _, _, _⟩)
      · rfl
      all_goals exact absurd sections (none_ _ _ _)
  | some parts =>
    obtain ⟨h, p, s⟩ := parts
    have sections : Sections token.toList h p s := sections?_eq_some_iff.mp hs
    -- one alternative for each stage, with what the stages before it have given
    simp only [bind_eq_error_iff, inSection_eq_error_iff, inSection_eq_ok_iff]
    constructor
    · rintro (⟨fault, rfl⟩ | ⟨b, header, ⟨fault, rfl⟩ | ⟨g, signature, ⟨fault, rfl⟩ | ⟨_, _, ⟨⟩⟩⟩⟩)
      · exact .header sections fault
      · exact .signature sections header fault
      · exact .headerText sections header signature fault
    · rintro (two | ⟨sections', fault⟩ | ⟨sections', header, fault⟩ |
        ⟨sections', header, signature, fault⟩)
      · exact absurd (exists_sections_iff.mp ⟨h, p, s, sections⟩) two
      all_goals obtain ⟨rfl, rfl, rfl⟩ := sections.unique sections'
      · exact .inl ⟨fault, rfl⟩
      · exact .inr ⟨_, header, .inl ⟨fault, rfl⟩⟩
      · exact .inr ⟨_, header, .inr ⟨_, signature, .inl ⟨fault, rfl⟩⟩⟩

/-- The payload has no part in it. The fault of a token is that of any other token with the same
header and signature sections. -/
theorem Unreadable.of_sections {token token' : String} {h p p' s : List Char} {e : TokenError}
    (a : Sections token.toList h p s) (b : Sections token'.toList h p' s)
    (u : Unreadable token e) : Unreadable token' e := by
  -- no fault is in the payload, and everything else is the same in both tokens
  cases u with
  | sections two => exact absurd (exists_sections_iff.mp ⟨h, p, s, a⟩) two
  | header sections fault =>
    obtain ⟨rfl, rfl, rfl⟩ := a.unique sections
    exact .header b fault
  | signature sections header fault =>
    obtain ⟨rfl, rfl, rfl⟩ := a.unique sections
    exact .signature b header fault
  | headerText sections header signature fault =>
    obtain ⟨rfl, rfl, rfl⟩ := a.unique sections
    exact .headerText b header signature fault

/-! ## Faults of the claims -/

namespace Claims

variable {c : Claims} {claim : RegisteredClaim} {e : ClaimRejection}

theorem timeAt_eq_error (h : c.timeAt claim = .error e) : e = .malformed claim := by
  unfold timeAt at h
  grind

theorem stringAt_eq_error (h : c.stringAt claim = .error e) : e = .malformed claim := by
  unfold stringAt at h
  grind

theorem audience_eq_error (h : c.audience = .error e) : e = .malformed .audience := by
  unfold audience at h
  grind

end Claims

namespace ClaimRules

/-- How the claims of a token break the rule for a claim. -/
inductive Breaks (r : ClaimRules) (c : Claims) (now : UnixTime) :
    RegisteredClaim → ClaimRejection → Prop
  | expirationMalformed (demanded : r.checkExpiration = true)
      (fault : c.expiration = .error (.malformed .expiration)) :
      Breaks r c now .expiration (.malformed .expiration)
  | expirationMissing (demanded : r.checkExpiration = true) (fault : c.expiration = .ok none) :
      Breaks r c now .expiration (.missing .expiration)
  | expired (demanded : r.checkExpiration = true) {t : UnixTime}
      (expires : c.expiration = .ok (some t))
      (fault : min (t.seconds.toNat + r.leeway.toNat) lastSecond ≤ now.seconds.toNat) :
      Breaks r c now .expiration .expired
  | notBeforeMalformed (demanded : r.checkNotBefore = true)
      (fault : c.notBefore = .error (.malformed .notBefore)) :
      Breaks r c now .notBefore (.malformed .notBefore)
  | notYetValid (demanded : r.checkNotBefore = true) {t : UnixTime}
      (starts : c.notBefore = .ok (some t))
      (fault : min (now.seconds.toNat + r.leeway.toNat) lastSecond < t.seconds.toNat) :
      Breaks r c now .notBefore .notYetValid
  | issuerMalformed (demanded : r.issuers ≠ [])
      (fault : c.issuer = .error (.malformed .issuer)) :
      Breaks r c now .issuer (.malformed .issuer)
  | issuerMissing (demanded : r.issuers ≠ []) (fault : c.issuer = .ok none) :
      Breaks r c now .issuer (.missing .issuer)
  | invalidIssuer (demanded : r.issuers ≠ []) {iss : String} (names : c.issuer = .ok (some iss))
      (fault : iss ∉ r.issuers) : Breaks r c now .issuer .invalidIssuer
  | audienceMalformed (demanded : r.audiences ≠ [])
      (fault : c.audience = .error (.malformed .audience)) :
      Breaks r c now .audience (.malformed .audience)
  | audienceMissing (demanded : r.audiences ≠ []) {aud : Audiences} (names : c.audience = .ok aud)
      (fault : aud.list = []) : Breaks r c now .audience (.missing .audience)
  | invalidAudience (demanded : r.audiences ≠ []) {aud : Audiences} (names : c.audience = .ok aud)
      (some_ : aud.list ≠ []) (fault : ∀ a ∈ aud.list, a ∉ r.audiences) :
      Breaks r c now .audience .invalidAudience

variable {r : ClaimRules} {h : Header} {c : Claims} {now : UnixTime} {e : ClaimRejection}

/-- A condition that is ensured is refused where it does not hold. -/
theorem ensure_eq_error_iff {rejection : ClaimRejection} {b : Bool} :
    ensure rejection b = .error e ↔ b = false ∧ e = rejection := by
  unfold ensure
  cases b <;> simp [eq_comm]

/-- A claim that is required is reported as missing where it is not there. -/
theorem require_eq_error_iff {claim : RegisteredClaim} {x : Option α} :
    require claim x = .error e ↔ x = none ∧ e = .missing claim := by
  cases x with
  | none => simp [require, eq_comm]
  | some a => simp [require]

/-- The check of the expiration ends with the error of the rule that it stands for, in each of the
ways to break it. A rule is not broken where it is not in force. -/
theorem checkExpires_eq_error_iff :
    r.checkExpires c now = .error e ↔ r.Breaks c now .expiration e := by
  unfold checkExpires
  cases hr : r.checkExpiration with
  | false =>
    -- a rule that is not in force cannot be broken
    refine ⟨nofun, fun broken => ?_⟩
    cases broken <;> simp_all
  | true =>
    simp only [if_true, bind_eq_error_iff, require_eq_ok_iff, require_eq_error_iff,
      ensure_eq_error_iff, decide_eq_false_iff_not, UInt64.lt_iff_toNat_lt, UnixTime.toNat_after,
      Nat.not_lt]
    constructor
    · rintro (fault | ⟨_, expires, ⟨rfl, rfl⟩ | ⟨t, rfl, fault, rfl⟩⟩)
      · obtain rfl := Claims.timeAt_eq_error fault
        exact .expirationMalformed hr fault
      · exact .expirationMissing hr expires
      · exact .expired hr expires fault
    · intro broken
      cases broken with
      | expirationMalformed _ fault => exact .inl fault
      | expirationMissing _ fault => exact .inr ⟨none, fault, .inl ⟨rfl, rfl⟩⟩
      | expired _ expires fault => exact .inr ⟨_, expires, .inr ⟨_, rfl, fault, rfl⟩⟩

/-- The same of the start. A token that names none breaks no rule, for the claim is only looked at
if it is there. The leeway is added to the clock and not taken off the claim. -/
theorem checkValidFrom_eq_error_iff :
    r.checkValidFrom c now = .error e ↔ r.Breaks c now .notBefore e := by
  unfold checkValidFrom
  cases hr : r.checkNotBefore with
  | false =>
    -- a check that is not made finds no fault
    refine ⟨nofun, fun broken => ?_⟩
    cases broken <;> simp_all
  | true =>
    simp only [if_true, bind_eq_error_iff]
    constructor
    · -- the claim is malformed, absent, or an instant to compare with
      rintro (fault | ⟨_ | t, starts, fault⟩)
      · obtain rfl := Claims.timeAt_eq_error fault
        exact .notBeforeMalformed hr fault
      · cases fault
      · rw [ensure_eq_error_iff, decide_eq_false_iff_not, UInt64.le_iff_toNat_le,
          UnixTime.toNat_after, Nat.not_le] at fault
        obtain ⟨early, rfl⟩ := fault
        exact .notYetValid hr starts early
    · intro broken
      cases broken with
      | notBeforeMalformed _ fault => exact .inl fault
      | @notYetValid _ t starts fault =>
        refine .inr ⟨some t, starts, ?_⟩
        rw [ensure_eq_error_iff, decide_eq_false_iff_not, UInt64.le_iff_toNat_le,
          UnixTime.toNat_after, Nat.not_le]
        exact ⟨fault, rfl⟩

theorem checkIssuer_eq_error_iff :
    r.checkIssuer c = .error e ↔ r.Breaks c now .issuer e := by
  unfold checkIssuer
  by_cases hr : r.issuers = []
  · rw [if_pos (by simpa using hr)]
    refine ⟨nofun, fun broken => ?_⟩
    cases broken <;> contradiction
  · rw [if_neg (by simpa using hr)]
    simp only [bind_eq_error_iff, require_eq_ok_iff, require_eq_error_iff, ensure_eq_error_iff,
      Bool.eq_false_iff, ne_eq, List.contains_iff_mem]
    -- a claim of the wrong type, no claim, or one that is not among the issuers
    constructor
    · rintro (fault | ⟨_, names, ⟨rfl, rfl⟩ | ⟨iss, rfl, fault, rfl⟩⟩)
      · obtain rfl := Claims.stringAt_eq_error fault
        exact .issuerMalformed hr fault
      · exact .issuerMissing hr names
      · exact .invalidIssuer hr names fault
    · intro broken
      cases broken with
      | issuerMalformed _ fault => exact .inl fault
      | issuerMissing _ fault => exact .inr ⟨none, fault, .inl ⟨rfl, rfl⟩⟩
      | invalidIssuer _ names fault => exact .inr ⟨_, names, .inr ⟨_, rfl, fault, rfl⟩⟩

/-- The same of the audiences. Nobody at all is reported as a missing claim, whether the claim is
missing or holds an empty array. -/
theorem checkAudience_eq_error_iff :
    r.checkAudience c = .error e ↔ r.Breaks c now .audience e := by
  unfold checkAudience
  by_cases hr : r.audiences = []
  · rw [if_pos (by simpa using hr)]
    refine ⟨nofun, fun broken => ?_⟩
    cases broken <;> contradiction
  · rw [if_neg (by simpa using hr)]
    simp only [bind_eq_error_iff, ensure_eq_ok_iff, ensure_eq_error_iff, Bool.not_eq_eq_eq_not,
      Bool.not_true, Bool.not_false, List.isEmpty_iff, List.isEmpty_eq_false_iff,
      List.any_eq_false, List.contains_iff_mem]
    -- one audience in common is enough, so that all must be strangers
    constructor
    · rintro (fault | ⟨aud, names, ⟨fault, rfl⟩ | ⟨_, some_, fault, rfl⟩⟩)
      · obtain rfl := Claims.audience_eq_error fault
        exact .audienceMalformed hr fault
      · exact .audienceMissing hr names fault
      · exact .invalidAudience hr names some_ fault
    · intro broken
      cases broken with
      | audienceMalformed _ fault => exact .inl fault
      | audienceMissing _ names fault => exact .inr ⟨_, names, .inl ⟨fault, rfl⟩⟩
      | invalidAudience _ names some_ fault =>
        exact .inr ⟨_, names, .inr ⟨(), some_, fault, rfl⟩⟩

/-- The claims in the order in which they are checked. -/
def order : List RegisteredClaim := [.expiration, .notBefore, .issuer, .audience]

/-- With an approved algorithm it is the claims that decide, in this order: expiration, start,
issuer, audience. -/
theorem check_follows {a : Algorithm} (known : h.algorithm? = some a)
    (approved : r.approves a = true) :
    Follows (r.Breaks c now) order (r.check h c now) := by
  have algorithm : r.checkAlgorithm h = .ok () := checkAlgorithm_eq_ok_iff.mpr ⟨a, known, approved⟩
  -- the check of the algorithm comes first and passes
  have rest : r.check h c now = (do
      r.checkExpires c now
      r.checkValidFrom c now
      r.checkIssuer c
      r.checkAudience c) := by
    unfold check
    rw [algorithm]
    rfl
  rw [rest]
  refine .bind (fun _ => checkExpires_eq_error_iff) fun _ _ => ?_
  refine .bind (fun _ => checkValidFrom_eq_error_iff) fun _ _ => ?_
  refine .bind (fun _ => checkIssuer_eq_error_iff) fun _ _ => ?_
  exact .last fun _ => checkAudience_eq_error_iff

end ClaimRules
end BearerAuth
