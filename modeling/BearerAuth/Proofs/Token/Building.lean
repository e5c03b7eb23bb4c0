import BearerAuth.Proofs.Json.RoundTrip
import BearerAuth.Proofs.Token.Values

/-!
# BearerAuth — claims that are built step by step

Whoever builds a payload sets claims one after the other, some of them more than once and in more
than one way: an expiration as an instant or as a lifetime, an audience as one string or as an
array, and anything under its plain name. The reader of a claim sees only the last step that set its
name (`LastCounts`). What it makes of that step is said without the JSON value in between
(`PutsTime`, `PutsText`, `PutsAudiences`): no word is rounded on the way, and a value of the wrong
type is not taken for another one.

By themselves audiences are written as one string if there is one, and as an array otherwise. Both
forms read back.

Main results:

* `find?_foldl_apply`   — steps that set other names leave a claim as it is.
* `reads_iff`           — a reader sees the last step that set its name.
* `Audiences.written`   — audiences are one string or an array, and read back.
* `settings_read_back`  — all readers on all sequences of steps, and the text of audiences.
-/

namespace BearerAuth

/-! ## What a step sets -/

namespace Claims

/-- The claim that a step sets. -/
def Setting.name : Setting → String
  | .issuer _ => RegisteredClaim.issuer.name
  | .subject _ => RegisteredClaim.subject.name
  | .audience _ | .audiences _ => RegisteredClaim.audience.name
  | .expiration _ | .expirationIn _ _ => RegisteredClaim.expiration.name
  | .notBefore _ => RegisteredClaim.notBefore.name
  | .claim name _ => name

/-- The value that a step puts there. -/
def Setting.value : Setting → Json
  | .issuer s | .subject s | .audience s => .string s
  | .audiences a => .array (a.list.map .string)
  | .expiration t | .notBefore t => .ofUInt64 t.seconds
  | .expirationIn seconds now => .ofUInt64 (now.after seconds).seconds
  | .claim _ v => v

variable {s : Setting} {claim : RegisteredClaim} {name : String}

/-- The steps that set a registered claim: those made for it, and the one that can set any. -/
inductive Setting.Sets : RegisteredClaim → Setting → Prop
  | issuer (s : String) : Sets .issuer (.issuer s)
  | subject (s : String) : Sets .subject (.subject s)
  | audience (a : String) : Sets .audience (.audience a)
  | audiences (a : Audiences) : Sets .audience (.audiences a)
  | expiration (t : UnixTime) : Sets .expiration (.expiration t)
  | expirationIn (seconds : UInt64) (now : UnixTime) :
      Sets .expiration (.expirationIn seconds now)
  | notBefore (t : UnixTime) : Sets .notBefore (.notBefore t)
  | claim (claim : RegisteredClaim) (v : Json) : Sets claim (.claim claim.name v)

/-- The registered claims have different names, so that a step for one of them is no step for
another. -/
theorem name_injective : Function.Injective RegisteredClaim.name := by
  intro a b
  cases a <;> cases b <;> decide

/-- Every step that sets the name of a registered claim is one of those that are listed for it. A
step that sets anything under a plain name may hit the name of a registered claim by chance. -/
theorem sets_of_name (named : s.name = claim.name) : s.Sets claim := by
  -- each of the steps for one claim has the name of this claim only
  have own {made : RegisteredClaim} (sets : s.Sets made) (named : made.name = claim.name) :
      s.Sets claim :=
    name_injective named ▸ sets
  cases s with
  | issuer s => exact own (.issuer s) named
  | subject s => exact own (.subject s) named
  | audience a => exact own (.audience a) named
  | audiences a => exact own (.audiences a) named
  | expiration t => exact own (.expiration t) named
  | expirationIn seconds now => exact own (.expirationIn seconds now) named
  | notBefore t => exact own (.notBefore t) named
  | claim name v =>
    obtain rfl : name = claim.name := named
    exact .claim claim v

/-- All steps are of one kind: each puts its value under its name. From here on the kinds of steps
are told apart by nothing but their names and values. -/
theorem apply_eq (c : Claims) (s : Setting) : c.apply s = c.set s.name s.value := by
  cases s <;> rfl

/-- What a step sets is there afterwards, whatever was there before. The mapping form of the value
is kept, in which the members of objects have an order. -/
theorem find?_apply_self (c : Claims) (s : Setting) :
    (c.apply s).find? s.name = some s.value.canonical := by
  rw [apply_eq]
  unfold find? set
  rw [OrderedMap.find?_insert_self]
  rfl

/-- A step leaves the claims of other names alone. With `find?_apply_self` this is all there is to
know about a step. -/
theorem find?_apply_of_ne (c : Claims) (other : s.name ≠ name) :
    (c.apply s).find? name = c.find? name := by
  rw [apply_eq]
  unfold find? set
  rw [OrderedMap.find?_insert_of_ne _ (Ne.symm other)]

/-- So do any number of steps that set other names, by induction on the steps. It is the tail of a
run, after the last step that sets the name. -/
theorem find?_foldl_apply {steps : List Setting} (others : ∀ s ∈ steps, s.name ≠ name)
    (c : Claims) : (steps.foldl apply c).find? name = c.find? name := by
  induction steps generalizing c with
  | nil => rfl
  | cons s rest ih =>
    have here := find?_apply_of_ne c (others s List.mem_cons_self)
    rw [List.foldl_cons, ih (fun t ht => others t (List.mem_cons_of_mem _ ht)), here]

/-! ## The last step that sets a name -/

/-- What is read under a name after these steps: what the last one puts there that sets the name, or
what stands for a missing claim if there is none. -/
inductive LastCounts (name : String) (Puts : Setting → β → Prop) (missing : β)
    (steps : List Setting) : β → Prop
  | last {before after : List Setting} {s : Setting} {r : β} (split : steps = before ++ s :: after)
      (sets : s.name = name) (kept : ∀ t ∈ after, t.name ≠ name) (puts : Puts s r) :
      LastCounts name Puts missing steps r
  | unset (others : ∀ s ∈ steps, s.name ≠ name) : LastCounts name Puts missing steps missing

/-- If a name is set, there is a last step that sets it. Every reader of a claim goes by this split
of the steps. -/
theorem exists_last (name : String) (steps : List Setting) :
    (∀ s ∈ steps, s.name ≠ name) ∨ ∃ before s after, steps = before ++ s :: after ∧
      s.name = name ∧ ∀ t ∈ after, t.name ≠ name := by
  induction steps with
  | nil => exact .inl nofun
  | cons s rest ih =>
    rcases ih with others | ⟨before, t, after, rfl, sets, kept⟩
    · -- the rest leaves the name alone, so that only this step may be the last
      by_cases sets : s.name = name
      · exact .inr ⟨[], s, rest, rfl, sets, others⟩
      · exact .inl (List.forall_mem_cons.mpr ⟨sets, others⟩)
    · -- a later step sets it, and this one is overwritten or is about another name
      exact .inr ⟨s :: before, t, after, rfl, sets, kept⟩

/-- The value of the last step that sets a name is found under it. What came before that step does
not count, and what comes after it sets other names. -/
theorem find?_ofSettings_last {before after : List Setting} (sets : s.name = name)
    (kept : ∀ t ∈ after, t.name ≠ name) :
    (ofSettings (before ++ s :: after)).find? name = some s.value.canonical := by
  subst sets
  unfold ofSettings
  rw [List.foldl_append, List.foldl_cons, find?_foldl_apply kept, find?_apply_self]

/-- A name that no step sets is missing. -/
theorem find?_ofSettings_unset {steps : List Setting} (others : ∀ s ∈ steps, s.name ≠ name) :
    (ofSettings steps).find? name = none :=
  find?_foldl_apply others empty

/-- A reader sees the last step that set its name, if it makes of the value of each step what the
step puts there (`sound`), and each step that sets the name puts something there (`total`). The
readers differ in these two facts only, and the rest of the argument is made once. -/
theorem reads_iff {read : Option Json → β} {Puts : Setting → β → Prop}
    (sound : ∀ {s r}, Puts s r → read (some s.value.canonical) = r)
    (total : ∀ {s}, s.name = name → ∃ r, Puts s r) (steps : List Setting) (r : β) :
    read ((ofSettings steps).find? name) = r ↔ LastCounts name Puts (read none) steps r := by
  constructor
  · rintro rfl
    rcases exists_last name steps with others | ⟨before, s, after, rfl, sets, kept⟩
    · rw [find?_ofSettings_unset others]
      exact .unset others
    · -- the reader gives something for this step, and soundness says what
      obtain ⟨r, puts⟩ := total sets
      rw [find?_ofSettings_last sets kept, sound puts]
      exact .last rfl sets kept puts
  · rintro (⟨rfl, sets, kept, puts⟩ | others)
    · rw [find?_ofSettings_last sets kept, sound puts]
    · rw [find?_ofSettings_unset others]

/-! ## Readers and the mapping form -/

/-- The order of members does not matter to a reader of times, which reads numbers only. The next
lemmas say the same of the other readers. -/
theorem asTime?_canonical (v : Json) : asTime? v.canonical = asTime? v := by
  cases v <;> rfl

theorem asString?_canonical (v : Json) : v.canonical.asString? = v.asString? := by
  cases v <;> rfl

/-- The items of an array are read one by one, each in its mapping form. -/
theorem mapM_asString?_canonicalItems (items : List Json) :
    (Json.canonicalItems items).mapM Json.asString? = items.mapM Json.asString? := by
  induction items with
  | nil => rfl
  | cons v rest ih =>
    -- the first item, and then the rest by induction
    rw [Json.canonicalItems, List.mapM_cons, List.mapM_cons, asString?_canonical, ih]

/-- Audiences are read of strings and arrays; in neither of them is there an order of members. -/
theorem ofJson?_canonical (v : Json) : Audiences.ofJson? v.canonical = Audiences.ofJson? v := by
  cases v with
  | array items => exact congrArg (Option.map Audiences.mk) (mapM_asString?_canonicalItems items)
  | null | bool _ | number _ | string _ | object _ => rfl

/-- A reader that does not mind the order of members reads the value that a step was given, although
the claims keep the mapping form of it. -/
theorem readValue_canonical {read : Json → Option α} (mapping : ∀ v, read v.canonical = read v)
    (v : Json) : readValue read claim (some v.canonical) = readValue read claim (some v) := by
  simp only [readValue, mapping]

/-! ## What the readers make of a step -/

section Puts

open ClaimRules (lastSecond)

/-- What a step puts under the name of a time. -/
inductive PutsTime : RegisteredClaim → Setting → Except ClaimRejection (Option UnixTime) → Prop
  | expiration (t : UnixTime) : PutsTime .expiration (.expiration t) (.ok (some t))
  /-- A lifetime that would end after the last second ends with it. -/
  | expirationIn {seconds : UInt64} {now t : UnixTime}
      (sum : t.seconds.toNat = min (now.seconds.toNat + seconds.toNat) lastSecond) :
      PutsTime .expiration (.expirationIn seconds now) (.ok (some t))
  | notBefore (t : UnixTime) : PutsTime .notBefore (.notBefore t) (.ok (some t))
  | number {claim : RegisteredClaim} {v : Json} {t : UnixTime} (time : IsTime v t.seconds.toNat) :
      PutsTime claim (.claim claim.name v) (.ok (some t))
  | malformed {claim : RegisteredClaim} {v : Json} (other : ∀ n, ¬ IsTime v n) :
      PutsTime claim (.claim claim.name v) (.error (.malformed claim))

/-- What a step puts under the name of a text. -/
inductive PutsText : RegisteredClaim → Setting → Except ClaimRejection (Option String) → Prop
  | issuer (s : String) : PutsText .issuer (.issuer s) (.ok (some s))
  | subject (s : String) : PutsText .subject (.subject s) (.ok (some s))
  | string (claim : RegisteredClaim) (s : String) :
      PutsText claim (.claim claim.name (.string s)) (.ok (some s))
  | malformed {claim : RegisteredClaim} {v : Json} (other : ∀ s, v ≠ .string s) :
      PutsText claim (.claim claim.name v) (.error (.malformed claim))

/-- What a step puts under the name of the audiences. -/
inductive PutsAudiences : Setting → Except ClaimRejection Audiences → Prop
  | one (a : String) : PutsAudiences (.audience a) (.ok ⟨[a]⟩)
  /-- Also none, or a single one, which is an array here. -/
  | many (l : List String) : PutsAudiences (.audiences ⟨l⟩) (.ok ⟨l⟩)
  | names {v : Json} {l : List String} (names : Names v l) :
      PutsAudiences (.claim "aud" v) (.ok ⟨l⟩)
  | malformed {v : Json} (other : ∀ l, ¬ Names v l) :
      PutsAudiences (.claim "aud" v) (.error (.malformed .audience))

end Puts

/-- A word that was written as a number reads as the same word, however large it is. No detour is
made over a floating-point number, in which the last digits of large words would be lost. -/
theorem asTime?_ofUInt64 (n : UInt64) : asTime? (.ofUInt64 n) = some ⟨n⟩ := by
  have same : UnixTime.ofNat n.toNat = ⟨n⟩ := by
    -- a word is never beyond the last second, so nothing is cut off
    have fits : n.toNat ≤ UInt64.size - 1 := Nat.le_pred_of_lt n.toNat_lt
    refine congrArg UnixTime.mk (UInt64.toNat_inj.mp ?_)
    exact (UnixTime.toNat_ofNat n.toNat).trans (Nat.min_eq_left fits)
  -- a number is read as an integer first, and only negative ones are refused
  show (if (0 : ℤ) ≤ n.toNat then some (UnixTime.ofNat (n.toNat : ℤ).toNat) else none) = _
  rw [if_pos (Int.natCast_nonneg _), Int.toNat_natCast, same]

/-- A value that the reader understands is the claim. -/
theorem readValue_of_some {read : Json → Option α} {v : Json} {a : α} (h : read v = some a) :
    readValue read claim (some v) = .ok (some a) :=
  readValue_eq_some_iff.mpr ⟨v, rfl, h⟩

/-- A value that it does not understand is malformed, and is not taken for a missing claim. So a
last step with a wrong value hides the steps before it. -/
theorem readValue_of_none {read : Json → Option α} {v : Json} (h : read v = none) :
    readValue read claim (some v) = .error (.malformed claim) :=
  readValue_eq_malformed_iff.mpr ⟨v, rfl, h⟩

/-- The reader of times gives what the step puts there. What is put there was brought into the
mapping form, which changes no number. -/
theorem PutsTime.read {r : Except ClaimRejection (Option UnixTime)} (puts : PutsTime claim s r) :
    readValue asTime? claim (some s.value.canonical) = r := by
  rw [readValue_canonical asTime?_canonical]
  -- the reader sees the value as it was given
  cases puts with
  | expiration t | notBefore t => exact readValue_of_some (asTime?_ofUInt64 t.seconds)
  | @expirationIn seconds now t sum =>
    -- the sum in natural numbers determines the word
    have same : (now.after seconds).seconds = t.seconds :=
      UInt64.toNat_inj.mp ((now.toNat_after seconds).trans sum.symm)
    refine readValue_of_some ?_
    rw [Setting.value, same]
    exact asTime?_ofUInt64 t.seconds
  | number time => exact readValue_of_some (asTime?_eq_some_iff.mpr time)
  | malformed other => exact readValue_of_none (asTime?_eq_none_iff.mpr other)

theorem PutsText.read {r : Except ClaimRejection (Option String)} (puts : PutsText claim s r) :
    readValue Json.asString? claim (some s.value.canonical) = r := by
  rw [readValue_canonical asString?_canonical]
  cases puts with
  | issuer _ | subject _ | string _ _ => rfl
  | malformed other => exact readValue_of_none (Json.asString?_eq_none_iff.mpr other)

/-- Each step that sets an expiration or a not-before puts something there, if only a malformed
value. The steps for other claims are out of the question, since their names are others. -/
theorem exists_putsTime (time : claim = .expiration ∨ claim = .notBefore)
    (named : s.name = claim.name) : ∃ r, PutsTime claim s r := by
  cases sets_of_name named with
  | expiration t => exact ⟨_, .expiration t⟩
  | expirationIn seconds now => exact ⟨_, .expirationIn (now.toNat_after seconds)⟩
  | notBefore t => exact ⟨_, .notBefore t⟩
  | claim _ v =>
    -- anything may have been set under the plain name
    cases value : asTime? v with
    | some t => exact ⟨_, .number (asTime?_eq_some_iff.mp value)⟩
    | none => exact ⟨_, .malformed (asTime?_eq_none_iff.mp value)⟩
  | issuer _ | subject _ | audience _ | audiences _ => exact absurd time (by decide)

theorem exists_putsText (text : claim = .issuer ∨ claim = .subject)
    (named : s.name = claim.name) : ∃ r, PutsText claim s r := by
  cases sets_of_name named with
  | issuer iss => exact ⟨_, .issuer iss⟩
  | subject sub => exact ⟨_, .subject sub⟩
  | claim _ v =>
    cases value : v.asString? with
    | some s =>
      obtain rfl := Json.asString?_eq_some_iff.mp value
      exact ⟨_, .string claim s⟩
    | none => exact ⟨_, .malformed (Json.asString?_eq_none_iff.mp value)⟩
  | expiration _ | expirationIn _ _ | notBefore _ | audience _ | audiences _ =>
    exact absurd text (by decide)

/-- The reader of the audiences, for which a missing claim names nobody. -/
def readAudiences (o : Option Json) : Except ClaimRejection Audiences :=
  (readValue Audiences.ofJson? .audience o).map (·.getD .empty)

/-- The reader of audiences gives what the step puts there, for both ways to give a single
audience. -/
theorem PutsAudiences.read {r : Except ClaimRejection Audiences} (puts : PutsAudiences s r) :
    readAudiences (some s.value.canonical) = r := by
  unfold readAudiences
  rw [readValue_canonical ofJson?_canonical]
  cases puts with
  | one a => rfl
  | many l =>
    have names : Audiences.ofJson? (.array (l.map .string)) = some ⟨l⟩ :=
      ofJson?_eq_some_iff.mpr (.many l)
    exact congrArg _ (readValue_of_some names)
  | names names =>
    exact congrArg _ (readValue_of_some (ofJson?_eq_some_iff.mpr names))
  | malformed other => exact congrArg _ (readValue_of_none (ofJson?_eq_none_iff.mpr other))

theorem exists_putsAudiences (named : s.name = RegisteredClaim.audience.name) :
    ∃ r, PutsAudiences s r := by
  cases sets_of_name named with
  | audience a => exact ⟨_, .one a⟩
  | audiences a => exact ⟨_, .many a.list⟩
  | claim _ v =>
    cases value : Audiences.ofJson? v with
    | some a => exact ⟨_, .names (ofJson?_eq_some_iff.mp value)⟩
    | none => exact ⟨_, .malformed (ofJson?_eq_none_iff.mp value)⟩

/-- What is read of the claims that were built in these steps, in each way to read them. -/
structure BuiltFrom (steps : List Setting) (c : Claims) : Prop where
  member : ∀ name r, c.find? name = r ↔
    LastCounts name (fun s r => some s.value.canonical = r) none steps r
  expiration : ∀ r, c.expiration = r ↔
    LastCounts "exp" (PutsTime .expiration) (.ok none) steps r
  notBefore : ∀ r, c.notBefore = r ↔ LastCounts "nbf" (PutsTime .notBefore) (.ok none) steps r
  issuer : ∀ r, c.issuer = r ↔ LastCounts "iss" (PutsText .issuer) (.ok none) steps r
  subject : ∀ r, c.subject = r ↔ LastCounts "sub" (PutsText .subject) (.ok none) steps r
  audience : ∀ r, c.audience = r ↔ LastCounts "aud" PutsAudiences (.ok .empty) steps r

/-- Both claims that are times are read by the same function, of which their names are the
parameter. -/
theorem timeAt_ofSettings (time : claim = .expiration ∨ claim = .notBefore)
    (steps : List Setting) (r : Except ClaimRejection (Option UnixTime)) :
    (ofSettings steps).timeAt claim = r ↔
      LastCounts claim.name (PutsTime claim) (.ok none) steps r := by
  rw [timeAt_eq]
  exact reads_iff PutsTime.read (exists_putsTime time) steps r

/-- Both claims that are texts are, too. -/
theorem stringAt_ofSettings (text : claim = .issuer ∨ claim = .subject)
    (steps : List Setting) (r : Except ClaimRejection (Option String)) :
    (ofSettings steps).stringAt claim = r ↔
      LastCounts claim.name (PutsText claim) (.ok none) steps r := by
  rw [stringAt_eq]
  exact reads_iff PutsText.read (exists_putsText text) steps r

/-- All readers on the same steps, each as an instance of `reads_iff`. They do not influence each
other, since each one goes by the steps of its own name. -/
theorem builtFrom (steps : List Setting) : BuiltFrom steps (ofSettings steps) where
  member := by
    intro name r
    -- the value is there to be seen as it is, without a reader
    show id ((ofSettings steps).find? name) = r ↔ _
    exact reads_iff (fun puts => puts) (fun _ => ⟨_, rfl⟩) steps r
  expiration := timeAt_ofSettings (.inl rfl) steps
  notBefore := timeAt_ofSettings (.inr rfl) steps
  issuer := stringAt_ofSettings (.inl rfl) steps
  subject := stringAt_ofSettings (.inr rfl) steps
  audience := by
    intro r
    rw [audience_eq]
    exact reads_iff PutsAudiences.read exists_putsAudiences steps r

end Claims

/-! ## The text of audiences -/

namespace Audiences

open Claims (Names ofJson?_eq_some_iff)

variable {v w : Json} {l : List String}

/-- A value that names audiences holds no number and is nested once at most, and so its text reads
as it was. Numbers and deep nesting are what a text may lose. -/
theorem ofText?_render (names : Names v l) : Json.ofText? v.render = some v := by
  cases names with
  | one a => exact Json.parse?_render (.string a) (Nat.zero_le _)
  | many l =>
    refine Json.parse?_render (.array fun v hv => ?_) ?_
    · obtain ⟨a, -, rfl⟩ := List.mem_map.mp hv
      exact .string a
    · -- the array is one level, and the strings in it are none
      have flat : Json.itemsDepth (l.map .string) ≤ 0 := by
        refine Json.itemsDepth_le_iff.mpr fun v hv => ?_
        obtain ⟨a, -, rfl⟩ := List.mem_map.mp hv
        exact Nat.le_refl 0
      show Json.itemsDepth (l.map .string) + 1 ≤ Json.depthLimit
      have limit : 1 ≤ Json.depthLimit := by decide
      omega

/-- Different values that name audiences have different texts. Hence it is enough to compare values
where the text of audiences is in question. -/
theorem render_inj {l' : List String} (one : Names v l) (other : Names w l') :
    v.render = w.render ↔ v = w := by
  constructor
  · intro same
    -- both are what the text reads as
    have read := ofText?_render one
    rw [same, ofText?_render other] at read
    exact (Option.some.inj read).symm
  · exact congrArg Json.render

/-- Audiences are written as a value that names them. There are three cases since a list of one is
written in a way of its own. -/
theorem names_toJson (a : Audiences) : Names a.toJson a.list := by
  obtain ⟨_ | ⟨x, _ | ⟨y, rest⟩⟩⟩ := a
  · exact .many []
  · exact .one x
  · exact .many (x :: y :: rest)

/-- A bare string is written for exactly one audience, and it is this audience. -/
theorem toJson_eq_string_iff {a : Audiences} {x : String} :
    a.toJson = .string x ↔ a.list = [x] := by
  obtain ⟨_ | ⟨y, _ | ⟨z, rest⟩⟩⟩ := a <;> simp [toJson]

/-- An array is written for any other number of audiences, none included. -/
theorem toJson_eq_array_iff {a : Audiences} :
    a.toJson = .array (a.list.map .string) ↔ ∀ x, a.list ≠ [x] := by
  obtain ⟨_ | ⟨y, _ | ⟨z, rest⟩⟩⟩ := a <;> simp [toJson]

/-- Which texts read as given audiences, said with the relation between values and audiences. Two
kinds of values name one audience by itself, and these are both read. -/
theorem ofText?_eq_some_iff {text : String} {a : Audiences} :
    ofText? text = some a ↔ ∃ v, Json.ofText? text = some v ∧ Names v a.list := by
  unfold ofText?
  simp only [Option.bind_eq_bind, Option.bind_eq_some_iff, ofJson?_eq_some_iff]

/-- The text of audiences, and which texts read as them. -/
structure Written (a : Audiences) : Prop where
  /-- The text is a bare string if there is exactly one audience. -/
  bare : ∀ x, a.toJson.render = (Json.string x).render ↔ a.list = [x]
  array : a.toJson.render = (Json.array (a.list.map .string)).render ↔ ∀ x, a.list ≠ [x]
  back : ofText? a.toJson.render = some a
  /-- A single audience in an array is read too, although it is not written so. -/
  accepted : ∀ text, ofText? text = some a ↔ ∃ v, Json.ofText? text = some v ∧ Names v a.list

/-- The four facts about the text of audiences, put together. -/
theorem written (a : Audiences) : a.Written where
  bare := fun x => (render_inj a.names_toJson (.one x)).trans toJson_eq_string_iff
  array := (render_inj a.names_toJson (.many a.list)).trans toJson_eq_array_iff
  back := ofText?_eq_some_iff.mpr ⟨_, ofText?_render a.names_toJson, a.names_toJson⟩
  accepted := fun _ => ofText?_eq_some_iff

end Audiences

/-- **What is set is what is read.** After any steps, each reader gives what the last step put there
that set the name of its claim, or reports that the value is malformed; a name that was not set
reads as absent. Audiences by themselves are written as a bare string if there is one, as an array
otherwise, and read back. -/
theorem Claims.settings_read_back :
    (∀ steps : List Claims.Setting, Claims.BuiltFrom steps (.ofSettings steps)) ∧
      ∀ a : Audiences, a.Written :=
  ⟨Claims.builtFrom, Audiences.written⟩

/-- The array replaces the string, and the last instant is not rounded. -/
example :
    let c := Claims.ofSettings [.audience "a", .expiration .last, .audiences (.single "b")]
    c.audience = .ok (.single "b") ∧ c.expiration = .ok (some .last) :=
  ⟨rfl, rfl⟩

end BearerAuth
