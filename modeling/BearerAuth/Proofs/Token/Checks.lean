import BearerAuth.Proofs.Token.Faults
import BearerAuth.Proofs.Token.Values

/-!
# BearerAuth — the checks of claims, exactly

A header and claims are checked against five rules in a fixed order, and the answer is the first one
that is broken. What it means to break a rule is said here in terms of the values that stand in the
token, and with times in unbounded arithmetic (`ClaimRules.Violates`), although the checks
themselves add up in 64 bits and stop at the last second. For the start of a token's life that makes
no difference. For its end it does at a single instant: in the last second itself every token has
expired, whatever it says.

Main results:

* `deadline_le_iff`, `lt_start_iff` — sums that stop, against sums that do not.
* `check_follows_rules`            — the checks end with the first rule that is broken.
* `check_exact`                    — what the answer is, and when the checks pass.
-/

namespace BearerAuth.ClaimRules

open Claims (IsTime Names)

/-! ## Rules -/

/-- What is checked. -/
inductive Rule where
  | algorithm
  | expiration
  | notBefore
  | issuer
  | audience

/-- The order in which the rules are checked. -/
def Rule.all : List Rule := [.algorithm, .expiration, .notBefore, .issuer, .audience]

/-- How a header and claims break a rule, each rule by itself. -/
inductive Violates (r : ClaimRules) (h : Header) (c : Claims) (now : UnixTime) :
    Rule → ClaimRejection → Prop
  | algorithmUnknown (fault : h.algorithm? = none) :
      Violates r h c now .algorithm .invalidAlgorithm
  | algorithmNotApproved {a : Algorithm} (known : h.algorithm? = some a)
      (demanded : r.algorithms ≠ []) (fault : a ∉ r.algorithms) :
      Violates r h c now .algorithm .invalidAlgorithm
  | expirationMissing (demanded : r.checkExpiration = true) (fault : c.find? "exp" = none) :
      Violates r h c now .expiration (.missing .expiration)
  | expirationMalformed (demanded : r.checkExpiration = true) {v : Json}
      (found : c.find? "exp" = some v) (fault : ∀ t, ¬ IsTime v t) :
      Violates r h c now .expiration (.malformed .expiration)
  /-- In the last second every token has expired. -/
  | expired (demanded : r.checkExpiration = true) {v : Json} {t : Nat}
      (found : c.find? "exp" = some v) (time : IsTime v t)
      (fault : t + r.leeway.toNat ≤ now.seconds.toNat ∨ now.seconds.toNat = lastSecond) :
      Violates r h c now .expiration .expired
  | notBeforeMalformed (demanded : r.checkNotBefore = true) {v : Json}
      (found : c.find? "nbf" = some v) (fault : ∀ t, ¬ IsTime v t) :
      Violates r h c now .notBefore (.malformed .notBefore)
  | notYetValid (demanded : r.checkNotBefore = true) {v : Json} {t : Nat}
      (found : c.find? "nbf" = some v) (time : IsTime v t)
      (fault : now.seconds.toNat + r.leeway.toNat < t) :
      Violates r h c now .notBefore .notYetValid
  | issuerMissing (demanded : r.issuers ≠ []) (fault : c.find? "iss" = none) :
      Violates r h c now .issuer (.missing .issuer)
  | issuerMalformed (demanded : r.issuers ≠ []) {v : Json} (found : c.find? "iss" = some v)
      (fault : ∀ s, v ≠ .string s) : Violates r h c now .issuer (.malformed .issuer)
  | invalidIssuer (demanded : r.issuers ≠ []) {iss : String}
      (found : c.find? "iss" = some (.string iss)) (fault : iss ∉ r.issuers) :
      Violates r h c now .issuer .invalidIssuer
  | audienceMissing (demanded : r.audiences ≠ []) (fault : c.find? "aud" = none) :
      Violates r h c now .audience (.missing .audience)
  /-- An empty array names nobody and counts as missing. -/
  | audienceEmpty (demanded : r.audiences ≠ []) (fault : c.find? "aud" = some (.array [])) :
      Violates r h c now .audience (.missing .audience)
  | audienceMalformed (demanded : r.audiences ≠ []) {v : Json} (found : c.find? "aud" = some v)
      (fault : ∀ l, ¬ Names v l) : Violates r h c now .audience (.malformed .audience)
  | invalidAudience (demanded : r.audiences ≠ []) {v : Json} {l : List String}
      (found : c.find? "aud" = some v) (names : Names v l) (nonempty : l ≠ [])
      (fault : ∀ a ∈ l, a ∉ r.audiences) : Violates r h c now .audience .invalidAudience

variable {r : ClaimRules} {h : Header} {c : Claims} {now : UnixTime} {e : ClaimRejection}

/-! ## Sums that stop -/

/-- No instant that can be represented lies behind the last second. -/
theorem le_lastSecond (t : UnixTime) : t.seconds.toNat ≤ lastSecond := by
  have := t.seconds.toNat_lt
  unfold lastSecond
  simp only [UInt64.size]
  omega

/-- A deadline that stops at the last second is reached early only in that second. There, and
nowhere else, the sum that stops and the true sum are on different sides of the clock. -/
theorem deadline_le_iff {n : Nat} :
    min n lastSecond ≤ now.seconds.toNat ↔
      n ≤ now.seconds.toNat ∨ now.seconds.toNat = lastSecond := by
  have := le_lastSecond now
  omega

/-- No instant lies behind the last second, so that it does not matter to stop there. -/
theorem lt_start_iff {n : Nat} {t : UnixTime} :
    min n lastSecond < t.seconds.toNat ↔ n < t.seconds.toNat := by
  have := le_lastSecond t
  omega

/-- Every value that is a time is that of an instant, so that nothing is lost in comparing words.
Numbers that are too large stand for the last instant. -/
theorem exists_instant {v : Json} {k : Nat} (time : IsTime v k) :
    ∃ t : UnixTime, t.seconds.toNat = k := by
  obtain ⟨t, -, same⟩ := Claims.asTime?_of_isTime time
  exact ⟨t, same⟩

/-! ## Single rules -/

/-- The check of the algorithm, by the name in the header and the list of the rules. -/
theorem checkAlgorithm_violates :
    r.checkAlgorithm h = .error e ↔ r.Violates h c now .algorithm e := by
  unfold checkAlgorithm
  rw [ensure_eq_error_iff]
  constructor
  · rintro ⟨refused, rfl⟩
    cases known : h.algorithm? with
    | none => exact .algorithmUnknown known
    | some a =>
      -- of a known algorithm it is the list that decides
      rw [known, Option.any_some, approves, Bool.or_eq_false_iff] at refused
      obtain ⟨demanded, fault⟩ := refused
      exact .algorithmNotApproved known (by simpa using demanded) (by simpa using fault)
  · intro violates
    cases violates with
    | algorithmUnknown fault =>
      rw [fault]
      exact ⟨rfl, rfl⟩
    | algorithmNotApproved known demanded fault =>
      rw [known, Option.any_some, approves]
      exact ⟨by simp [demanded, fault], rfl⟩

/-- The check of the end, by the value in the token and in unbounded arithmetic. The ways to break
the rule correspond one to one; for the last of them sums that stop are traded for sums that do
not. -/
theorem checkExpires_violates :
    r.checkExpires c now = .error e ↔ r.Violates h c now .expiration e := by
  rw [checkExpires_eq_error_iff]
  constructor
  · intro breaks
    cases breaks with
    | expirationMalformed demanded fault =>
      -- what the reader says of a claim is said of the value that is there
      obtain ⟨v, found, other⟩ := Claims.timeAt_eq_malformed_iff.mp fault
      exact .expirationMalformed demanded found other
    | expirationMissing demanded fault =>
      exact .expirationMissing demanded (Claims.timeAt_eq_none_iff.mp fault)
    | expired demanded expires fault =>
      obtain ⟨v, found, time⟩ := Claims.timeAt_eq_some_iff.mp expires
      exact .expired demanded found time (deadline_le_iff.mp fault)
  · intro violates
    cases violates with
    | expirationMissing demanded fault =>
      exact .expirationMissing demanded (Claims.timeAt_eq_none_iff.mpr fault)
    | expirationMalformed demanded found other =>
      exact .expirationMalformed demanded (Claims.timeAt_eq_malformed_iff.mpr ⟨_, found, other⟩)
    | expired demanded found time fault =>
      obtain ⟨t, rfl⟩ := exists_instant time
      have expires : c.expiration = .ok (some t) :=
        Claims.timeAt_eq_some_iff.mpr ⟨_, found, time⟩
      exact .expired demanded expires (deadline_le_iff.mpr fault)

/-- The check of the start, in the same way. Here it makes no difference where sums stop. -/
theorem checkValidFrom_violates :
    r.checkValidFrom c now = .error e ↔ r.Violates h c now .notBefore e := by
  rw [checkValidFrom_eq_error_iff]
  constructor
  · -- from the reading of a claim to the value that it holds
    intro breaks
    cases breaks with
    | notBeforeMalformed demanded fault =>
      obtain ⟨v, found, other⟩ := Claims.timeAt_eq_malformed_iff.mp fault
      exact .notBeforeMalformed demanded found other
    | notYetValid demanded starts fault =>
      obtain ⟨v, found, time⟩ := Claims.timeAt_eq_some_iff.mp starts
      exact .notYetValid demanded found time (lt_start_iff.mp fault)
  · intro violates
    cases violates with
    | notBeforeMalformed demanded found other =>
      exact .notBeforeMalformed demanded (Claims.timeAt_eq_malformed_iff.mpr ⟨_, found, other⟩)
    | notYetValid demanded found time fault =>
      -- and back: a value that is an instant is read as that instant
      obtain ⟨t, rfl⟩ := exists_instant time
      have starts : c.notBefore = .ok (some t) :=
        Claims.timeAt_eq_some_iff.mpr ⟨_, found, time⟩
      exact .notYetValid demanded starts (lt_start_iff.mpr fault)

theorem checkIssuer_violates :
    r.checkIssuer c = .error e ↔ r.Violates h c now .issuer e := by
  -- the time is not looked at, but all checks are stated alike
  have breaks_iff : r.checkIssuer c = .error e ↔ r.Breaks c now .issuer e :=
    checkIssuer_eq_error_iff
  rw [breaks_iff]
  constructor
  · intro breaks
    cases breaks with
    | issuerMalformed demanded fault =>
      obtain ⟨v, found, other⟩ := Claims.stringAt_eq_malformed_iff.mp fault
      exact .issuerMalformed demanded found other
    | issuerMissing demanded fault =>
      exact .issuerMissing demanded (Claims.stringAt_eq_none_iff.mp fault)
    | invalidIssuer demanded names fault =>
      exact .invalidIssuer demanded (Claims.stringAt_eq_some_iff.mp names) fault
  · intro violates
    cases violates with
    | issuerMissing demanded fault =>
      exact .issuerMissing demanded (Claims.stringAt_eq_none_iff.mpr fault)
    | issuerMalformed demanded found other =>
      exact .issuerMalformed demanded (Claims.stringAt_eq_malformed_iff.mpr ⟨_, found, other⟩)
    | invalidIssuer demanded found fault =>
      exact .invalidIssuer demanded (Claims.stringAt_eq_some_iff.mpr found) fault

/-- The check of the audiences, by the value in the token. An empty array is told apart from a
missing claim, although both are reported as missing. A single text and an array of texts are the
two values that name audiences, and any other one is malformed. -/
theorem checkAudience_violates :
    r.checkAudience c = .error e ↔ r.Violates h c now .audience e := by
  have breaks_iff : r.checkAudience c = .error e ↔ r.Breaks c now .audience e :=
    checkAudience_eq_error_iff
  rw [breaks_iff]
  constructor
  · intro breaks
    cases breaks with
    | audienceMalformed demanded fault =>
      obtain ⟨v, found, other⟩ := Claims.audience_eq_malformed_iff.mp fault
      exact .audienceMalformed demanded found other
    | audienceMissing demanded names fault =>
      rcases Claims.audience_eq_ok_iff.mp names with ⟨missing, -⟩ | ⟨v, found, named⟩
      · exact .audienceMissing demanded missing
      · -- the only value that names nobody is the empty array
        rw [fault] at named
        cases named
        exact .audienceEmpty demanded found
    | invalidAudience demanded names nonempty fault =>
      rcases Claims.audience_eq_ok_iff.mp names with ⟨-, empty⟩ | ⟨v, found, named⟩
      · exact absurd empty nonempty
      · exact .invalidAudience demanded found named nonempty fault
  · intro violates
    cases violates with
    | audienceMissing demanded fault =>
      have names : c.audience = .ok ⟨[]⟩ := Claims.audience_eq_ok_iff.mpr (.inl ⟨fault, rfl⟩)
      exact .audienceMissing demanded names rfl
    | audienceEmpty demanded fault =>
      have names : c.audience = .ok ⟨[]⟩ :=
        Claims.audience_eq_ok_iff.mpr (.inr ⟨_, fault, .many []⟩)
      exact .audienceMissing demanded names rfl
    | audienceMalformed demanded found other =>
      exact .audienceMalformed demanded (Claims.audience_eq_malformed_iff.mpr ⟨_, found, other⟩)
    | @invalidAudience demanded v l found named nonempty fault =>
      have names : c.audience = .ok ⟨l⟩ := Claims.audience_eq_ok_iff.mpr (.inr ⟨v, found, named⟩)
      exact .invalidAudience demanded names nonempty fault

/-! ## All rules -/

/-- The checks end with the first rule that is broken: there is one stage for each rule, in the
order in which the checks are made. -/
theorem check_follows_rules : Follows (r.Violates h c now) Rule.all (r.check h c now) := by
  unfold check
  refine .bind (fun _ => checkAlgorithm_violates) fun _ _ => ?_
  refine .bind (fun _ => checkExpires_violates) fun _ _ => ?_
  refine .bind (fun _ => checkValidFrom_violates) fun _ _ => ?_
  refine .bind (fun _ => checkIssuer_violates) fun _ _ => ?_
  exact .last fun _ => checkAudience_violates

/-- **The checks are exact.** The answer is the first rule that is broken, in the order algorithm,
end of life, start of life, issuer, audience, and if none is broken the checks pass. What breaks a
rule is said without the order of the checks and without sums that stop: a token starts too late if
its start lies more than the leeway ahead, and it has expired if its end lies the leeway or more
behind, or if it is checked in the last second there is. -/
theorem check_exact (r : ClaimRules) (h : Header) (c : Claims) (now : UnixTime) :
    (∀ e, r.check h c now = .error e ↔ FirstFails (r.Violates h c now) Rule.all e) ∧
    (r.check h c now = .ok () ↔ ∀ rule ∈ Rule.all, ∀ e, ¬ r.Violates h c now rule e) :=
  ⟨check_follows_rules, check_follows_rules.eq_ok_iff⟩

end BearerAuth.ClaimRules
