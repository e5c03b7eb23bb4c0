import BearerAuth.Proofs.Token.Reading

/-!
# BearerAuth — what the rules for claims demand

The checks of claims are made in a fixed order and the first one that fails is the answer. For
acceptance the order does not matter: a header and claims pass if and only if they meet every rule
(`Meets`). A rule for a claim that is there with a value of the wrong type is never met.

Deadlines are stated in natural numbers. The end of the grace period never lies beyond the last
instant that can be represented.

Main results:

* `check_eq_ok_iff` — the checks pass if and only if every rule is met.
-/

namespace BearerAuth

namespace ClaimRules

variable {r : ClaimRules} {h : Header} {c : Claims} {now : UnixTime}

/-- The last second that can be represented. -/
def lastSecond : Nat := UInt64.size - 1

/-- What the claims of a token must be at a time. -/
structure Meets (r : ClaimRules) (c : Claims) (now : UnixTime) : Prop where
  /-- The token expires, and has not. -/
  expiration : r.checkExpiration = true → ∃ t, c.expiration = .ok (some t) ∧
    now.seconds.toNat < min (t.seconds.toNat + r.leeway.toNat) lastSecond
  /-- If there is a time from which the token is valid, it has come. -/
  notBefore : r.checkNotBefore = true → c.notBefore = .ok none ∨
    ∃ t, c.notBefore = .ok (some t) ∧
      t.seconds.toNat ≤ min (now.seconds.toNat + r.leeway.toNat) lastSecond
  /-- The issuer is an acceptable one, if any are given. -/
  issuer : r.issuers ≠ [] → ∃ iss, c.issuer = .ok (some iss) ∧ iss ∈ r.issuers
  /-- One of the audiences is an acceptable one, if any are given. -/
  audience : r.audiences ≠ [] → ∃ aud, c.audience = .ok aud ∧ ∃ a ∈ aud.list, a ∈ r.audiences

/-! ## Single checks -/

theorem ensure_eq_ok_iff {e : ClaimRejection} {b : Bool} {u : Unit} :
    ensure e b = .ok u ↔ b = true := by
  unfold ensure
  cases b <;> simp

theorem require_eq_ok_iff {claim : RegisteredClaim} {x : Option α} {a : α} :
    require claim x = .ok a ↔ x = some a := by
  cases x with
  | none => exact ⟨nofun, nofun⟩
  | some b => simp [require]

/-- An algorithm passes if its name is known and the rules approve it. A name that no algorithm has
is refused even if there are no rules about algorithms. -/
theorem checkAlgorithm_eq_ok_iff :
    r.checkAlgorithm h = .ok () ↔ ∃ a, h.algorithm? = some a ∧ r.approves a = true := by
  unfold checkAlgorithm
  rw [ensure_eq_ok_iff, Option.any_eq_true]

/-- A token passes as not expired if the rule is not in force, or if the token says when it expires
and the time has not come. The sum with the leeway is one of words that stops at the last second,
and is said in natural numbers here. -/
theorem checkExpires_eq_ok_iff :
    r.checkExpires c now = .ok () ↔ (r.checkExpiration = true →
      ∃ t, c.expiration = .ok (some t) ∧
        now.seconds.toNat < min (t.seconds.toNat + r.leeway.toNat) lastSecond) := by
  unfold checkExpires
  cases r.checkExpiration with
  | false => simp
  | true =>
    -- the claim is read, required to be there and compared, one after the other
    simp only [bind_eq_ok_iff, require_eq_ok_iff, ensure_eq_ok_iff, if_true, true_implies,
      decide_eq_true_eq, UInt64.lt_iff_toNat_lt, UnixTime.toNat_after]
    constructor
    · rintro ⟨_, hexp, t, rfl, hlt⟩
      exact ⟨t, hexp, hlt⟩
    · rintro ⟨t, hexp, hlt⟩
      exact ⟨some t, hexp, t, rfl, hlt⟩

/-- A token passes as valid already if the rule is not in force, if the token does not say from when
it is valid, or if that time has come, give or take the leeway. -/
theorem checkValidFrom_eq_ok_iff :
    r.checkValidFrom c now = .ok () ↔ (r.checkNotBefore = true →
      c.notBefore = .ok none ∨ ∃ t, c.notBefore = .ok (some t) ∧
        t.seconds.toNat ≤ min (now.seconds.toNat + r.leeway.toNat) lastSecond) := by
  unfold checkValidFrom
  cases r.checkNotBefore with
  | false => simp
  | true =>
    simp only [bind_eq_ok_iff, if_true, true_implies]
    constructor
    · rintro ⟨o, hnbf, hcheck⟩
      -- a token that names no start has started
      cases o with
      | none => exact .inl hnbf
      | some t =>
        rw [ensure_eq_ok_iff, decide_eq_true_eq, UInt64.le_iff_toNat_le,
          UnixTime.toNat_after] at hcheck
        exact .inr ⟨t, hnbf, hcheck⟩
    · rintro (hnbf | ⟨t, hnbf, hle⟩)
      · exact ⟨none, hnbf, rfl⟩
      · refine ⟨some t, hnbf, ?_⟩
        rw [ensure_eq_ok_iff, decide_eq_true_eq, UInt64.le_iff_toNat_le, UnixTime.toNat_after]
        exact hle

/-- With issuers given, a token must name one of them. With none given it need not name any. -/
theorem checkIssuer_eq_ok_iff :
    r.checkIssuer c = .ok () ↔
      (r.issuers ≠ [] → ∃ iss, c.issuer = .ok (some iss) ∧ iss ∈ r.issuers) := by
  unfold checkIssuer
  by_cases hr : r.issuers = []
  · simp [hr]
  · -- with issuers to choose from the claim must be there and be one of them
    rw [if_neg (by simpa using hr)]
    simp only [bind_eq_ok_iff, require_eq_ok_iff, ensure_eq_ok_iff, List.contains_iff_mem]
    constructor
    · rintro ⟨_, hiss, iss, rfl, hmem⟩ -
      exact ⟨iss, hiss, hmem⟩
    · intro needed
      obtain ⟨iss, hiss, hmem⟩ := needed hr
      exact ⟨some iss, hiss, iss, rfl, hmem⟩

/-- With audiences given, a token must be for one of them; that it is for others as well does no
harm. -/
theorem checkAudience_eq_ok_iff :
    r.checkAudience c = .ok () ↔
      (r.audiences ≠ [] → ∃ aud, c.audience = .ok aud ∧ ∃ a ∈ aud.list, a ∈ r.audiences) := by
  unfold checkAudience
  by_cases hr : r.audiences = []
  · simp [hr]
  · rw [if_neg (by simpa using hr)]
    simp only [bind_eq_ok_iff, ensure_eq_ok_iff, List.any_eq_true, List.contains_iff_mem]
    constructor
    · rintro ⟨aud, haud, _, -, hmem⟩ -
      exact ⟨aud, haud, hmem⟩
    · intro needed
      obtain ⟨aud, haud, a, ha, hmem⟩ := needed hr
      -- an audience that is acceptable is an audience
      have nonempty : (!aud.list.isEmpty) = true := by
        rw [Bool.not_eq_true', List.isEmpty_eq_false_iff]
        exact List.ne_nil_of_mem ha
      exact ⟨aud, haud, (), nonempty, a, ha, hmem⟩

/-! ## All checks -/

/-- The checks pass if and only if every rule is met. The order in which they are made is of no
account here, and comes back only where errors are concerned. -/
theorem check_eq_ok_iff :
    r.check h c now = .ok () ↔
      (∃ a, h.algorithm? = some a ∧ r.approves a = true) ∧ r.Meets c now := by
  unfold check
  simp only [bind_eq_ok_iff]
  constructor
  · -- each of the checks has passed, so that each of the rules is met
    rintro ⟨⟨⟩, halg, ⟨⟩, hexp, ⟨⟩, hnbf, ⟨⟩, hiss, haud⟩
    exact ⟨checkAlgorithm_eq_ok_iff.mp halg, {
      expiration := checkExpires_eq_ok_iff.mp hexp
      notBefore := checkValidFrom_eq_ok_iff.mp hnbf
      issuer := checkIssuer_eq_ok_iff.mp hiss
      audience := checkAudience_eq_ok_iff.mp haud }⟩
  · rintro ⟨halg, meets⟩
    exact ⟨(), checkAlgorithm_eq_ok_iff.mpr halg,
      (), checkExpires_eq_ok_iff.mpr meets.expiration,
      (), checkValidFrom_eq_ok_iff.mpr meets.notBefore,
      (), checkIssuer_eq_ok_iff.mpr meets.issuer,
      checkAudience_eq_ok_iff.mpr meets.audience⟩

end ClaimRules
end BearerAuth
