import BearerAuth.Proofs.Validator.Stages

/-!
# BearerAuth — why a token is rejected

The answer about a token that is not accepted is about the first stage of the validation that fails.
The order of the stages matters twice. Nothing is asked of a key cache for a token that is not well
formed, is signed with an algorithm that is not allowed, or does not say which key it needs; and
nothing can be learnt about the payload of a token, not even whether it can be read, before its
signature is confirmed.

Main results:

* `exists_rejects_common` — the payload of a token that no key confirms does not show.
* `start_unseen`, `resume_unseen` — no payload shows before there is an answer.
* `rejection_staged`      — the answer is that of the first stage that fails, the early stages leave
  the key caches alone, and an unconfirmed payload does not show.
-/

namespace BearerAuth

variable {v : Validator} {token : String} {now : UnixTime} {o : FetchOutcome} {d : Decomposed}

namespace Validator

/-! ## The payload does not show -/

variable {token' : String} {h p p' s : List Char}

/-- Two tokens with the same header and signature sections are taken apart alike, up to the payload
and the message, which contains the payload. -/
theorem ofToken_of_sections (sections : Sections token.toList h p s)
    (sections' : Sections token'.toList h p' s) (parts : Decomposed.ofToken token = .ok d) :
    ∃ d', Decomposed.ofToken token' = .ok d' ∧ d'.header = d.header := by
  obtain ⟨_, _, _, cut, header, signature, -, -⟩ := Decomposed.ofToken_eq_ok_iff.mp parts
  obtain ⟨rfl, rfl, rfl⟩ := sections.unique cut
  exact ⟨⟨d.header, String.ofList (_ ++ '.' :: p'), String.ofList p', d.signature⟩,
    Decomposed.ofToken_eq_ok_iff.mpr ⟨_, p', _, sections', header, signature, rfl, rfl⟩, rfl⟩

/-- A stage before the signature sees only the header and whether there is a signature. Case by
case, what the stage looks at is found in the other token too. -/
theorem Fails.of_sections (sections : Sections token.toList h p s)
    (sections' : Sections token'.toList h p' s) {stage : Stage}
    (before : stage ∈ Stage.early ++ [.lookup, .key]) {e : ValidationError}
    (fault : v.Fails token o now stage e) : v.Fails token' o now stage e := by
  -- each of these stages looks at the header, at the keys or at whether a signature can be read
  cases fault with
  | format unreadable => exact .format (unreadable.of_sections sections sections')
  | algorithm parts fault =>
    obtain ⟨d', parts', same⟩ := ofToken_of_sections sections sections' parts
    rw [← same] at fault ⊢
    exact .algorithm parts' fault
  | keyId parts source demanded names =>
    obtain ⟨d', parts', same⟩ := ofToken_of_sections sections sections' parts
    rw [← same] at names
    exact .keyId parts' source demanded names
  | fetch source fault => exact .fetch source fault
  | unknownKey parts source names found fault =>
    obtain ⟨d', parts', same⟩ := ofToken_of_sections sections sections' parts
    rw [← same] at names
    exact .unknownKey parts' source names found fault
  | noKey parts source names known found fault =>
    obtain ⟨d', parts', same⟩ := ofToken_of_sections sections sections' parts
    rw [← same] at names known
    exact .noKey parts' source names known found fault
  | key parts known bound unfit =>
    obtain ⟨d', parts', same⟩ := ofToken_of_sections sections sections' parts
    rw [← same] at known bound ⊢
    exact .key parts' known bound unfit
  -- the later stages are about what was signed, and the payload is part of it
  | signature | payload | claim => simp [Stage.early] at before

/-- Tokens that differ in their payload only, and that no key confirms, are rejected alike. The
stage of the signature fails for both, so that a first failure is found at it or before it, where
neither of the payloads is seen. -/
theorem exists_rejects_common (sections : Sections token.toList h p s)
    (sections' : Sections token'.toList h p' s) (unconfirmed : v.Unconfirmed token o)
    (unconfirmed' : v.Unconfirmed token' o) :
    ∃ e, v.Rejects token o now e ∧ v.Rejects token' o now e := by
  unfold Rejects
  rw [Stage.order_eq]
  refine exists_firstFails_common (fun stage before e => ?_) (.signature unconfirmed)
    (.signature unconfirmed')
  exact ⟨.of_sections sections sections' before, .of_sections sections' sections before⟩

/-- Tokens that differ in their payload only ask for the same keys. What is asked for is decided by
the header, and by the configuration of the validator. -/
theorem asked_of_sections (sections : Sections token.toList h p s)
    (sections' : Sections token'.toList h p' s) :
    (v.plan token now).asked = (v.plan token' now).asked := by
  cases hd : Decomposed.ofToken token with
  | error e =>
    have hd' : Decomposed.ofToken token' = .error e :=
      Decomposed.ofToken_eq_error_iff.mpr
        ((Decomposed.ofToken_eq_error_iff.mp hd).of_sections sections sections')
    unfold plan
    rw [hd, hd']
  | ok d =>
    obtain ⟨d', hd', same⟩ := ofToken_of_sections sections sections' hd
    have approved : v.approved d' = v.approved d := by
      unfold approved
      rw [same]
    unfold plan
    rw [hd, hd']
    -- from here on both plans branch on the same header
    simp only [mapError_ok, approved, same]
    cases v.approved d with
    | error e => rfl
    | ok a =>
      cases v.source with
      | secret k => rfl
      | cache n =>
        cases d.header.keyId with
        | some id => rfl
        | none => cases v.requireKeyId <;> rfl

end Validator

/-! ## Validations -/

namespace Validation

variable {σ : Type u} {ask : σ → Option ProviderAnswer × σ} {cs : Caches σ}

/-- A token that fails in an early stage is rejected at once, and the caches are left as they
are. -/
theorem start_of_early (ask : σ → Option ProviderAnswer × σ) (cs : Caches σ) {e : ValidationError}
    (h : v.prepare token = .error e) : start ask [v] token now cs = (.done (.error e), cs) := by
  have decided : v.plan token now = .decided (.error e) := by
    rw [Validator.plan_eq, h]
  exact start_of_decided decided ask cs

/-- The lookup that a validation of the token begins with, if any, ends at once with an outcome. -/
def Finds (ask : σ → Option ProviderAnswer × σ) (cs : Caches σ) (v : Validator) (token : String)
    (now : UnixTime) (o : FetchOutcome) : Prop :=
  ∀ n q, Asks v token n q → ((cs n).poll ask ⟨q, none⟩ now).1 = .done o

/-- A validation that finds its keys at once ends with what its plan comes to. Whether keys are
needed at all is part of the plan. -/
theorem start_settled (finds : Finds ask cs v token now o) :
    (start ask [v] token now cs).1 = .done ((v.plan token now).settled o now) := by
  cases hp : v.plan token now with
  | decided r =>
    rw [start_of_decided hp]
    rfl
  | lookup n q settle => exact (start_of_lookup ask cs hp).2 o (finds n q ⟨now, settle, hp⟩)

/-- So does a validation that had to wait. The plan is made for the time at which it ends. -/
theorem resume_settled {w : Suspension} (waits : Waits ask v token w)
    (found : ((cs w.cache).poll ask w.lookup now).1 = .done o) :
    (resume ask w now cs).1 = .done ((v.plan token now).settled o now) := by
  have remembers := waits.remembers
  rw [(resume_of_rest ask cs now remembers.rest).2 o found, remembers.plan now]
  rfl

/-- The result of a validation that finds its keys at once, and what it is about if it is a
rejection. -/
theorem start_follows (finds : Finds ask cs v token now o) :
    ∃ r, (start ask [v] token now cs).1 = .done r ∧
      ∀ e, r = .error e ↔ v.Rejects token o now e :=
  ⟨_, start_settled finds, Validator.settled_follows⟩

/-- The same of a validation that had to wait. -/
theorem resume_follows {w : Suspension} (waits : Waits ask v token w)
    (found : ((cs w.cache).poll ask w.lookup now).1 = .done o) :
    ∃ r, (resume ask w now cs).1 = .done r ∧ ∀ e, r = .error e ↔ v.Rejects token o now e :=
  ⟨_, resume_settled waits found, Validator.settled_follows⟩

/-- Two polls of validations that cannot be told apart before there is an answer: the caches are
left alike, and either both validations wait, for the same lookup, or both are done. -/
def SeenAlike (p p' : Poll Suspension ValidationResult × Caches σ) : Prop :=
  p.2 = p'.2 ∧ awaited p.1 = awaited p'.1

/-- What a validator answers about a token at a time, where lookups end with an outcome. -/
structure Staged (ask : σ → Option ProviderAnswer × σ) (cs : Caches σ) (v : Validator)
    (token : String) (now : UnixTime) (o : FetchOutcome) : Prop where
  /-- A validation that is done at once is about the first stage that fails. -/
  started : Finds ask cs v token now o → ∃ r, (start ask [v] token now cs).1 = .done r ∧
    ∀ e, r = .error e ↔ v.Rejects token o now e
  /-- So is one that had to wait, any number of times. -/
  resumed : ∀ w, Waits ask v token w → ((cs w.cache).poll ask w.lookup now).1 = .done o →
    ∃ r, (resume ask w now cs).1 = .done r ∧ ∀ e, r = .error e ↔ v.Rejects token o now e
  /-- The stages that need no keys leave every cache and its provider as they were. -/
  untouched : ∀ e, FirstFails (v.Fails token o now) Stage.early e →
    start ask [v] token now cs = (.done (.error e), cs)
  /-- Without a confirmed signature the payload shows in nothing. -/
  unread : ∀ token' h p p' s, Sections token.toList h p s → Sections token'.toList h p' s →
    v.Unconfirmed token o → v.Unconfirmed token' o →
      (∃ e, v.Rejects token o now e ∧ v.Rejects token' o now e) ∧
      (Finds ask cs v token now o → start ask [v] token now cs = start ask [v] token' now cs) ∧
      ∀ w w', Waits ask v token w → Waits ask v token' w' → w.lookup = w'.lookup →
        ((cs w.cache).poll ask w.lookup now).1 = .done o →
        resume ask w now cs = resume ask w' now cs
  /-- While keys are waited for it shows in nothing either, whatever the signature is: the caches
  with their providers are left in the same state, and the same lookup is waited for. -/
  unseen : ∀ token' h p p' s, Sections token.toList h p s → Sections token'.toList h p' s →
    SeenAlike (start ask [v] token now cs) (start ask [v] token' now cs) ∧
      ∀ w w', Waits ask v token w → Waits ask v token' w' → w.lookup = w'.lookup →
        SeenAlike (resume ask w now cs) (resume ask w' now cs)

section Unread

variable {token' : String} {h p p' s : List Char}

/-- Such tokens need the same keys, if any: what is looked up is told by the header. -/
theorem Asks.of_sections (sections : Sections token.toList h p s)
    (sections' : Sections token'.toList h p' s) {n : Nat} {q : Query} (asks : Asks v token' n q) :
    Asks v token n q := by
  -- the time does not matter to what is asked for
  have same : (v.plan token ⟨0⟩).asked = (v.plan token' ⟨0⟩).asked :=
    Validator.asked_of_sections sections sections'
  rw [asks_iff_asked ⟨0⟩] at asks ⊢
  rw [same]
  exact asks

/-- What is asked for decides what can be seen of the start of a validation. Two tokens that differ
in their payload alone ask for the same, so nobody who watches the keys being fetched can tell them
apart. -/
theorem start_unseen (ask : σ → Option ProviderAnswer × σ) (cs : Caches σ) (v : Validator)
    (now : UnixTime) (sections : Sections token.toList h p s)
    (sections' : Sections token'.toList h p' s) :
    SeenAlike (start ask [v] token now cs) (start ask [v] token' now cs) := by
  have asked : (v.plan token now).asked = (v.plan token' now).asked :=
    Validator.asked_of_sections sections sections'
  constructor
  · rw [start_snd, start_snd, asked]
  · rw [awaited_start, awaited_start, asked]

/-- Validations of two such tokens wait for the same cache. -/
theorem Waits.cache_eq (sections : Sections token.toList h p s)
    (sections' : Sections token'.toList h p' s) {w w' : Suspension} (waits : Waits ask v token w)
    (waits' : Waits ask v token' w') : w.cache = w'.cache := by
  have asked : (v.plan token ⟨0⟩).asked = (v.plan token' ⟨0⟩).asked :=
    Validator.asked_of_sections sections sections'
  rw [waits.remembers.plan, waits'.remembers.plan] at asked
  exact (Prod.mk.inj (Option.some.inj asked)).1

/-- Validations that had to wait are seen alike too, if they go on at the same time and in the same
caches. -/
theorem resume_unseen (sections : Sections token.toList h p s)
    (sections' : Sections token'.toList h p' s) {w w' : Suspension} (waits : Waits ask v token w)
    (waits' : Waits ask v token' w') (same : w.lookup = w'.lookup) (now : UnixTime)
    (cs : Caches σ) : SeenAlike (resume ask w now cs) (resume ask w' now cs) := by
  have cache : w.cache = w'.cache := waits.cache_eq sections sections' waits'
  have rest : w.rest = [] := waits.remembers.rest
  have rest' : w'.rest = [] := waits'.remembers.rest
  constructor
  · rw [resume_snd rest, resume_snd rest', cache, same]
  · rw [awaited_resume rest, awaited_resume rest', cache, same]

/-- Unconfirmed tokens that differ in their payload only are told apart neither by the answer nor by
what has become of the caches. -/
theorem start_unread (sections : Sections token.toList h p s)
    (sections' : Sections token'.toList h p' s) {e : ValidationError}
    (rejects : v.Rejects token o now e) (rejects' : v.Rejects token' o now e)
    (finds : Finds ask cs v token now o) :
    start ask [v] token now cs = start ask [v] token' now cs := by
  have finds' : Finds ask cs v token' now o :=
    fun n q asks => finds n q (asks.of_sections sections sections')
  obtain ⟨r, done, follows⟩ := start_follows finds
  obtain ⟨r', done', follows'⟩ := start_follows finds'
  -- the answers agree, and so do the lookups, which alone touch the caches
  refine Prod.ext ?_ ?_
  · rw [done, done', (follows e).mpr rejects, (follows' e).mpr rejects']
  · exact (start_unseen ask cs v now sections sections').1

/-- Unconfirmed tokens are not told apart after a wait either. Their results are one error, and all
that happens to the caches is the poll of the lookup. -/
theorem resume_unread (sections : Sections token.toList h p s)
    (sections' : Sections token'.toList h p' s) {e : ValidationError}
    (rejects : v.Rejects token o now e) (rejects' : v.Rejects token' o now e) {w w' : Suspension}
    (waits : Waits ask v token w) (waits' : Waits ask v token' w') (same : w.lookup = w'.lookup)
    (found : ((cs w.cache).poll ask w.lookup now).1 = .done o) :
    resume ask w now cs = resume ask w' now cs := by
  have cache : w.cache = w'.cache := waits.cache_eq sections sections' waits'
  have found' : ((cs w'.cache).poll ask w'.lookup now).1 = .done o := by
    rw [← cache, ← same]
    exact found
  obtain ⟨r, done, follows⟩ := resume_follows waits found
  obtain ⟨r', done', follows'⟩ := resume_follows waits' found'
  -- the result is the one error of both, and the client is affected alike in any case
  refine Prod.ext ?_ ?_
  · rw [done, done', (follows e).mpr rejects, (follows' e).mpr rejects']
  · exact (resume_unseen sections sections' waits waits' same now cs).1

end Unread

/-- **Staged rejection.** Whatever the validator, the key caches and the token are, the answer about
a token that is not accepted is that of the first stage that fails, among all that would fail. The
stages before the lookup ask nothing of a key cache. What the payload is makes no difference, to the
answer or to the caches, as long as no key confirms the signature, and none while keys are waited
for, whatever the signature is. -/
theorem rejection_staged (ask : σ → Option ProviderAnswer × σ) (cs : Caches σ) (v : Validator)
    (token : String) (now : UnixTime) (o : FetchOutcome) : Staged ask cs v token now o where
  started := start_follows
  resumed := fun _ => resume_follows
  untouched := by
    intro e first
    exact start_of_early ask cs ((Validator.prepare_follows e).mpr first)
  unread := by
    intro token' h p p' s sections sections' unconfirmed unconfirmed'
    -- the one error that both are rejected with
    obtain ⟨e, rejects, rejects'⟩ : ∃ e, v.Rejects token o now e ∧ v.Rejects token' o now e :=
      Validator.exists_rejects_common sections sections' unconfirmed unconfirmed'
    exact ⟨⟨e, rejects, rejects'⟩, start_unread sections sections' rejects rejects',
      fun w w' => resume_unread sections sections' rejects rejects'⟩
  unseen := by
    intro token' h p p' s sections sections'
    exact ⟨start_unseen ask cs v now sections sections',
      fun w w' waits waits' same => resume_unseen sections sections' waits waits' same now cs⟩

/-- Why a validation that is done rejected its token. -/
def rejection? : Poll Suspension ValidationResult → Option ValidationError
  | .done (.error e) => some e
  | _ => none

/-- A token that cannot be read beyond its header and carries no signature to speak of. -/
def garbledToken : String := "eyJhbGciOiJIUzI1NiJ9.?.AAAA"

/-- Only a validation that is done has rejected its token. -/
theorem done_of_rejection? {p : Poll Suspension ValidationResult} {e : ValidationError}
    (rejected : rejection? p = some e) : p = .done (.error e) := by
  unfold rejection? at rejected
  split at rejected
  · cases rejected
    rfl
  · cases rejected

/-- A rejection that was computed is about the fault that comes first. -/
theorem rejects_of_rejection? {p : Poll Suspension ValidationResult} {e : ValidationError}
    (follows : ∃ r, p = .done r ∧ ∀ e, r = .error e ↔ v.Rejects token o now e)
    (rejected : rejection? p = some e) :
    p = .done (.error e) ∧ v.Rejects token o now e := by
  obtain ⟨r, rfl, follows⟩ := follows
  cases done_of_rejection? rejected
  exact ⟨rfl, (follows e).mp rfl⟩

/-- The fault of the signature comes before that of the payload, and a token whose signature is
right is rejected for its claims. So it is with a secret, with keys that are in the cache, and with
keys that had to be waited for until the token has expired. -/
theorem rejection_staged_instances :
    -- with the secret
    (exampleValidator.Rejects garbledToken (.error (.retrieval none)) ⟨1⟩ .invalidSignature ∧
      exampleValidator.Rejects exampleToken (.error (.retrieval none)) ⟨2⟩
        (.invalidClaims .expired)) ∧
    -- answered from the cache
    ((start exampleAsk [exampleUnnamed] garbledToken ⟨1⟩ exampleFilled).1 =
        .done (.error .invalidSignature) ∧
      exampleUnnamed.Rejects garbledToken (.ok (.of exampleSet ⟨0⟩ 0)) ⟨1⟩
        .invalidSignature) ∧
    -- resumed after a fetch
    ∃ w cs, start exampleAsk [exampleUnnamed] exampleToken ⟨1⟩ exampleEmpty =
        (.pending w, cs) ∧
      (resume exampleAsk w ⟨2⟩ cs).1 = .done (.error (.invalidClaims .expired)) ∧
      exampleUnnamed.Rejects exampleToken (.ok (.of exampleSet ⟨2⟩ 0)) ⟨2⟩
        (.invalidClaims .expired) := by
  have secret : ∀ token now e,
      rejection? (start exampleAsk [exampleValidator] token now exampleEmpty).1 = some e →
        exampleValidator.Rejects token (.error (.retrieval none)) now e := by
    intro token now e rejected
    have staged := rejection_staged exampleAsk exampleEmpty exampleValidator token now
      (.error (.retrieval none))
    exact (rejects_of_rejection?
      (staged.started fun n q asks => absurd asks (not_asks_of_secret rfl n q)) rejected).2
  refine ⟨⟨secret _ _ _ (by decide +kernel), secret _ _ _ (by decide +kernel)⟩, ?_, ?_⟩
  · have asked : (exampleUnnamed.plan garbledToken ⟨1⟩).asked = some (0, .all) := by
      decide +kernel
    have staged := rejection_staged exampleAsk exampleFilled exampleUnnamed garbledToken ⟨1⟩
      (.ok (.of exampleSet ⟨0⟩ 0))
    exact rejects_of_rejection? (staged.started fun _ _ => exampleFilled_found asked)
      (by decide +kernel)
  · obtain ⟨w, started, waits, found⟩ := exampleEmpty_waits
    have staged := rejection_staged exampleAsk
      (pollCache exampleAsk exampleEmpty 0 ⟨.all, none⟩ ⟨1⟩).2 exampleUnnamed exampleToken ⟨2⟩
      (.ok (.of exampleSet ⟨2⟩ 0))
    have expired : rejection? (resumedAt ⟨2⟩
        (start exampleAsk [exampleUnnamed] exampleToken ⟨1⟩ exampleEmpty)) =
          some (.invalidClaims .expired) := by
      decide +kernel
    rw [started] at expired
    exact ⟨w, _, started, rejects_of_rejection? (staged.resumed w waits (found ⟨2⟩)) expired⟩

end Validation
end BearerAuth
