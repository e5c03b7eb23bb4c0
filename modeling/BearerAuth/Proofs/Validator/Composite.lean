import BearerAuth.Proofs.Validator.Acceptance
import BearerAuth.Session.Basic

/-!
# BearerAuth — validators tried in order

A validation with several validators is one suspended computation. Whenever a key cache has to be
waited for, it keeps the lookup, what the validator in question makes of its outcome, and the
validators that are left. Seen from outside it is simpler: the validators run one after another,
each on its own and from the state in which the one before has left the caches, until one accepts
the token. Those behind it might as well not be there. A rejection is not without effect, since the
lookup behind it may have fetched keys that the next validator finds in the cache.

What a validator does on its own is said without suspensions (`Validator.Checks`): it comes to a
decision, or it looks up keys and settles the token with the outcome. A lookup is polled until it is
done (`LooksUp`). Each time it has to wait, the providers change in some way, and nothing else
happens. The changes are recorded, so that the validation and the validators on their own are
compared under the same ones.

Main results:

* `finishes_resume_iff` — to go on with a suspended validation is to finish the lookup first.
* `finishes_run_iff`    — validators that are tried run one after another.
* `run_of_answers`, `resume_done_of_answers` — a validation ends once the providers answer.
* `first_acceptance`    — what a validation comes to, and what it leaves behind.
-/

namespace BearerAuth

universe u

variable {σ : Type u} {ask : σ → Option ProviderAnswer × σ} {cs cs' : Caches σ} {token : String}
  {now : UnixTime} {v : Validator} {vs rest : List Validator} {r : ValidationResult}
  {last e : ValidationError}

/-! ## Validators on their own -/

/-- What the providers of the caches do while a validation waits. -/
abbrev Changes (σ : Type u) := Nat → σ → σ

/-- The caches after their providers have changed. -/
def Caches.changed (cs : Caches σ) (f : Changes σ) : Caches σ :=
  fun n => { cs n with provider := f n (cs n).provider }

variable {fs : List (Changes σ)}

/-- A lookup in one of the caches is polled until it is done. -/
inductive LooksUp (ask : σ → Option ProviderAnswer × σ) (now : UnixTime) (n : Nat) :
    Lookup → Caches σ → List (Changes σ) → FetchOutcome → Caches σ → Prop
  | done {l : Lookup} {cs cs' : Caches σ} {o : FetchOutcome}
    (polled : Validation.pollCache ask cs n l now = (.done o, cs')) :
    LooksUp ask now n l cs [] o cs'
  | waits {l l' : Lookup} {cs cs₁ cs' : Caches σ} {f : Changes σ} {fs : List (Changes σ)}
    {o : FetchOutcome} (polled : Validation.pollCache ask cs n l now = (.pending l', cs₁))
    (later : LooksUp ask now n l' (cs₁.changed f) fs o cs') : LooksUp ask now n l cs (f :: fs) o cs'

/-- A validator checks a token on its own: it needs no keys, or it waits for them and settles the
token. -/
inductive Validator.Checks (ask : σ → Option ProviderAnswer × σ) (token : String) (now : UnixTime)
    (v : Validator) : Caches σ → List (Changes σ) → ValidationResult → Caches σ → Prop
  | decided {r : ValidationResult} (plan : v.plan token now = .decided r) (cs : Caches σ) :
    Checks ask token now v cs [] r cs
  | settled {n : Nat} {q : Query} {settle : FetchOutcome → UnixTime → ValidationResult}
    {cs cs' : Caches σ} {fs : List (Changes σ)} {o : FetchOutcome}
    (plan : v.plan token now = .lookup n q settle)
    (found : LooksUp ask now n ⟨q, none⟩ cs fs o cs') :
    Checks ask token now v cs fs (settle o now) cs'

namespace Validation

/-- Validators reject a token one after another, each where the one before has left the caches.
There is a rejection by each of them. -/
inductive AllReject (ask : σ → Option ProviderAnswer × σ) (token : String) (now : UnixTime) :
    List Validator → Caches σ → List (Changes σ) → List ValidationError → Caches σ → Prop
  | nil (cs : Caches σ) : AllReject ask token now [] cs [] [] cs
  | cons {v : Validator} {vs : List Validator} {cs cs₁ cs' : Caches σ} {fs gs : List (Changes σ)}
    {e : ValidationError} {es : List ValidationError}
    (first : v.Checks ask token now cs fs (.error e) cs₁)
    (others : AllReject ask token now vs cs₁ gs es cs') :
    AllReject ask token now (v :: vs) cs (fs ++ gs) (e :: es) cs'

/-- What validators come to that are tried in order, after a rejection by others. -/
inductive Tried (ask : σ → Option ProviderAnswer × σ) (token : String) (now : UnixTime)
    (last : ValidationError) (vs : List Validator) (cs : Caches σ) (fs : List (Changes σ)) :
    ValidationResult → Caches σ → Prop
  /-- The first one that accepts the token comes after others that reject it. -/
  | accepted {before after : List Validator} {v : Validator} {es : List ValidationError}
    {c : Claims} {gs hs : List (Changes σ)} {cs₁ cs' : Caches σ} (split : vs = before ++ v :: after)
    (changes : fs = gs ++ hs) (reject : AllReject ask token now before cs gs es cs₁)
    (accepts : v.Checks ask token now cs₁ hs (.ok c) cs') :
    Tried ask token now last vs cs fs (.ok c) cs'
  /-- All reject the token, and the last rejection is the result. -/
  | rejected {es : List ValidationError} {cs' : Caches σ}
    (reject : AllReject ask token now vs cs fs es cs') :
    Tried ask token now last vs cs fs (.error (es.getLast?.getD last)) cs'

/-- With no validators left, the last rejection stands and nothing happens. -/
theorem tried_nil_iff :
    Tried ask token now last [] cs fs r cs' ↔ fs = [] ∧ r = .error last ∧ cs' = cs := by
  constructor
  · intro tried
    cases tried with
    | accepted split _ _ _ => simp at split
    | rejected reject =>
      cases reject
      exact ⟨rfl, rfl, rfl⟩
  · rintro ⟨rfl, rfl, rfl⟩
    exact .rejected (.nil cs')

/-- The first validator accepts the token, or the others are tried where it has left the caches. The
changes of the providers are told apart by when they happen. -/
theorem tried_cons_iff :
    Tried ask token now last (v :: rest) cs fs r cs' ↔
      (∃ c, r = .ok c ∧ v.Checks ask token now cs fs (.ok c) cs') ∨
        ∃ e gs hs cs₁, fs = gs ++ hs ∧ v.Checks ask token now cs gs (.error e) cs₁ ∧
          Tried ask token now e rest cs₁ hs r cs' := by
  constructor
  · intro tried
    cases tried with
    | accepted split changes reject accepts =>
      cases reject with
      | nil =>
        -- nobody comes before the one that accepts
        obtain ⟨rfl, -⟩ := List.cons.inj split
        exact .inl ⟨_, rfl, changes ▸ accepts⟩
      | cons first others =>
        obtain ⟨rfl, rfl⟩ := List.cons.inj split
        rw [List.append_assoc] at changes
        exact .inr ⟨_, _, _, _, changes, first, .accepted rfl rfl others accepts⟩
    | rejected reject =>
      cases reject with
      | @cons _ _ _ _ _ _ _ e es first others =>
        -- the last rejection is that of the last validator, if there is another one
        rw [List.getLast?_cons, Option.getD_some]
        exact .inr ⟨_, _, _, _, rfl, first, .rejected others⟩
  · rintro (⟨c, rfl, accepts⟩ | ⟨e, gs, hs, cs₁, rfl, first, tried⟩)
    · have split : v :: rest = [] ++ v :: rest := rfl
      exact .accepted split rfl (.nil cs) accepts
    · cases tried with
      | accepted split changes reject accepts =>
        subst split changes
        exact .accepted rfl (List.append_assoc ..).symm (.cons first reject) accepts
      | @rejected es _ reject =>
        have latest : (e :: es).getLast?.getD last = es.getLast?.getD e := by
          rw [List.getLast?_cons, Option.getD_some]
        rw [← latest]
        exact .rejected (.cons first reject)

/-! ## Suspended validations -/

/-- A validation is polled until it is done. -/
inductive Finishes (ask : σ → Option ProviderAnswer × σ) (now : UnixTime) :
    Poll Suspension ValidationResult × Caches σ → List (Changes σ) → ValidationResult →
      Caches σ → Prop
  | done (r : ValidationResult) (cs : Caches σ) : Finishes ask now (.done r, cs) [] r cs
  | waits {w : Suspension} {cs cs' : Caches σ} {f : Changes σ} {fs : List (Changes σ)}
    {r : ValidationResult} (later : Finishes ask now (resume ask w now (cs.changed f)) fs r cs') :
    Finishes ask now (.pending w, cs) (f :: fs) r cs'

/-- A validation that is done is not polled again. -/
theorem finishes_done_iff {r' : ValidationResult} :
    Finishes ask now (.done r', cs) fs r cs' ↔ fs = [] ∧ r = r' ∧ cs' = cs := by
  constructor
  · intro finishes
    cases finishes
    exact ⟨rfl, rfl, rfl⟩
  · rintro ⟨rfl, rfl, rfl⟩
    exact .done r cs'

/-- To go on with a suspended validation is to finish the lookup that it waits for, and then to do
what follows its outcome. The induction is over the changes of the providers, of which there is one
for each further poll. -/
theorem finishes_resume_iff {w : Suspension} :
    Finishes ask now (resume ask w now cs) fs r cs' ↔
      ∃ o gs hs cs₁, fs = gs ++ hs ∧ LooksUp ask now w.cache w.lookup cs gs o cs₁ ∧
        Finishes ask now (follow ask w.token now w.rest cs₁ (w.settle o now)) hs r cs' := by
  constructor
  · -- one change of the providers for each further poll
    intro finishes
    induction fs generalizing w cs with
    | nil =>
      cases polled : pollCache ask cs w.cache w.lookup now with
      | mk p cs₁ =>
        cases p with
        | done o =>
          rw [resume_of_pollCache_done polled] at finishes
          exact ⟨o, [], [], cs₁, rfl, .done polled, finishes⟩
        | pending l =>
          rw [resume_of_pollCache_pending polled] at finishes
          cases finishes
    | cons f fs ih =>
      cases polled : pollCache ask cs w.cache w.lookup now with
      | mk p cs₁ =>
        cases p with
        | done o =>
          rw [resume_of_pollCache_done polled] at finishes
          exact ⟨o, [], f :: fs, cs₁, rfl, .done polled, finishes⟩
        | pending l =>
          rw [resume_of_pollCache_pending polled] at finishes
          cases finishes with
          | waits later =>
            obtain ⟨o, gs, hs, cs₂, rfl, found, after⟩ := ih later
            exact ⟨o, f :: gs, hs, cs₂, rfl, .waits polled found, after⟩
  · rintro ⟨o, gs, hs, cs₁, rfl, found, after⟩
    obtain ⟨token, n, l, settle, rest⟩ := w
    replace found : LooksUp ask now n l cs gs o cs₁ := found
    induction found with
    | done polled =>
      rw [resume_of_pollCache_done polled]
      exact after
    | waits polled _ ih =>
      rw [resume_of_pollCache_pending polled]
      exact .waits (ih after)

/-! ## Validators in order -/

/-- Trying validators is to have the first one check the token, and then to do what follows its
result. The changes of the providers are split between the two. -/
theorem finishes_run_cons_iff :
    Finishes ask now (run ask token now (v :: rest) last cs) fs r cs' ↔
      ∃ r₁ gs hs cs₁, fs = gs ++ hs ∧ v.Checks ask token now cs gs r₁ cs₁ ∧
        Finishes ask now (follow ask token now rest cs₁ r₁) hs r cs' := by
  cases plan : v.plan token now with
  -- no keys are needed: the check is over before the others begin
  | decided r₀ =>
    rw [run_of_decided plan]
    constructor
    · intro after
      exact ⟨r₀, [], fs, cs, rfl, .decided plan cs, after⟩
    · rintro ⟨r₁, gs, hs, cs₁, rfl, checks, after⟩
      cases checks with
      | decided plan' =>
        rw [plan] at plan'
        cases plan'
        exact after
      | settled plan' _ =>
        rw [plan] at plan'
        cases plan'
  | lookup n q settle =>
    -- the changes of the provider fall into those while the keys are waited for, and those after
    rw [run_of_lookup plan, finishes_resume_iff]
    constructor
    · rintro ⟨o, gs, hs, cs₁, rfl, found, after⟩
      exact ⟨settle o now, gs, hs, cs₁, rfl, .settled plan found, after⟩
    · rintro ⟨r₁, gs, hs, cs₁, rfl, checks, after⟩
      cases checks with
      | decided plan' =>
        rw [plan] at plan'
        cases plan'
      | settled plan' found =>
        rw [plan] at plan'
        cases plan'
        exact ⟨_, gs, hs, cs₁, rfl, found, after⟩

/-- Validators that are tried run one after another. The induction is over the validators that are
left, each of which finds the caches as those before it have left them. -/
theorem finishes_run_iff :
    Finishes ask now (run ask token now vs last cs) fs r cs' ↔
      Tried ask token now last vs cs fs r cs' := by
  induction vs generalizing last cs fs with
  | nil =>
    rw [tried_nil_iff]
    exact finishes_done_iff
  | cons v rest ih =>
    rw [finishes_run_cons_iff, tried_cons_iff]
    constructor
    · rintro ⟨r₁, gs, hs, cs₁, rfl, checks, after⟩
      cases r₁ with
      -- accepted, so nobody is tried after this one
      | ok c =>
        obtain ⟨rfl, rfl, rfl⟩ := finishes_done_iff.mp after
        rw [List.append_nil]
        exact .inl ⟨c, rfl, checks⟩
      | error e => exact .inr ⟨e, gs, hs, cs₁, rfl, checks, ih.mp after⟩
    · rintro (⟨c, rfl, checks⟩ | ⟨e, gs, hs, cs₁, rfl, checks, tried⟩)
      · exact ⟨.ok c, fs, [], cs', (List.append_nil fs).symm, checks, .done (.ok c) cs'⟩
      · exact ⟨.error e, gs, hs, cs₁, rfl, checks, ih.mpr tried⟩

/-- A single validator runs on its own: to try it is to check the token with it, whether it accepts
or not. -/
theorem finishes_start_singleton_iff :
    Finishes ask now (start ask [v] token now cs) fs r cs' ↔
      v.Checks ask token now cs fs r cs' := by
  unfold start
  rw [finishes_run_iff, tried_cons_iff]
  constructor
  · rintro (⟨c, rfl, checks⟩ | ⟨e, gs, hs, cs₁, rfl, checks, tried⟩)
    · exact checks
    · -- behind the only validator there is nobody, and its error is the result
      obtain ⟨rfl, rfl, rfl⟩ := tried_nil_iff.mp tried
      rwa [List.append_nil]
  · intro checks
    cases r with
    | ok c => exact .inl ⟨c, rfl, checks⟩
    | error e =>
      exact .inr ⟨e, fs, [], cs', (List.append_nil fs).symm, checks,
        tried_nil_iff.mpr ⟨rfl, rfl, rfl⟩⟩

/-- Validators behind the one that accepts the token make no difference, since nothing is said of
them. -/
theorem Tried.append {c : Claims} (tried : Tried ask token now last vs cs fs (.ok c) cs')
    (more : List Validator) : Tried ask token now last (vs ++ more) cs fs (.ok c) cs' := by
  generalize hr : (Except.ok c : ValidationResult) = r at tried
  cases tried with
  | accepted split changes reject accepts =>
    cases hr
    subst split
    exact .accepted (by rw [List.append_assoc, List.cons_append]) changes reject accepts
  | rejected reject => cases hr

/-! ## Validations that end

A validation waits for providers and for nothing else. Once they answer, it goes through all the
validators that are left in a single poll.
-/

section Answering

variable {Ready : σ → Prop}

/-- A lookup in one of the caches ends at once if the providers answer, and they answer afterwards.
The other caches are not touched, so their providers are as ready as before. -/
theorem pollCache_of_answers (answers : Client.Answers ask Ready)
    (ready : ∀ m, Ready (cs m).provider) (n : Nat) (l : Lookup) (now : UnixTime) :
    ∃ o cs', pollCache ask cs n l now = (.done o, cs') ∧ ∀ m, Ready (cs' m).provider := by
  obtain ⟨o, d, polled, kept⟩ := Client.poll_of_answers answers (ready n) l now
  refine ⟨o, cs.set n d, ?_, fun m => ?_⟩
  · unfold pollCache
    rw [polled]
  · unfold Caches.set
    split
    · exact kept
    · exact ready m

/-- A suspended validation ends its lookup at once if the providers answer. What follows ends if it
does in any caches whose providers answer (`ends`). -/
theorem resume_of_answers (answers : Client.Answers ask Ready) {w : Suspension}
    (ready : ∀ m, Ready (cs m).provider)
    (ends : ∀ cs r, (∀ m, Ready (cs m).provider) →
      ∃ r' cs', follow ask w.token now w.rest cs r = (.done r', cs')) :
    ∃ r cs', resume ask w now cs = (.done r, cs') := by
  obtain ⟨o, cs₁, polled, kept⟩ := pollCache_of_answers answers ready w.cache w.lookup now
  rw [resume_of_pollCache_done polled]
  exact ends cs₁ (w.settle o now) kept

/-- Validators that are tried come to a result at once if the providers answer. The induction is
over the validators that are left, which find providers that still answer. -/
theorem run_of_answers (answers : Client.Answers ask Ready) (vs : List Validator)
    (last : ValidationError) (ready : ∀ m, Ready (cs m).provider) :
    ∃ r cs', run ask token now vs last cs = (.done r, cs') := by
  induction vs generalizing last cs with
  | nil => exact ⟨.error last, cs, rfl⟩
  | cons v rest ih =>
    -- whatever this validator comes to, the run ends: with its result or with those after it
    have ends : ∀ cs r, (∀ m, Ready (cs m).provider) →
        ∃ r' cs', follow ask token now rest cs r = (.done r', cs') := by
      intro cs r ready
      cases r with
      | ok c => exact ⟨.ok c, cs, rfl⟩
      | error e => exact ih e ready
    cases plan : v.plan token now with
    | decided r =>
      rw [run_of_decided plan]
      exact ends cs r ready
    | lookup n q settle =>
      rw [run_of_lookup plan]
      exact resume_of_answers answers ready ends

/-- So does a validation that was suspended, whatever it waits for. -/
theorem resume_done_of_answers (answers : Client.Answers ask Ready) (w : Suspension)
    (now : UnixTime) (ready : ∀ m, Ready (cs m).provider) :
    ∃ r cs', resume ask w now cs = (.done r, cs') := by
  refine resume_of_answers answers ready fun cs r ready => ?_
  cases r with
  | ok c => exact ⟨.ok c, cs, rfl⟩
  | error e => exact run_of_answers answers w.rest e ready

end Answering

end Validation

/-! ## Requests -/

namespace Session

variable {s s' : Session} {p : Poll Suspension ValidationResult × Caches Provider}
  {fs : List (Changes Provider)} {result : Result}

/-- The session after the providers of its caches have changed. -/
def changed (s : Session) (f : Changes Provider) : Session :=
  { s with caches := s.caches.changed f }

/-- A request is polled until it is done. -/
inductive Finishes : Poll Waiting Result × Session → List (Changes Provider) → Result →
    Session → Prop
  | done (result : Result) (s : Session) : Finishes (.done result, s) [] result s
  | waits {w : Waiting} {s s' : Session} {f : Changes Provider} {fs : List (Changes Provider)}
    {result : Result} (later : Finishes ((s.changed f).proceed w) fs result s') :
    Finishes (.pending w, s) (f :: fs) result s'

/-- A request for a validation is done when the validation is, with what is made of its result.
Nothing of the session changes but the caches. The hypothesis says how such a request goes on; it
holds of both kinds of requests by definition. -/
theorem finishes_stepValidation_iff {wait : Suspension → Waiting}
    {finish : ValidationResult → Result}
    (proceeds : ∀ s v, proceed s (wait v) = s.stepValidation wait finish
      (Validation.resume Provider.ask v s.clock s.caches)) :
    Finishes (s.stepValidation wait finish p) fs result s' ↔
      ∃ r cs', Validation.Finishes Provider.ask s.clock p fs r cs' ∧ result = finish r ∧
        s' = { s with caches := cs' } := by
  -- on the changes of the provider, one for each time that the validation waits
  induction fs generalizing s p with
  | nil =>
    obtain ⟨p, cs⟩ := p
    constructor
    · intro finishes
      cases p with
      | done r =>
        cases finishes
        exact ⟨r, cs, .done r cs, rfl, rfl⟩
      | pending v => cases finishes
    · rintro ⟨r, cs', finishes, rfl, rfl⟩
      cases finishes
      exact .done _ _
  | cons f fs ih =>
    obtain ⟨p, cs⟩ := p
    constructor
    · intro finishes
      cases p with
      | done r => cases finishes
      | pending v =>
        cases finishes with
        | waits later =>
          -- to go on in the session is to resume the validation
          rw [proceeds] at later
          obtain ⟨r, cs', finishes, rfl, rfl⟩ := ih.mp later
          exact ⟨r, cs', .waits finishes, rfl, rfl⟩
    · rintro ⟨r, cs', finishes, rfl, rfl⟩
      cases finishes with
      | waits later =>
        refine .waits ?_
        rw [proceeds]
        exact ih.mpr ⟨r, cs', later, rfl, rfl⟩

/-- A request for claims is a validation whose result is shown as it is. -/
theorem finishes_claims_iff :
    Finishes (s.begin (.claims vs token)) fs result s' ↔
      ∃ r cs', Validation.Finishes Provider.ask s.clock
          (Validation.start Provider.ask vs token s.clock s.caches) fs r cs' ∧
        result = .claims r ∧ s' = { s with caches := cs' } :=
  finishes_stepValidation_iff fun _ _ => rfl

/-- A request for an identity is the same validation, and its result is shown as an identity. -/
theorem finishes_identity_iff :
    Finishes (s.begin (.identity vs token)) fs result s' ↔
      ∃ r cs', Validation.Finishes Provider.ask s.clock
          (Validation.start Provider.ask vs token s.clock s.caches) fs r cs' ∧
        result = ofClaims r ∧ s' = { s with caches := cs' } :=
  finishes_stepValidation_iff fun _ _ => rfl

end Session

/-! ## Composites -/

/-- What a validation with several validators comes to, and what it leaves behind. -/
structure TriedInOrder (vs : List Validator) (token : String) : Prop where
  /-- The first validator that accepts the token decides, or else the last rejection, or else that
  there is no validator. The caches with their providers are left as by the validators that were
  tried. -/
  tried : ∀ (σ : Type u) (ask : σ → Option ProviderAnswer × σ) now cs fs r cs',
    Validation.Finishes ask now (Validation.start ask vs token now cs) fs r cs' ↔
      Validation.Tried ask token now (.unknownKey none) vs cs fs r cs'
  /-- The validation ends once the providers answer: at once if they do when it is started, and when
  it is polled again if they do by then, whatever it has been waiting for. -/
  ends : ∀ (σ : Type u) (ask : σ → Option ProviderAnswer × σ) (Ready : σ → Prop),
    Client.Answers ask Ready → ∀ now cs,
      ((∀ n, Ready (cs n).provider) →
        ∃ r cs', Validation.Finishes ask now (Validation.start ask vs token now cs) [] r cs') ∧
      ∀ w f, (∀ n, Ready (f n (cs n).provider)) →
        ∃ r cs', Validation.Finishes ask now (.pending w, cs) [f] r cs'
  /-- A validation with one of them is what this one does on its own. -/
  alone : ∀ (σ : Type u) (ask : σ → Option ProviderAnswer × σ) now cs fs r cs', ∀ v ∈ vs,
    Validation.Finishes ask now (Validation.start ask [v] token now cs) fs r cs' ↔
      v.Checks ask token now cs fs r cs'
  /-- Validators behind the one that accepts the token have no effect. -/
  behind : ∀ (σ : Type u) (ask : σ → Option ProviderAnswer × σ) now cs fs c cs',
    Validation.Finishes ask now (Validation.start ask vs token now cs) fs (.ok c) cs' →
      ∀ more, Validation.Finishes ask now (Validation.start ask (vs ++ more) token now cs) fs
        (.ok c) cs'
  /-- A request for claims is such a validation, and nothing else happens to the session. -/
  claims : ∀ (s : Session) fs result s',
    Session.Finishes (s.begin (.claims vs token)) fs result s' ↔
      ∃ r cs', Validation.Tried Provider.ask token s.clock (.unknownKey none) vs s.caches fs r cs' ∧
        result = .claims r ∧ s' = { s with caches := cs' }
  /-- A request for the identity of the bearer does the same, and its result is the identity that
  the claims assert. -/
  identity : ∀ (s : Session) fs result s',
    Session.Finishes (s.begin (.identity vs token)) fs result s' ↔
      ∃ r, Session.Finishes (s.begin (.claims vs token)) fs (.claims r) s' ∧
        result = .identity (r.map fun c => Identity.ofClaims c "JWT Bearer")

/-- **The first acceptance decides.** Validators are tried one after another, each where the one
before it has left the caches, until one of them accepts the token; those behind it have no effect.
The validation ends once the providers answer. -/
theorem first_acceptance (vs : List Validator) (token : String) : TriedInOrder.{u} vs token where
  tried := fun _ _ _ _ _ _ _ => Validation.finishes_run_iff
  ends := by
    intro σ ask Ready answers now cs
    refine ⟨fun ready => ?_, fun w f ready => ?_⟩
    · obtain ⟨r, cs', done⟩ := Validation.run_of_answers answers vs Validation.noValidator ready
      refine ⟨r, cs', ?_⟩
      unfold Validation.start
      rw [done]
      exact .done r cs'
    · -- the change that makes them answer comes before the poll
      have changed : ∀ n, Ready (cs.changed f n).provider := ready
      obtain ⟨r, cs', done⟩ := Validation.resume_done_of_answers answers w now changed
      refine ⟨r, cs', .waits ?_⟩
      rw [done]
      exact .done r cs'
  alone := fun _ _ _ _ _ _ _ _ _ => Validation.finishes_start_singleton_iff
  behind := by
    intro σ ask now cs fs c cs' finishes more
    exact Validation.finishes_run_iff.mpr ((Validation.finishes_run_iff.mp finishes).append more)
  claims := by
    intro s fs result s'
    rw [Session.finishes_claims_iff]
    simp only [Validation.start, Validation.finishes_run_iff]
    rfl
  identity := by
    intro s fs result s'
    rw [Session.finishes_identity_iff]
    constructor
    · rintro ⟨r, cs', finishes, rfl, rfl⟩
      exact ⟨r, Session.finishes_claims_iff.mpr ⟨r, cs', finishes, rfl, rfl⟩, rfl⟩
    · rintro ⟨r, request, rfl⟩
      obtain ⟨r', cs', finishes, same, rfl⟩ := Session.finishes_claims_iff.mp request
      cases same
      exact ⟨r, cs', finishes, rfl, rfl⟩

/-- A validator of the same cache for tokens of another issuer. -/
def exampleStranger : Validator where
  rules := { algorithms := [.hs256], issuers := ["j"], audiences := ["a"] }
  source := .cache 0
  requireKeyId := false

/-- Two validators share a cache. The first one waits for a fetch and rejects the token for its
issuer; the second one finds the keys in the cache and accepts it, without another fetch. -/
example :
    let p := Validation.start Validation.exampleAsk [exampleStranger, Validation.exampleUnnamed]
      Validation.exampleToken ⟨1⟩ Validation.exampleEmpty
    (match p with
      | (.pending w, cs) =>
        let q := Validation.resume Validation.exampleAsk w ⟨1⟩ cs
        (Validation.isAccepted q.1, (q.2 0).started)
      | (.done _, _) => (false, 0)) = (true, 1) := by
  decide +kernel

end BearerAuth
