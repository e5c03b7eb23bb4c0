import BearerAuth.Proofs.Session.Provenance
import BearerAuth.Proofs.Validator.Unnamed

/-!
# BearerAuth — validating a token once more

A validation may find its keys at once, start a fetch, or join one that another caller started long
ago and was dropped from. Whichever way it went, if it came to a conclusion about the token, then
the same validation made once more at once comes to the same conclusion, and nobody is asked for
keys. The snapshot that the first one was settled with is in the cache, it is fresh since it has
just been fetched, and it has the key. So a wrong signature makes nobody fetch keys again.

There is no conclusion if the keys could not be had or if the key that the token names is not among
them. The next validation may then ask for keys again.

A validation that runs by itself is one between whose steps nothing happens but that the provider
changes, which it may do in any way (`Completes`). What carries the induction is that the fetch it
waits for stays incomplete until it is completed by the validation itself (`Steady`).

Main results:

* `Coherent.engage_quiet` — a lookup that nobody gets ahead of changes nothing or waits for a fetch.
* `Steady.start`, `Steady.resume` — one step of a validation that runs by itself.
* `repetition_stable`     — a conclusive validation that is repeated at once.
-/

namespace BearerAuth

namespace Client

variable {σ : Type u} {ask : σ → Option ProviderAnswer × σ} {c d : Client σ} {q : Query}
  {now : UnixTime} {f : Nat}

/-! ## Lookups that nobody gets ahead of -/

/-- The first part of the first poll: the lookup is answered and nothing has changed, or it waits
for a fetch that is not complete. That the client is coherent tells that the fetch in flight is
open; that nobody gets ahead tells that nothing happens besides. -/
theorem Coherent.engage_quiet (h : c.Coherent) (quiet : c.interruption = none) (q : Query)
    (now : UnixTime) :
    (∃ s, c.engage ⟨q, none⟩ now = (.answered s, c)) ∨
      ∃ f d, c.engage ⟨q, none⟩ now = (.waiting f, d) ∧ d.outcome? f = none ∧
        d.interruption = none := by
  by_cases lacks : c.Lacks q now
  · -- no fresh snapshot answers the query
    cases flying : c.inFlight with
    | some f =>
      have unfinished : c.Unfinished f := (h.inFlight_iff f).mp flying
      exact .inr ⟨f, c, engage_of_lacks_flying quiet lacks flying, unfinished.2, quiet⟩
    | none =>
      by_cases held : c.HoldsBack now
      · -- answered from a snapshot that does not have the key
        obtain ⟨s, hs, -⟩ := held.exists_fresh
        exact .inl ⟨s, engage_of_held quiet lacks flying held hs⟩
      · -- a fetch that was just started is the unfinished one
        have started : (c.startFetch now).Unfinished c.started :=
          ((h.startFetch flying now).inFlight_iff c.started).mp rfl
        exact .inr ⟨c.started, c.startFetch now, engage_of_free quiet lacks flying held,
          started.2, quiet⟩
  · -- a fresh snapshot answers the query
    simp only [Lacks, not_forall, not_or, Bool.not_eq_true, Bool.not_eq_false] at lacks
    obtain ⟨s, hs, fresh, hit⟩ := lacks
    exact .inl ⟨s, engage_of_hit quiet hs fresh hit⟩

/-- To complete a fetch arranges no interruption. If none is arranged, nobody gets ahead of the next
lookup either. -/
theorem complete_quiet (quiet : c.interruption = none) (f : Nat) (answer : ProviderAnswer)
    (now : UnixTime) : (c.complete f answer now).2.interruption = none := by
  unfold complete
  cases answer with
  | error e => exact quiet
  | ok keys =>
    show (c.readClock now).interruption = none
    rw [readClock_undisturbed quiet, quiet]

/-- What waiting for a fetch that was not complete comes to, and the client afterwards. -/
inductive Awaited (q : Query) (f : Nat) (now : UnixTime) :
    Poll Lookup FetchOutcome × Client σ → Prop
  | waits {d : Client σ} (incomplete : d.outcome? f = none) (quiet : d.interruption = none) :
    Awaited q f now (.pending ⟨q, some f⟩, d)
  | failed (e : FetchError) (d : Client σ) : Awaited q f now (.done (.error e), d)
  /-- The snapshot is in the cache, and is as old as the answer. -/
  | fetched {s : Snapshot} {d : Client σ} (held : d.cached = some s) (time : s.fetchedAt = now)
    (quiet : d.interruption = none) : Awaited q f now (.done (.ok s), d)

/-- Waiting for a fetch that was not complete ends in one of three ways. If it ends with keys, they
were fetched just now and are in the cache, which is why the next lookup finds them there. -/
theorem awaited (incomplete : c.outcome? f = none) (quiet : c.interruption = none) (q : Query)
    (now : UnixTime) : Awaited q f now (c.await ask q f now) := by
  unfold await
  obtain ⟨o, known, -⟩ | ⟨-, -, he⟩ | ⟨a, o, d, -, answer, completed, he⟩ :=
    advance_cases ask c f now
  · rw [incomplete] at known
    -- it was not complete before
    cases known
  · -- the provider has no answer yet
    rw [he]
    exact .waits incomplete quiet
  · rw [he]
    have after : d.interruption = none := by
      obtain rfl : _ = d := congrArg Prod.snd he
      rw [advance_of_answer incomplete answer]
      exact complete_quiet (c := { c with provider := (ask c.provider).2 }) quiet f a now
    cases o with
    | error e => exact .failed e d
    | ok s =>
      obtain ⟨held, time⟩ := completed.fetched s rfl
      exact .fetched held time after

end Client

variable {v : Validator} {token : String} {now : UnixTime} {n : Nat} {q : Query}
  {settle : FetchOutcome → UnixTime → ValidationResult}

/-! ## Conclusions -/

/-- A result that is about the token, and not about keys that could not be had or found. -/
def Conclusive (r : ValidationResult) : Prop :=
  (∀ e, r ≠ .error (.fetch e)) ∧ ∀ id, r ≠ .error (.unknownKey (some id))

namespace Validator

/-- Keys are looked up by the name of the key, or all of them if the token names none. What is made
of the outcome goes with the query. -/
theorem plan_lookup_cases (h : v.plan token now = .lookup n q settle) :
    v.source = .cache n ∧ ∃ d a,
      (∃ id, q = .key id ∧ settle = v.settleNamed d a id) ∨
        (q = .all ∧ settle = v.settleUnnamed d a) := by
  -- three early decisions do not look up anything, and two ways to look up are left
  unfold plan at h
  split at h
  · cases h
  next d _ =>
  split at h
  · cases h
  next a _ =>
  split at h
  · cases h
  · next m id source _ =>
    cases h
    exact ⟨source, d, a, .inl ⟨id, rfl, rfl⟩⟩
  · next m source _ =>
    split at h
    · cases h
    · cases h
      exact ⟨source, d, a, .inr ⟨rfl, rfl⟩⟩

/-- A lookup that leads to a conclusion has ended with a snapshot that answers its query. If it had
ended with an error, or without the key, the result would say so. -/
theorem exists_hit (h : v.plan token now = .lookup n q settle) {o : FetchOutcome} {t : UnixTime}
    (conclusive : Conclusive (settle o t)) : ∃ s, o = .ok s ∧ q.isAnsweredBy s = true := by
  obtain ⟨-, d, a, ⟨id, rfl, rfl⟩ | ⟨rfl, rfl⟩⟩ := plan_lookup_cases h
  · cases o with
    | error e => exact absurd rfl (conclusive.1 e)
    | ok s =>
      refine ⟨s, rfl, ?_⟩
      cases found : s.get? id with
      | some k =>
        show (s.get? id).isSome = true
        rw [found]
        rfl
      | none =>
        have unknown : v.settleNamed d a id (.ok s) t = .error (.unknownKey (some id)) := by
          unfold settleNamed FetchOutcome.key
          dsimp only
          rw [found]
          rfl
        -- the result would be about the key that was not found
        exact absurd unknown (conclusive.2 id)
  · cases o with
    | error e => exact absurd rfl (conclusive.1 e)
    | ok s => exact ⟨s, rfl, rfl⟩

end Validator

namespace Validation

variable {σ : Type u} {ask : σ → Option ProviderAnswer × σ} {cs : Caches σ}

/-! ## Once more -/

/-- The validation that is made in this state is done at once with the result. Whatever a provider
would do if it were asked, nothing changes. -/
def Repeats (v : Validator) (token : String) (now : UnixTime) (r : ValidationResult)
    (cs : Caches σ) : Prop :=
  ∀ ask : σ → Option ProviderAnswer × σ, start ask [v] token now cs = (.done r, cs)

/-- A lookup that is answered at once has done nothing, and so it is answered again in the same
way. -/
theorem repeats_of_answered (plan : v.plan token now = .lookup n q settle) {s : Snapshot}
    (h : (cs n).engage ⟨q, none⟩ now = (.answered s, cs n)) :
    Repeats v token now (settle (.ok s) now) cs := by
  intro ask
  rw [start_eq_resume plan, resume_of_done rfl (Client.poll_of_answered ask h)]
  exact congrArg (Prod.mk _) (cs.set_eq_self n)

/-- A snapshot that was fetched just now answers once more. It is fresh, and it has what was asked
for because the result is conclusive. -/
theorem repeats_of_fetched (plan : v.plan token now = .lookup n q settle) {s : Snapshot}
    (held : (cs n).cached = some s) (time : s.fetchedAt = now) (quiet : (cs n).interruption = none)
    (conclusive : Conclusive (settle (.ok s) now)) :
    Repeats v token now (settle (.ok s) now) cs := by
  obtain ⟨_, hs, hit⟩ := Validator.exists_hit plan conclusive
  cases hs
  have fresh : (cs n).isStale s now = false :=
    Client.isStale_eq_false_iff.mpr (Client.not_stale_of_fetchedAt time)
  exact repeats_of_answered plan (Client.engage_of_hit quiet held fresh hit)

/-! ## Validations that run by themselves -/

/-- A validation that goes on by itself at a time ends with a result. Each time it has to wait, the
provider of the cache that it waits for changes in some way, and nothing else happens before it is
polled again. -/
inductive Completes (ask : σ → Option ProviderAnswer × σ) (now : UnixTime) :
    Poll Suspension ValidationResult × Caches σ → ValidationResult → Caches σ → Prop
  | done (r : ValidationResult) (cs : Caches σ) : Completes ask now (.done r, cs) r cs
  | waits {w : Suspension} {cs cs' : Caches σ} {r : ValidationResult} (f : σ → σ)
    (rest : Completes ask now (resume ask w now (cs.apply ask (w.cache, .provide f))) r cs') :
    Completes ask now (.pending w, cs) r cs'

/-- What holds of a validation that runs by itself, after each of its steps. -/
inductive Steady (v : Validator) (token : String) (now : UnixTime) :
    Poll Suspension ValidationResult × Caches σ → Prop
  /-- The fetch that it waits for is not complete, and nobody is about to get ahead. -/
  | waits {w : Suspension} {cs : Caches σ} {f : Nat} (remembers : Remembers v token w)
    (waitsFor : w.lookup.waitingFor = some f) (incomplete : (cs w.cache).outcome? f = none)
    (quiet : (cs w.cache).interruption = none) : Steady v token now (.pending w, cs)
  | done {r : ValidationResult} {cs : Caches σ}
    (repeats : Conclusive r → Repeats v token now r cs) : Steady v token now (.done r, cs)

/-- A poll of a validation whose lookup waits for a fetch that was not complete keeps it steady.
There is one case for each way in which the waiting can go on or end. -/
theorem steady_of_awaited {w : Suspension} {f : Nat} (remembers : Remembers v token w)
    (h : Client.Awaited w.lookup.query f now ((cs w.cache).poll ask w.lookup now)) :
    Steady v token now (resume ask w now cs) := by
  generalize polled : (cs w.cache).poll ask w.lookup now = p at h
  cases h with
  | waits incomplete quiet =>
    rw [resume_of_pending polled]
    refine .waits (f := f) ⟨remembers.plan, remembers.rest⟩ rfl ?_ ?_
    · rw [Caches.set_self]
      exact incomplete
    · rw [Caches.set_self]
      exact quiet
  | failed e d =>
    -- a failure is not conclusive
    rw [resume_of_done remembers.rest polled]
    refine .done fun conclusive => ?_
    obtain ⟨_, hs, -⟩ := Validator.exists_hit (remembers.plan now) conclusive
    cases hs
  | fetched held time quiet =>
    rw [resume_of_done remembers.rest polled]
    refine .done (repeats_of_fetched (remembers.plan now) ?_ time ?_)
    · rw [Caches.set_self]
      exact held
    · rw [Caches.set_self]
      exact quiet

/-- The first step. A lookup that is answered at once has changed nothing, so it may as well be made
again. -/
theorem Steady.start (coherent : (cs n).Coherent) (quiet : (cs n).interruption = none)
    (source : v.source = .cache n) (token : String) (now : UnixTime) :
    Steady v token now (start ask [v] token now cs) := by
  cases plan : v.plan token now with
  | decided r =>
    rw [start_of_decided plan]
    -- no keys are needed, this time or the next
    exact .done fun _ ask => start_of_decided plan ask cs
  | lookup m q settle =>
    obtain rfl : m = n :=
      KeySource.cache.inj ((Validator.plan_lookup_cases plan).1.symm.trans source)
    obtain ⟨s, answered⟩ | ⟨f, d, waiting, incomplete, quiet⟩ := coherent.engage_quiet quiet q now
    · -- also if the answer is not conclusive
      have repeats := repeats_of_answered plan answered
      rw [repeats ask]
      exact .done fun _ => repeats
    · rw [start_eq_resume plan]
      refine steady_of_awaited (f := f) ⟨v.plan_of_lookup plan, rfl⟩ ?_
      rw [Client.poll_of_waiting ask waiting]
      exact Client.awaited incomplete quiet q now

/-- Each further step keeps it steady, whatever the provider has become. Only this validation can
complete the fetch that it waits for, since nothing else happens in between. -/
theorem Steady.resume {w : Suspension} (h : Steady v token now (.pending w, cs)) (f : σ → σ) :
    Steady v token now (resume ask w now (cs.apply ask (w.cache, .provide f))) := by
  cases h with
  | @waits _ _ g remembers waitsFor incomplete quiet =>
    refine steady_of_awaited (f := g) remembers ?_
    let c : Client σ := { cs w.cache with provider := f (cs w.cache).provider }
    have changed : cs.apply ask (w.cache, .provide f) w.cache = c := Caches.set_self _ _ _
    -- the lookup has found its fetch before, and the change leaves fetches alone
    have engaged : c.engage w.lookup now = (.waiting g, c) := by
      unfold Client.engage
      rw [waitsFor]
    have awaited : Client.Awaited w.lookup.query g now (c.await ask w.lookup.query g now) :=
      Client.awaited (c := c) incomplete quiet _ now
    rw [changed, Client.poll_of_waiting ask engaged]
    exact awaited

/-- A validation that runs by itself from a steady state repeats itself if it is conclusive. By
induction on the polls that it takes. -/
theorem Completes.repeats {p : Poll Suspension ValidationResult × Caches σ} {r : ValidationResult}
    {cs : Caches σ} (completes : Completes ask now p r cs) (steady : Steady v token now p)
    (conclusive : Conclusive r) : Repeats v token now r cs := by
  -- over the polls that it takes, from one steady state to the next
  induction completes with
  | done r cs =>
    cases steady with
    | done repeats => exact repeats conclusive
  | waits f rest ih => exact ih (steady.resume f) conclusive

/-- **Repeated validation is stable and quiet.** Take any state that a key cache can get into, in
which nobody is about to get ahead of whoever comes next, and let a validator over it validate a
token, by itself and at one time, until it is done. If the result is conclusive, then the same
validation made once more is done at once with the same result, asks nobody for keys and changes
nothing. -/
theorem repetition_stable {c : Client σ} (new : c.Fresh) {ops : List (Client.Op σ)}
    (legal : Client.Legal ask c ops) (reached : cs n = c.run ask ops)
    (quiet : (cs n).interruption = none) (source : v.source = .cache n) {r : ValidationResult}
    {cs' : Caches σ} (completes : Completes ask now (start ask [v] token now cs) r cs')
    (conclusive : Conclusive r) : Repeats v token now r cs' := by
  have coherent : (cs n).Coherent := by
    -- the caches are the result of a legal run, so the fetches are in order
    rw [reached]
    exact new.coherent.run legal
  exact completes.repeats (.start coherent quiet source token now) conclusive

/-- A provider that answers with a key of another issuer once it is ready. -/
def whenReady (ready : Bool) : Option ProviderAnswer × Bool :=
  (if ready then some (.ok ⟨[{ material := .secret [2] }]⟩) else none, ready)

/-- A key cache that nobody has used. -/
def idle : Client Bool := { provider := false }

/-- Somebody has asked for keys, and was dropped while the provider was not ready. -/
def deserted : Caches Bool := fun _ => idle.run whenReady [.poll ⟨.all, none⟩ ⟨0⟩]

/-- What a validation comes to that waits and is resumed once the provider is ready. -/
def onceReady (now : UnixTime) :
    Poll Suspension ValidationResult × Caches Bool → Poll Suspension ValidationResult
  | (.pending w, cs) =>
    (resume whenReady w now (cs.apply whenReady (w.cache, .provide fun _ => true))).1
  | (p, _) => p

/-- A validation joins the fetch, and finds a key that does not confirm the signature. Made once
more, it does not ask for keys again: the key that it has found is in the cache, and it is fresh. -/
theorem repetition_stable_joined :
    ∃ w cs cs', start whenReady [exampleUnnamed] exampleToken ⟨1⟩ deserted = (.pending w, cs) ∧
      resume whenReady w ⟨1⟩ (cs.apply whenReady (w.cache, .provide fun _ => true)) =
        (.done (.error .invalidSignature), cs') ∧
      Repeats exampleUnnamed exampleToken ⟨1⟩ (.error .invalidSignature) cs' := by
  have rejected : rejection? (onceReady ⟨1⟩
      (start whenReady [exampleUnnamed] exampleToken ⟨1⟩ deserted)) = some .invalidSignature := by
    decide +kernel
  have waits :
      rejection? (start whenReady [exampleUnnamed] exampleToken ⟨1⟩ deserted).1 = none := by
    decide +kernel
  cases started : start whenReady [exampleUnnamed] exampleToken ⟨1⟩ deserted with
  | mk p cs =>
    rw [started] at rejected waits
    cases p with
    | done r =>
      -- a validation that is done stays so, and this one has not rejected the token
      exact absurd (waits.symm.trans rejected) nofun
    | pending w =>
      let resumed := resume whenReady w ⟨1⟩
        (cs.apply whenReady (w.cache, .provide fun _ => true))
      have ends : resumed = (.done (.error .invalidSignature), resumed.2) :=
        Prod.ext (done_of_rejection? rejected) rfl
      have completes : Completes whenReady ⟨1⟩
          (start whenReady [exampleUnnamed] exampleToken ⟨1⟩ deserted)
          (.error .invalidSignature) resumed.2 := by
        rw [started]
        refine .waits (fun _ => true) ?_
        show Completes whenReady ⟨1⟩ resumed (.error .invalidSignature) resumed.2
        rw [ends]
        exact .done _ _
      have new : Client.Fresh idle := ⟨rfl, rfl, rfl, rfl, rfl, rfl⟩
      have legal : Client.Legal whenReady idle [.poll ⟨.all, none⟩ ⟨0⟩] := ⟨nofun, trivial⟩
      have reached : deserted 0 = idle.run whenReady [.poll ⟨.all, none⟩ ⟨0⟩] := rfl
      exact ⟨w, cs, resumed.2, rfl, ends,
        repetition_stable new legal reached rfl rfl completes ⟨nofun, nofun⟩⟩

end Validation
end BearerAuth
