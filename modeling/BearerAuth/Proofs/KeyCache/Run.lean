import BearerAuth.Proofs.KeyCache.Steps

/-!
# BearerAuth — runs of a key cache

A key cache is used by any number of parties, one atomic operation after another: a lookup is
polled, a key set is put into the cache, the provider changes, an interruption is arranged. Time is
part of the operations and may go in any direction. To drop a lookup is to poll it no more, so it
is no operation. Whoever polls a lookup again waits for a fetch that was started before; a list of
operations of which this is true is `Legal`.

Main results:

* `Coherent.apply` — in every state of a run, the fetch in flight is the one that was started and
  is not complete (`Coherent`).
* `apply_evolves`  — what one operation can do to the fetches of a client (`Evolves`): start one if
  none is in flight, and complete the one in flight.
* `run_outcome?`   — the outcome of a fetch never changes again.
-/

namespace BearerAuth.Client

variable {σ : Type u} {ask : σ → Option ProviderAnswer × σ} {c d : Client σ} {now : UnixTime}

/-! ## Operations -/

/-- An atomic operation on a key cache. -/
inductive Op (σ : Type u) where
  /-- A lookup is polled, for the first time or once more. -/
  | poll (l : Lookup) (now : UnixTime)
  | setKeys (keys : KeySet) (now : UnixTime)
  /-- A key set will get into the cache when the clock is next read. -/
  | interrupt (keys : KeySet)
  /-- The provider changes. -/
  | provide (f : σ → σ)

/-- The client after an operation. -/
def apply (ask : σ → Option ProviderAnswer × σ) (c : Client σ) : Op σ → Client σ
  | .poll l now => (c.poll ask l now).2
  | .setKeys keys now => c.setKeys keys now
  | .interrupt keys => { c with interruption := some keys }
  | .provide f => { c with provider := f c.provider }

/-- The client after operations in order. -/
def run (ask : σ → Option ProviderAnswer × σ) (c : Client σ) (ops : List (Op σ)) : Client σ :=
  ops.foldl (apply ask) c

/-- A lookup that waits for a fetch waits for one that was started. -/
def Knows (c : Client σ) (l : Lookup) : Prop := ∀ f, l.waitingFor = some f → f < c.started

/-- Only lookups that wait for started fetches are polled. -/
def Allows (c : Client σ) : Op σ → Prop
  | .poll l _ => c.Knows l
  | _ => True

/-- Operations each of which is allowed where it is made. -/
def Legal (ask : σ → Option ProviderAnswer × σ) : Client σ → List (Op σ) → Prop
  | _, [] => True
  | c, op :: rest => c.Allows op ∧ Legal ask (c.apply ask op) rest

@[simp] theorem run_nil (c : Client σ) : c.run ask [] = c := rfl

@[simp] theorem run_cons (c : Client σ) (op : Op σ) (ops : List (Op σ)) :
    c.run ask (op :: ops) = (c.apply ask op).run ask ops := rfl

/-- Operations in two parts; the second part begins where the first has led. -/
theorem run_append (c : Client σ) (a b : List (Op σ)) :
    c.run ask (a ++ b) = (c.run ask a).run ask b := List.foldl_append

/-- The last operation is made on the client that the others have led to. This is the form in which
an induction over what has happened so far meets a run. -/
theorem run_concat (c : Client σ) (ops : List (Op σ)) (op : Op σ) :
    c.run ask (ops ++ [op]) = (c.run ask ops).apply ask op := run_append c ops [op]

/-- Operations in two parts are legal if each part is legal where it begins. -/
theorem legal_append {a b : List (Op σ)} :
    Legal ask c (a ++ b) ↔ Legal ask c a ∧ Legal ask (c.run ask a) b := by
  induction a generalizing c with
  | nil => simp [Legal]
  | cons op a ih => simp [Legal, ih, and_assoc]

/-! ## The invariant -/

/-- A fetch that was started and is not complete. -/
def Unfinished (c : Client σ) (f : Nat) : Prop := f < c.started ∧ c.outcome? f = none

/-- What holds of the fetches of a client in every state of a run. -/
structure Coherent (c : Client σ) : Prop where
  /-- Only fetches that were started are complete. -/
  complete_lt : ∀ f o, c.outcome? f = some o → f < c.started
  /-- The fetch in flight is the one that is unfinished. -/
  inFlight_iff : ∀ f, c.inFlight = some f ↔ c.Unfinished f

/-- There is one unfinished fetch at most, since the field for the fetch in flight has room for
one. -/
theorem Coherent.unfinished_unique (h : c.Coherent) {f g : Nat} (hf : c.Unfinished f)
    (hg : c.Unfinished g) : f = g :=
  Option.some.inj (((h.inFlight_iff f).mpr hf).symm.trans ((h.inFlight_iff g).mpr hg))

/-- The number of the next fetch was not used before, so that it has no outcome. -/
theorem Coherent.outcome?_started (h : c.Coherent) : c.outcome? c.started = none := by
  cases ho : c.outcome? c.started with
  | none => rfl
  | some o => exact absurd (h.complete_lt _ o ho) (Nat.lt_irrefl _)

/-- A client that was just made. -/
structure Fresh (c : Client σ) : Prop where
  cached : c.cached = none
  lastAttempt : c.lastAttempt = none
  inFlight : c.inFlight = none
  outcomes : c.outcomes = []
  started : c.started = 0
  interruption : c.interruption = none

/-- A client that was just made has no fetches at all, and so nothing about them can be wrong. This
is where every run begins. -/
theorem Fresh.coherent (h : c.Fresh) : c.Coherent where
  complete_lt := by
    intro f o hf
    simp [outcome?, h.outcomes] at hf
  inFlight_iff := by
    intro f
    simp [Unfinished, h.inFlight, h.started]

/-- Coherence is about the fetches alone. What is cached, when the last fetch was started and what
state the provider is in make no difference to it. -/
theorem Coherent.of_fetches (h : c.Coherent) (ho : d.outcomes = c.outcomes)
    (hs : d.started = c.started) (hf : d.inFlight = c.inFlight) : d.Coherent := by
  have same : ∀ f, d.outcome? f = c.outcome? f := by
    intro f
    simp only [outcome?, ho]
  constructor
  · intro f o hfo
    rw [hs]
    exact h.complete_lt f o ((same f).symm.trans hfo)
  · intro f
    rw [hf, h.inFlight_iff f, Unfinished, Unfinished, hs, same f]

/-- In particular an interruption, which touches the cache and nothing else, keeps a client
coherent. -/
theorem Coherent.of_sameFetches (h : c.Coherent) (same : SameFetches c d) : d.Coherent :=
  h.of_fetches same.outcomes same.started same.inFlight

/-- To start a fetch when none is in flight keeps a client coherent: the new fetch has a number that
was not used before, and so it is unfinished, and it is the only one. -/
theorem Coherent.startFetch (h : c.Coherent) (idle : c.inFlight = none) (now : UnixTime) :
    (c.startFetch now).Coherent := by
  have none_unfinished : ∀ f, ¬ c.Unfinished f := by
    intro f hf
    rw [← h.inFlight_iff f, idle] at hf
    cases hf
  constructor
  · intro f o hf
    exact Nat.lt_succ_of_lt (h.complete_lt f o hf)
  intro f
  constructor
  · intro hf
    obtain rfl : c.started = f := Option.some.inj hf
    exact ⟨Nat.lt_succ_self _, h.outcome?_started⟩
  · rintro ⟨hlt, hout⟩
    have hf : ¬ f < c.started := fun hlt => none_unfinished f ⟨hlt, hout⟩
    have hlt : f < c.started + 1 := hlt
    -- an older fetch that is unfinished would have been in flight
    obtain rfl : f = c.started := by omega
    rfl

/-- To complete the unfinished fetch keeps a client coherent. Afterwards no fetch is in flight and
none is unfinished, because there was no other one. -/
theorem Coherent.completed (h : c.Coherent) {f : Nat} {a : ProviderAnswer} {o : FetchOutcome}
    (hf : c.Unfinished f) (hd : Completed c f a now o d) : d.Coherent := by
  have out : ∀ g, d.outcome? g = if g = f then some o else c.outcome? g :=
    fun g => outcome?_cons c f g o hd.outcomes
  constructor
  · intro g p hg
    rw [hd.started]
    rw [out] at hg
    split at hg
    · next hgf => exact hgf ▸ hf.1
    · exact h.complete_lt g p hg
  · intro g
    rw [hd.inFlight]
    -- nothing is in flight, so it is to be shown that nothing is unfinished
    refine ⟨nofun, fun ⟨hlt, hout⟩ => ?_⟩
    rw [hd.started] at hlt
    rw [out] at hout
    split at hout
    · cases hout
    · -- a second unfinished fetch would have been unfinished before
      next hgf => exact absurd (h.unfinished_unique ⟨hlt, hout⟩ hf) hgf

/-! ## One operation -/

/-- What the first part of a poll can do to the fetches of a client. -/
structure Engaged (c : Client σ) (now : UnixTime) (d : Client σ) : Prop where
  provider : d.provider = c.provider
  timing : d.timing = c.timing
  outcomes : d.outcomes = c.outcomes
  fetches :
    (d.started = c.started ∧ d.lastAttempt = c.lastAttempt ∧ d.inFlight = c.inFlight) ∨
      (c.inFlight = none ∧ d.started = c.started + 1 ∧ d.lastAttempt = some now ∧
        d.inFlight = some c.started)

/-- An interruption is all that happens if the lookup is answered or finds a fetch that is there. -/
theorem Engaged.of_sameFetches (h : SameFetches c d) : Engaged c now d :=
  ⟨h.provider, h.timing, h.outcomes, .inl ⟨h.started, h.lastAttempt, h.inFlight⟩⟩

/-- Otherwise a fetch is started, after the interruption. It is started by whoever found that none
was in flight, which is why there are never two of them. -/
theorem Engaged.startFetch (h : SameFetches c d) (idle : c.inFlight = none) :
    Engaged c now (d.startFetch now) :=
  ⟨h.provider, h.timing, h.outcomes,
    .inr ⟨idle, congrArg (· + 1) h.started, rfl, congrArg some h.started⟩⟩

/-- The first part of any poll, in terms of fetches: they stay as they are, or one is started
because none was in flight. It says nothing about what is cached. -/
theorem engage_engaged (c : Client σ) (l : Lookup) (now : UnixTime) :
    Engaged c now (c.engage l now).2 := by
  obtain ⟨d, same, ⟨s, h⟩ | ⟨f, -, h⟩ | ⟨-, idle, h⟩⟩ := engage_cases c l now
  · rw [h]
    exact .of_sameFetches same
  · rw [h]
    exact .of_sameFetches same
  · rw [h]
    -- only the last case starts a fetch
    exact .startFetch same idle

/-- The first part of a poll keeps a client coherent, since it starts a fetch only if none is in
flight. -/
theorem Coherent.engage (h : c.Coherent) (l : Lookup) (now : UnixTime) :
    (c.engage l now).2.Coherent := by
  obtain ⟨d, same, ⟨s, he⟩ | ⟨f, -, he⟩ | ⟨-, idle, he⟩⟩ := engage_cases c l now
  · rw [he]
    exact h.of_sameFetches same
  · rw [he]
    exact h.of_sameFetches same
  · rw [he]
    exact (h.of_sameFetches same).startFetch (same.inFlight.trans idle) now

/-- The fetch that a poll finds was started, if only just now. So what a lookup waits for always
exists, and its outcome, once there is one, is the outcome of that fetch. -/
theorem Coherent.engage_lt (h : c.Coherent) {l : Lookup} (hl : c.Knows l) {f : Nat}
    (hf : (c.engage l now).1 = .waiting f) : f < (c.engage l now).2.started := by
  obtain ⟨d, same, ⟨s, he⟩ | ⟨g, hg, he⟩ | ⟨-, -, he⟩⟩ := engage_cases c l now
  · rw [he] at hf
    cases hf
  · -- the lookup waits for it already, or it is in flight
    rw [he] at hf ⊢
    obtain rfl : g = f := by simpa using hf
    rw [same.started]
    rcases hg with hg | hg
    · exact hl g hg
    · exact ((h.inFlight_iff g).mp hg).1
  · rw [he] at hf ⊢
    obtain rfl : c.started = f := by simpa using hf
    -- it was started just now and has the last number
    show c.started < d.started + 1
    rw [same.started]
    exact Nat.lt_succ_self _

/-- What one operation can do to the fetches of a client. -/
structure Evolves (ask : σ → Option ProviderAnswer × σ) (c d : Client σ) : Prop where
  timing : d.timing = c.timing
  /-- A fetch is started only if none is in flight. -/
  started : d.started = c.started ∨ c.inFlight = none ∧ d.started = c.started + 1
  /-- Outcomes stay as they are. -/
  kept : ∀ f o, c.outcome? f = some o → d.outcome? f = some o
  /-- A completion clears the fetch in flight, and what was fetched is in the cache. -/
  landed : ∀ f o, c.outcome? f = none → d.outcome? f = some o →
    d.inFlight = none ∧ (∀ s, o = .ok s → d.cached = some s) ∧
      (ask c.provider).1 = some (o.map Snapshot.keys)

/-- An operation that starts no fetch and completes none does nothing to the fetches, whatever else
it does. -/
theorem Evolves.of_outcomes (ht : d.timing = c.timing) (hs : d.started = c.started)
    (ho : d.outcomes = c.outcomes) : Evolves ask c d := by
  have same : ∀ f, d.outcome? f = c.outcome? f := by
    intro f
    simp only [outcome?, ho]
  refine ⟨ht, .inl hs, fun f o hf => (same f).trans hf, ?_⟩
  intro f o hf hd
  rw [same, hf] at hd
  cases hd

/-- Neither does the first part of a poll, apart from the start of a fetch. It never completes
one. -/
theorem Engaged.evolves (h : Engaged c now d) : Evolves ask c d := by
  have same : ∀ f, d.outcome? f = c.outcome? f := by
    intro f
    simp only [outcome?, h.outcomes]
  refine ⟨h.timing, ?_, fun f o hf => (same f).trans hf, ?_⟩
  · rcases h.fetches with ⟨hs, -, -⟩ | ⟨idle, hs, -, -⟩
    · exact .inl hs
    · exact .inr ⟨idle, hs⟩
  · intro f o hf hd
    -- an outcome that is there afterwards was there before
    rw [same, hf] at hd
    cases hd

/-- A client cannot tell what is made of an outcome. The lookup gets it, or goes on waiting, and the
client is as the fetch has left it in both cases. -/
theorem await_snd (c : Client σ) (q : Query) (f : Nat) (now : UnixTime) :
    (c.await ask q f now).2 = (c.advance ask f now).2 := by
  unfold await
  rcases c.advance ask f now with ⟨_ | _, _⟩ <;> rfl

/-- Advancing a fetch starts none, and does not count as an attempt. Attempts are counted when a
fetch is started. -/
theorem advance_keeps (c : Client σ) (f : Nat) (now : UnixTime) :
    (c.advance ask f now).2.started = c.started ∧
      (c.advance ask f now).2.lastAttempt = c.lastAttempt := by
  obtain ⟨o, -, ha⟩ | ⟨-, -, ha⟩ | ⟨a, o, d, -, -, hd, ha⟩ := advance_cases ask c f now
  · rw [ha]
    exact ⟨rfl, rfl⟩
  · rw [ha]
    exact ⟨rfl, rfl⟩
  · rw [ha]
    -- completed: the number of fetches is that of the starts
    exact ⟨hd.started, hd.lastAttempt⟩

/-- If a poll starts a fetch, then its first part does. Whatever is said about the throttling of
fetches can hence be said about the first part alone. -/
theorem poll_keeps (c : Client σ) (l : Lookup) (now : UnixTime) :
    (c.poll ask l now).2.started = (c.engage l now).2.started ∧
      (c.poll ask l now).2.lastAttempt = (c.engage l now).2.lastAttempt := by
  rw [poll_eq_engage]
  cases c.engage l now with
  | mk b d =>
    cases b with
    | answered s => exact ⟨rfl, rfl⟩
    | waiting f =>
      dsimp only
      rw [await_snd]
      exact advance_keeps d f now

/-- The second part of a poll, after a first part that left `d`. At most the fetch that the poll has
found is completed, with what the provider has answered to this very poll. There is one case for
each way in which the first part can end, and in each of them the fetch is open or complete. -/
theorem Engaged.advance_evolves (h : Engaged c now d) (f : Nat) :
    Evolves ask c (d.advance ask f now).2 := by
  have same : ∀ f, d.outcome? f = c.outcome? f := by
    intro f
    simp only [outcome?, h.outcomes]
  have first : Evolves ask c d := h.evolves
  obtain ⟨o, -, he⟩ | ⟨-, -, he⟩ | ⟨a, o, e, hf, ha, hd, he⟩ := advance_cases ask d f now
  · -- the fetch was complete before
    rw [he]
    exact first
  · -- the provider was asked in vain
    rw [he]
    refine ⟨first.timing, first.started, first.kept, ?_⟩
    intro g o hg hd
    have hd : d.outcome? g = some o := hd
    rw [same, hg] at hd
    cases hd
  · -- the fetch is completed
    rw [he]
    have out : ∀ g, e.outcome? g = if g = f then some o else d.outcome? g :=
      fun g => outcome?_cons _ f g o hd.outcomes
    refine ⟨hd.timing.trans first.timing, ?_, ?_, ?_⟩
    · rw [hd.started]
      exact first.started
    · intro g p hg
      -- an outcome that was there is not that of the completed fetch, which had none
      have hg := first.kept g p hg
      rw [out]
      split
      · next hgf =>
        rw [hgf, hf] at hg
        cases hg
      · exact hg
    · intro g p hg hp
      rw [out] at hp
      split at hp
      · -- the only new outcome
        obtain rfl : o = p := Option.some.inj hp
        rw [← h.provider, ha, hd.answer]
        exact ⟨hd.inFlight, fun s hs => (hd.fetched s hs).1, rfl⟩
      · -- no other fetch becomes complete
        rw [same, hg] at hp
        cases hp

/-- What a poll can do to the fetches: its two parts one after the other. The first may start a
fetch, and the second may complete the one that is waited for. -/
theorem poll_evolves (c : Client σ) (l : Lookup) (now : UnixTime) :
    Evolves ask c (c.poll ask l now).2 := by
  have engaged := engage_engaged c l now
  cases he : c.engage l now with
  | mk b d =>
    rw [he] at engaged
    cases b with
    | answered s =>
      rw [poll_of_answered ask he]
      exact engaged.evolves
    | waiting f =>
      rw [poll_of_waiting ask he, await_snd]
      exact engaged.advance_evolves f

/-- What any one operation can do to the fetches. Other parties reach the cache and the provider
with theirs, but never a fetch, and time plays no part in this. -/
theorem apply_evolves (c : Client σ) (op : Op σ) : Evolves ask c (c.apply ask op) := by
  cases op with
  | poll l now => exact poll_evolves c l now
  | setKeys keys now =>
    have same := sameFetches_setKeys c keys now
    exact .of_outcomes same.timing same.started same.outcomes
  | interrupt keys => exact .of_outcomes rfl rfl rfl
  | provide f => exact .of_outcomes rfl rfl rfl

/-- To advance a fetch that was started keeps a client coherent, whether it is complete already, is
completed, or has to wait on. -/
theorem Coherent.advance (h : c.Coherent) {f : Nat} (hf : f < c.started) (now : UnixTime) :
    (c.advance ask f now).2.Coherent := by
  obtain ⟨o, -, he⟩ | ⟨-, -, he⟩ | ⟨a, o, e, hout, -, hd, he⟩ := advance_cases ask c f now
  · rw [he]
    exact h
  · rw [he]
    exact h.of_fetches rfl rfl rfl
  · rw [he]
    -- the state of the provider does not matter to coherence
    have hc : Coherent { c with provider := (ask c.provider).2 } := h.of_fetches rfl rfl rfl
    exact hc.completed ⟨hf, hout⟩ hd

/-- A poll keeps a client coherent, provided that its lookup waits for no fetch that was never
started. This is where legality is needed: such a fetch would be advanced, and completed, without a
start. -/
theorem Coherent.poll (h : c.Coherent) {l : Lookup} (hl : c.Knows l) (now : UnixTime) :
    (c.poll ask l now).2.Coherent := by
  have hd := h.engage l now
  have hlt : ∀ f, (c.engage l now).1 = .waiting f → f < (c.engage l now).2.started :=
    fun _ hf => h.engage_lt hl hf
  cases he : c.engage l now with
  | mk b d =>
    rw [he] at hd hlt
    cases b with
    -- nothing is asked of the provider
    | answered s =>
      rw [poll_of_answered ask he]
      exact hd
    | waiting f =>
      -- the fetch that is waited for is asked once
      rw [poll_of_waiting ask he, await_snd]
      exact hd.advance (hlt f rfl) now

/-- A lookup that has to wait after it was polled waits for a fetch that was started. So a party
that does nothing but poll its lookup again and again makes legal operations only. -/
theorem Coherent.knows_of_pending (h : c.Coherent) {l l' : Lookup} (hl : c.Knows l)
    (hp : (c.poll ask l now).1 = .pending l') : (c.poll ask l now).2.Knows l' := by
  obtain ⟨f, he, rfl⟩ := engage_of_pending ask hp
  intro g hg
  obtain rfl : f = g := Option.some.inj hg
  rw [(poll_keeps c l now).1]
  exact h.engage_lt hl he

/-- **One step.** An operation that is allowed keeps a client coherent. Only a poll can touch the
fetches; it is allowed if the lookup waits for a fetch that there is. -/
theorem Coherent.apply (h : c.Coherent) {op : Op σ} (hop : c.Allows op) :
    (c.apply ask op).Coherent := by
  cases op with
  | poll l now => exact h.poll hop now
  | setKeys keys now => exact h.of_sameFetches (sameFetches_setKeys c keys now)
  | interrupt keys => exact h.of_fetches rfl rfl rfl
  | provide f => exact h.of_fetches rfl rfl rfl

/-! ## Whole runs -/

/-- **Whole runs.** A client is coherent after any legal operations, by induction on them. All that
is proved about every reachable client rests on this. -/
theorem Coherent.run (h : c.Coherent) {ops : List (Op σ)} (legal : Legal ask c ops) :
    (c.run ask ops).Coherent := by
  induction ops generalizing c with
  | nil => exact h
  | cons op ops ih => exact ih (h.apply legal.1) legal.2

/-- The outcome of a fetch never changes again, and is there for every lookup that waits for it,
however late it is polled. -/
theorem run_outcome? {f : Nat} {o : FetchOutcome} (h : c.outcome? f = some o)
    (ops : List (Op σ)) : (c.run ask ops).outcome? f = some o := by
  induction ops generalizing c with
  | nil => exact h
  | cons op ops ih => exact ih ((apply_evolves c op).kept f o h)

/-- Fetches that were started stay started: their number never falls. A lookup that knows its fetch
knows it for good. -/
theorem started_le_run (c : Client σ) (ops : List (Op σ)) :
    c.started ≤ (c.run ask ops).started := by
  induction ops generalizing c with
  | nil => exact Nat.le_refl _
  | cons op ops ih =>
    have evolves : Evolves ask c (c.apply ask op) := apply_evolves c op
    have first : c.started ≤ (c.apply ask op).started := by
      rcases evolves.started with h | ⟨-, h⟩
      · omega
      · omega
    exact Nat.le_trans first (ih _)

end BearerAuth.Client
