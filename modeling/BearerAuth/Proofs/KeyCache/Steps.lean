import BearerAuth.KeyCache.Client

/-!
# BearerAuth — what a step of a key cache can do

Everything that is proved about runs of a key cache rests on a few facts about single steps, which
are collected here. A poll of a lookup has two parts. In the first one (`Client.engage`) the lookup
is answered from a snapshot, or finds the fetch that it waits for: one that it has been waiting for
since an earlier poll, the one in flight, or a new one. In the second one that fetch is advanced.

An interruption only touches the cache (`SameFetches`), so it never matters to fetches.

Main results:

* `engage_cases`           — the three ways in which the first part can end.
* `lacks_of_begin_started` — a lookup that starts a fetch needs one, whoever gets ahead of it.
* `advance_cases`          — the three ways in which a fetch can be advanced.
* `complete_spec`          — what the completion of a fetch does, for either kind of answer.
* `poll_of_engaged`        — a lookup that has found its fetch has its outcome, or waits on.
* `engage_of_hit`, `engage_of_lacks_flying`, `engage_of_held`, `engage_of_free` — the first part of
  the first poll, when no interruption is arranged.
* `poll_of_answers`        — nobody waits for a provider that answers.
-/

namespace BearerAuth.Client

variable {σ : Type u} {c d : Client σ} {l : Lookup} {q : Query} {s : Snapshot} {now : UnixTime}

/-! ## Interruptions leave fetches alone -/

/-- Two states that differ at most in what is cached. -/
structure SameFetches (c d : Client σ) : Prop where
  provider : d.provider = c.provider
  timing : d.timing = c.timing
  lastAttempt : d.lastAttempt = c.lastAttempt
  inFlight : d.inFlight = c.inFlight
  outcomes : d.outcomes = c.outcomes
  started : d.started = c.started

theorem SameFetches.refl (c : Client σ) : SameFetches c c := ⟨rfl, rfl, rfl, rfl, rfl, rfl⟩

theorem SameFetches.trans {e : Client σ} (h : SameFetches c d) (k : SameFetches d e) :
    SameFetches c e where
  provider := k.provider.trans h.provider
  timing := k.timing.trans h.timing
  lastAttempt := k.lastAttempt.trans h.lastAttempt
  inFlight := k.inFlight.trans h.inFlight
  outcomes := k.outcomes.trans h.outcomes
  started := k.started.trans h.started

/-- To put a key set into the cache makes a snapshot and touches no fetch. -/
theorem sameFetches_store (c : Client σ) (keys : KeySet) (now : UnixTime) :
    SameFetches c (c.store keys now) := ⟨rfl, rfl, rfl, rfl, rfl, rfl⟩

/-- To read the clock may let another party put a key set into the cache, and does no more. This is
the one moment within a poll at which somebody else can act. -/
theorem sameFetches_readClock (c : Client σ) (now : UnixTime) :
    SameFetches c (c.readClock now) := by
  unfold readClock
  split
  · exact .refl c
  · exact ⟨rfl, rfl, rfl, rfl, rfl, rfl⟩

/-- The check for staleness reads the clock, unless snapshots never are stale. -/
theorem sameFetches_afterStaleCheck (c : Client σ) (now : UnixTime) :
    SameFetches c (c.afterStaleCheck now) := by
  unfold afterStaleCheck
  split
  · exact .refl c
  · exact sameFetches_readClock c now

/-- Whoever puts a key set into the cache leaves the fetches alone, also when another party gets
ahead. -/
theorem sameFetches_setKeys (c : Client σ) (keys : KeySet) (now : UnixTime) :
    SameFetches c (c.setKeys keys now) :=
  (sameFetches_readClock c now).trans (sameFetches_store _ keys now)

/-- In particular the outcomes are the same. This is the form in which later proofs use it. -/
theorem SameFetches.outcome? (h : SameFetches c d) (f : Nat) : d.outcome? f = c.outcome? f := by
  unfold Client.outcome?
  rw [h.outcomes]

/-- If nobody has arranged an interruption, to read the clock changes nothing. -/
theorem readClock_undisturbed (h : c.interruption = none) (now : UnixTime) :
    c.readClock now = c := by
  unfold readClock
  rw [h]

/-- Neither does the check for staleness then. -/
theorem afterStaleCheck_undisturbed (h : c.interruption = none) (now : UnixTime) :
    c.afterStaleCheck now = c := by
  unfold afterStaleCheck
  rw [readClock_undisturbed h, ite_self]

/-! ## The first part of a poll -/

/-- The first part of a poll: the lookup is answered, or finds the fetch that it waits for. -/
def engage (c : Client σ) (l : Lookup) (now : UnixTime) : Beginning × Client σ :=
  match l.waitingFor with
  | some fetch => (.waiting fetch, c)
  | none => c.begin l.query now

/-- The second part of a poll advances the fetch that the first part has found. Everything about
polls is proved for the two parts by themselves, and joined by this lemma. -/
theorem poll_eq_engage (ask : σ → Option ProviderAnswer × σ) (c : Client σ) (l : Lookup)
    (now : UnixTime) :
    c.poll ask l now =
      match c.engage l now with
      | (.answered s, d) => (.done (.ok s), d)
      | (.waiting fetch, d) => d.await ask l.query fetch now := by
  unfold poll engage
  cases l.waitingFor <;> rfl

/-- A lookup that is answered in the first part is done, and its provider is not asked. -/
theorem poll_of_answered (ask : σ → Option ProviderAnswer × σ)
    (h : c.engage l now = (.answered s, d)) : c.poll ask l now = (.done (.ok s), d) := by
  rw [poll_eq_engage, h]

/-- A lookup that finds a fetch goes on with the second part. -/
theorem poll_of_waiting (ask : σ → Option ProviderAnswer × σ) {f : Nat}
    (h : c.engage l now = (.waiting f, d)) :
    c.poll ask l now = d.await ask l.query f now := by
  rw [poll_eq_engage, h]

/-- How a refresh can end: with a snapshot, with the fetch in flight, or, if none is in flight, with
a new fetch. Whatever happens before that is an interruption, which touches no fetch. -/
theorem refresh_cases (c : Client σ) (observed : Option Snapshot) (throttled : Bool)
    (now : UnixTime) :
    ∃ d, SameFetches c d ∧
      ((∃ s, c.refresh observed throttled now = (.answered s, d)) ∨
        (∃ f, c.inFlight = some f ∧ c.refresh observed throttled now = (.waiting f, d)) ∨
        (c.inFlight = none ∧
          c.refresh observed throttled now = (.waiting c.started, d.startFetch now))) := by
  unfold refresh
  split
  · -- another snapshot has come into the cache
    next s _ => exact ⟨c, .refl c, .inl ⟨s, rfl⟩⟩
  · split
    · -- there is a fetch to join
      next f hf => exact ⟨c, .refl c, .inr (.inl ⟨f, hf, rfl⟩)⟩
    · -- the clock is read, so an interruption may take place before the start
      next hf =>
      have same := sameFetches_readClock c now
      refine ⟨c.readClock now, same, ?_⟩
      dsimp only
      split
      · next s _ _ => exact .inl ⟨s, rfl⟩
      · rw [same.started]
        exact .inr (.inr ⟨hf, rfl⟩)

/-- How the first step of a lookup can end. It is one refresh or none, after an interruption that
may have taken place when staleness was checked. -/
theorem begin_cases (c : Client σ) (q : Query) (now : UnixTime) :
    ∃ d, SameFetches c d ∧
      ((∃ s, c.begin q now = (.answered s, d)) ∨
        (∃ f, c.inFlight = some f ∧ c.begin q now = (.waiting f, d)) ∨
        (c.inFlight = none ∧ c.begin q now = (.waiting c.started, d.startFetch now))) := by
  unfold begin
  split
  · -- nothing is cached, so nothing is checked before the refresh
    exact refresh_cases c none false now
  · next s _ =>
    have same := sameFetches_afterStaleCheck c now
    -- the refresh finds the fetches as they were, throttled or not
    have after : ∀ throttled, _ :=
      fun throttled => refresh_cases (c.afterStaleCheck now) (some s) throttled now
    simp only [same.inFlight, same.started] at after
    dsimp only
    split
    · -- stale
      obtain ⟨d, hd, h⟩ := after false
      exact ⟨d, same.trans hd, h⟩
    · split
      · -- fresh, and it answers the query
        exact ⟨_, same, .inl ⟨s, rfl⟩⟩
      · -- fresh, and it fails the query
        obtain ⟨d, hd, h⟩ := after true
        exact ⟨d, same.trans hd, h⟩

/-- How the first part of a poll can end: with a snapshot, with a fetch that was started before
(`l` waits for it already, or it is in flight), or, if none is in flight, with a new fetch. -/
theorem engage_cases (c : Client σ) (l : Lookup) (now : UnixTime) :
    ∃ d, SameFetches c d ∧
      ((∃ s, c.engage l now = (.answered s, d)) ∨
        (∃ f, (l.waitingFor = some f ∨ c.inFlight = some f) ∧
          c.engage l now = (.waiting f, d)) ∨
        (l.waitingFor = none ∧ c.inFlight = none ∧
          c.engage l now = (.waiting c.started, d.startFetch now))) := by
  unfold engage
  split
  · -- a lookup that waits already goes on to wait
    next f hf => exact ⟨c, .refl c, .inr (.inl ⟨f, .inl hf, rfl⟩)⟩
  · next hl =>
    obtain ⟨d, hd, h | ⟨f, hf, h⟩ | ⟨hf, h⟩⟩ := begin_cases c l.query now
    · exact ⟨d, hd, .inl h⟩
    · exact ⟨d, hd, .inr (.inl ⟨f, .inr hf, h⟩)⟩
    · exact ⟨d, hd, .inr (.inr ⟨hl, hf, h⟩)⟩

/-! ## Lookups that start a fetch -/

/-- No fresh snapshot answers the query, so that the lookup needs a fetch. -/
def Lacks (c : Client σ) (q : Query) (now : UnixTime) : Prop :=
  ∀ s, c.cached = some s → c.isStale s now = true ∨ q.isAnsweredBy s = false

/-- Lookups that a fresh snapshot fails are held back: the last fetch was started too recently. -/
def HoldsBack (c : Client σ) (now : UnixTime) : Prop :=
  c.isHeldBack (c.cached.any fun s => !c.isStale s now) now = true

/-- Only a lookup that finds a fresh snapshot is ever held back; there would be nothing to answer
the others with. -/
theorem HoldsBack.exists_fresh (h : c.HoldsBack now) :
    ∃ s, c.cached = some s ∧ c.isStale s now = false := by
  unfold HoldsBack isHeldBack at h
  rw [Bool.and_eq_true, Option.any_eq_true] at h
  obtain ⟨⟨s, hs, fresh⟩, -⟩ := h
  exact ⟨s, hs, by simpa using fresh⟩

/-- A lookup that is held back starts no fetch, also if another party gets ahead of it. The other
party can only make the snapshot newer. -/
theorem refresh_started_of_held {throttled : Bool} (held : c.isHeldBack throttled now = true) :
    (c.refresh (some s) throttled now).2.started = c.started := by
  unfold refresh
  split
  · rfl
  · split
    · rfl
    · dsimp only
      -- whether it is held back was decided before the interruption
      rw [held]
      exact (sameFetches_readClock c now).started

/-- A lookup that starts a fetch needs one and is not held back, whoever gets ahead of it. Both are
said of the state before the poll, although the fetch is started in the state after the
interruption: what the decision rests on is the snapshot that was seen first, and the time of the
last start. -/
theorem lacks_of_begin_started (h : (c.begin q now).2.started ≠ c.started) :
    c.Lacks q now ∧ ¬ c.HoldsBack now := by
  unfold begin at h
  cases hs : c.cached with
  | none =>
    -- nothing is cached
    constructor
    · intro s hs'
      rw [hs] at hs'
      cases hs'
    · intro held
      obtain ⟨s, hs', -⟩ := held.exists_fresh
      rw [hs] at hs'
      cases hs'
  | some s =>
    rw [hs] at h
    dsimp only at h
    have same := sameFetches_afterStaleCheck c now
    cases stale : c.isStale s now with
    | true =>
      constructor
      · intro s' hs'
        obtain rfl : s = s' := Option.some.inj (hs.symm.trans hs')
        exact .inl stale
      · intro held
        -- a stale snapshot holds nothing back
        obtain ⟨s', hs', fresh⟩ := held.exists_fresh
        obtain rfl : s = s' := Option.some.inj (hs.symm.trans hs')
        rw [stale] at fresh
        cases fresh
    | false =>
      rw [stale, if_neg Bool.false_ne_true] at h
      split at h
      · -- answered
        exact absurd same.started h
      · next miss =>
        constructor
        · intro s' hs'
          obtain rfl : s = s' := Option.some.inj (hs.symm.trans hs')
          exact .inr (Bool.eq_false_iff.mpr miss)
        · -- the stale check leaves alone what holds lookups back
          intro held
          apply h
          have held : (c.afterStaleCheck now).isHeldBack true now = true := by
            unfold HoldsBack at held
            rw [hs] at held
            unfold isHeldBack at held ⊢
            rw [same.lastAttempt, same.timing]
            simpa [stale] using held
          rw [refresh_started_of_held held]
          exact same.started

/-! ## The first poll without interruption -/

/-- Nobody has moved on from the snapshot that is in the cache now. If the caller has seen this one,
a refresh is not answered with it once more. -/
theorem movedOn?_cached (c : Client σ) : c.movedOn? c.cached = none := by
  unfold movedOn?
  cases c.cached <;> simp

/-- A refresh that finds a fetch in flight joins it, and nothing changes. Whether it would be held
back is not asked. -/
theorem refresh_cached_of_flying {f : Nat} (hf : c.inFlight = some f) (throttled : Bool)
    (now : UnixTime) : c.refresh c.cached throttled now = (.waiting f, c) := by
  unfold refresh
  rw [movedOn?_cached, hf]

/-- A refresh that is held back is answered from the snapshot that was observed, although it does
not have what was asked for. -/
theorem refresh_cached_of_held {throttled : Bool} (h : c.interruption = none)
    (hf : c.inFlight = none) (hs : c.cached = some s)
    (held : c.isHeldBack throttled now = true) :
    c.refresh c.cached throttled now = (.answered s, c) := by
  unfold refresh
  rw [movedOn?_cached, hf]
  dsimp only
  rw [readClock_undisturbed h, held, hs]

/-- Otherwise a refresh starts a fetch, with the next number. -/
theorem refresh_cached_of_free {throttled : Bool} (h : c.interruption = none)
    (hf : c.inFlight = none) (free : c.isHeldBack throttled now = false) :
    c.refresh c.cached throttled now = (.waiting c.started, c.startFetch now) := by
  unfold refresh
  rw [movedOn?_cached, hf]
  dsimp only
  rw [readClock_undisturbed h, free]

/-- A fresh snapshot that answers the query is the answer, and nothing changes. The clock is read
once, for the check whether it is fresh. -/
theorem engage_of_hit (h : c.interruption = none) (hs : c.cached = some s)
    (fresh : c.isStale s now = false) (hit : q.isAnsweredBy s = true) :
    c.engage ⟨q, none⟩ now = (.answered s, c) := by
  unfold engage begin
  rw [hs]
  dsimp only
  rw [afterStaleCheck_undisturbed h, fresh, hit]
  simp

/-- The lookup whose query is lacking makes a refresh, held back only if its snapshot is fresh: an
empty cache and a stale one are refreshed without regard to the interval. -/
theorem begin_of_lacks (h : c.interruption = none) (lacks : c.Lacks q now) :
    c.begin q now = c.refresh c.cached (c.cached.any fun s => !c.isStale s now) now := by
  unfold begin
  cases hs : c.cached with
  | none => rfl
  | some s =>
    dsimp only
    -- nobody gets ahead between the look at the cache and the refresh
    rw [afterStaleCheck_undisturbed h]
    cases hstale : c.isStale s now with
    | true => simp [hstale]
    | false =>
      -- a fresh snapshot that is lacking must lack the key
      have miss : q.isAnsweredBy s = false := by
        rcases lacks s hs with h | h
        · rw [hstale] at h
          cases h
        · exact h
      simp [hstale, miss]

/-- A lookup that needs a fetch joins the one in flight, and nothing changes. -/
theorem engage_of_lacks_flying {f : Nat} (h : c.interruption = none) (lacks : c.Lacks q now)
    (hf : c.inFlight = some f) : c.engage ⟨q, none⟩ now = (.waiting f, c) := by
  show c.begin q now = _
  rw [begin_of_lacks h lacks, refresh_cached_of_flying hf]

/-- A lookup that is held back is answered from the snapshot at hand, and nothing changes. The
caller will not find its key there, and learns so without a fetch. -/
theorem engage_of_held (h : c.interruption = none) (lacks : c.Lacks q now)
    (hf : c.inFlight = none) (held : c.HoldsBack now) (hs : c.cached = some s) :
    c.engage ⟨q, none⟩ now = (.answered s, c) := by
  show c.begin q now = _
  rw [begin_of_lacks h lacks, refresh_cached_of_held h hf hs held]

/-- A lookup that needs a fetch and is not held back starts one if none is in flight. -/
theorem engage_of_free (h : c.interruption = none) (lacks : c.Lacks q now)
    (hf : c.inFlight = none) (free : ¬ c.HoldsBack now) :
    c.engage ⟨q, none⟩ now = (.waiting c.started, c.startFetch now) := by
  show c.begin q now = _
  rw [begin_of_lacks h lacks, refresh_cached_of_free h hf (Bool.eq_false_iff.mpr free)]

/-! ## The second part of a poll -/

/-- What the completion of a fetch does to a client, given the answer of the provider. -/
structure Completed (c : Client σ) (f : Nat) (answer : ProviderAnswer) (now : UnixTime)
    (o : FetchOutcome) (d : Client σ) : Prop where
  provider : d.provider = c.provider
  timing : d.timing = c.timing
  lastAttempt : d.lastAttempt = c.lastAttempt
  started : d.started = c.started
  inFlight : d.inFlight = none
  outcomes : d.outcomes = (f, o) :: c.outcomes
  /-- The outcome is what the provider gave. -/
  answer : o.map Snapshot.keys = answer
  /-- Fetched keys are in the cache, with the time of the completion. -/
  fetched : ∀ s, o = .ok s → d.cached = some s ∧ s.fetchedAt = now
  /-- A failure leaves the cache alone. -/
  failed : ∀ e, o = .error e → d.cached = c.cached

/-- **Completion.** What becomes of a client when a fetch is completed, in one statement for
successes and failures. The invariants of runs are derived from it, and no other proof opens the
definition. -/
theorem complete_spec (c : Client σ) (f : Nat) (answer : ProviderAnswer) (now : UnixTime) :
    Completed c f answer now (c.complete f answer now).1 (c.complete f answer now).2 := by
  unfold complete
  cases answer with
  | error e =>
    -- the clock is not even read
    exact {
      provider := rfl, timing := rfl, lastAttempt := rfl, started := rfl, inFlight := rfl
      outcomes := rfl, answer := rfl
      fetched := fun s hs => by cases hs
      failed := fun _ _ => rfl }
  | ok keys =>
    -- an interruption may come before the fetched keys, and is overwritten
    have same := sameFetches_readClock c now
    exact {
      provider := same.provider, timing := same.timing, lastAttempt := same.lastAttempt
      started := same.started, inFlight := rfl
      outcomes := by simp only [same.outcomes]
      answer := rfl
      fetched := fun s hs => by
        cases hs
        exact ⟨rfl, rfl⟩
      failed := fun e he => by cases he }

/-- **Three ways.** How a fetch can be advanced: it is complete already, its provider has no answer
yet, or it is completed with the answer of the provider. Only in the first of them the provider is
not called. -/
theorem advance_cases (ask : σ → Option ProviderAnswer × σ) (c : Client σ) (f : Nat)
    (now : UnixTime) :
    (∃ o, c.outcome? f = some o ∧ c.advance ask f now = (some o, c)) ∨
      (c.outcome? f = none ∧ (ask c.provider).1 = none ∧
        c.advance ask f now = (none, { c with provider := (ask c.provider).2 })) ∨
      (∃ a o d, c.outcome? f = none ∧ (ask c.provider).1 = some a ∧
        Completed { c with provider := (ask c.provider).2 } f a now o d ∧
        c.advance ask f now = (some o, d)) := by
  unfold advance
  cases hf : c.outcome? f with
  | some o => exact .inl ⟨o, rfl, rfl⟩
  | none =>
    -- not complete, so that the provider is asked
    refine .inr ?_
    dsimp only
    cases ha : ask c.provider with
    | mk a p =>
      cases a with
      | none => exact .inl ⟨rfl, rfl, rfl⟩
      | some a =>
        have completed := complete_spec { c with provider := p } f a now
        exact .inr ⟨a, _, _, rfl, rfl, completed, rfl⟩

/-- A new outcome is entered for its fetch and changes nothing about the others. What was told to
those who waited earlier is told to those who come later. -/
theorem outcome?_cons (c : Client σ) (f g : Nat) (o : FetchOutcome)
    (h : d.outcomes = (f, o) :: c.outcomes) :
    d.outcome? g = if g = f then some o else c.outcome? g := by
  unfold outcome?
  rw [h, List.lookup_cons]
  by_cases hg : g = f
  · simp [hg]
  · rw [if_neg hg, beq_eq_false_iff_ne.mpr hg]

/-- Advancing a fetch gives its outcome, as it is known afterwards. So whoever completes a fetch
sees what everybody else will see. -/
theorem advance_fst (ask : σ → Option ProviderAnswer × σ) (c : Client σ) (f : Nat)
    (now : UnixTime) : (c.advance ask f now).1 = (c.advance ask f now).2.outcome? f := by
  obtain ⟨o, ho, h⟩ | ⟨ho, -, h⟩ | ⟨a, o, d, -, -, hd, h⟩ := advance_cases ask c f now
  · rw [h]
    -- it was known before
    exact ho.symm
  · -- the provider has no answer, and the client has no outcome
    rw [h]
    exact ho.symm
  · rw [h]
    exact ((outcome?_cons _ f f o hd.outcomes).trans (if_pos rfl)).symm

/-- A poll ends with the outcome of a fetch, or else the lookup waits for that fetch. -/
def Follows (c : Client σ) (ask : σ → Option ProviderAnswer × σ) (l : Lookup) (now : UnixTime)
    (f : Nat) : Prop :=
  ((c.poll ask l now).2.outcome? f = none ∧
      (c.poll ask l now).1 = .pending ⟨l.query, some f⟩) ∨
    ∃ o, (c.poll ask l now).2.outcome? f = some o ∧ (c.poll ask l now).1 = .done o

/-- A lookup that has found its fetch has the outcome of that fetch, or else it waits on. There is
no other way for it to end. -/
theorem poll_of_engaged (ask : σ → Option ProviderAnswer × σ) {f : Nat}
    (h : (c.engage l now).1 = .waiting f) : c.Follows ask l now f := by
  have he : c.engage l now = (.waiting f, (c.engage l now).2) := by rw [← h]
  have first := advance_fst ask (c.engage l now).2 f now
  unfold Follows
  rw [poll_of_waiting ask he]
  unfold await
  -- what the second part gives is what is known afterwards, whichever it is
  generalize (c.engage l now).2.advance ask f now = r at first ⊢
  obtain ⟨o, d⟩ := r
  cases o with
  | none => exact .inl ⟨first.symm, rfl⟩
  | some o => exact .inr ⟨o, first.symm, rfl⟩

/-- A lookup that has to wait waits for the fetch that it has found. -/
theorem engage_of_pending (ask : σ → Option ProviderAnswer × σ) {l' : Lookup}
    (h : (c.poll ask l now).1 = .pending l') :
    ∃ f, (c.engage l now).1 = .waiting f ∧ l' = ⟨l.query, some f⟩ := by
  cases he : (c.engage l now).1 with
  | answered s =>
    have he : c.engage l now = (.answered s, (c.engage l now).2) := by rw [← he]
    -- an answered lookup is not pending
    rw [poll_of_answered ask he] at h
    cases h
  | waiting f =>
    refine ⟨f, rfl, ?_⟩
    obtain ⟨-, hp⟩ | ⟨o, -, hp⟩ := poll_of_engaged ask he
    · rw [hp] at h
      cases h
      rfl
    · rw [hp] at h
      cases h

/-! ## Providers that answer -/

/-- Providers in a ready state have an answer for whoever asks, and stay ready. Nothing is said
about providers in other states: they may answer or keep a lookup waiting. -/
structure Answers (ask : σ → Option ProviderAnswer × σ) (Ready : σ → Prop) : Prop where
  answered : ∀ p, Ready p → ((ask p).1).isSome = true
  again : ∀ p, Ready p → Ready (ask p).2

/-- The first part of a poll does not call the provider, not even if it starts a fetch. The call is
made when the fetch is advanced, by whoever does so first. -/
theorem engage_provider (c : Client σ) (l : Lookup) (now : UnixTime) :
    (c.engage l now).2.provider = c.provider := by
  obtain ⟨d, same, ⟨s, h⟩ | ⟨f, -, h⟩ | ⟨-, -, h⟩⟩ := engage_cases c l now
  · rw [h]
    exact same.provider
  · rw [h]
    exact same.provider
  · -- the start of a fetch does not call the provider yet
    rw [h]
    exact same.provider

/-- No lookup waits for a provider that is ready, whatever state the client is in: a fetch is either
complete already or completed by the poll itself. -/
theorem poll_of_answers {ask : σ → Option ProviderAnswer × σ} {Ready : σ → Prop}
    (answers : Answers ask Ready) (ready : Ready c.provider) (l : Lookup) (now : UnixTime) :
    ∃ o d, c.poll ask l now = (.done o, d) ∧ Ready d.provider := by
  have kept : Ready (c.engage l now).2.provider := by
    rw [engage_provider]
    exact ready
  cases he : c.engage l now with
  | mk b d =>
    rw [he] at kept
    cases b with
    | answered s => exact ⟨.ok s, d, poll_of_answered ask he, kept⟩
    | waiting f =>
      rw [poll_of_waiting ask he]
      unfold await
      obtain ⟨o, -, h⟩ | ⟨-, silent, -⟩ | ⟨a, o, d', -, -, completed, h⟩ :=
        advance_cases ask d f now
      · rw [h]
        exact ⟨o, d, rfl, kept⟩
      · -- a provider that is ready is not silent
        have answered := answers.answered _ kept
        rw [silent] at answered
        cases answered
      · rw [h]
        refine ⟨o, d', rfl, ?_⟩
        rw [completed.provider]
        exact answers.again _ kept

end BearerAuth.Client
