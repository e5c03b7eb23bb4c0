import BearerAuth.Proofs.KeyCache.Throttling
import BearerAuth.Proofs.KeyCache.Writes
import BearerAuth.Proofs.Session.Operations

/-!
# BearerAuth — where keys come from

A key that was withdrawn must not be served again. A lookup has many ways to end: a hit in the
cache, the interval that has not passed, a key set that came into the cache in the middle of the
lookup, a fetch that it starts or one that it joins. In all of them the key comes from one of two
places (`Source`): a snapshot that was in the cache when the lookup was made and was not stale, or a
fetch that was not complete by then and that the lookup took part in. So a key that is in neither
is never served, whatever snapshots there were before, and however late the lookup is polled.

Main results:

* `source_of_answered`     — a lookup that needs no fetch is answered from a fresh snapshot.
* `Coherent.takesPart`     — a lookup only waits for a fetch that is not complete when it is made.
* `Coherent.outcome_of_finds` — what a lookup ends with, whichever way it went.
* `key_provenance`         — where keys and errors come from, for every lookup of a session.
-/

namespace BearerAuth

namespace Client

variable {σ : Type u} {ask : σ → Option ProviderAnswer × σ} {c d : Client σ} {q : Query}
  {id : String} {s : Snapshot} {now : UnixTime} {f : Nat} {o : FetchOutcome}
  {r : Except KeysError Key} {ops : List (Op σ)}

/-! ## Sources -/

/-- The fetch that a lookup takes part in which is made at a time. It is not complete when the
lookup is made: it is in flight then, or the lookup starts it. -/
structure TakesPart (c : Client σ) (q : Query) (now : UnixTime) (f : Nat) : Prop where
  waits : (c.engage ⟨q, none⟩ now).1 = .waiting f
  incomplete : c.outcome? f = none
  joins_or_starts : c.inFlight = some f ∨ c.inFlight = none ∧ f = c.started ∧
    (c.engage ⟨q, none⟩ now).2.inFlight = some f

/-- A snapshot that a lookup may be answered from, given the client when the lookup was made and
when it ends. -/
inductive Source (c : Client σ) (q : Query) (now : UnixTime) (d : Client σ) (s : Snapshot) : Prop
  /-- It was in the cache when the lookup was made. -/
  | cached (held : c.cached = some s) (fresh : ¬ c.timing.Stale s now)
  /-- Another party put it there in the middle of the first poll. -/
  | overtaken (arranged : c.interruption ≠ none)
    (held : (c.engage ⟨q, none⟩ now).2.cached = some s) (fresh : ¬ c.timing.Stale s now)
  | fetched (f : Nat) (takesPart : c.TakesPart q now f) (outcome : d.outcome? f = some (.ok s))

/-- A snapshot that was made just now is not stale, whatever the time for which snapshots are good.
A time of zero means that they never are stale. -/
theorem not_stale_of_fetchedAt {t : Timing} (h : s.fetchedAt = now) : ¬ t.Stale s now := by
  unfold Timing.Stale
  rw [h]
  omega

/-- A refresh that ends with a snapshot gives the observed one, to a lookup that is held back, or
another one that is in the cache. It never gives a snapshot that was observed and is stale, because
only lookups that found a fresh one are held back. -/
theorem refresh_answered {observed : Option Snapshot} {throttled : Bool}
    (h : c.refresh observed throttled now = (.answered s, d)) :
    (observed = some s ∧ throttled = true) ∨ (c.movedOn? observed = some s ∧ d = c) := by
  unfold refresh at h
  split at h
  · next moved =>
    cases h
    exact .inr ⟨moved, rfl⟩
  · split at h
    · cases h
    · dsimp only at h
      split at h
      · next held _ =>
        cases h
        -- lookups are held back only if they are throttled
        unfold isHeldBack at held
        rw [Bool.and_eq_true] at held
        exact .inl ⟨rfl, held.1⟩
      · cases h

/-- A snapshot that has moved on is not the one that was observed. Snapshots are told apart by
number, and two that hold the same keys are different ones. -/
theorem ne_of_movedOn? {observed : Snapshot} (h : c.movedOn? (some observed) = some s) :
    c.cached = some s ∧ s ≠ observed := by
  unfold movedOn? at h
  cases cached : c.cached with
  | none => simp [cached] at h
  -- a snapshot is passed on only if it is another one than was seen
  | some t =>
    simp only [cached] at h
    split at h
    · cases h
    · next other =>
      cases h
      refine ⟨rfl, ?_⟩
      rintro rfl
      exact other rfl

/-- A lookup that needs no fetch is answered from a snapshot that is in the cache and fresh. There
are two ways: it is the one that was seen first, and its age was checked, or another party has put
it there since, which is to say just now. -/
theorem source_of_answered (h : c.engage ⟨q, none⟩ now = (.answered s, d)) (e : Client σ) :
    c.Source q now e s := by
  have after : (c.engage ⟨q, none⟩ now).2 = d := congrArg Prod.snd h
  change c.begin q now = (.answered s, d) at h
  unfold begin at h
  cases cached : c.cached with
  | none =>
    -- nothing is there to be answered from
    rw [cached] at h
    rcases refresh_answered h with ⟨observed, -⟩ | ⟨moved, -⟩
    · cases observed
    · simp [movedOn?, cached] at moved
  | some seen =>
    rw [cached] at h
    dsimp only at h
    have read : MayRead c now (c.afterStaleCheck now) := mayRead_afterStaleCheck c now
    -- a snapshot that is not the one seen first has come with an interruption, just now
    have moved : (c.afterStaleCheck now).movedOn? (some seen) = some s →
        d = c.afterStaleCheck now → c.Source q now e s := by
      intro hmoved hd
      obtain ⟨held, other⟩ := ne_of_movedOn? hmoved
      rcases read with ⟨same, -⟩ | ⟨keys, arranged, -, written⟩
      · rw [same, cached] at held
        exact absurd (Option.some.inj held).symm other
      · rw [held] at written
        have time : s.fetchedAt = now := congrArg Write.time (Option.some.inj written)
        refine .overtaken ?_ ?_ (not_stale_of_fetchedAt time)
        · rw [arranged]
          exact Option.some_ne_none keys
        · rw [after, hd, held]
    cases stale : c.isStale seen now with
    | true =>
      -- a stale snapshot is not given, only one that has come since
      rw [stale, if_pos rfl] at h
      rcases refresh_answered h with ⟨-, throttled⟩ | ⟨hmoved, hd⟩
      · cases throttled
      · exact moved hmoved hd
    | false =>
      have fresh : ¬ c.timing.Stale seen now := isStale_eq_false_iff.mp stale
      rw [stale, if_neg Bool.false_ne_true] at h
      split at h
      · cases h
        exact .cached cached fresh
      · rcases refresh_answered h with ⟨observed, -⟩ | ⟨hmoved, hd⟩
        · cases observed
          exact .cached cached fresh
        · exact moved hmoved hd

/-- A lookup only waits for a fetch that is not complete when the lookup is made. So whatever that
fetch brings was fetched, or at least its answer was given, after the lookup was made. -/
theorem Coherent.takesPart (h : c.Coherent) (waits : (c.engage ⟨q, none⟩ now).1 = .waiting f) :
    c.TakesPart q now f := by
  obtain ⟨d, same, ⟨s, he⟩ | ⟨g, hg, he⟩ | ⟨-, idle, he⟩⟩ := engage_cases c ⟨q, none⟩ now
  · rw [he] at waits
    cases waits
  · -- the lookup joins the fetch in flight
    obtain rfl : g = f := by
      rw [he] at waits
      exact Beginning.waiting.inj waits
    have flying : c.inFlight = some g := by
      rcases hg with hg | hg
      · cases hg
      · exact hg
    exact ⟨waits, ((h.inFlight_iff g).mp flying).2, .inl flying⟩
  · -- the lookup starts a fetch, whose number was not used before
    obtain rfl : c.started = f := by
      rw [he] at waits
      exact Beginning.waiting.inj waits
    refine ⟨waits, h.outcome?_started, .inr ⟨idle, rfl, ?_⟩⟩
    rw [he]
    exact congrArg some same.started

/-! ## Lookups for a key -/

/-- A lookup for a key that is made at a time, before these operations, and ends with a result: at
once, or when it is polled again, in the middle of the operations. -/
inductive Finds (ask : σ → Option ProviderAnswer × σ) (c : Client σ) (id : String)
    (now : UnixTime) : List (Op σ) → Except KeysError Key → Client σ → Prop
  | atOnce {o : FetchOutcome} (ops : List (Op σ))
    (done : (c.poll ask ⟨.key id, none⟩ now).1 = .done o) :
    Finds ask c id now ops (o.key id) (c.poll ask ⟨.key id, none⟩ now).2
  | later {l : Lookup} {o : FetchOutcome} {t : UnixTime} (between rest : List (Op σ))
    (waits : (c.poll ask ⟨.key id, none⟩ now).1 = .pending l)
    (done : (((c.poll ask ⟨.key id, none⟩ now).2.run ask between).poll ask l t).1 = .done o) :
    Finds ask c id now (between ++ .poll l t :: rest) (o.key id)
      (((c.poll ask ⟨.key id, none⟩ now).2.run ask between).poll ask l t).2

/-- A lookup ends with a snapshot that it may be answered from, or with the outcome of the fetch
that it took part in. The two are told apart by the first poll, and nothing that happens later can
change which fetch it is. -/
theorem Coherent.outcome_of_finds (h : c.Coherent) (found : c.Finds ask id now ops r d) :
    ∃ o, r = FetchOutcome.key id o ∧ ((∃ s, o = .ok s ∧ c.Source (.key id) now d s) ∨
      ∃ f, c.TakesPart (.key id) now f ∧ d.outcome? f = some o) := by
  cases found with
  | @atOnce o _ done =>
    refine ⟨o, rfl, ?_⟩
    cases he : c.engage ⟨.key id, none⟩ now with
    | mk b e =>
      cases b with
      | answered s =>
        rw [poll_of_answered ask he] at done
        cases done
        exact .inl ⟨s, rfl, source_of_answered he _⟩
      | waiting f =>
        have waits : (c.engage ⟨.key id, none⟩ now).1 = .waiting f := by rw [he]
        obtain ⟨-, pending⟩ | ⟨o', known, done'⟩ := poll_of_engaged ask waits
        · rw [pending] at done
          cases done
        · rw [done'] at done
          cases done
          -- the fetch was completed by the very poll that found it
          exact .inr ⟨f, h.takesPart waits, known⟩
  | @later l o t between rest waits done =>
    refine ⟨o, rfl, .inr ?_⟩
    obtain ⟨f, engaged, rfl⟩ := engage_of_pending ask waits
    refine ⟨f, h.takesPart engaged, ?_⟩
    -- the lookup goes on with the fetch that it has been waiting for, whatever happened since
    have again : (((c.poll ask ⟨.key id, none⟩ now).2.run ask between).engage
        ⟨.key id, some f⟩ t).1 = .waiting f := rfl
    obtain ⟨-, pending⟩ | ⟨o', known, done'⟩ := poll_of_engaged ask again
    · rw [pending] at done
      cases done
    · rw [done'] at done
      cases done
      exact known

/-- Where the result of a lookup for a key comes from. -/
structure Provenance (c : Client σ) (id : String) (now : UnixTime) (d : Client σ)
    (r : Except KeysError Key) : Prop where
  /-- A key is the first of its identifier in a snapshot that the lookup may be answered from. -/
  found : ∀ k, r = .ok k → k.id = some id ∧
    ∃ s, c.Source (.key id) now d s ∧ s.keys.keys.find? (·.id == some id) = some k
  unknown : ∀ id', r = .error (.unknownKey id') → id' = id ∧
    ∃ s, c.Source (.key id) now d s ∧ ∀ k ∈ s.keys.keys, k.id ≠ some id
  failed : ∀ cause, r = .error (.fetch cause) →
    ∃ f, c.TakesPart (.key id) now f ∧ d.outcome? f = some (.error cause)
  /-- A key that is in none of these snapshots is not served. -/
  retired : ∀ k, (∀ s, c.Source (.key id) now d s → k ∉ s.keys.keys) → r ≠ .ok k

/-- Keys and errors of a lookup, by the outcome that it ends with. A key and an unknown identifier
come from a snapshot, and both kinds of snapshots are sources; any other error comes from a
fetch. -/
theorem Coherent.provenance (h : c.Coherent) (found : c.Finds ask id now ops r d) :
    c.Provenance id now d r := by
  obtain ⟨o, rfl, origin⟩ := h.outcome_of_finds found
  have source : ∀ s, o = .ok s → c.Source (.key id) now d s := by
    rintro s rfl
    rcases origin with ⟨s', hs, source⟩ | ⟨f, takesPart, outcome⟩
    · cases hs
      exact source
    · exact .fetched f takesPart outcome
  have first : ∀ k, o.key id = .ok k →
      ∃ s, c.Source (.key id) now d s ∧ s.keys.keys.find? (·.id == some id) = some k := by
    intro k hk
    cases o with
    | error cause => cases hk
    | ok s =>
      refine ⟨s, source s rfl, ?_⟩
      -- the index finds the first key of the identifier in the list
      unfold FetchOutcome.key at hk
      dsimp only at hk
      rw [Snapshot.get?_eq_find?, KeySet.find?] at hk
      split at hk
      · next k' hfind =>
        cases hk
        exact hfind
      · cases hk
  refine ⟨fun k hk => ?_, fun id' hid => ?_, fun cause hcause => ?_, fun k absent hk => ?_⟩
  · obtain ⟨s, hs, hfind⟩ := first k hk
    exact ⟨by simpa using List.find?_some hfind, s, hs, hfind⟩
  · cases o with
    | error cause => cases hid
    | ok s =>
      unfold FetchOutcome.key at hid
      dsimp only at hid
      split at hid
      · cases hid
      · next lacking =>
        cases hid
        exact ⟨rfl, s, source s rfl, Snapshot.get?_eq_none_iff.mp lacking⟩
  · cases o with
    | error cause' =>
      cases hcause
      -- a snapshot is no failure, so the lookup took part in a fetch
      rcases origin with ⟨s, hs, -⟩ | takesPart
      · cases hs
      · exact takesPart
    | ok s =>
      unfold FetchOutcome.key at hcause
      dsimp only at hcause
      split at hcause
      · cases hcause
      · cases hcause
  · obtain ⟨s, hs, hfind⟩ := first k hk
    exact absent s hs (List.mem_of_find?_eq_some hfind)

end Client

namespace Session

open Client (Op Finds Provenance)

/-- **Where keys come from.** In a session that began with fresh caches, take any lookup for a key
that is made on a cache, by a caller or by a validator on its way, and whatever happens until it
ends. A key that it ends with is the first one of the identifier in a snapshot which was in the
cache and fresh when the lookup was made, or which was fetched by a fetch that was not complete by
then and that the lookup started or joined. The identifier is unknown only to such a snapshot, and
an error is the one of that fetch. -/
theorem key_provenance {s : Session} (h : s.Fresh) (n : Nat) (steps : List Step) :
    (s.run steps).2.caches n = (s.caches n).run Provider.ask (s.history n steps) ∧
      ∀ before id now after, s.history n steps = before ++ .poll ⟨.key id, none⟩ now :: after →
        ∀ r d, Finds Provider.ask ((s.caches n).run Provider.ask before) id now after r d →
          Provenance ((s.caches n).run Provider.ask before) id now d r := by
  refine ⟨run_caches h.sound n steps, ?_⟩
  intro before id now after split r d found
  have legal := legal_history h.sound n steps
  -- the lookup is made after legal operations, in a coherent state
  rw [split] at legal
  have coherent := (h.caches n).coherent.run (Client.legal_append.mp legal).1
  exact coherent.provenance found

/-- A session whose provider lists no key any more. -/
def withdrawal : Session := opening ⟨1000⟩ (.ok ⟨[]⟩)

/-- A key set with a key is put into the cache and becomes stale. -/
def cachedKey : List Step :=
  [.setKeys 0 ⟨[{ material := .secret [1], id := some "k" }]⟩, .setClock ⟨20000⟩, .hold 0 true]

/-- A caller asks for the key. -/
def inquiry : List Step := [.request "caller" (.key 0 "k"), .hold 0 false, .poll "caller"]

/-- The key is still in the cache when the caller asks for it, and the caller does not get it. -/
theorem key_provenance_withdrawn :
    withdrawal.Fresh ∧ (withdrawal.run cachedKey).2.cachedKey? 0 "k" ≠ none ∧
      Provenance ((withdrawal.run cachedKey).2.caches 0) "k" ⟨20000⟩
        ((withdrawal.run (cachedKey ++ inquiry)).2.caches 0) (.error (.unknownKey "k")) := by
  have fresh : withdrawal.Fresh := fresh_opening _ _
  obtain ⟨last, lookups⟩ := key_provenance fresh 0 (cachedKey ++ inquiry)
  have start := (key_provenance fresh 0 cachedKey).1
  have split := history_append withdrawal 0 cachedKey inquiry
  have asked : (withdrawal.run cachedKey).2.history 0 inquiry =
      [.poll ⟨.key "k", none⟩ ⟨20000⟩, .provide (Provider.rearrange ({ · with held := false })),
        .poll ⟨.key "k", some 0⟩ ⟨20000⟩] := rfl
  rw [asked] at split
  refine ⟨fresh, by decide +kernel, ?_⟩
  rw [last, start, split, Client.run_append]
  -- the caller waits for the fetch that it starts, and has its outcome when it is polled again
  exact lookups _ "k" ⟨20000⟩ _ split _ _ (.later (o := .ok (.of ⟨[]⟩ ⟨20000⟩ 1)) [_] [] rfl rfl)

end Session
end BearerAuth
