import BearerAuth.Proofs.KeyCache.Writes
import BearerAuth.Proofs.Session.Operations

/-!
# BearerAuth — what a key cache holds after a run of a session

Callers that look for keys, callers that put key sets into a cache and fetches that are completed
late all race for one slot. Whatever the order, the slot holds one whole key set: the last one that
was written, with the time at which it was. A fetch that fails is not seen there at all, and the
index by which keys are looked up agrees with the list of keys.

Main results:

* `Client.Coherent.failed` — what a fetch that fails leaves behind.
* `cache_integrity`        — what a cache holds after any run of a session.
-/

namespace BearerAuth

namespace Client

variable {σ : Type u} {ask : σ → Option ProviderAnswer × σ} {c : Client σ} {l : Lookup}
  {now : UnixTime} {f : Nat} {cause : FetchError}

/-- A fetch fails when a lookup is polled. -/
structure Failed (ask : σ → Option ProviderAnswer × σ) (c : Client σ) (l : Lookup) (now : UnixTime)
    (f : Nat) (cause : FetchError) : Prop where
  /-- It was in flight, if only since the beginning of this poll. -/
  flying : (c.engage l now).2.inFlight = some f
  /-- Then nothing is, and otherwise the client is as it was. The provider was asked, and those who
  wait will have the cause. -/
  after : (c.poll ask l now).2 = { (c.engage l now).2 with
    provider := (ask (c.engage l now).2.provider).2
    inFlight := none
    outcomes := (f, .error cause) :: (c.engage l now).2.outcomes }
  /-- Nothing else happens in the poll of a lookup that has been waiting. -/
  waiting : l.waitingFor ≠ none → (c.engage l now).2 = c
  /-- The first poll may start the fetch, but does not touch the cache either. -/
  cached : c.interruption = none → (c.poll ask l now).2.cached = c.cached

/-- A fetch that fails was in flight, and only what is in flight changes. The cache is not touched,
unless another party has arranged to write it in this very poll. -/
theorem Coherent.failed (h : c.Coherent) (hl : c.Knows l)
    (landing : c.landing? ask l now = some (f, .error cause)) : c.Failed ask l now f cause := by
  obtain ⟨waits, open_, -⟩ := poll_of_landing landing
  have engaged : (c.engage l now).2.Coherent := h.engage l now
  have after := poll_of_failed landing
  refine ⟨?_, after, ?_, ?_⟩
  · exact (engaged.inFlight_iff f).mpr ⟨h.engage_lt hl waits, open_⟩
  · intro hw
    obtain ⟨g, hg⟩ := Option.ne_none_iff_exists'.mp hw
    unfold Client.engage
    rw [hg]
  · intro quiet
    rw [after]
    -- the first part of the poll writes nothing but an interruption, and there is none
    rcases mayRead_engage c l now with ⟨same, -⟩ | ⟨keys, arranged, -⟩
    · exact same
    · rw [quiet] at arranged
      cases arranged

end Client

namespace Session

open Client (Write writes Failed)

/-- **Cache integrity.** In a session that began with fresh caches, whatever steps are taken: a
cache is empty if nothing was written to it, and otherwise it holds exactly the key set of the last
write, with the time of that write. Keys are found in it as by a scan of the list, through an index
that points into the list. A fetch that fails takes itself out of flight and changes nothing
else. -/
theorem cache_integrity {s : Session} (h : s.Fresh) (n : Nat) (steps : List Step) :
    ((s.run steps).2.caches n).cached.map Write.of =
        (writes Provider.ask (s.caches n) (s.history n steps)).getLast? ∧
      (∀ snapshot, ((s.run steps).2.caches n).cached = some snapshot → snapshot.Indexed) ∧
      ∀ before l now after f cause, s.history n steps = before ++ .poll l now :: after →
        let c := (s.caches n).run Provider.ask before
        c.landing? Provider.ask l now = some (f, .error cause) →
          c.Failed Provider.ask l now f cause := by
  refine ⟨?_, fun snapshot _ => snapshot.indexed, ?_⟩
  · rw [run_caches h.sound, Client.run_cached, (h.caches n).cached]
    simp
  · intro before l now after f cause split c landing
    -- the operations up to here are legal, and so is this one
    have legal := legal_history h.sound n steps
    rw [split] at legal
    obtain ⟨first, allowed, -⟩ := Client.legal_append.mp legal
    have coherent : c.Coherent := (h.caches n).coherent.run first
    exact coherent.failed allowed landing

/-- A key set is put into the cache while a fetch is in flight, the fetch is completed after that,
and when its keys are stale the next one fails. -/
def overtaken : List Step :=
  [.hold 0 true, .request "first" (.keys 0), .setKeys 0 ⟨[{ material := .secret [0] }]⟩,
    .hold 0 false, .poll "first", .serve 0 (.error (.format none)), .advance 10800,
    .request "second" (.keys 0)]

/-- The cache holds what the first fetch gave, as old as it is. -/
theorem cache_integrity_overtaken :
    let s := opening ⟨1000⟩ (.ok ⟨[{ material := .secret [1], id := some "k" }]⟩)
    s.Fresh ∧ (s.run overtaken).2.fetches 0 = 2 ∧
      ((s.run overtaken).2.caches 0).cached.map Write.of =
        some ⟨⟨[{ material := .secret [1], id := some "k" }]⟩, ⟨1000⟩⟩ := by
  intro s
  have fresh : s.Fresh := fresh_opening _ _
  have wrote : writes Provider.ask (s.caches 0) (s.history 0 overtaken) =
      [⟨⟨[{ material := .secret [0] }]⟩, ⟨1000⟩⟩,
        ⟨⟨[{ material := .secret [1], id := some "k" }]⟩, ⟨1000⟩⟩] := by decide +kernel
  refine ⟨fresh, by decide +kernel, ?_⟩
  rw [(cache_integrity fresh 0 overtaken).1, wrote]
  rfl

end Session
end BearerAuth
