import BearerAuth.Proofs.Session.Operations

/-!
# BearerAuth — single flight

However many callers need keys of a cache at a time, its provider is called once. This holds in
every state of a session: for any number of requests for keys and of validations, in any order,
dropped at any moment, under a clock that goes in any direction, whatever the provider answers and
whenever it does.

A fetch whose callers were all dropped is not given up: it stays in flight, and the next caller that
needs keys joins it. So no number of impatient callers makes a second fetch start before the first
one is complete, and the completion, be it a failure, makes room for the next fetch.

Main results:

* `turn`          — what one operation does to the fetches of a coherent client.
* `Counted.apply` — calls of an arranged provider keep step with fetches.
* `single_flight` — single flight in every state and at every operation of a session.
-/

namespace BearerAuth

namespace Client

variable {σ : Type u} {ask : σ → Option ProviderAnswer × σ} {c d : Client σ} {now : UnixTime}

/-! ## One operation -/

/-- What an operation does to the fetches of a client. -/
structure Turn (ask : σ → Option ProviderAnswer × σ) (c : Client σ) (op : Op σ) : Prop where
  /-- It starts one fetch at most, and none while another one is unfinished. -/
  starts : (c.apply ask op).started ≠ c.started →
    (c.apply ask op).started = c.started + 1 ∧ ∀ f, ¬ c.Unfinished f
  /-- If it makes a lookup that needs a fetch, the lookup joins the one that is unfinished. -/
  joins : ∀ q now f, op = .poll ⟨q, none⟩ now → c.interruption = none → c.Lacks q now →
    c.Unfinished f → c.Follows ask ⟨q, none⟩ now f
  /-- If it completes a fetch, none is in flight afterwards, whatever the outcome. -/
  clears : ∀ f o, c.outcome? f = none → (c.apply ask op).outcome? f = some o →
    (c.apply ask op).inFlight = none

/-- In a coherent state an operation starts a fetch only if none is unfinished, since it sees the
unfinished one in flight, and a lookup that needs a fetch joins it for the same reason. -/
theorem turn (h : c.Coherent) (op : Op σ) : Turn ask c op := by
  have evolves : Evolves ask c (c.apply ask op) := apply_evolves c op
  constructor
  · intro hs
    rcases evolves.started with same | ⟨idle, new⟩
    · exact absurd same hs
    · refine ⟨new, ?_⟩
      intro f hf
      rw [← h.inFlight_iff f, idle] at hf
      cases hf
  · intro q now f _ quiet lacks hf
    -- the invariant finds the unfinished fetch where the client looks for it
    have flying : c.inFlight = some f := (h.inFlight_iff f).mpr hf
    apply poll_of_engaged
    rw [engage_of_lacks_flying quiet lacks flying]
  · intro f o hc hd
    exact (evolves.landed f o hc hd).1

end Client

/-! ## Calls of an arranged provider -/

namespace Script

/-- A call is one call more unless one is going on, and then one is going on. So a fetch that is
polled again and again makes one call. -/
theorem called_spec (s : Script) :
    s.called.calls = (if s.busy then s.calls else s.calls + 1) ∧ s.called.busy = true := by
  unfold called
  cases h : s.busy <;> simp [h]

/-- An answer ends the call. A provider that is held gives none, and the call goes on. In neither
case is a new call made, so calls are counted where they begin. -/
theorem answer_spec {s : Script} (h : s.busy = true) :
    s.answer.2.calls = s.calls ∧ s.answer.2.busy = s.answer.1.isNone := by
  unfold answer
  split <;> simp [h]

end Script

namespace Client

variable {c d : Client Provider} {now : UnixTime}

/-- Calls of an arranged provider: one for each fetch that was started, and one is going on as long
as a fetch is in flight. -/
def Counted (c : Client Provider) : Prop :=
  ∀ script, c.provider = .arranged script →
    script.calls = c.started ∧ script.busy = c.inFlight.isSome

/-- Interruptions do not touch the provider, and so they make no calls. The fetches that calls are
counted against are the same as well. -/
theorem Counted.of_sameFetches (h : c.Counted) (same : SameFetches c d) : d.Counted := by
  intro script hs
  rw [same.started, same.inFlight]
  exact h script (same.provider ▸ hs)

/-- The provider is asked on behalf of the fetch in flight. The call for it has been going on, or is
made now if the fetch was just started. So calls and fetches stay in step: there is one call for
each fetch, and it lasts as long as the fetch is not complete. -/
theorem Counted.advance (h : c.Coherent) {f : Nat} (hf : f < c.started)
    (due : c.outcome? f = none →
      ∀ script, c.provider = .arranged script → script.called.calls = c.started)
    (complete : ∀ o, c.outcome? f = some o → c.Counted) :
    (c.advance Provider.ask f now).2.Counted := by
  -- what the provider of the client is after it was asked
  have asked : c.outcome? f = none → ∀ script, (Provider.ask c.provider).2 = .arranged script →
      script.calls = c.started ∧ script.busy = (Provider.ask c.provider).1.isNone := by
    intro hout script hs
    -- a fixed provider counts nothing
    cases hp : c.provider with
    | fixed keys =>
      rw [hp] at hs
      cases hs
    | arranged old =>
      rw [hp] at hs
      cases hs
      have hcalls := due hout old hp
      have hanswer := Script.answer_spec old.called_spec.2
      exact ⟨hanswer.1.trans hcalls, hanswer.2⟩
  obtain ⟨o, ho, he⟩ | ⟨hout, ha, he⟩ | ⟨a, o, d, hout, ha, hd, he⟩ :=
    advance_cases Provider.ask c f now
  · -- nobody is asked about a fetch that is complete
    rw [he]
    exact complete o ho
  · -- the call goes on, and so does the fetch
    rw [he]
    intro script hs
    have flying : c.inFlight = some f := (h.inFlight_iff f).mpr ⟨hf, hout⟩
    have after := asked hout script hs
    rw [ha] at after
    show script.calls = c.started ∧ script.busy = c.inFlight.isSome
    rw [flying]
    exact after
  · -- the call has its answer, and the fetch is complete
    rw [he]
    intro script hs
    rw [hd.provider] at hs
    have after := asked hout script hs
    rw [ha] at after
    rw [hd.started, hd.inFlight]
    exact after

/-- A poll keeps the calls counted. There are three cases: it is answered from the cache, and nobody
is asked; it finds a fetch that was started before, whose call is going on if it is unfinished; or
it starts a fetch, and with it a call. -/
theorem Counted.poll (h : c.Counted) (hc : c.Coherent) {l : Lookup} (hl : c.Knows l)
    (now : UnixTime) : (c.poll Provider.ask l now).2.Counted := by
  have engaged := hc.engage l now
  have lt : ∀ f, (c.engage l now).1 = .waiting f → f < (c.engage l now).2.started :=
    fun _ hf => hc.engage_lt hl hf
  obtain ⟨d, same, ⟨s, he⟩ | ⟨f, -, he⟩ | ⟨-, idle, he⟩⟩ := engage_cases c l now
  · -- answered from the cache
    rw [poll_of_answered _ he]
    exact h.of_sameFetches same
  · rw [he] at engaged lt
    rw [poll_of_waiting _ he, await_snd]
    have counted : d.Counted := h.of_sameFetches same
    refine .advance engaged (lt f rfl) ?_ (fun _ _ => counted)
    -- if the fetch is unfinished then the call for it is going on
    intro hout script hs
    have flying : d.inFlight = some f := (engaged.inFlight_iff f).mpr ⟨lt f rfl, hout⟩
    have busy : script.busy = true := by rw [(counted script hs).2, flying]; rfl
    rw [script.called_spec.1, if_pos busy]
    exact (counted script hs).1
  · rw [he] at engaged lt
    rw [poll_of_waiting _ he, await_snd]
    refine .advance engaged (lt _ rfl) ?_ ?_
    · -- no call was going on, so this is a new one
      intro _ script hs
      have hs : c.provider = .arranged script := same.provider ▸ hs
      have quiet : script.busy = false := by rw [(h script hs).2, idle]; rfl
      rw [script.called_spec.1, quiet, (h script hs).1, ← same.started]
      rfl
    · -- a fetch that was just started is not complete
      intro o ho
      have new : (d.startFetch now).Unfinished c.started :=
        (engaged.inFlight_iff c.started).mp (congrArg some same.started)
      rw [new.2] at ho
      cases ho

/-- So does every operation that is legal and does not meddle with the calls. -/
theorem Counted.apply (h : c.Counted) (hc : c.Coherent) {op : Op Provider}
    (hop : c.Allows op) (honest : op.Honest) : (c.apply Provider.ask op).Counted := by
  cases op with
  | poll l now => exact h.poll hc hop now
  | setKeys keys now => exact h.of_sameFetches (sameFetches_setKeys c keys now)
  | interrupt keys => exact h
  | provide f =>
    intro script hs
    -- an honest change keeps the script and its calls
    obtain ⟨old, hold, calls, busy⟩ := honest c.provider script hs
    rw [calls, busy]
    exact h old hold

/-- The calls stay counted through any legal and honest operations, by induction on them. Coherence
is carried along, since a poll needs it. -/
theorem Counted.run (h : c.Counted) (hc : c.Coherent) {ops : List (Op Provider)}
    (legal : Legal Provider.ask c ops) (honest : ∀ op ∈ ops, op.Honest) :
    (c.run Provider.ask ops).Counted := by
  induction ops generalizing c with
  | nil => exact h
  | cons op ops ih =>
    have first := h.apply hc legal.1 (honest op List.mem_cons_self)
    exact ih first (hc.apply legal.1) legal.2 fun o ho => honest o (List.mem_cons_of_mem op ho)

/-! ## States -/

/-- At most one fetch is unfinished, it is the one in flight, and the provider is called once for
each fetch. -/
structure SingleFlight (c : Client Provider) : Prop where
  unique : ∀ f g, c.Unfinished f → c.Unfinished g → f = g
  inFlight_iff : ∀ f, c.inFlight = some f ↔ c.Unfinished f
  /-- As many calls were made as fetches were started. A call goes on exactly as long as a fetch is
  unfinished. -/
  calls : ∀ script, c.provider = .arranged script →
    script.calls = c.started ∧ (script.busy = true ↔ ∃ f, c.Unfinished f)

/-- A coherent client whose calls are counted has a single flight. What is in flight is said in
terms of unfinished fetches, so that the statement does not rest on the field that the client
keeps. -/
theorem Coherent.singleFlight (h : c.Coherent) (counted : c.Counted) : c.SingleFlight := by
  refine ⟨fun f g hf hg => h.unfinished_unique hf hg, h.inFlight_iff, fun script hs => ?_⟩
  obtain ⟨calls, busy⟩ := counted script hs
  refine ⟨calls, ?_⟩
  rw [busy, Option.isSome_iff_exists]
  exact exists_congr h.inFlight_iff

end Client

namespace Session

open Client (Op SingleFlight Turn)

/-- **Single flight.** In a session that began with fresh caches, whatever steps are taken: each
state of a cache, also in the middle of a step, has at most one fetch that was started and is not
complete; it is the one in flight, and the provider was called once for each fetch. No operation
starts a fetch while another one is unfinished, a lookup that needs a fetch then joins that one, and
the completion of a fetch leaves none in flight. -/
theorem single_flight {s : Session} (h : s.Fresh) (n : Nat) (steps : List Step) :
    (s.run steps).2.caches n = (s.caches n).run Provider.ask (s.history n steps) ∧
      ∀ before after, s.history n steps = before ++ after →
        SingleFlight ((s.caches n).run Provider.ask before) ∧
          ∀ op rest, after = op :: rest →
            Turn Provider.ask ((s.caches n).run Provider.ask before) op := by
  refine ⟨run_caches h.sound n steps, fun before after split => ?_⟩
  -- the operations up to here are legal, and none of them meddles with calls
  have legal := legal_history h.sound n steps
  have honest := honest_history h.sound n steps
  rw [split] at legal honest
  have legal : Client.Legal Provider.ask (s.caches n) before := (Client.legal_append.mp legal).1
  have coherent := (h.caches n).coherent.run legal
  -- no calls were made before the session began
  have counted : (s.caches n).Counted := by
    intro script hs
    rw [(h.caches n).started, (h.caches n).inFlight]
    exact h.providers n script hs
  have counted := counted.run (h.caches n).coherent legal fun op hop =>
    honest op (List.mem_append_left after hop)
  exact ⟨coherent.singleFlight counted, fun op _ _ => Client.turn coherent op⟩

/-- The provider is held back and the caller that made it be called is dropped. -/
def abandoned : List Step :=
  [.hold 0 true, .request "first" (.keys 0), .drop "first", .request "second" (.key 0 "k"),
    .hold 0 false, .poll "second"]

/-- A fetch whose caller was dropped is joined by the next caller, and the provider is called
once. -/
theorem single_flight_abandoned :
    (opening ⟨1000⟩ (.ok ⟨[]⟩)).Fresh ∧
      ((opening ⟨1000⟩ (.ok ⟨[]⟩)).run abandoned).2.fetches 0 = 1 ∧
      SingleFlight (((opening ⟨1000⟩ (.ok ⟨[]⟩)).run abandoned).2.caches 0) := by
  have fresh := fresh_opening ⟨1000⟩ (.ok ⟨[]⟩)
  obtain ⟨last, states⟩ := single_flight fresh 0 abandoned
  refine ⟨fresh, rfl, ?_⟩
  rw [last]
  exact (states _ [] (List.append_nil _).symm).1

end Session
end BearerAuth
