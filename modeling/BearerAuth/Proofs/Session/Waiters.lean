import BearerAuth.Proofs.KeyCache.Index
import BearerAuth.Proofs.Session.Operations

/-!
# BearerAuth — callers that wait for one fetch agree

Callers that started or joined a fetch are all answered from its one outcome. They are not answered
before it is there, and it does not matter when they are polled afterwards, who else was dropped in
the meantime, or what was put into the cache: the outcome of a fetch is kept apart from the cache
and never changes again.

The answer is stated without the index of the snapshot (`answer`): a scan of the key set for the
first key of the identifier.

Main results:

* `step_of_polls`  — what a step shows that polls a lookup.
* `run_untouched`  — a request waits unchanged until a step names it.
* `waiters_agree`  — callers that wait for one fetch agree.
-/

namespace BearerAuth.Session

open Client (Op)

variable {s : Session} {a : Step} {name : String} {n f : Nat} {l : Lookup}

/-! ## Steps that poll a lookup -/

/-- The answer to a query, given the outcome of a fetch. -/
def answer : Query → FetchOutcome → Result
  | .all, o => .keys o
  | .key _, .error e => .key (.error (.fetch e))
  | .key id, .ok snapshot =>
    match snapshot.keys.keys.find? (·.id == some id) with
    | some k => .key (.ok k)
    | none => .key (.error (.unknownKey id))

/-- The index of the snapshot does not show in the answer to a lookup. What callers are told depends
on the keys of the snapshot alone. -/
theorem ofLookup_eq_answer (q : Query) (o : FetchOutcome) : ofLookup q o = answer q o := by
  cases q with
  | all => rfl
  | key id =>
    cases o with
    | error e => rfl
    | ok snapshot =>
      unfold ofLookup FetchOutcome.key answer
      dsimp only
      -- the only case in which the index is used
      rw [Snapshot.get?_eq_find?, KeySet.find?]
      cases snapshot.keys.keys.find? (·.id == some id) <;> rfl

/-- A step that polls a lookup under a name, for the first time or once more. -/
inductive Polls (s : Session) : Step → String → Nat → Lookup → Prop
  | key (name : String) (n : Nat) (id : String) :
    Polls s (.request name (.key n id)) name n ⟨.key id, none⟩
  | keys (name : String) (n : Nat) : Polls s (.request name (.keys n)) name n ⟨.all, none⟩
  | again {name : String} {n : Nat} {l : Lookup}
    (waiting : s.waiting.find? name = some (.lookup n l)) : Polls s (.poll name) name n l

/-- The name of the request that a step makes, polls or drops. -/
def Step.name? : Step → Option String
  | .request name _ | .poll name | .drop name => some name
  | _ => none

/-- What a step shows that polls a lookup. -/
structure Shows (s : Session) (a : Step) (name : String) (n : Nat) (l : Lookup) : Prop where
  cache : (s.step a).2.caches n = ((s.caches n).poll Provider.ask l s.clock).2
  pending : ∀ l', ((s.caches n).poll Provider.ask l s.clock).1 = .pending l' →
    (s.step a).1 = .pending ∧ (s.step a).2.waiting.find? name = some (.lookup n l')
  done : ∀ o, ((s.caches n).poll Provider.ask l s.clock).1 = .done o →
    (s.step a).1 = .done (answer l.query o)

/-- Whether a step makes a request or polls it once more, its lookup is handled alike. The
hypotheses say what the step does with a lookup that waits (it enters it under its name) and with
one that is done (it may change what else waits). -/
theorem Shows.of_stepLookup
    (pending : ∀ w t, s.stepLookup n l = (.pending w, t) →
      s.step a = (.pending, { t with waiting := t.waiting.insert name w }))
    (done : ∀ r t, s.stepLookup n l = (.done r, t) →
      ∃ m, s.step a = (.done r, { t with waiting := m })) : s.Shows a name n l := by
  unfold stepLookup Validation.pollCache at pending done
  cases hp : (s.caches n).poll Provider.ask l s.clock with
  | mk p c =>
    rw [hp] at pending done
    cases p with
    -- the lookup is suspended and joins those who wait
    | pending l' =>
      have step := pending _ _ rfl
      constructor
      · rw [step, hp]
        exact Caches.set_self _ n c
      · intro m hm
        rw [hp] at hm
        cases hm
        rw [step]
        exact ⟨rfl, OrderedMap.find?_insert_self _ _ _⟩
      · intro o ho
        rw [hp] at ho
        cases ho
    | done o =>
      -- the lookup is answered, and the step with it
      obtain ⟨m, step⟩ := done _ _ rfl
      constructor
      · rw [step, hp]
        exact Caches.set_self _ n c
      · intro l' hl
        rw [hp] at hl
        cases hl
      · intro o' ho
        rw [hp] at ho
        cases ho
        rw [step, ofLookup_eq_answer]

/-- A request for keys is a first poll under the name of the request. -/
theorem shows_of_request {r : Request} (h : s.begin r = s.stepLookup n l) :
    s.Shows (.request name r) name n l := by
  refine .of_stepLookup (fun w t hw => ?_) (fun r t hr => ⟨t.waiting, ?_⟩)
  · simp only [step, request, h, hw, Reply.ofPolled]
  · simp only [step, request, h, hr, Reply.ofPolled]

/-- What a step shows that polls a lookup: the caller has to wait, under its name, or has the answer
from the outcome of the poll. -/
theorem step_of_polls (h : s.Polls a name n l) : s.Shows a name n l := by
  cases h with
  | key name n id => exact shows_of_request rfl
  | keys name n => exact shows_of_request rfl
  | again waiting =>
    refine .of_stepLookup (fun w t hw => ?_) (fun r t hr => ⟨t.waiting.erase name, ?_⟩)
    · simp only [step, poll, waiting, proceed, hw, Reply.ofPolled]
    · simp only [step, poll, waiting, proceed, hr, Reply.ofPolled]

/-! ## Waiting -/

/-- A step leaves alone what waits under other names than its own. Nothing is said about the caches,
which it may change as it likes. There is one case for each kind of step; those that begin or
continue a request change the list at one name. -/
theorem step_untouched (h : s.Sound) (untouched : a.name? ≠ some name) :
    (s.step a).2.waiting.find? name = s.waiting.find? name := by
  have other : ∀ other, a.name? = some other → name ≠ other := by
    rintro other ho rfl
    exact untouched ho
  cases a with
  | request other' r =>
    have hne := other other' rfl
    -- a request does not touch what waits; only its name is entered afterwards
    have polled := h.begin r
    simp only [step, request]
    cases hb : s.begin r with
    | mk p t =>
      rw [hb] at polled
      rw [← polled.waiting]
      cases p with
      | pending w => exact OrderedMap.find?_insert_of_ne _ hne w
      | done r => rfl
  | poll other' =>
    have hne := other other' rfl
    simp only [step, poll]
    cases hw : s.waiting.find? other' with
    | none => rfl
    | some w =>
      have polled := h.proceed (h.waiting other' w hw)
      dsimp only
      cases hp : s.proceed w with
      | mk p t =>
        rw [hp] at polled
        rw [← polled.waiting]
        cases p with
        | pending w => exact OrderedMap.find?_insert_of_ne _ hne w
        | done r => exact OrderedMap.find?_erase_of_ne _ hne
  | drop other' => exact OrderedMap.find?_erase_of_ne _ (other other' rfl)
  | hold n held => rfl
  | serve n answer => rfl
  | setKeys n keys => rfl
  | interrupt n keys => rfl
  | look n id => rfl
  | advance seconds => rfl
  | setClock t => rfl

/-- A request waits unchanged until a step names it, however many steps others take. They may
complete its fetch, start others or put keys into the cache. -/
theorem run_untouched (h : s.Sound) {steps : List Step}
    (untouched : ∀ a ∈ steps, a.name? ≠ some name) :
    (s.run steps).2.waiting.find? name = s.waiting.find? name := by
  induction steps generalizing s with
  | nil => rfl
  | cons a steps ih =>
    have first := step_untouched h (untouched a List.mem_cons_self)
    rw [run_cons, ih (h.step a) fun b hb => untouched b (List.mem_cons_of_mem a hb), first]

/-! ## Agreement -/

/-- What a caller can be shown that waits for a fetch: that it has to wait on, as long as the fetch
is unfinished, and otherwise the answer from the outcome that the fetch has ever after. -/
def Agrees (t : Reply × Session) (name : String) (n f : Nat) (q : Query) : Prop :=
  (t.1 = .pending ∧ (t.2.caches n).Unfinished f ∧
      t.2.waiting.find? name = some (.lookup n ⟨q, some f⟩)) ∨
    ∃ o, t.1 = .done (answer q o) ∧
      ∀ later, ((t.2.run later).2.caches n).outcome? f = some o

/-- A step that polls a lookup which starts a fetch, joins it, or waits for it already. The first
part of the poll tells which fetch it is, and the answer is tied to that fetch for ever. -/
theorem Sound.agrees (h : s.Sound) (polls : s.Polls a name n l)
    (waits : ((s.caches n).engage l s.clock).1 = .waiting f) :
    Agrees (s.step a) name n f l.query := by
  have shows := step_of_polls polls
  have sound := h.step a
  obtain ⟨unknown, pending⟩ | ⟨o, known, done⟩ := Client.poll_of_engaged Provider.ask waits
  · -- the session is sound afterwards, so the request waits for a started fetch
    obtain ⟨reply, waiting⟩ := shows.pending _ pending
    rw [← shows.cache] at unknown
    have lt : f < ((s.step a).2.caches n).started := sound.waiting name _ waiting f rfl
    exact .inl ⟨reply, ⟨lt, unknown⟩, waiting⟩
  · refine .inr ⟨o, shows.done o done, ?_⟩
    -- the outcome is known now, and no later operation changes it
    intro later
    rw [run_caches sound, shows.cache]
    exact Client.run_outcome? known _

/-- **Callers that wait for one fetch agree.** In a session that began with fresh caches, let a step
poll a lookup that starts a fetch, joins it, or waits for it already. Then the caller has to wait as
long as the fetch is unfinished, and otherwise it gets the answer from the outcome that the fetch
has ever after. A caller that has to wait can be polled again after any steps of others, with the
same effect. At the moment at which the fetch is completed, its outcome is what the provider
answered, and the cache holds exactly the snapshot that was fetched. -/
theorem waiters_agree {s : Session} (h : s.Fresh) {before : List Step} {a : Step} {name : String}
    {n f : Nat} {l : Lookup} (polls : (s.run before).2.Polls a name n l)
    (waits : (((s.run before).2.caches n).engage l (s.run before).2.clock).1 = .waiting f) :
    Agrees ((s.run before).2.step a) name n f l.query ∧
      (((s.run before).2.step a).1 = .pending →
        ∀ between, (∀ b ∈ between, b.name? ≠ some name) →
          Agrees ((s.run (before ++ a :: between)).2.step (.poll name)) name n f l.query) ∧
      ∀ after first op rest o, s.history n (before ++ a :: after) = first ++ op :: rest →
        let c := (s.caches n).run Provider.ask first
        let d := c.apply Provider.ask op
        c.outcome? f = none → d.outcome? f = some o →
          (Provider.ask c.provider).1 = some (o.map Snapshot.keys) ∧
            ∀ snapshot, o = .ok snapshot → d.cached = some snapshot := by
  have sound : (s.run before).2.Sound := h.sound.run before
  have first := sound.agrees polls waits
  refine ⟨first, ?_, ?_⟩
  · -- polled again, after steps of others
    intro reply between untouched
    have waiting : ((s.run before).2.step a).2.waiting.find? name =
        some (.lookup n ⟨l.query, some f⟩) := by
      rcases first with ⟨-, -, waiting⟩ | ⟨o, done, -⟩
      · exact waiting
      · rw [reply] at done
        cases done
    rw [run_append, run_cons]
    have later : (((s.run before).2.step a).2.run between).2.Sound := (sound.step a).run between
    rw [← run_untouched (sound.step a) untouched] at waiting
    have again : Polls _ (.poll name) name n ⟨l.query, some f⟩ := .again waiting
    have agrees := later.agrees again rfl
    exact agrees
  · -- the moment of completion
    intro _ ops op _ o _ c d unknown known
    have evolves : Client.Evolves Provider.ask ((s.caches n).run Provider.ask ops) _ :=
      Client.apply_evolves _ op
    obtain ⟨-, cached, answered⟩ := evolves.landed f o unknown known
    exact ⟨answered, cached⟩

/-- Two callers wait for a fetch. The key set that it gave is no longer in the cache when the second
one is polled. -/
def latecomer : List Step :=
  [.hold 0 true, .request "late" (.key 0 "k"), .request "soon" (.keys 0), .hold 0 false,
    .poll "soon", .setKeys 0 ⟨[]⟩]

/-- The key set of the fetch. -/
def latecomerKeys : KeySet := ⟨[{ material := .secret [1], id := some "k" }]⟩

/-- However late the caller is polled, it gets the key from the fetch that it has waited for. -/
theorem waiters_agree_latecomer :
    (opening ⟨1000⟩ (.ok latecomerKeys)).Fresh ∧
      ((opening ⟨1000⟩ (.ok latecomerKeys)).run latecomer).2.cachedKey? 0 "k" = none ∧
      Agrees (((opening ⟨1000⟩ (.ok latecomerKeys)).run latecomer).2.step (.poll "late"))
        "late" 0 0 (.key "k") := by
  have fresh := fresh_opening ⟨1000⟩ (.ok latecomerKeys)
  have polls : ((opening ⟨1000⟩ (.ok latecomerKeys)).run latecomer).2.Polls
      (.poll "late") "late" 0 ⟨.key "k", some 0⟩ := .again rfl
  exact ⟨fresh, rfl, (waiters_agree fresh polls rfl).1⟩

end BearerAuth.Session
