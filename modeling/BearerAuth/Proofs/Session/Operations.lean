import BearerAuth.Proofs.KeyCache.Run
import BearerAuth.Session.Run

/-!
# BearerAuth — what a session does to its key caches

A step of a session touches key caches only through the operations of `Client.Op`: a request for
keys polls one lookup, and a validation polls one lookup after another until it has to wait or is
done. This module lists these operations for every step, so that a run of a session is for each of
its caches a run of operations on that cache. What is proved about runs of a single cache then holds
of caches that are shared by any number of callers and validators.

A request that waits under a name waits for a fetch that was started (`Session.Sound`), because no
request can come to wait otherwise and fetches stay started. Hence the operations are legal.

Main results:

* `run_caches`    — each cache after a run of the session is the cache after its operations.
* `Sound.run`     — every session that is reached is sound.
* `legal_history` — the operations on each cache are legal.
-/

namespace BearerAuth

open Client (Op)

variable {σ : Type u} {ask : σ → Option ProviderAnswer × σ} {cs : Caches σ} {now : UnixTime}

/-! ## Operations on several caches -/

/-- The caches after an operation on one of them. -/
def Caches.apply (ask : σ → Option ProviderAnswer × σ) (cs : Caches σ) (op : Nat × Op σ) :
    Caches σ :=
  cs.set op.1 ((cs op.1).apply ask op.2)

/-- The caches after operations in order. -/
def Caches.run (ask : σ → Option ProviderAnswer × σ) (cs : Caches σ) (ops : List (Nat × Op σ)) :
    Caches σ :=
  ops.foldl (Caches.apply ask) cs

/-- The operations on the cache with this number. -/
def Caches.opsOn (n : Nat) (ops : List (Nat × Op σ)) : List (Op σ) :=
  (ops.filter (·.1 = n)).map (·.2)

/-- Operations each of which is allowed where it is made. -/
def Caches.Legal (ask : σ → Option ProviderAnswer × σ) : Caches σ → List (Nat × Op σ) → Prop
  | _, [] => True
  | cs, op :: rest => (cs op.1).Allows op.2 ∧ Legal ask (cs.apply ask op) rest

namespace Caches

theorem set_self (cs : Caches σ) (n : Nat) (c : Client σ) : cs.set n c n = c := if_pos rfl

/-- To change one cache leaves the others as they were. With `set_self` this is all that is ever
used of `Caches.set`. -/
theorem set_of_ne (cs : Caches σ) {n m : Nat} (c : Client σ) (h : m ≠ n) :
    cs.set n c m = cs m := if_neg h

/-- A cache that is put back as it is changes nothing, so that an operation without effect on its
cache has none on the caches as a whole. -/
theorem set_eq_self (cs : Caches σ) (n : Nat) : cs.set n (cs n) = cs := by
  funext m
  by_cases h : m = n
  · rw [h, set_self]
  · exact set_of_ne cs _ h

/-- The operations on a cache are collected in order, and those on other caches are passed over. So
a cache sees a run of its own, whatever happens to the others in between. -/
theorem opsOn_cons (n : Nat) (op : Nat × Op σ) (ops : List (Nat × Op σ)) :
    opsOn n (op :: ops) = if op.1 = n then op.2 :: opsOn n ops else opsOn n ops := by
  unfold opsOn
  by_cases h : op.1 = n <;> simp [h]

theorem mem_opsOn {n : Nat} {op : Op σ} {ops : List (Nat × Op σ)} :
    op ∈ opsOn n ops ↔ (n, op) ∈ ops := by
  simp [opsOn]

/-- Each cache is only changed by the operations on it. What is proved of runs of a single cache is
carried over to shared caches through this equation. -/
theorem run_at (ops : List (Nat × Op σ)) (n : Nat) :
    cs.run ask ops n = (cs n).run ask (opsOn n ops) := by
  induction ops generalizing cs with
  | nil => rfl
  | cons op ops ih =>
    -- the induction hypothesis is used of the caches after the first operation
    show Caches.run ask (cs.apply ask op) ops n = _
    rw [ih, opsOn_cons]
    by_cases h : op.1 = n
    · -- the first operation is on this cache
      rw [if_pos h, Client.run_cons, ← h]
      unfold Caches.apply
      rw [set_self]
    · -- it is on another one, and this one is as it was
      rw [if_neg h]
      unfold Caches.apply
      rw [set_of_ne _ _ (Ne.symm h)]

/-- Legal operations are legal for each of the caches. Whether an operation is allowed depends on
its own cache only, and operations in between on other caches leave this cache as it was. -/
theorem Legal.opsOn {ops : List (Nat × Op σ)} (h : Legal ask cs ops) (n : Nat) :
    Client.Legal ask (cs n) (opsOn n ops) := by
  induction ops generalizing cs with
  | nil => trivial
  | cons op ops ih =>
    have rest := ih h.2
    rw [opsOn_cons]
    by_cases hn : op.1 = n
    · -- this cache meets the operation first, and the others afterwards
      rw [if_pos hn]
      unfold Caches.apply at rest
      rw [hn, set_self] at rest
      exact ⟨hn ▸ h.1, rest⟩
    · -- another cache meets it, and the legality of the rest is about this cache as it was
      rw [if_neg hn]
      unfold Caches.apply at rest
      rwa [set_of_ne _ _ (Ne.symm hn)] at rest

/-- Legal operations keep all caches coherent. It is proved for each of them alone, with the
operations on the others left out. -/
theorem Legal.coherent {ops : List (Nat × Op σ)} (legal : Legal ask cs ops)
    (h : ∀ n, (cs n).Coherent) (n : Nat) : (cs.run ask ops n).Coherent := by
  rw [run_at]
  exact (h n).run (legal.opsOn n)

end Caches

/-! ## Kinds of operations -/

namespace Client

/-- A lookup is polled. -/
def Op.IsPoll : Op σ → Prop
  | .poll _ _ => True
  | _ => False

/-- An operation that does not meddle with the calls of an arranged provider. -/
def Op.Honest : Op Provider → Prop
  | .provide f => ∀ p script, f p = .arranged script →
    ∃ old, p = .arranged old ∧ script.calls = old.calls ∧ script.busy = old.busy
  | _ => True

/-- A poll may call a provider, but only in the way in which the cache does it, and so it is
honest. -/
theorem Op.IsPoll.honest {op : Op Provider} (h : op.IsPoll) : op.Honest := by
  cases op with
  | provide f => exact h.elim
  | poll l now => trivial
  | setKeys keys now => trivial
  | interrupt keys => trivial

/-- To arrange another answer, or to hold it back, is honest as long as neither the number of calls
nor whether one is going on is changed by it. A fixed provider does not become an arranged one. -/
theorem Op.honest_rearrange {f : Script → Script} (calls : ∀ s, (f s).calls = s.calls)
    (busy : ∀ s, (f s).busy = s.busy) : (Op.provide (Provider.rearrange f)).Honest := by
  intro p script hs
  cases p with
  | fixed keys => cases hs
  | arranged old =>
    cases hs
    exact ⟨old, rfl, calls old, busy old⟩

end Client

/-! ## Validations -/

namespace Validation

/-- The caches after one step of a lookup. -/
theorem pollCache_snd (cs : Caches σ) (n : Nat) (l : Lookup) (now : UnixTime) :
    (pollCache ask cs n l now).2 = cs.apply ask (n, .poll l now) := rfl

/-- The polls that are made when validators are tried in order. -/
def polls (ask : σ → Option ProviderAnswer × σ) (token : String) (now : UnixTime) :
    List Validator → Caches σ → List (Nat × Op σ)
  | [], _ => []
  | v :: rest, cs =>
    match v.plan token now with
    | .decided (.ok _) => []
    | .decided (.error _) => polls ask token now rest cs
    | .lookup n q settle =>
      (n, .poll ⟨q, none⟩ now) ::
        match pollCache ask cs n ⟨q, none⟩ now with
        | (.pending _, _) => []
        | (.done o, cs) =>
          match settle o now with
          | .ok _ => []
          | .error _ => polls ask token now rest cs

/-- The polls that are made when a suspended validation goes on. -/
def resumePolls (ask : σ → Option ProviderAnswer × σ) (s : Suspension) (now : UnixTime)
    (cs : Caches σ) : List (Nat × Op σ) :=
  (s.cache, .poll s.lookup now) ::
    match pollCache ask cs s.cache s.lookup now with
    | (.pending _, _) => []
    | (.done o, cs) =>
      match s.settle o now with
      | .ok _ => []
      | .error _ => polls ask s.token now s.rest cs

/-- A suspended validation waits for a fetch that was started. -/
def Knows (cs : Caches σ) (s : Suspension) : Prop := (cs s.cache).Knows s.lookup

/-- What holds after a step of a validation that made these polls. -/
structure Stepped (ask : σ → Option ProviderAnswer × σ) (cs : Caches σ) (ops : List (Nat × Op σ))
    (r : Poll Suspension ValidationResult × Caches σ) : Prop where
  caches : r.2 = cs.run ask ops
  legal : Caches.Legal ask cs ops
  polls : ∀ op ∈ ops, op.2.IsPoll
  knows : ∀ s, r.1 = .pending s → Knows r.2 s

/-- A validation that is done without a poll leaves the caches as they are. Its operations are none,
and they are legal. -/
theorem Stepped.done (ask : σ → Option ProviderAnswer × σ) (cs : Caches σ) (r : ValidationResult) :
    Stepped ask cs [] (.done r, cs) :=
  ⟨rfl, trivial, List.forall_mem_nil _, nofun⟩

/-- A poll before others. All that has to be known of it is that its lookup waits for a fetch that
was started, if it waits for one; the rest is what holds of the polls after it. -/
theorem Stepped.cons {n : Nat} {l : Lookup} {ops : List (Nat × Op σ)}
    {r : Poll Suspension ValidationResult × Caches σ} (hl : (cs n).Knows l)
    (h : Stepped ask (cs.apply ask (n, .poll l now)) ops r) :
    Stepped ask cs ((n, .poll l now) :: ops) r :=
  ⟨h.caches, ⟨hl, h.legal⟩, List.forall_mem_cons.mpr ⟨trivial, h.polls⟩, h.knows⟩

/-- A poll that finds no answer is the last one. The suspended validation then waits for a fetch
that was started, since the cache is coherent. -/
theorem Stepped.suspend (h : ∀ n, (cs n).Coherent) {n : Nat} {l l' : Lookup} {d : Caches σ}
    (hl : (cs n).Knows l) (hp : pollCache ask cs n l now = (.pending l', d)) {s : Suspension}
    (hc : s.cache = n) (hs : s.lookup = l') :
    Stepped ask cs [(n, .poll l now)] (.pending s, d) := by
  obtain rfl : cs.apply ask (n, .poll l now) = d :=
    (pollCache_snd cs n l now).symm.trans (congrArg Prod.snd hp)
  refine ⟨rfl, ⟨hl, trivial⟩, List.forall_mem_singleton.mpr trivial, ?_⟩
  intro s' hs'
  cases hs'
  -- the suspension looks at the cache that was polled just now
  have waits : ((cs n).poll ask l now).1 = .pending l' := congrArg Prod.fst hp
  show ((cs.set n ((cs n).poll ask l now).2) s.cache).Knows s.lookup
  rw [hc, hs, Caches.set_self]
  exact (h n).knows_of_pending hl waits

/-- Caches stay coherent when a lookup is polled that waits for no fetch or for one that was
started. -/
theorem coherent_pollCache (h : ∀ n, (cs n).Coherent) {n : Nat} {l : Lookup}
    (hl : (cs n).Knows l) (m : Nat) : (cs.apply ask (n, .poll l now) m).Coherent := by
  have legal : Caches.Legal ask cs [(n, .poll l now)] := ⟨hl, trivial⟩
  exact legal.coherent h m

/-- Trying validators makes the polls that are listed. The induction is over the validators that are
left; each one finds the caches as those before it have left them. -/
theorem run_stepped (token : String) (vs : List Validator) (last : ValidationError)
    (h : ∀ n, (cs n).Coherent) :
    Stepped ask cs (polls ask token now vs cs) (run ask token now vs last cs) := by
  induction vs generalizing last cs with
  | nil => exact .done ask cs (.error last)
  | cons v rest ih =>
    unfold run polls
    cases v.plan token now with
    | decided r =>
      -- no keys are needed
      cases r with
      | ok c => exact .done ask cs (.ok c)
      | error e => exact ih e h
    | lookup n q settle =>
      dsimp only
      -- a lookup that was never polled waits for nothing yet
      have hl : (cs n).Knows ⟨q, none⟩ := nofun
      cases hp : pollCache ask cs n ⟨q, none⟩ now with
      | mk p d =>
        cases p with
        | pending l => exact .suspend h hl hp rfl rfl
        | done o =>
          obtain rfl : cs.apply ask (n, .poll ⟨q, none⟩ now) = d := congrArg Prod.snd hp
          refine .cons hl ?_
          dsimp only
          cases settle o now with
          | ok c => exact .done ask _ (.ok c)
          | error e =>
            -- rejected: the next validator is tried
            exact ih e (coherent_pollCache h hl)

/-- To go on with a suspended validation makes the polls that are listed: first that of the lookup
which it waits for, and after a rejection those of the validators that are left. -/
theorem resume_stepped (s : Suspension) (h : ∀ n, (cs n).Coherent) (hs : Knows cs s) :
    Stepped ask cs (resumePolls ask s now cs) (resume ask s now cs) := by
  unfold resume resumePolls
  cases hp : pollCache ask cs s.cache s.lookup now with
  | mk p d =>
    cases p with
    | pending l => exact .suspend h hs hp rfl rfl
    | done o =>
      obtain rfl : cs.apply ask (s.cache, .poll s.lookup now) = d := congrArg Prod.snd hp
      refine .cons hs ?_
      dsimp only
      -- as when a validator is tried, with an outcome that had to be waited for
      cases s.settle o now with
      | ok c => exact .done ask _ (.ok c)
      | error e => exact run_stepped s.token s.rest e (coherent_pollCache h hs)

end Validation

/-! ## Sessions -/

namespace Session

/-- The operations on key caches that the first step of a request consists of. -/
def Request.operations (s : Session) : Request → List (Nat × Op Provider)
  | .key n id => [(n, .poll ⟨.key id, none⟩ s.clock)]
  | .keys n => [(n, .poll ⟨.all, none⟩ s.clock)]
  | .identity vs token | .claims vs token =>
    Validation.polls Provider.ask token s.clock vs s.caches

/-- The operations on key caches that one more step of a waiting request consists of. -/
def Waiting.operations (s : Session) : Waiting → List (Nat × Op Provider)
  | .lookup n l => [(n, .poll l s.clock)]
  | .identity v | .claims v => Validation.resumePolls Provider.ask v s.clock s.caches

/-- The operations on key caches that a step consists of. -/
def operations (s : Session) : Step → List (Nat × Op Provider)
  | .request _ r => r.operations s
  | .poll name =>
    match s.waiting.find? name with
    | none => []
    | some w => w.operations s
  | .hold n held => [(n, .provide (.rearrange ({ · with held })))]
  | .serve n answer => [(n, .provide (.rearrange ({ · with serving := answer })))]
  | .setKeys n keys => [(n, .setKeys keys s.clock)]
  | .interrupt n keys => [(n, .interrupt keys)]
  | .drop _ | .look _ _ | .advance _ | .setClock _ => []

/-- The operations on a key cache that a run consists of. -/
def history (s : Session) (n : Nat) : List Step → List (Op Provider)
  | [] => []
  | a :: rest => Caches.opsOn n (s.operations a) ++ (s.step a).2.history n rest

/-- A waiting request waits for a fetch that was started. -/
def Waiting.Knows (cs : Caches σ) : Waiting → Prop
  | .lookup n l => (cs n).Knows l
  | .identity v | .claims v => Validation.Knows cs v

/-- A request that waits for a started fetch keeps doing so, whatever is done to the caches in the
meantime. This is why a request may be polled at any later time. -/
theorem Waiting.Knows.run {w : Waiting} (h : w.Knows cs) (ops : List (Nat × Op σ)) :
    w.Knows (cs.run ask ops) := by
  -- fetches stay started
  have grow : ∀ n l, (cs n).Knows l → (cs.run ask ops n).Knows l := by
    intro n l hl f hf
    rw [Caches.run_at]
    exact Nat.lt_of_lt_of_le (hl f hf) (Client.started_le_run _ _)
  cases w with
  | lookup n l => exact grow n l h
  | identity v => exact grow v.cache v.lookup h
  | claims v => exact grow v.cache v.lookup h

/-- What holds in every state of a session. -/
structure Sound (s : Session) : Prop where
  coherent : ∀ n, (s.caches n).Coherent
  waiting : ∀ name w, s.waiting.find? name = some w → w.Knows s.caches

/-! ### One step of a request -/

/-- What holds after a step of a request that consists of these operations. -/
structure Polled (s : Session) (ops : List (Nat × Op Provider))
    (r : Poll Waiting Result × Session) : Prop where
  caches : r.2.caches = s.caches.run Provider.ask ops
  legal : Caches.Legal Provider.ask s.caches ops
  polls : ∀ op ∈ ops, op.2.IsPoll
  waiting : r.2.waiting = s.waiting
  knows : ∀ w, r.1 = .pending w → w.Knows r.2.caches

/-- A step of a lookup is one poll of its cache. If it has to wait, it waits for a fetch that was
started. -/
theorem Sound.stepLookup {s : Session} (h : s.Sound) {n : Nat} {l : Lookup}
    (hl : (s.caches n).Knows l) : s.Polled [(n, .poll l s.clock)] (s.stepLookup n l) := by
  have legal : Caches.Legal Provider.ask s.caches [(n, .poll l s.clock)] := ⟨hl, trivial⟩
  have polls : ∀ op ∈ [(n, (Op.poll l s.clock : Op Provider))], op.2.IsPoll :=
    List.forall_mem_singleton.mpr trivial
  unfold Session.stepLookup
  cases hp : Validation.pollCache Provider.ask s.caches n l s.clock with
  | mk p d =>
    obtain rfl : s.caches.apply Provider.ask (n, .poll l s.clock) = d := congrArg Prod.snd hp
    cases p with
    | done o => exact ⟨rfl, legal, polls, rfl, nofun⟩
    | pending l' =>
      refine ⟨rfl, legal, polls, rfl, ?_⟩
      intro w hw
      cases hw
      have waits : ((s.caches n).poll Provider.ask l s.clock).1 = .pending l' :=
        congrArg Prod.fst hp
      -- what the lookup waits for is judged by the cache after the poll
      show (s.caches.set n _ n).Knows l'
      rw [Caches.set_self]
      exact (h.coherent n).knows_of_pending hl waits

/-- A step of a request for a validation does what the validation does, whatever is made of its
result and under whatever name it waits. -/
theorem stepValidation_polled {s : Session} {wait : Suspension → Waiting}
    {finish : ValidationResult → Result} {ops : List (Nat × Op Provider)}
    {p : Poll Suspension ValidationResult × Caches Provider}
    (knows : ∀ v, Validation.Knows p.2 v → (wait v).Knows p.2)
    (h : Validation.Stepped Provider.ask s.caches ops p) :
    s.Polled ops (s.stepValidation wait finish p) := by
  obtain ⟨p, d⟩ := p
  cases p with
  -- nobody is left waiting
  | done r => exact ⟨h.caches, h.legal, h.polls, rfl, nofun⟩
  | pending v =>
    refine ⟨h.caches, h.legal, h.polls, rfl, ?_⟩
    -- whoever is suspended knows the fetch that it waits for
    intro w hw
    cases hw
    exact knows v (h.knows v rfl)

/-- The first step of a request makes the polls that are listed for it. A lookup that begins waits
for nothing yet, and a validation begins with the first of its validators. -/
theorem Sound.begin {s : Session} (h : s.Sound) (r : Request) :
    s.Polled (r.operations s) (s.begin r) := by
  cases r with
  | key n id => exact h.stepLookup nofun
  | keys n => exact h.stepLookup nofun
  | identity vs token =>
    exact stepValidation_polled (fun _ hv => hv) (Validation.run_stepped token vs _ h.coherent)
  | claims vs token =>
    exact stepValidation_polled (fun _ hv => hv) (Validation.run_stepped token vs _ h.coherent)

/-- So does every further step of a request that waits for a started fetch. -/
theorem Sound.proceed {s : Session} (h : s.Sound) {w : Waiting} (hw : w.Knows s.caches) :
    s.Polled (w.operations s) (s.proceed w) := by
  cases w with
  | lookup n l => exact h.stepLookup hw
  | identity v =>
    exact stepValidation_polled (fun _ hv => hv) (Validation.resume_stepped v h.coherent hw)
  | claims v =>
    exact stepValidation_polled (fun _ hv => hv) (Validation.resume_stepped v h.coherent hw)

/-! ### One step of a session -/

/-- What holds after a step that consists of these operations. -/
structure Moved (s : Session) (ops : List (Nat × Op Provider)) (t : Session) : Prop where
  caches : t.caches = s.caches.run Provider.ask ops
  legal : Caches.Legal Provider.ask s.caches ops
  honest : ∀ op ∈ ops, op.2.Honest
  /-- A request that waits has been waiting, or waits for a started fetch. -/
  waiting : ∀ name w, t.waiting.find? name = some w →
    s.waiting.find? name = some w ∨ w.Knows t.caches

/-- A step that leaves alone what waits. It is sound if its operations on the caches are, since no
caller that waits loses its fetch. -/
theorem Moved.of_waiting {s t : Session} {ops : List (Nat × Op Provider)}
    (caches : t.caches = s.caches.run Provider.ask ops)
    (legal : Caches.Legal Provider.ask s.caches ops) (honest : ∀ op ∈ ops, op.2.Honest)
    (waiting : t.waiting = s.waiting) : s.Moved ops t :=
  ⟨caches, legal, honest, fun _ _ h => .inl (waiting ▸ h)⟩

/-- A step that touches neither a cache nor what waits. -/
theorem Moved.still {s t : Session} (caches : t.caches = s.caches)
    (waiting : t.waiting = s.waiting) : s.Moved [] t :=
  .of_waiting caches trivial (List.forall_mem_nil _) waiting

/-- A step that makes a single operation on one of the caches, as the operations of the outside
world are. -/
theorem Moved.single {s t : Session} {n : Nat} {op : Op Provider}
    (caches : t.caches = s.caches.apply Provider.ask (n, op)) (free : (s.caches n).Allows op)
    (honest : op.Honest) (waiting : t.waiting = s.waiting) : s.Moved [(n, op)] t :=
  .of_waiting caches ⟨free, trivial⟩ (List.forall_mem_singleton.mpr honest) waiting

/-- The polls that a request makes are honest, as all polls are. -/
theorem Polled.honest {s : Session} {ops : List (Nat × Op Provider)}
    {r : Poll Waiting Result × Session} (h : s.Polled ops r) : ∀ op ∈ ops, op.2.Honest :=
  fun op hop => (h.polls op hop).honest

/-- A request that has to wait is entered under its name, in place of what waited there before. All
others keep waiting for what they have been waiting for. -/
theorem Polled.pending {s t : Session} {ops : List (Nat × Op Provider)} {w : Waiting}
    (h : s.Polled ops (.pending w, t)) (name : String) :
    s.Moved ops { t with waiting := t.waiting.insert name w } := by
  refine ⟨h.caches, h.legal, h.honest, ?_⟩
  intro other v hv
  have hv : (t.waiting.insert name w).find? other = some v := hv
  by_cases hn : other = name
  · -- this is the request that was polled
    subst hn
    rw [OrderedMap.find?_insert_self] at hv
    cases hv
    exact .inr (h.knows w rfl)
  · rw [OrderedMap.find?_insert_of_ne _ hn, h.waiting] at hv
    exact .inl hv

/-- What waits after a request was taken off the list has been waiting before. So taking a request
off cannot bring in one that does not know its fetch. -/
theorem find?_of_find?_erase {m : OrderedMap Waiting} {name other : String} {w : Waiting}
    (h : (m.erase name).find? other = some w) : m.find? other = some w := by
  by_cases hn : other = name
  · subst hn
    rw [OrderedMap.find?_erase_self] at h
    cases h
  · rwa [OrderedMap.find?_erase_of_ne _ hn] at h

/-- **One step.** Every step of a sound session does to the caches what is listed for it, legally
and honestly, and whatever waits afterwards waits for a started fetch or has been waiting before.
There is one case for each kind of step; the list is empty in those that do nothing to the caches. -/
theorem Sound.moved {s : Session} (h : s.Sound) (a : Step) :
    s.Moved (s.operations a) (s.step a).2 := by
  cases a with
  | request name r =>
    have polled := h.begin r
    show s.Moved _ (s.request name r).2
    unfold Session.request
    cases hb : s.begin r with
    | mk p t =>
      rw [hb] at polled
      cases p with
      | pending w => exact polled.pending name
      | done r =>
        -- a request that is done at once leaves alone what waits
        exact .of_waiting polled.caches polled.legal polled.honest polled.waiting
  | poll name =>
    simp only [Session.step, Session.poll, operations]
    cases hw : s.waiting.find? name with
    | none => exact .still rfl rfl
    | some w =>
      -- soundness says that it waits for a started fetch, so that the poll is legal
      have polled := h.proceed (h.waiting name w hw)
      dsimp only
      cases hp : s.proceed w with
      | mk p t =>
        rw [hp] at polled
        cases p with
        | pending w => exact polled.pending name
        | done r =>
          -- a request that is done waits no longer
          refine ⟨polled.caches, polled.legal, polled.honest, ?_⟩
          intro other v hv
          refine .inl ?_
          rw [← polled.waiting]
          exact find?_of_find?_erase hv
  | drop name =>
    refine ⟨rfl, trivial, List.forall_mem_nil _, ?_⟩
    intro other v hv
    exact .inl (find?_of_find?_erase hv)
  | hold n held =>
    exact .single rfl trivial (Op.honest_rearrange (fun _ => rfl) (fun _ => rfl)) rfl
  | serve n answer =>
    exact .single rfl trivial (Op.honest_rearrange (fun _ => rfl) (fun _ => rfl)) rfl
  | setKeys n keys => exact .single rfl trivial trivial rfl
  | interrupt n keys => exact .single rfl trivial trivial rfl
  | look n id => exact .still rfl rfl
  | advance seconds => exact .still rfl rfl
  | setClock t => exact .still rfl rfl

/-- Every step keeps a session sound. For what waits there are two cases: what has been waiting
knows its fetch still, since fetches stay started, and what has come to wait was polled in this
step. -/
theorem Sound.step {s : Session} (h : s.Sound) (a : Step) : (s.step a).2.Sound := by
  have moved := h.moved a
  constructor
  · intro n
    rw [moved.caches]
    exact moved.legal.coherent h.coherent n
  · intro name w hw
    rcases moved.waiting name w hw with old | new
    · rw [moved.caches]
      exact (h.waiting name w old).run _
    · exact new

/-! ### Whole runs -/

theorem run_cons (s : Session) (a : Step) (steps : List Step) :
    (s.run (a :: steps)).2 = ((s.step a).2.run steps).2 := rfl

theorem run_append (s : Session) (a b : List Step) :
    (s.run (a ++ b)).2 = ((s.run a).2.run b).2 := by
  induction a generalizing s with
  | nil => rfl
  | cons x a ih => exact ih (s.step x).2

/-- The operations of a run in two parts are those of the first, and then those of the second from
where the first has led. -/
theorem history_append (s : Session) (n : Nat) (a b : List Step) :
    s.history n (a ++ b) = s.history n a ++ (s.run a).2.history n b := by
  induction a generalizing s with
  | nil => rfl
  | cons x a ih => simp only [List.cons_append, history, ih, run_cons, List.append_assoc]

/-- Soundness, by induction on the steps, in every state that a session reaches. From it follows
that what is proved about legal runs of one client holds of each cache of the session. -/
theorem Sound.run {s : Session} (h : s.Sound) (steps : List Step) : (s.run steps).2.Sound := by
  induction steps generalizing s with
  | nil => exact h
  | cons a steps ih => exact ih (h.step a)

/-- Each cache after a run of the session is the cache after the operations on it. By induction on
the steps, where soundness is what allows each of them to be taken apart into operations. -/
theorem run_caches {s : Session} (h : s.Sound) (n : Nat) (steps : List Step) :
    (s.run steps).2.caches n = (s.caches n).run Provider.ask (s.history n steps) := by
  induction steps generalizing s with
  | nil => rfl
  | cons a steps ih =>
    rw [run_cons, ih (h.step a), history, Client.run_append, (h.moved a).caches, Caches.run_at]

/-- The operations on each cache are legal, so that the invariants of a single cache hold of the
caches of a session. -/
theorem legal_history {s : Session} (h : s.Sound) (n : Nat) (steps : List Step) :
    Client.Legal Provider.ask (s.caches n) (s.history n steps) := by
  induction steps generalizing s with
  | nil => trivial
  | cons a steps ih =>
    have moved := h.moved a
    -- the rest of the operations begins at the cache as the first step has left it
    rw [history, Client.legal_append, ← Caches.run_at, ← moved.caches]
    exact ⟨moved.legal.opsOn n, ih (h.step a)⟩

/-- Nothing in a session meddles with the calls of a provider. Hence the number of calls that a
provider has counted is the number that the cache has made. -/
theorem honest_history {s : Session} (h : s.Sound) (n : Nat) (steps : List Step) :
    ∀ op ∈ s.history n steps, op.Honest := by
  induction steps generalizing s with
  | nil => exact List.forall_mem_nil _
  | cons a steps ih =>
    intro op hop
    rcases List.mem_append.mp hop with first | later
    · exact (h.moved a).honest (n, op) (Caches.mem_opsOn.mp first)
    · exact ih (h.step a) op later

/-- A session that just began. -/
structure Fresh (s : Session) : Prop where
  caches : ∀ n, (s.caches n).Fresh
  /-- The providers that are arranged were not called. -/
  providers : ∀ n script, (s.caches n).provider = .arranged script →
    script.calls = 0 ∧ script.busy = false
  waiting : s.waiting = .empty

/-- A session that begins at a time, with providers that serve an answer. -/
def opening (time : UnixTime) (answer : ProviderAnswer) : Session :=
  ⟨time, fun _ => { provider := .arranged { serving := answer } }, .empty⟩

/-- A session that opens with nothing in its caches is one that just began, whatever its providers
serve. -/
theorem fresh_opening (time : UnixTime) (answer : ProviderAnswer) :
    (opening time answer).Fresh where
  caches := fun _ => ⟨rfl, rfl, rfl, rfl, rfl, rfl⟩
  providers := by
    intro n script hs
    cases hs
    exact ⟨rfl, rfl⟩
  waiting := rfl

/-- A session that just began is sound, and so all sessions that are reached from it are. Nothing
waits in it, and its caches are fresh. -/
theorem Fresh.sound {s : Session} (h : s.Fresh) : s.Sound := by
  constructor
  · intro n
    exact (h.caches n).coherent
  · intro name w hw
    rw [h.waiting, OrderedMap.find?_empty] at hw
    cases hw

end Session
end BearerAuth
