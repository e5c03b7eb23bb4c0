import BearerAuth.KeyCache.Provider
import BearerAuth.Proofs.KeyCache.Index
import BearerAuth.Proofs.KeyCache.Run
import Mathlib.Data.List.Chain
import Mathlib.Data.List.Induction

/-!
# BearerAuth — when fetches are started

Fetches are started by the first poll of a lookup only, and exactly if it needs keys that are not at
hand: the cache is empty, the snapshot is stale, or it is fresh and lacks the key, and then only if
the refresh interval has passed since the last start (`Due`). So nobody can make a cache fetch more
often by asking for keys that do not exist.

The last attempt that a client remembers is the last start of the whole run, whether that fetch
succeeded or not. From this it follows that in every run the start of a fetch for the sake of an
unknown key keeps the interval from the start before it, whatever the clock does. Time is compared
in natural numbers, where what lies in the future is no seconds ago.

Main results:

* `due_of_poll_started` — a lookup that starts a fetch is due to.
* `poll_started_of_due` — a lookup that is due to start a fetch does.
* `run_lastAttempt`     — the last attempt is the last start of the run.
* `isChain_starts`      — starts against a fresh snapshot keep the interval.
* `refresh_throttling`  — all of it for every state of every run.
-/

namespace BearerAuth

namespace Timing

/-- A snapshot is too old to be used. -/
def Stale (t : Timing) (s : Snapshot) (now : UnixTime) : Prop :=
  0 < t.cacheTime.toNat ∧ t.cacheTime.toNat ≤ now.seconds.toNat - s.fetchedAt.seconds.toNat

/-- The refresh interval has passed. -/
def Elapsed (t : Timing) (last now : UnixTime) : Prop :=
  t.refreshInterval.toNat ≤ now.seconds.toNat - last.seconds.toNat

instance (t : Timing) (s : Snapshot) (now : UnixTime) : Decidable (t.Stale s now) :=
  inferInstanceAs (Decidable (_ ∧ _))

instance (t : Timing) (last now : UnixTime) : Decidable (t.Elapsed last now) :=
  inferInstanceAs (Decidable (_ ≤ _))

end Timing

namespace Client

variable {σ : Type u} {ask : σ → Option ProviderAnswer × σ} {c d : Client σ} {l : Lookup}
  {q : Query} {id : String} {s : Snapshot} {now : UnixTime}

/-- The check for staleness, which is made with words, in natural numbers. A snapshot from the
future is no seconds old in both, so that the subtraction never wraps around. -/
theorem isStale_iff : c.isStale s now = true ↔ c.timing.Stale s now := by
  unfold isStale Timing.Stale
  rw [Bool.and_eq_true, bne_iff_ne, decide_eq_true_eq, UInt64.le_iff_toNat_le,
    UnixTime.toNat_secondsSince, Nat.pos_iff_ne_zero, ne_eq, ← UInt64.toNat_inj]
  rfl

/-- The same for snapshots that are still fresh. -/
theorem isStale_eq_false_iff : c.isStale s now = false ↔ ¬ c.timing.Stale s now := by
  rw [← isStale_iff, Bool.not_eq_true]

/-- The key of an identifier, looked up without the index: the query is not answered exactly if no
key of the snapshot carries it. -/
theorem isAnsweredBy_key_eq_false_iff :
    (Query.key id).isAnsweredBy s = false ↔ ∀ k ∈ s.keys.keys, k.id ≠ some id := by
  unfold Query.isAnsweredBy
  rw [Option.isSome_eq_false_iff, Option.isNone_iff_eq_none, Snapshot.get?_eq_none_iff]

/-- A lookup is held back if there is a fresh snapshot to answer it and the interval since the last
start has not passed, both said in natural numbers. -/
theorem holdsBack_iff :
    c.HoldsBack now ↔ (∃ s, c.cached = some s ∧ ¬ c.timing.Stale s now) ∧
      ∃ last, c.lastAttempt = some last ∧ ¬ c.timing.Elapsed last now := by
  unfold HoldsBack isHeldBack
  rw [Bool.and_eq_true, Option.any_eq_true, Option.any_eq_true]
  -- the two parts correspond to each other
  refine and_congr (exists_congr fun s => ?_) (exists_congr fun last => ?_)
  · rw [Bool.not_eq_true', isStale_eq_false_iff]
  · rw [decide_eq_true_eq, UInt64.lt_iff_toNat_lt, UnixTime.toNat_secondsSince, Timing.Elapsed,
      Nat.not_le]

/-! ## The first poll -/

/-- When a lookup needs a fetch that may be started, given what is cached and when the last fetch
was started. -/
inductive Due (t : Timing) (cached : Option Snapshot) (last : Option UnixTime) (now : UnixTime) :
    Query → Prop
  | empty (q : Query) (h : cached = none) : Due t cached last now q
  | stale (q : Query) (s : Snapshot) (h : cached = some s) (stale : t.Stale s now) :
    Due t cached last now q
  | unknown (id : String) (s : Snapshot) (h : cached = some s) (fresh : ¬ t.Stale s now)
    (unknown : ∀ k ∈ s.keys.keys, k.id ≠ some id) (elapsed : ∀ l, last = some l → t.Elapsed l now) :
    Due t cached last now (.key id)

/-- The reasons for a fetch are what the client checks: no snapshot answers the query, and the
lookup is not held back. The three constructors of `Due` are the ways in which this can come
about. -/
theorem due_iff :
    Due c.timing c.cached c.lastAttempt now q ↔ c.Lacks q now ∧ ¬ c.HoldsBack now := by
  rw [holdsBack_iff]
  constructor
  · intro due
    cases due with
    | empty _ h =>
      -- nothing is cached, so there is nothing to be answered from
      constructor
      · intro s hs
        rw [h] at hs
        cases hs
      · rintro ⟨⟨s, hs, -⟩, -⟩
        rw [h] at hs
        cases hs
    | stale _ s h stale =>
      constructor
      · intro s' hs
        obtain rfl : s = s' := Option.some.inj (h.symm.trans hs)
        exact .inl (isStale_iff.mpr stale)
      · -- a stale snapshot holds nothing back
        rintro ⟨⟨s', hs, fresh⟩, -⟩
        obtain rfl : s = s' := Option.some.inj (h.symm.trans hs)
        exact fresh stale
    | unknown id s h fresh unknown elapsed =>
      constructor
      · intro s' hs
        obtain rfl : s = s' := Option.some.inj (h.symm.trans hs)
        exact .inr (isAnsweredBy_key_eq_false_iff.mpr unknown)
      · rintro ⟨-, last, hlast, short⟩
        exact short (elapsed last hlast)
  · rintro ⟨lacks, free⟩
    cases hs : c.cached with
    | none => exact .empty q rfl
    | some s =>
      -- a snapshot that lacks nothing but its freshness is stale, and otherwise the key is unknown
      by_cases stale : c.timing.Stale s now
      · exact .stale q s rfl stale
      · rcases lacks s hs with h | h
        · exact absurd (isStale_iff.mp h) stale
        · cases q with
          | all =>
            -- a fresh snapshot answers this query
            cases h
          | key id =>
            refine .unknown id s rfl stale (isAnsweredBy_key_eq_false_iff.mp h) ?_
            intro last hl
            -- otherwise the lookup would be held back
            by_cases elapsed : c.timing.Elapsed last now
            · exact elapsed
            · exact absurd ⟨⟨s, hs, stale⟩, last, hl, elapsed⟩ free

/-- A lookup that a fresh snapshot answers is done at once. Nothing changes, not even the
provider. -/
theorem poll_of_hit (quiet : c.interruption = none) (hs : c.cached = some s)
    (fresh : ¬ c.timing.Stale s now) (hit : q.isAnsweredBy s = true) :
    c.poll ask ⟨q, none⟩ now = (.done (.ok s), c) :=
  poll_of_answered ask (engage_of_hit quiet hs (isStale_eq_false_iff.mpr fresh) hit)

/-- Neither does anything change if the lookup is held back. The state of the client is the same as
a whole, and so is the answer of the next lookup like this one. -/
theorem poll_of_held (quiet : c.interruption = none) (idle : c.inFlight = none)
    (lacks : c.Lacks q now) (held : c.HoldsBack now) (hs : c.cached = some s) :
    c.poll ask ⟨q, none⟩ now = (.done (.ok s), c) :=
  poll_of_answered ask (engage_of_held quiet lacks idle held hs)

/-- A lookup that starts a fetch is due to, also if another party gets ahead of it. The number of
fetches tells whether one was started. -/
theorem due_of_poll_started (h : (c.poll ask ⟨q, none⟩ now).2.started ≠ c.started) :
    c.inFlight = none ∧ Due c.timing c.cached c.lastAttempt now q := by
  have evolves : Evolves ask c (c.poll ask ⟨q, none⟩ now).2 := poll_evolves c _ now
  rw [due_iff]
  constructor
  · rcases evolves.started with same | ⟨idle, -⟩
    · exact absurd same h
    · exact idle
  · apply lacks_of_begin_started
    rwa [(poll_keeps c ⟨q, none⟩ now).1] at h

/-- A lookup that is due to start a fetch does, if none is in flight and nobody gets ahead of it.
With `due_of_poll_started` this says exactly when a fetch is started. -/
theorem poll_started_of_due (quiet : c.interruption = none) (idle : c.inFlight = none)
    (due : Due c.timing c.cached c.lastAttempt now q) :
    (c.poll ask ⟨q, none⟩ now).2.started = c.started + 1 := by
  obtain ⟨lacks, free⟩ := due_iff.mp due
  rw [(poll_keeps c ⟨q, none⟩ now).1, engage_of_free quiet lacks idle free]
  rfl

/-- No poll but the first one of a lookup starts a fetch. From the second one on the lookup waits
for the fetch that it has found. -/
theorem poll_started_of_waiting {f : Nat} (h : l.waitingFor = some f) :
    (c.poll ask l now).2.started = c.started := by
  have same : c.engage l now = (.waiting f, c) := by
    unfold engage
    rw [h]
  rw [(poll_keeps c l now).1, same]

/-! ## Runs -/

/-- The start of a fetch. -/
structure Start where
  time : UnixTime
  /-- Whether a fresh snapshot was at hand. -/
  againstFresh : Bool

/-- The fetch that an operation starts. -/
def Op.start? (ask : σ → Option ProviderAnswer × σ) (c : Client σ) : Op σ → Option Start
  | .poll l now =>
    if (c.poll ask l now).2.started = c.started then none
    else some ⟨now, c.cached.any fun s => !decide (c.timing.Stale s now)⟩
  | _ => none

/-- The fetches that are started by operations in order. -/
def starts (ask : σ → Option ProviderAnswer × σ) : Client σ → List (Op σ) → List Start
  | _, [] => []
  | c, op :: rest => (op.start? ask c).toList ++ starts ask (c.apply ask op) rest

/-- The starts of a run are those before the last operation, and the one that this operation makes
in the state which the others have led to. -/
theorem starts_concat (c : Client σ) (ops : List (Op σ)) (op : Op σ) :
    starts ask c (ops ++ [op]) = starts ask c ops ++ (op.start? ask (c.run ask ops)).toList := by
  induction ops generalizing c with
  | nil => simp [starts]
  | cons first ops ih => simp [starts, ih]

/-- The intervals are set when a client is made, and no operation changes them. What is due at the
end of a run is judged by the intervals of its beginning. -/
theorem run_timing (c : Client σ) (ops : List (Op σ)) : (c.run ask ops).timing = c.timing := by
  induction ops generalizing c with
  | nil => rfl
  | cons op ops ih => exact (ih _).trans (apply_evolves c op : Evolves ask _ _).timing

/-- The last attempt changes with each start, and only then. Neither a completed nor a failed fetch
changes it, nor does anybody who puts keys into the cache. -/
theorem apply_lastAttempt (c : Client σ) (op : Op σ) :
    (c.apply ask op).lastAttempt = ((op.start? ask c).map Start.time).or c.lastAttempt := by
  cases op with
  | poll l now =>
    show (c.poll ask l now).2.lastAttempt = _
    simp only [Op.start?]
    rw [(poll_keeps c l now).1, (poll_keeps c l now).2]
    rcases (engage_engaged c l now).fetches with ⟨hs, hl, -⟩ | ⟨-, hs, hl, -⟩
    · -- no start
      rw [hs, hl]
      simp
    · -- a start, which is noted with its time
      rw [hs, hl]
      simp
  | setKeys keys now => exact (sameFetches_setKeys c keys now).lastAttempt
  | interrupt keys => rfl
  | provide f => rfl

/-- The last attempt is the last start of the run, or else the one before the run. The induction
takes the last operation off, because it is the last start that counts. -/
theorem run_lastAttempt (c : Client σ) (ops : List (Op σ)) :
    (c.run ask ops).lastAttempt =
      ((starts ask c ops).getLast?.map Start.time).or c.lastAttempt := by
  induction ops using List.reverseRecOn with
  | nil => rfl
  | append_singleton ops op ih =>
    rw [run_concat, apply_lastAttempt, ih, starts_concat]
    cases op.start? ask (c.run ask ops) with
    | none => simp
    | some b => simp

/-- The starts of a run are all the fetches that were started in it. So whatever is said of the list
of starts is said of every call that is made to a provider. -/
theorem run_started (c : Client σ) (ops : List (Op σ)) :
    (c.run ask ops).started = c.started + (starts ask c ops).length := by
  induction ops using List.reverseRecOn with
  | nil => rfl
  | append_singleton ops op ih =>
    -- an operation starts one fetch at most
    have one : ∀ d : Client σ,
        (d.apply ask op).started = d.started + (op.start? ask d).toList.length := by
      intro d
      cases op with
      | poll l now =>
        show (d.poll ask l now).2.started = _
        simp only [Op.start?]
        rw [(poll_keeps d l now).1]
        rcases (engage_engaged d l now).fetches with ⟨hs, -, -⟩ | ⟨-, hs, -, -⟩
        · rw [hs]
          simp
        · rw [hs]
          simp
      | setKeys keys now => exact (sameFetches_setKeys d keys now).started
      | interrupt keys => rfl
      | provide f => rfl
    rw [run_concat, one, ih, starts_concat, List.length_append, Nat.add_assoc]

/-! ## Spacing -/

/-- A start keeps the refresh interval from the start before it if there was a fresh snapshot. -/
def Spaced (t : Timing) (a b : Start) : Prop :=
  b.againstFresh = true → t.Elapsed a.time b.time

/-- A fetch is only started against a fresh snapshot if the interval has passed. What is remembered
of the past is the last attempt only, so this is about the attempt before the one that is made now.
Along a run it links each start to the one before it. -/
theorem elapsed_of_start? {op : Op σ} {b : Start} (hb : op.start? ask c = some b)
    (fresh : b.againstFresh = true) {last : UnixTime} (hl : c.lastAttempt = some last) :
    c.timing.Elapsed last b.time := by
  cases op with
  | setKeys keys now => cases hb
  | interrupt keys => cases hb
  | provide f => cases hb
  | poll l now =>
    unfold Op.start? at hb
    dsimp only at hb
    split at hb
    · cases hb
    · next changed =>
      obtain ⟨q, w⟩ := l
      cases w with
      | some f => exact absurd (poll_started_of_waiting rfl) changed
      | none =>
        obtain ⟨-, due⟩ := due_of_poll_started changed
        cases hb
        -- of all reasons for a fetch only the unknown key is left
        rw [Option.any_eq_true] at fresh
        obtain ⟨s, hs, fresh⟩ := fresh
        rw [Bool.not_eq_true', decide_eq_false_iff_not] at fresh
        cases due with
        | empty _ h =>
          rw [h] at hs
          cases hs
        | stale _ s' h stale =>
          obtain rfl : s' = s := Option.some.inj (h.symm.trans hs)
          exact absurd stale fresh
        | unknown id s' h _ unknown elapsed => exact elapsed last hl

/-- Starts against a fresh snapshot keep the interval, in every run. Each start is compared with the
one before it, and the starts for other reasons, which are not held back, count as well. -/
theorem isChain_starts (c : Client σ) (ops : List (Op σ)) :
    (starts ask c ops).IsChain (Spaced c.timing) := by
  induction ops using List.reverseRecOn with
  | nil => exact .nil
  | append_singleton ops op ih =>
    rw [starts_concat, List.isChain_append]
    refine ⟨ih, ?_, ?_⟩
    · cases op.start? ask (c.run ask ops) with
      | none => exact .nil
      | some b => exact .singleton b
    · -- the last attempt links the new start to the one before it
      intro a ha b hb fresh
      have hb : op.start? ask (c.run ask ops) = some b := by
        rwa [Option.head?_toList] at hb
      have hl : (c.run ask ops).lastAttempt = some a.time := by
        rw [run_lastAttempt, Option.mem_def.mp ha]
        rfl
      have elapsed := elapsed_of_start? hb fresh hl
      rwa [run_timing] at elapsed

/-! ## Reachable states -/

/-- What polls start, and what they are answered with at once, if the last fetch was started at a
certain time. -/
structure Throttled (ask : σ → Option ProviderAnswer × σ) (c : Client σ) (last : Option UnixTime) :
    Prop where
  /-- A lookup only starts a fetch if none is unfinished and one is due. -/
  due : ∀ q now, (c.poll ask ⟨q, none⟩ now).2.started ≠ c.started →
    (∀ f, ¬ c.Unfinished f) ∧ Due c.timing c.cached last now q
  /-- It does start it then, unless another party gets ahead of it. -/
  starts : ∀ q now, c.interruption = none → (∀ f, ¬ c.Unfinished f) →
    Due c.timing c.cached last now q → (c.poll ask ⟨q, none⟩ now).2.started = c.started + 1
  /-- No later poll starts a fetch. -/
  later : ∀ l now, l.waitingFor ≠ none → (c.poll ask l now).2.started = c.started
  /-- A fresh snapshot that has what is asked for is the answer, and nothing changes. -/
  hit : ∀ s q now, c.interruption = none → c.cached = some s → ¬ c.timing.Stale s now →
    (q = .all ∨ ∃ id, q = .key id ∧ ∃ k ∈ s.keys.keys, k.id = some id) →
    c.poll ask ⟨q, none⟩ now = (.done (.ok s), c)
  /-- Within the interval a key that a fresh snapshot lacks is unknown, and nothing changes. -/
  held : ∀ s id now, c.interruption = none → (∀ f, ¬ c.Unfinished f) → c.cached = some s →
    ¬ c.timing.Stale s now → (∀ k ∈ s.keys.keys, k.id ≠ some id) →
    (∃ t, last = some t ∧ ¬ c.timing.Elapsed t now) →
    c.poll ask ⟨.key id, none⟩ now = (.done (.ok s), c) ∧
      FetchOutcome.key id (.ok s) = .error (.unknownKey id)

/-- A coherent client is throttled by its last attempt. Where the invariant says that the unfinished
fetches are the one in flight, `Throttled` speaks of unfinished fetches only: whoever uses it need
not know how a client keeps account of them. -/
theorem Coherent.throttled (h : c.Coherent) : c.Throttled ask c.lastAttempt := by
  have idle : c.inFlight = none ↔ ∀ f, ¬ c.Unfinished f := by
    rw [Option.eq_none_iff_forall_ne_some]
    exact forall_congr' fun f => not_congr (h.inFlight_iff f)
  constructor
  · -- whoever starts a fetch found none under way, and a reason to start one
    intro q now changed
    rw [← idle]
    exact due_of_poll_started changed
  · intro q now quiet complete due
    exact poll_started_of_due quiet (idle.mpr complete) due
  · intro l now hl
    -- a later poll has its fetch already
    obtain ⟨f, hf⟩ := Option.ne_none_iff_exists'.mp hl
    exact poll_started_of_waiting hf
  · intro s q now quiet hs fresh hit
    refine poll_of_hit quiet hs fresh ?_
    rcases hit with rfl | ⟨id, rfl, k, hk, hid⟩
    · rfl
    · cases answered : (Query.key id).isAnsweredBy s with
      | true => rfl
      | false => exact absurd hid (isAnsweredBy_key_eq_false_iff.mp answered k hk)
  · intro s id now quiet complete hs fresh unknown hlast
    -- fresh, but without the key, and too soon after the last fetch
    have held : c.HoldsBack now := holdsBack_iff.mpr ⟨⟨s, hs, fresh⟩, hlast⟩
    have lacks : c.Lacks (.key id) now := by
      intro s' hs'
      obtain rfl : s = s' := Option.some.inj (hs.symm.trans hs')
      exact .inr (isAnsweredBy_key_eq_false_iff.mpr unknown)
    refine ⟨poll_of_held quiet (idle.mpr complete) lacks held hs, ?_⟩
    unfold FetchOutcome.key
    dsimp only
    rw [Snapshot.get?_eq_none_iff.mpr unknown]

/-- **Refresh throttling, exactly.** In every state of a run the first poll of a lookup starts a
fetch if and only if none is unfinished and one is due, no later poll does, and lookups that need no
fetch or must not start one are answered without a change (`Throttled`). The last start, by which
this is decided, is the last one of the whole run. Every start against a fresh snapshot keeps the
interval from the start before it. -/
theorem refresh_throttling {c : Client σ} (new : c.Fresh) {ops : List (Op σ)}
    (legal : Legal ask c ops) :
    (c.run ask ops).timing = c.timing ∧
      (c.run ask ops).started = (starts ask c ops).length ∧
      (c.run ask ops).Throttled ask ((starts ask c ops).getLast?.map Start.time) ∧
      (starts ask c ops).IsChain (Spaced c.timing) := by
  refine ⟨run_timing c ops, ?_, ?_, isChain_starts c ops⟩
  · rw [run_started, new.started, Nat.zero_add]
  · have last : (c.run ask ops).lastAttempt = _ := run_lastAttempt c ops
    rw [new.lastAttempt, Option.or_none] at last
    rw [← last]
    exact (new.coherent.run legal).throttled

/-- A fetch fails, and keys are put into the cache after that. -/
def failedFetch : List (Op Provider) := [.poll ⟨.all, none⟩ ⟨1⟩, .setKeys ⟨[]⟩ ⟨2⟩]

/-- The fetch that failed counts: the next one for the sake of an unknown key has to wait for the
interval. -/
theorem refresh_throttling_failedFetch :
    let c : Client Provider :=
      { provider := .arranged { serving := .error (.format none) }, timing := ⟨2, 0⟩ }
    let d := c.run Provider.ask failedFetch
    c.Fresh ∧ Legal Provider.ask c failedFetch ∧
      (d.poll Provider.ask ⟨.key "k", none⟩ ⟨3⟩).2.started = d.started + 1 ∧
      (d.poll Provider.ask ⟨.key "k", none⟩ ⟨2⟩).2 = d := by
  intro c d
  have new : c.Fresh := ⟨rfl, rfl, rfl, rfl, rfl, rfl⟩
  have legal : Legal Provider.ask c failedFetch := ⟨nofun, trivial, trivial⟩
  obtain ⟨-, -, throttled, -⟩ := refresh_throttling new legal
  have quiet : d.interruption = none := rfl
  -- the one fetch of the run has failed, and so it is complete
  have complete : ∀ f, ¬ d.Unfinished f := by
    rintro f ⟨hlt, hout⟩
    obtain rfl : f = 0 := Nat.lt_one_iff.mp hlt
    cases hout
  have cached : d.cached = some (.of ⟨[]⟩ ⟨2⟩ 0) := rfl
  have last : (starts Provider.ask c failedFetch).getLast?.map Start.time = some ⟨1⟩ := rfl
  have lacking : ∀ k ∈ (Snapshot.of ⟨[]⟩ ⟨2⟩ 0).keys.keys, k.id ≠ some "k" :=
    List.forall_mem_nil _
  refine ⟨new, legal, throttled.starts _ _ quiet complete ?_, ?_⟩
  · refine .unknown "k" _ cached (by decide) lacking fun t ht => ?_
    obtain rfl : ⟨1⟩ = t := Option.some.inj (last.symm.trans ht)
    decide
  · -- at the same time the interval has not elapsed
    have short : ¬ c.timing.Elapsed ⟨1⟩ ⟨2⟩ := by decide
    have held := throttled.held _ "k" ⟨2⟩ quiet complete cached (by decide) lacking
      ⟨⟨1⟩, last, short⟩
    rw [held.1]

end Client
end BearerAuth
