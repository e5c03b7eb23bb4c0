import BearerAuth.Proofs.KeyCache.Index
import BearerAuth.Proofs.KeyCache.Run

/-!
# BearerAuth — who writes the cache

Two parties write the cache of a client: whoever puts a key set into it, and a fetch that is
completed with keys, which may be long after others have put theirs. An interruption is a key set
that is put into the cache in the middle of an operation, before anything that the operation itself
writes.

The writes of an operation (`Op.writes`) are read off what it is given, what is arranged and what
the provider answers, and not off the cache. The cache then turns out to hold the last write of the
run, keys and time, with nothing of the writes before it.

Main results:

* `mayRead_engage`  — the first part of a poll writes nothing but an interruption.
* `poll_of_failed`  — a fetch that fails changes what is in flight, and nothing else.
* `run_cached`      — the cache holds the last write of the run.
-/

namespace BearerAuth.Client

variable {σ : Type u} {ask : σ → Option ProviderAnswer × σ} {c d e : Client σ} {l : Lookup}
  {now : UnixTime}

/-- A key set that gets into the cache at a time. -/
structure Write where
  keys : KeySet
  time : UnixTime
deriving DecidableEq

/-- The write that a snapshot comes from. -/
def Write.of (s : Snapshot) : Write := ⟨s.keys, s.fetchedAt⟩

/-! ## Interruptions -/

/-- As far as the cache goes, the clock was read between two states, or nothing happened. -/
def MayRead (c : Client σ) (now : UnixTime) (d : Client σ) : Prop :=
  (d.cached = c.cached ∧ d.interruption = c.interruption) ∨
    ∃ keys, c.interruption = some keys ∧ d.interruption = none ∧
      d.cached.map Write.of = some ⟨keys, now⟩

theorem MayRead.refl (c : Client σ) (now : UnixTime) : MayRead c now c := .inl ⟨rfl, rfl⟩

/-- The clock may be read several times in a row, and the interruption takes place at the first
time. -/
theorem MayRead.trans (h : MayRead c now d) (k : MayRead d now e) : MayRead c now e := by
  rcases k with ⟨cached, interruption⟩ | ⟨keys, arranged, spent, cached⟩
  · unfold MayRead
    rw [cached, interruption]
    exact h
  · rcases h with ⟨-, same⟩ | ⟨_, -, taken, -⟩
    · exact .inr ⟨keys, same ▸ arranged, spent, cached⟩
    · -- an interruption takes place once
      rw [taken] at arranged
      cases arranged

/-- To read the clock lets an arranged interruption take place, which writes a key set with the time
that is read. -/
theorem mayRead_readClock (c : Client σ) (now : UnixTime) : MayRead c now (c.readClock now) := by
  unfold readClock
  cases h : c.interruption with
  | none => exact .refl c now
  | some keys => exact .inr ⟨keys, h, rfl, rfl⟩

/-- The check for staleness reads the clock at most once. -/
theorem mayRead_afterStaleCheck (c : Client σ) (now : UnixTime) :
    MayRead c now (c.afterStaleCheck now) := by
  unfold afterStaleCheck
  split
  · exact .refl c now
  · exact mayRead_readClock c now

/-- A refresh reads the clock at most once, just before it starts a fetch or is held back. -/
theorem mayRead_refresh (c : Client σ) (observed : Option Snapshot) (throttled : Bool)
    (now : UnixTime) : MayRead c now (c.refresh observed throttled now).2 := by
  unfold refresh
  split
  · exact .refl c now
  · split
    · exact .refl c now
    · -- a start does not touch the cache, so only the reading of the clock is left
      have read : MayRead c now (c.readClock now) := mayRead_readClock c now
      dsimp only
      split
      · exact read
      · exact read

/-- The first step of a lookup reads the clock up to two times, for the age of the snapshot and in
the refresh. Together they write one interruption or nothing. -/
theorem mayRead_begin (c : Client σ) (q : Query) (now : UnixTime) :
    MayRead c now (c.begin q now).2 := by
  unfold begin
  split
  · -- without a snapshot there is no age to be checked
    exact mayRead_refresh c none false now
  · next s _ =>
    have first : MayRead c now (c.afterStaleCheck now) := mayRead_afterStaleCheck c now
    dsimp only
    split
    · exact first.trans (mayRead_refresh _ (some s) false now)
    · split
      · exact first
      · exact first.trans (mayRead_refresh _ (some s) true now)

/-- The first part of a poll writes nothing but an interruption. Whatever else a poll writes was
fetched. -/
theorem mayRead_engage (c : Client σ) (l : Lookup) (now : UnixTime) :
    MayRead c now (c.engage l now).2 := by
  unfold engage
  split
  · exact .refl c now
  · exact mayRead_begin c l.query now

/-! ## Completions -/

/-- The fetch that a poll completes and what its provider answers: the lookup waits for a fetch that
is not complete, and there is an answer. -/
def landing? (ask : σ → Option ProviderAnswer × σ) (c : Client σ) (l : Lookup) (now : UnixTime) :
    Option (Nat × ProviderAnswer) :=
  match c.engage l now with
  | (.answered _, _) => none
  | (.waiting f, d) =>
    match d.outcome? f with
    | some _ => none
    | none => (ask d.provider).1.map fun answer => (f, answer)

/-- The keys that a poll fetches. -/
def fetched? (ask : σ → Option ProviderAnswer × σ) (c : Client σ) (l : Lookup) (now : UnixTime) :
    Option KeySet :=
  match c.landing? ask l now with
  | some (_, .ok keys) => some keys
  | _ => none

/-- A fetch that is not complete is completed by the answer of its provider. If the provider has no
answer yet, it is asked again the next time. -/
theorem advance_of_answer {f : Nat} {answer : ProviderAnswer} (open_ : c.outcome? f = none)
    (h : (ask c.provider).1 = some answer) :
    (c.advance ask f now).2 =
      ({ c with provider := (ask c.provider).2 }.complete f answer now).2 := by
  unfold advance
  rw [open_]
  cases ha : ask c.provider with
  | mk a p =>
    rw [ha] at h
    obtain rfl : a = some answer := h
    rfl

/-- A poll that completes no fetch leaves the cache as its first part did. In particular a failed
fetch writes nothing. -/
theorem poll_of_not_landing (h : c.landing? ask l now = none) :
    (c.poll ask l now).2.cached = (c.engage l now).2.cached ∧
      (c.poll ask l now).2.interruption = (c.engage l now).2.interruption := by
  unfold landing? at h
  cases he : c.engage l now with
  | mk b d =>
    rw [he] at h
    cases b with
    | answered s =>
      rw [poll_of_answered ask he]
      exact ⟨rfl, rfl⟩
    | waiting f =>
      rw [poll_of_waiting ask he, await_snd]
      obtain ⟨o, -, ha⟩ | ⟨-, -, ha⟩ | ⟨a, o, e, open_, answer, -, -⟩ := advance_cases ask d f now
      · rw [ha]
        exact ⟨rfl, rfl⟩
      · rw [ha]
        exact ⟨rfl, rfl⟩
      · -- this is the case of a completion
        simp [open_, answer] at h

/-- A poll that completes a fetch does so in the state that its first part has left. The provider
has been asked once more, and its answer is the one that counts. -/
theorem poll_of_landing {f : Nat} {answer : ProviderAnswer}
    (h : c.landing? ask l now = some (f, answer)) :
    (c.engage l now).1 = .waiting f ∧ (c.engage l now).2.outcome? f = none ∧
      (c.poll ask l now).2 = ({ (c.engage l now).2 with
        provider := (ask (c.engage l now).2.provider).2 }.complete f answer now).2 := by
  unfold landing? at h
  -- a poll lands if its lookup waits for a fetch that is open, and the provider answers
  cases he : c.engage l now with
  | mk b d =>
    rw [he] at h
    cases b with
    | answered s => cases h
    | waiting g =>
      cases open_ : d.outcome? g with
      | some o => simp [open_] at h
      | none =>
        simp only [open_, Option.map_eq_some_iff, Prod.mk.injEq] at h
        obtain ⟨a, answered, rfl, rfl⟩ := h
        rw [poll_of_waiting ask he, await_snd]
        exact ⟨rfl, open_, advance_of_answer open_ answered⟩

/-- A fetch that fails changes what is in flight, and nothing else: its outcome is noted for those
who wait for it, and the provider is what it is after it was asked. -/
theorem poll_of_failed {f : Nat} {cause : FetchError}
    (h : c.landing? ask l now = some (f, .error cause)) :
    (c.poll ask l now).2 = { (c.engage l now).2 with
      provider := (ask (c.engage l now).2.provider).2
      inFlight := none
      outcomes := (f, .error cause) :: (c.engage l now).2.outcomes } :=
  (poll_of_landing h).2.2

/-- Fetched keys are in the cache, with the time of the completion and not that of the start. They
are fresh for as long as if they had come at once. -/
theorem poll_of_fetched {keys : KeySet} (h : c.fetched? ask l now = some keys) :
    (c.poll ask l now).2.cached.map Write.of = some ⟨keys, now⟩ := by
  unfold fetched? at h
  split at h
  · next f fetched landing =>
    cases h
    rw [(poll_of_landing landing).2.2]
    rfl
  · cases h

/-- A poll that fetches no keys, be it that no fetch ends or that one fails, leaves the cache as its
first part did. -/
theorem poll_of_not_fetched (h : c.fetched? ask l now = none) :
    (c.poll ask l now).2.cached = (c.engage l now).2.cached ∧
      (c.poll ask l now).2.interruption = (c.engage l now).2.interruption := by
  cases landing : c.landing? ask l now with
  | none => exact poll_of_not_landing landing
  | some landed =>
    obtain ⟨f, answer⟩ := landed
    cases answer with
    | error cause =>
      rw [poll_of_failed landing]
      exact ⟨rfl, rfl⟩
    | ok keys => simp [fetched?, landing] at h

/-! ## The writes of a run -/

/-- The interruption that took place between two states. -/
def overtaking (c d : Client σ) (now : UnixTime) : List Write :=
  if d.interruption.isNone then (c.interruption.map (Write.mk · now)).toList else []

/-- The writes of an operation, in order. -/
def Op.writes (ask : σ → Option ProviderAnswer × σ) (c : Client σ) : Op σ → List Write
  | .poll l now =>
    overtaking c (c.poll ask l now).2 now ++ ((c.fetched? ask l now).map (Write.mk · now)).toList
  | .setKeys keys now => overtaking c (c.setKeys keys now) now ++ [⟨keys, now⟩]
  | .interrupt _ | .provide _ => []

/-- The writes of operations in order. -/
def writes (ask : σ → Option ProviderAnswer × σ) : Client σ → List (Op σ) → List Write
  | _, [] => []
  | c, op :: rest => op.writes ask c ++ writes ask (c.apply ask op) rest

/-- The cache after the clock was read holds the interruption that took place, or what it held
before. -/
theorem MayRead.cached_eq (h : MayRead c now d) :
    d.cached.map Write.of = (overtaking c d now).getLast?.or (c.cached.map Write.of) := by
  unfold overtaking
  rcases h with ⟨cached, same⟩ | ⟨keys, arranged, spent, cached⟩
  · rw [cached, same]
    cases c.interruption <;> simp
  · rw [cached, arranged, spent]
    simp

/-- **One step.** The cache after an operation holds the last write of that operation, or what it
held before if the operation writes nothing. A poll may write twice: an interruption puts keys there
first, and a fetch that it completes writes over them. -/
theorem apply_cached (c : Client σ) (op : Op σ) :
    (c.apply ask op).cached.map Write.of =
      (op.writes ask c).getLast?.or (c.cached.map Write.of) := by
  cases op with
  | poll l now =>
    simp only [apply, Op.writes]
    cases fetched : c.fetched? ask l now with
    | some keys =>
      -- whatever got ahead, the fetched keys come last
      rw [poll_of_fetched fetched]
      simp
    | none =>
      -- then only an interruption can have written
      obtain ⟨cached, interruption⟩ := poll_of_not_fetched fetched
      have read : MayRead c now (c.poll ask l now).2 := by
        unfold MayRead
        rw [cached, interruption]
        exact mayRead_engage c l now
      rw [read.cached_eq]
      simp
  | setKeys keys now =>
    -- the key set comes after an interruption and replaces it
    simp only [apply, Op.writes, setKeys, store, Option.map_some, List.getLast?_append]
    rfl
  | interrupt keys => rfl
  | provide f => rfl

/-- **Whole runs.** The cache holds the last write of the run, or else what it held before. Nothing
of the earlier writes is left, and nothing is mixed. -/
theorem run_cached (c : Client σ) (ops : List (Op σ)) :
    (c.run ask ops).cached.map Write.of =
      (writes ask c ops).getLast?.or (c.cached.map Write.of) := by
  induction ops generalizing c with
  | nil => rfl
  | cons op ops ih =>
    rw [run_cons, ih, apply_cached, writes, List.getLast?_append, Option.or_assoc]

end BearerAuth.Client
