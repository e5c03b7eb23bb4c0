import BearerAuth.KeyCache.Snapshot

/-!
# BearerAuth — the key cache

A client keeps the last snapshot of a key set and fetches a new one when it has to. Whoever needs
keys makes a *lookup*, which is polled until it is done; each poll is one step of the client.

* A fresh snapshot answers a lookup at once, if the lookup asks for the whole set or for a key that
  the snapshot has.
* Otherwise a fetch is needed. If one is in flight the lookup waits for it; there is never more than
  one. A fetch that is only needed because a fresh snapshot lacks a key is not started within the
  refresh interval of the last start, and the lookup is answered from that snapshot.
* A fetch goes on as long as some lookup that waits for it is polled, and also when the lookup that
  started it was dropped. Its outcome is kept for every lookup that waits for it. A failed fetch
  leaves the snapshot as it is.

The keys come from a provider with a state of type `σ`. `ask` polls it: the first poll for a fetch
calls the provider, which may not have an answer yet and may change its state. The clock stands
still during a step, and a client that could read a clock of its own is given the reading with each
step. Whenever the client reads the clock another party may get ahead of it, once, and put a key set
into the cache; such an interruption is arranged in advance.

## Main definitions

* `Client`            — the state of a key cache.
* `Lookup`, `Query`   — what is asked for, and what it waits for.
* `Client.begin`      — the first step of a lookup, up to the fetch that it needs.
* `Client.advance`    — one step of a fetch.
* `Client.poll`       — one step of a lookup.
* `Client.setKeys`    — puts a key set into the cache.
-/

namespace BearerAuth

/-- How long snapshots are good for, in seconds. -/
structure Timing where
  /-- The least time between starts of fetches for the sake of unknown keys. -/
  refreshInterval : UInt64 := 120
  /-- The age at which a snapshot is stale; zero for snapshots that never are. -/
  cacheTime : UInt64 := 10800
deriving DecidableEq

/-- The outcome of a fetch. -/
abbrev FetchOutcome := Except FetchError Snapshot

/-- What a provider may answer. -/
abbrev ProviderAnswer := Except FetchError KeySet

/-- What a lookup asks for. -/
inductive Query where
  | key (id : String)
  | all
deriving DecidableEq

/-- A request for keys that is not yet answered. -/
structure Lookup where
  query : Query
  /-- The fetch that the lookup waits for, once it has been polled. -/
  waitingFor : Option Nat := none
deriving DecidableEq

/-- The state of a key cache. -/
structure Client (σ : Type u) where
  /-- The state of the provider. -/
  provider : σ
  timing : Timing := {}
  cached : Option Snapshot := none
  /-- When the last fetch was started. -/
  lastAttempt : Option UnixTime := none
  /-- The fetch that is not yet complete. -/
  inFlight : Option Nat := none
  /-- The outcomes of the fetches that are complete, latest first, by number. -/
  outcomes : List (Nat × FetchOutcome) := []
  /-- The number of fetches that were started, which is the number of the next one. -/
  started : Nat := 0
  /-- The number of snapshots that were made, which is the number of the next one. -/
  made : Nat := 0
  /-- The key set that another party puts into the cache when the clock is next read. -/
  interruption : Option KeySet := none

/-- The state of a request after a step. -/
inductive Poll (ρ : Type u) (α : Type v) where
  | pending (rest : ρ)
  | done (result : α)

namespace Query

/-- Whether a fresh snapshot answers the query without a fetch. -/
def isAnsweredBy (s : Snapshot) : Query → Bool
  | .all => true
  | .key id => (s.get? id).isSome

end Query

/-- The key of an identifier in the snapshot that a lookup was answered with. -/
def FetchOutcome.key (id : String) (o : FetchOutcome) : Except KeysError Key :=
  match o with
  | .error e => .error (.fetch e)
  | .ok s =>
    match s.get? id with
    | some k => .ok k
    | none => .error (.unknownKey id)

namespace Client

variable {σ : Type u}

/-! ## Parts of a step -/

/-- Makes a snapshot of a key set and puts it into the cache. -/
def store (c : Client σ) (keys : KeySet) (now : UnixTime) : Client σ :=
  { c with cached := some (.of keys now c.made), made := c.made + 1 }

/-- The client after it has read the clock: an arranged interruption has taken place. -/
def readClock (c : Client σ) (now : UnixTime) : Client σ :=
  match c.interruption with
  | none => c
  | some keys => { c with interruption := none }.store keys now

def setKeys (c : Client σ) (keys : KeySet) (now : UnixTime) : Client σ :=
  (c.readClock now).store keys now

/-- Whether a snapshot has reached the age at which it is stale. -/
def isStale (c : Client σ) (s : Snapshot) (now : UnixTime) : Bool :=
  c.timing.cacheTime != 0 && decide (c.timing.cacheTime ≤ now.secondsSince s.fetchedAt)

/-- The client after it has looked whether its snapshot is stale. The clock is not read if
snapshots never are. -/
def afterStaleCheck (c : Client σ) (now : UnixTime) : Client σ :=
  if c.timing.cacheTime = 0 then c else c.readClock now

/-- The snapshot in the cache, if it is another one than was observed before. -/
def movedOn? (c : Client σ) (observed : Option Snapshot) : Option Snapshot :=
  match c.cached, observed with
  | some s, some o => if s.number = o.number then none else some s
  | s, _ => s

/-- Whether a fetch may not be started yet. Only lookups that a fresh snapshot failed are held back
(`throttled`), and only within the refresh interval of the last start. -/
def isHeldBack (c : Client σ) (throttled : Bool) (now : UnixTime) : Bool :=
  throttled && c.lastAttempt.any fun last =>
    decide (now.secondsSince last < c.timing.refreshInterval)

def startFetch (c : Client σ) (now : UnixTime) : Client σ :=
  { c with lastAttempt := some now, inFlight := some c.started, started := c.started + 1 }

/-- What the first step of a lookup leads to. -/
inductive Beginning where
  /-- The lookup is answered. -/
  | answered (s : Snapshot)
  /-- The lookup waits for a fetch, which may have just been started. -/
  | waiting (fetch : Nat)

/-- Starts a fetch or joins the one in flight, after the observed snapshot was found lacking. If
another snapshot has come into the cache since then, it is the answer. -/
def refresh (c : Client σ) (observed : Option Snapshot) (throttled : Bool) (now : UnixTime) :
    Beginning × Client σ :=
  match c.movedOn? observed with
  | some s => (.answered s, c)
  | none =>
    match c.inFlight with
    | some fetch => (.waiting fetch, c)
    | none =>
      -- Whether the lookup is held back is decided before the interruption takes place.
      let held := c.isHeldBack throttled now
      let c := c.readClock now
      match held, observed with
      | true, some s => (.answered s, c)
      | _, _ => (.waiting c.started, c.startFetch now)

/-- The first step of a lookup, up to the fetch that it needs. -/
def begin (c : Client σ) (q : Query) (now : UnixTime) : Beginning × Client σ :=
  match c.cached with
  | none => c.refresh none false now
  | some s =>
    let stale := c.isStale s now
    let c := c.afterStaleCheck now
    -- The lookup goes on with the snapshot that it saw first, also after an interruption.
    if stale then c.refresh (some s) false now
    else if q.isAnsweredBy s then (.answered s, c)
    else c.refresh (some s) true now

/-- The outcome of a fetch that is complete. -/
def outcome? (c : Client σ) (fetch : Nat) : Option FetchOutcome := c.outcomes.lookup fetch

/-- Completes a fetch with the answer of the provider. -/
def complete (c : Client σ) (fetch : Nat) (answer : ProviderAnswer) (now : UnixTime) :
    FetchOutcome × Client σ :=
  match answer with
  | .error e =>
    (.error e, { c with inFlight := none, outcomes := (fetch, .error e) :: c.outcomes })
  | .ok keys =>
    -- An interruption comes before the fetched keys, which replace it.
    let c := c.readClock now
    let s := Snapshot.of keys now c.made
    (.ok s, { c.store keys now with
      inFlight := none, outcomes := (fetch, .ok s) :: c.outcomes })

/-- One step of a fetch: its outcome, if it is or becomes complete. -/
def advance (ask : σ → Option ProviderAnswer × σ) (c : Client σ) (fetch : Nat) (now : UnixTime) :
    Option FetchOutcome × Client σ :=
  match c.outcome? fetch with
  | some o => (some o, c)
  | none =>
    match ask c.provider with
    | (none, p) => (none, { c with provider := p })
    | (some answer, p) =>
      let (o, c) := { c with provider := p }.complete fetch answer now
      (some o, c)

/-! ## Steps -/

/-- A step of a lookup that waits for a fetch. -/
def await (ask : σ → Option ProviderAnswer × σ) (c : Client σ) (q : Query) (fetch : Nat)
    (now : UnixTime) : Poll Lookup FetchOutcome × Client σ :=
  match c.advance ask fetch now with
  | (some o, c) => (.done o, c)
  | (none, c) => (.pending ⟨q, some fetch⟩, c)

/-- One step of a lookup. -/
def poll (ask : σ → Option ProviderAnswer × σ) (c : Client σ) (l : Lookup) (now : UnixTime) :
    Poll Lookup FetchOutcome × Client σ :=
  match l.waitingFor with
  | some fetch => c.await ask l.query fetch now
  | none =>
    match c.begin l.query now with
    | (.answered s, c) => (.done (.ok s), c)
    | (.waiting fetch, c) => c.await ask l.query fetch now

end Client
end BearerAuth
