import BearerAuth.KeyCache.Provider
import BearerAuth.Validator.Basic

/-!
# BearerAuth — sessions with key caches

A session lets several callers work with key caches and the validators over them, under one clock:
the reading of the moment is that of every validator and every cache, as if all had been set up with
this clock and none with one of its own.
A caller makes a request under a name; the request is polled once, and if it is not done it waits
under its name until it is polled again or dropped. What the provider of a cache answers is
arranged by the session, unless the provider is a fixed one.

## Main definitions

* `Session`         — clock, caches and the requests that wait.
* `Session.request` — makes a request.
* `Session.poll`    — polls a waiting request once more.
* `Session.drop`    — drops a waiting request.
-/

namespace BearerAuth

/-- A request for keys of a cache or for a validation. -/
inductive Session.Request where
  | key (cache : Nat) (id : String)
  | keys (cache : Nat)
  /-- Validate a token with these validators, for the identity of its bearer. -/
  | identity (validators : List Validator) (token : String)
  /-- Validate a token with these validators, for its claims. -/
  | claims (validators : List Validator) (token : String)

inductive Session.Result where
  | key (result : Except KeysError Key)
  | keys (result : FetchOutcome)
  | identity (result : Except ValidationError Identity)
  | claims (result : ValidationResult)

inductive Session.Waiting where
  | lookup (cache : Nat) (l : Lookup)
  | identity (s : Suspension)
  | claims (s : Suspension)

structure Session where
  clock : UnixTime
  caches : Caches Provider
  waiting : OrderedMap Session.Waiting := .empty

namespace Session

/-! ## Steps of a request -/

def ofLookup : Query → FetchOutcome → Result
  | .key id, o => .key (o.key id)
  | .all, o => .keys o

/-- The identity that a validation results in. -/
def ofClaims (r : ValidationResult) : Result := .identity (r.map identityOf)

/-- One step of a lookup in a cache. -/
def stepLookup (s : Session) (cache : Nat) (l : Lookup) : Poll Waiting Result × Session :=
  match Validation.pollCache Provider.ask s.caches cache l s.clock with
  | (.pending l, caches) => (.pending (.lookup cache l), { s with caches })
  | (.done o, caches) => (.done (ofLookup l.query o), { s with caches })

/-- The outcome of a step of a validation as that of a step of a request. -/
def stepValidation (s : Session) (wait : Suspension → Waiting) (finish : ValidationResult → Result)
    (p : Poll Suspension ValidationResult × Caches Provider) : Poll Waiting Result × Session :=
  match p with
  | (.pending v, caches) => (.pending (wait v), { s with caches })
  | (.done r, caches) => (.done (finish r), { s with caches })

def begin (s : Session) : Request → Poll Waiting Result × Session
  | .key cache id => s.stepLookup cache ⟨.key id, none⟩
  | .keys cache => s.stepLookup cache ⟨.all, none⟩
  | .identity vs token =>
    s.stepValidation .identity ofClaims (Validation.start Provider.ask vs token s.clock s.caches)
  | .claims vs token =>
    s.stepValidation .claims .claims (Validation.start Provider.ask vs token s.clock s.caches)

/-- One more step of a request that waits. -/
def proceed (s : Session) : Waiting → Poll Waiting Result × Session
  | .lookup cache l => s.stepLookup cache l
  | .identity v =>
    s.stepValidation .identity ofClaims (Validation.resume Provider.ask v s.clock s.caches)
  | .claims v =>
    s.stepValidation .claims .claims (Validation.resume Provider.ask v s.clock s.caches)

/-! ## Requests under names -/

/-- Makes a request under a name: its result, unless it has to wait. -/
def request (s : Session) (name : String) (r : Request) : Option Result × Session :=
  match s.begin r with
  | (.pending w, s) => (none, { s with waiting := s.waiting.insert name w })
  -- A request that is done at once leaves alone what waits under its name.
  | (.done r, s) => (some r, s)

/-- Polls the request that waits under a name: nothing if there is none, and otherwise its result
unless it has to wait on. -/
def poll (s : Session) (name : String) : Option (Option Result) × Session :=
  match s.waiting.find? name with
  | none => (none, s)
  | some w =>
    match s.proceed w with
    | (.pending w, s) => (some none, { s with waiting := s.waiting.insert name w })
    | (.done r, s) => (some (some r), { s with waiting := s.waiting.erase name })

/-- Drops the request that waits under a name, and says whether there was one. A fetch that it
started is not given up. -/
def drop (s : Session) (name : String) : Bool × Session :=
  (s.waiting.contains name, { s with waiting := s.waiting.erase name })

/-! ## What the session arranges -/

def onCache (s : Session) (cache : Nat) (f : Client Provider → Client Provider) : Session :=
  { s with caches := s.caches.set cache (f (s.caches cache)) }

/-- Holds back the answers of the provider of a cache, or lets them go. -/
def setHeld (s : Session) (cache : Nat) (held : Bool) : Session :=
  s.onCache cache fun c => { c with provider := c.provider.rearrange ({ · with held }) }

def serve (s : Session) (cache : Nat) (answer : ProviderAnswer) : Session :=
  s.onCache cache fun c =>
    { c with provider := c.provider.rearrange ({ · with serving := answer }) }

def setKeys (s : Session) (cache : Nat) (keys : KeySet) : Session :=
  s.onCache cache fun c => c.setKeys keys s.clock

/-- Arranges that a key set is put into a cache when the cache next reads the clock. -/
def interrupt (s : Session) (cache : Nat) (keys : KeySet) : Session :=
  s.onCache cache fun c => { c with interruption := some keys }

/-- The key of an identifier in a cache, without fetching. -/
def cachedKey? (s : Session) (cache : Nat) (id : String) : Option Key := do
  (← (s.caches cache).cached).get? id

/-- How often the arranged provider of a cache was called. A fixed one does not count. -/
def fetches (s : Session) (cache : Nat) : Nat :=
  match (s.caches cache).provider with
  | .fixed _ => 0
  | .arranged script => script.calls

end Session
end BearerAuth
