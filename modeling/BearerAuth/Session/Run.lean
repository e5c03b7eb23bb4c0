import BearerAuth.Session.Basic

/-!
# BearerAuth — runs of a session

A run is a list of steps, taken one after another. Each step is atomic: a request is made, polled
or dropped, the provider of a cache is arranged, a key set is put into a cache, or the clock is
moved, in either direction. So any interleaving of any number of callers is a run.

## Main definitions

* `Session.Step`  — one step of a session.
* `Session.Reply` — what a step shows.
* `Session.step`  — takes a step.
* `Session.run`   — takes steps in order.
-/

namespace BearerAuth

inductive Session.Step where
  | request (name : String) (r : Request)
  | poll (name : String)
  | drop (name : String)
  /-- Hold back the answers of a provider, or let them go. -/
  | hold (cache : Nat) (held : Bool)
  /-- Change what a provider answers. -/
  | serve (cache : Nat) (answer : ProviderAnswer)
  | setKeys (cache : Nat) (keys : KeySet)
  /-- Arrange that a key set gets into a cache when the cache next reads the clock. -/
  | interrupt (cache : Nat) (keys : KeySet)
  /-- Look for a key in a cache, without fetching. -/
  | look (cache : Nat) (id : String)
  | advance (seconds : UInt64)
  | setClock (t : UnixTime)

inductive Session.Reply where
  | done (result : Result)
  /-- The request has to wait. -/
  | pending
  /-- No request waits under the name. -/
  | noRequest
  | dropped (existed : Bool)
  | arranged
  | cached (key : Option Key)
  | time (t : UnixTime)

namespace Session

/-- What is shown of a request that was polled. -/
def Reply.ofPolled : Option Result → Reply
  | some r => .done r
  | none => .pending

def step (s : Session) : Step → Reply × Session
  | .request name r =>
    let (o, s) := s.request name r
    (.ofPolled o, s)
  | .poll name =>
    match s.poll name with
    | (none, s) => (.noRequest, s)
    | (some o, s) => (.ofPolled o, s)
  | .drop name =>
    let (existed, s) := s.drop name
    (.dropped existed, s)
  | .hold cache held => (.arranged, s.setHeld cache held)
  | .serve cache answer => (.arranged, s.serve cache answer)
  | .setKeys cache keys => (.arranged, s.setKeys cache keys)
  | .interrupt cache keys => (.arranged, s.interrupt cache keys)
  | .look cache id => (.cached (s.cachedKey? cache id), s)
  | .advance seconds =>
    let t := s.clock.advance seconds
    (.time t, { s with clock := t })
  | .setClock t => (.time t, { s with clock := t })

/-- Takes steps in order: what each of them shows, and the session after the last one. -/
def run (s : Session) : List Step → List Reply × Session
  | [] => ([], s)
  | a :: rest =>
    let (reply, s) := s.step a
    let (replies, s) := s.run rest
    (reply :: replies, s)

end Session
end BearerAuth
