import BearerAuth.KeyCache.Snapshot
import BearerAuth.Remote.Http

/-!
# BearerAuth — key sets on the web

Two providers of key sets. A `Location` fetches the key set at a URL. It remembers the last key set
that came with a tag or a time of modification, asks for the document only if it differs from that
one, and hands out the remembered set when it does not. A `Publisher` first finds the URL in the
discovery document of an issuer, once, and from then on is a location.

Requests are sent by a function `send` over a state of type `τ`.

## Main definitions

* `Location.fetch`    — fetches the key set at a URL.
* `Publisher.fetch`   — fetches the key set that an issuer's discovery document points to.
* `Source`            — either of the two.
-/

namespace BearerAuth.Remote

/-- A key set with what marks the version of its document. -/
structure Remembered where
  keys : KeySet
  tag : Option String
  modified : Option String

/-- The condition under which another version is asked for: the tag counts before the time. -/
def Remembered.condition? (r : Remembered) : Option Condition :=
  match r.tag, r.modified with
  | some tag, _ => some (.noneMatch tag)
  | none, some time => some (.modifiedSince time)
  | none, none => none

structure Location where
  url : String
  last : Option Remembered := none

/-- A failure to retrieve a document, whose cause is not known in words. -/
def notRetrieved : FetchError := .retrieval none

namespace Location

def request (l : Location) : Request := ⟨l.url, l.last.bind Remembered.condition?⟩

/-- What a reply says, given what is remembered: the key set, and what to remember from now on. -/
def interpret (l : Location) (reply : Reply) : Except FetchError KeySet × Location :=
  match reply with
  | none => (.error notRetrieved, l)
  | some r =>
    if r.isNotModified then
      match l.last with
      | some last => (.ok last.keys, l)
      | none => (.error (.retrieval (some
          "server answered `304 Not Modified` to an unconditional request")), l)
    else if r.isError then (.error notRetrieved, l)
    else
      match r.content? with
      | none => (.error notRetrieved, l)
      | some body =>
        match KeySet.parse? body with
        | none => (.error (.format none), l)
        | some keys =>
          let tag := r.header? "etag"
          let modified := r.header? "last-modified"
          -- A document without marks of its version leaves what is remembered as it is.
          if tag.isSome || modified.isSome then
            (.ok keys, { l with last := some ⟨keys, tag, modified⟩ })
          else (.ok keys, l)

def fetch {τ : Type u} (send : Request → τ → Reply × τ) (l : Location) (t : τ) :
    (Except FetchError KeySet × Location) × τ :=
  let (reply, t) := send l.request t
  (l.interpret reply, t)

end Location

structure Publisher where
  authority : String
  /-- Where the key set was found. -/
  location : Option Location := none

namespace Publisher

/-- The text without slashes at its end. -/
def trimSlashes (s : String) : String :=
  String.ofList (s.toList.reverse.dropWhile (· == '/')).reverse

/-- The URL of the discovery document. -/
def discoveryUrl (p : Publisher) : String :=
  trimSlashes p.authority ++ "/.well-known/openid-configuration"

/-- What a reply says about the location of the key set. -/
def locate (reply : Reply) : Except FetchError Location :=
  match reply with
  | none => .error notRetrieved
  | some r =>
    if r.isError then .error notRetrieved
    else
      match r.content? with
      | none => .error notRetrieved
      | some body =>
        match Json.parseRecord? ["jwks_uri"] body with
        | some [.present (.string url)] => .ok ⟨url, none⟩
        | some [.present .null] | some [.unnamed] =>
          .error (.format (some "discovery document has no `jwks_uri`"))
        | _ => .error (.format none)

/-- Fetches the key set, after finding its location if need be. -/
def fetch {τ : Type u} (send : Request → τ → Reply × τ) (p : Publisher) (t : τ) :
    (Except FetchError KeySet × Publisher) × τ :=
  match p.location with
  | some l =>
    let ((answer, l), t) := l.fetch send t
    ((answer, { p with location := some l }), t)
  | none =>
    let (reply, t) := send ⟨p.discoveryUrl, none⟩ t
    match locate reply with
    | .error e => ((.error e, p), t)
    | .ok l =>
      let ((answer, l), t) := l.fetch send t
      ((answer, { p with location := some l }), t)

end Publisher

/-- Where a key set is published. -/
inductive Source where
  | location (l : Location)
  | publisher (p : Publisher)

namespace Source

def fetch {τ : Type u} (send : Request → τ → Reply × τ) (s : Source) (t : τ) :
    (Except FetchError KeySet × Source) × τ :=
  match s with
  | .location l =>
    let ((answer, l), t) := l.fetch send t
    ((answer, .location l), t)
  | .publisher p =>
    let ((answer, p), t) := p.fetch send t
    ((answer, .publisher p), t)

end Source

/-- A source together with the server that it asks. -/
structure Connection where
  source : Source
  server : Server

namespace Connection

def fetch (c : Connection) : Except FetchError KeySet × Connection :=
  let ((answer, source), server) := c.source.fetch Server.send c.server
  (answer, ⟨source, server⟩)

/-- Polls the fetch of the key set, which is never delayed. -/
def ask (c : Connection) : Option (Except FetchError KeySet) × Connection :=
  let (answer, c) := c.fetch
  (some answer, c)

/-- The requests that reached the server since it had so many, in order. -/
def requestsSince (c : Connection) (count : Nat) : List Request :=
  c.server.requests.reverse.drop count

end Connection
end BearerAuth.Remote
