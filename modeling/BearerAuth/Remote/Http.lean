import BearerAuth.Bytes

/-!
# BearerAuth — requests for published documents

What a provider of keys sees of the web: it asks for a document at a URL, possibly only if the
document has changed, and gets a reply. A reply may fail altogether, and the body of a response may
break off.

A server is played by the list of its responses (`Server`), which it gives in order whatever is
asked; after the last one it closes connections. It keeps a record of the requests.

## Main definitions

* `Request`, `Response`  — what is asked and answered.
* `Response.header?`     — the first header of a name, in any case of letters.
* `Server.send`          — the next reply.
-/

namespace BearerAuth.Remote

/-- The program's name in requests. -/
def userAgent : String := "warden_oauth2/0.1.0"

/-- The condition on which a document is asked for. -/
inductive Condition where
  /-- The document is not the one with this tag. -/
  | noneMatch (tag : String)
  /-- The document has changed since this time. -/
  | modifiedSince (time : String)
deriving DecidableEq

structure Request where
  url : String
  condition : Option Condition := none
deriving DecidableEq

structure Response where
  status : Nat
  headers : List (String × String) := []
  /-- The body, unless it broke off before its end. -/
  body : Option Bytes := some []

/-- Whether a character may stand around the value of a header without belonging to it. -/
def isPadding (c : Char) : Bool := c == ' ' || c == '\t'

/-- The value of a header without the blanks around it. -/
def trimValue (s : String) : String :=
  String.ofList ((s.toList.dropWhile isPadding).reverse.dropWhile isPadding).reverse

/-- The first value of a header. The case of letters in names does not count. -/
def Response.header? (r : Response) (name : String) : Option String :=
  (r.headers.find? fun h => h.1.toLower == name).map fun h => trimValue h.2

def Response.isError (r : Response) : Bool := decide (400 ≤ r.status) && decide (r.status < 600)

def Response.isNotModified (r : Response) : Bool := r.status == 304

/-- Whether the status is one of those whose responses end with their headers. -/
def Response.endsWithHeaders (r : Response) : Bool := r.status == 204 || r.isNotModified

/-- The body as it is received, unless it broke off before its end. -/
def Response.content? (r : Response) : Option Bytes :=
  if r.endsWithHeaders then some [] else r.body

/-- What comes of a request: nothing, if it failed on the way. -/
abbrev Reply := Option Response

/-- A server that gives a list of responses. -/
structure Server where
  /-- The beginning of all URLs of the server. -/
  base : String
  responses : List Response
  /-- The requests that reached the server, latest first. -/
  requests : List Request := []

namespace Server

/-- The path of a URL on the server with its query, if the URL lies there. -/
def path? (base url : String) : Option String :=
  let b := base.toList
  let u := url.toList
  if b.isPrefixOf u then
    match (u.drop b.length).takeWhile (· ≠ '#') with
    | [] => some "/"
    | '/' :: rest => some (String.ofList ('/' :: rest))
    | '?' :: rest => some (String.ofList ('/' :: '?' :: rest))
    | _ => none
  else none

/-- Sends a request. URLs that lie elsewhere cannot be asked for, and no request is made. -/
def send (r : Request) (s : Server) : Reply × Server :=
  match path? s.base r.url with
  | none => (none, s)
  | some _ =>
    let s := { s with requests := r :: s.requests }
    match s.responses with
    | [] => (none, s)
    | next :: rest => (some next, { s with responses := rest })

end Server
end BearerAuth.Remote
