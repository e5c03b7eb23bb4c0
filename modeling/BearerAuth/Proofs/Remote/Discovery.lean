import BearerAuth.Proofs.Remote.Conditional
import Mathlib.Data.List.TakeDrop
import Mathlib.Data.List.TakeWhile

/-!
# BearerAuth — discovery

A publisher is one of two things. Until a discovery document has told it where the key set is, it is
a name with nothing else: a fetch asks for the document, and if the reply tells no location the
fetch fails and leaves the publisher as it was. From the first reply that does tell it, the
publisher is a location, the same one for good, whose memory of what it fetched goes from each fetch
to the next (`Course`). Nothing that a key set's server answers takes it back.

Fetches are seen from outside, by the requests that each of them sends and by its answer
(`Exchange`), so that a publisher and a location can be compared.

Main results:

* `discoveryUrl_spec`  — where the discovery document of an issuer is.
* `fetch_of_withheld`  — a fetch that is told no location.
* `fetch_of_discovery` — the fetch that is told the location.
* `exchanges_located`  — from then on a publisher does what the location does.
* `discovery_once`     — any number of fetches with any replies.
-/

namespace BearerAuth.Remote

/-! ## Fetches one after another -/

/-- A fetch as it is seen from outside: the requests that it sends, in order, and its answer. -/
structure Exchange where
  requests : List Request
  answer : Except FetchError KeySet

/-- So many fetches, one after another, with the replies that are left to them. -/
def exchanges {σ : Type} (fetch : σ → Script → (Except FetchError KeySet × σ) × Script) :
    Nat → σ → List Reply → List Exchange × σ × List Reply
  | 0, s, replies => ([], s, replies)
  | n + 1, s, replies =>
    let ((answer, s), script) := fetch s ⟨replies, []⟩
    let (others, s, replies) := exchanges fetch n s script.replies
    (⟨script.requests, answer⟩ :: others, s, replies)

/-! ## What a reply tells -/

/-- The URL of the discovery document of an issuer: the issuer's own without the slashes at its
end, followed by the path that all issuers share. -/
def IsDiscoveryUrl (authority url : String) : Prop :=
  ∃ base k, authority = base ++ String.ofList (List.replicate k '/') ∧
    base.toList.getLast? ≠ some '/' ∧ url = base ++ "/.well-known/openid-configuration"

/-- A text is a discovery document, by the URL of the key set in it. The document may leave the URL
out, or have null in its place. -/
inductive Document (body : Bytes) : Option String → Prop
  | complete {url : String}
    (h : Json.parseRecord? ["jwks_uri"] body = some [.present (.string url)]) :
    Document body (some url)
  | null (h : Json.parseRecord? ["jwks_uri"] body = some [.present .null]) : Document body none
  | absent (h : Json.parseRecord? ["jwks_uri"] body = some [.unnamed]) : Document body none

/-- A reply tells where the key set is: it is a response without an error, whose body is a discovery
document with the URL. -/
def Discovers (reply : Reply) (url : String) : Prop :=
  ∃ r body, reply = some r ∧ ¬ (400 ≤ r.status ∧ r.status < 600) ∧ r.content? = some body ∧
    Document body (some url)

/-- Why a reply does not tell where the key set is. -/
inductive Withholds : Reply → FetchError → Prop
  | notSent : Withholds none (.retrieval none)
  | refused {r : Response} (h : 400 ≤ r.status ∧ r.status < 600) :
    Withholds (some r) (.retrieval none)
  | brokenOff {r : Response} (h : r.content? = none) : Withholds (some r) (.retrieval none)
  | malformed {r : Response} {body : Bytes} (success : ¬ (400 ≤ r.status ∧ r.status < 600))
    (content : r.content? = some body) (h : ∀ url?, ¬ Document body url?) :
    Withholds (some r) (.format none)
  | incomplete {r : Response} {body : Bytes} (success : ¬ (400 ≤ r.status ∧ r.status < 600))
    (content : r.content? = some body) (h : Document body none) :
    Withholds (some r) (.format (some "discovery document has no `jwks_uri`"))

/-- A fetch that is told no location: it sends one request, for the discovery document, and fails
for the reason that the reply gives. -/
structure Misses (discovery : String) (reply : Reply) (x : Exchange) : Prop where
  untold : ∀ url, ¬ Discovers reply url
  requests : x.requests = [⟨discovery, none⟩]
  failed : ∃ e, Withholds reply e ∧ x.answer = .error e

/-- How so many fetches of a publisher go by. -/
inductive Course (authority discovery : String) (n : Nat) (replies : List Reply) :
    List Exchange → Publisher → List Reply → Prop
  /-- No reply has told the location, and the publisher is as it was. After the last reply, requests
  fail on the way. -/
  | searching {xs : List Exchange}
    (misses : List.Forall₂ (Misses discovery) (replies.takeD n none) xs) :
    Course authority discovery n replies xs ⟨authority, none⟩ (replies.drop n)
  /-- A reply told the location, and no reply before it did. The fetch that got it and all later
  ones are those of one location, each with one request for its URL, but for the request that
  found it. -/
  | located {missed later rest : List Reply} {found : Reply} {before others : List Exchange}
    {first : Exchange} {url : String} {l : Location} {m : Nat}
    (split : replies = missed ++ found :: later) (count : n = missed.length + (m + 1))
    (misses : List.Forall₂ (Misses discovery) missed before) (discovers : Discovers found url)
    (fetches : exchanges (Location.fetch Script.send) (m + 1) ⟨url, none⟩ later =
      (first :: others, l, rest))
    (asks : ∀ x ∈ first :: others, ∃ request, x.requests = [request] ∧ request.url = url) :
    Course authority discovery n replies
      (before ++ { first with requests := ⟨discovery, none⟩ :: first.requests } :: others)
      ⟨authority, some l⟩ rest

variable {authority discovery url : String} {reply : Reply} {n : Nat}
variable {replies later : List Reply} {xs : List Exchange} {p : Publisher} {l : Location}

/-! ## The URL of the discovery document -/

/-- What is trimmed are the slashes at the end, and all of them. The text is looked at from its end,
where the slashes come first. -/
theorem trimSlashes_spec (s : String) :
    (∃ k, s = Publisher.trimSlashes s ++ String.ofList (List.replicate k '/')) ∧
      (Publisher.trimSlashes s).toList.getLast? ≠ some '/' := by
  set kept := s.toList.reverse.dropWhile (· == '/') with hkept
  set cut := s.toList.reverse.takeWhile (· == '/') with hcut
  have trimmed : Publisher.trimSlashes s = String.ofList kept.reverse := rfl
  have slashes : cut = List.replicate cut.length '/' := by
    refine List.eq_replicate_iff.mpr ⟨rfl, ?_⟩
    intro c hc
    have slash : (c == '/') = true := List.mem_takeWhile_imp (p := (· == '/')) hc
    exact beq_iff_eq.mp slash
  -- reversed, the text is the slashes followed by what is kept
  have joined : cut ++ kept = s.toList.reverse := List.takeWhile_append_dropWhile
  constructor
  · refine ⟨cut.length, ?_⟩
    have reversed : s.toList = kept.reverse ++ cut.reverse := by
      rw [← List.reverse_append, joined, List.reverse_reverse]
    have same : cut.reverse = List.replicate cut.length '/' := by
      rw [slashes, List.reverse_replicate, List.length_replicate]
    rw [trimmed, ← String.ofList_append, ← same, ← reversed, String.ofList_toList]
  · rw [trimmed, String.toList_ofList, List.getLast?_reverse]
    intro h
    have stopped := List.head?_dropWhile_not (· == '/') s.toList.reverse
    rw [← hkept, h] at stopped
    exact absurd stopped (by decide)

theorem discoveryUrl_spec (p : Publisher) : IsDiscoveryUrl p.authority p.discoveryUrl := by
  obtain ⟨⟨k, authority⟩, ends⟩ := trimSlashes_spec p.authority
  exact ⟨Publisher.trimSlashes p.authority, k, authority, ends, rfl⟩

/-! ## One reply -/

/-- A reply that tells the location makes one, which remembers nothing. -/
theorem locate_of_discovers (h : Discovers reply url) :
    Publisher.locate reply = .ok ⟨url, none⟩ := by
  obtain ⟨r, body, rfl, success, content, document⟩ := h
  cases document with
  | complete parsed =>
    unfold Publisher.locate
    dsimp only
    rw [if_neg (mt Response.isError_iff.mp success), content]
    dsimp only
    rw [parsed]

/-- Of a reply that does not tell the location, the fault is found. The faults are looked for in the
order in which a reply is read: its status, its body, the document, the URL in it. -/
theorem locate_of_withheld (untold : ∀ url, ¬ Discovers reply url) :
    ∃ e, Withholds reply e ∧ Publisher.locate reply = .error e := by
  unfold Publisher.locate
  split
  · exact ⟨_, .notSent, rfl⟩
  next r =>
  split
  next refused => exact ⟨_, .refused (Response.isError_iff.mp refused), rfl⟩
  next accepted =>
  have success : ¬ (400 ≤ r.status ∧ r.status < 600) := mt Response.isError_iff.mpr accepted
  split
  next content => exact ⟨_, .brokenOff content, rfl⟩
  next body content =>
  split
  · -- a document with the URL would have told the location
    next url parsed =>
    have discovers : Discovers (some r) url :=
      ⟨r, body, rfl, success, content, .complete parsed⟩
    exact absurd discovers (untold url)
  · next parsed => exact ⟨_, .incomplete success content (.null parsed), rfl⟩
  · next parsed => exact ⟨_, .incomplete success content (.absent parsed), rfl⟩
  · next notComplete notNull notAbsent =>
    have malformed : ∀ url?, ¬ Document body url? := by
      intro url? document
      cases document with
      | complete parsed => exact notComplete _ parsed
      | null parsed => exact notNull parsed
      | absent parsed => exact notAbsent parsed
    exact ⟨_, .malformed success content malformed, rfl⟩

/-! ## One fetch -/

theorem send_eq (request : Request) (replies : List Reply) (requests : List Request) :
    Script.send request ⟨replies, requests⟩ =
      (replies.headD none, ⟨replies.tail, requests ++ [request]⟩) := by
  cases replies <;> rfl

theorem location_fetch_eq (l : Location) (replies : List Reply) (requests : List Request) :
    l.fetch Script.send ⟨replies, requests⟩ =
      (l.interpret (replies.headD none), ⟨replies.tail, requests ++ [l.request]⟩) := by
  rw [Location.fetch, send_eq]

/-- The URL of a location is never changed. -/
theorem interpret_url (l : Location) (reply : Reply) : (l.interpret reply).2.url = l.url := by
  obtain ⟨r, keys, counts⟩ | ignored := counts_or_ignored reply
  · rw [interpret_snd_of_counts counts]
  · rw [interpret_snd_of_ignored ignored]

/-- **A fetch that is told no location** fails after one request and leaves the publisher as it
was. -/
theorem fetch_of_withheld (searching : p.location = none)
    (untold : ∀ url, ¬ Discovers (replies.headD none) url) :
    ∃ answer, Misses p.discoveryUrl (replies.headD none) ⟨[⟨p.discoveryUrl, none⟩], answer⟩ ∧
      p.fetch Script.send ⟨replies, []⟩ =
        ((answer, p), ⟨replies.tail, [⟨p.discoveryUrl, none⟩]⟩) := by
  obtain ⟨e, withholds, located⟩ := locate_of_withheld untold
  refine ⟨.error e, ⟨untold, rfl, e, withholds, rfl⟩, ?_⟩
  rw [Publisher.fetch, searching]
  dsimp only
  rw [send_eq]
  dsimp only
  rw [located]
  rfl

/-- **The fetch that is told the location** is the first fetch of that location, but for the request
that found it. -/
theorem fetch_of_discovery (searching : p.location = none) (h : Discovers reply url) :
    p.fetch Script.send ⟨reply :: later, []⟩ =
      let l : Location := ⟨url, none⟩
      (((l.interpret (later.headD none)).1,
          { p with location := some (l.interpret (later.headD none)).2 }),
        ⟨later.tail, [⟨p.discoveryUrl, none⟩, l.request]⟩) := by
  rw [Publisher.fetch, searching]
  dsimp only
  rw [send_eq, List.headD_cons, List.tail_cons]
  dsimp only
  -- the publisher goes on with the location that it was told, within the same fetch
  rw [locate_of_discovers h]
  dsimp only
  rw [location_fetch_eq]
  rfl

/-! ## Runs -/

/-- The first fetch of a location, and the others. -/
theorem exchanges_location_succ (n : Nat) (l : Location) (replies : List Reply) :
    exchanges (Location.fetch Script.send) (n + 1) l replies =
      let (answer, l') := l.interpret (replies.headD none)
      let (others, l', rest) := exchanges (Location.fetch Script.send) n l' replies.tail
      (⟨[l.request], answer⟩ :: others, l', rest) := by
  rw [exchanges, location_fetch_eq]
  rfl

/-- Every fetch of a location sends one request, for its URL. -/
theorem exchanges_location_asks (n : Nat) (l : Location) (replies : List Reply) :
    ∀ x ∈ (exchanges (Location.fetch Script.send) n l replies).1,
      ∃ request, x.requests = [request] ∧ request.url = l.url := by
  induction n generalizing l replies with
  | zero =>
    intro x hx
    cases hx
  | succ n ih =>
    intro x hx
    rw [exchanges_location_succ] at hx
    -- the first fetch, or one of a location with the same URL
    rcases List.mem_cons.mp hx with rfl | later
    · exact ⟨l.request, rfl, rfl⟩
    · rw [← interpret_url l (replies.headD none)]
      exact ih _ _ x later

/-- **From then on a publisher does what the location does**, and nothing else. -/
theorem exchanges_located (authority : String) (n : Nat) (l : Location) (replies : List Reply) :
    exchanges (Publisher.fetch Script.send) n ⟨authority, some l⟩ replies =
      let (xs, l, rest) := exchanges (Location.fetch Script.send) n l replies
      (xs, ⟨authority, some l⟩, rest) := by
  induction n generalizing l replies with
  | zero => rfl
  | succ n ih =>
    rw [exchanges, Publisher.fetch]
    dsimp only
    rw [exchanges, location_fetch_eq]
    dsimp only
    rw [ih]

/-- One more fetch in front that is told no location. A course of later fetches becomes one of all
of them: if the location was found later on, the missed fetches are one more, and otherwise there
are only missed ones. -/
theorem Course.missed {rest : List Reply} {x : Exchange}
    (h : Course authority discovery n replies.tail xs p rest)
    (miss : Misses discovery (replies.headD none) x) :
    Course authority discovery (n + 1) replies (x :: xs) p rest := by
  cases h with
  | searching misses =>
    rw [List.drop_tail]
    exact .searching (.cons miss misses)
  | @located missed later rest found before others first url l m split count misses discovers
      fetches asks =>
    -- a list with something after its first reply has a first reply
    obtain ⟨reply, tail, rfl⟩ : ∃ reply tail, replies = reply :: tail := by
      cases replies with
      | nil => simp at split
      | cons reply tail => exact ⟨reply, tail, rfl⟩
    rw [List.tail_cons] at split
    rw [List.headD_cons] at miss
    have longer : reply :: tail = (reply :: missed) ++ found :: later := by
      rw [split, List.cons_append]
    have more : n + 1 = (reply :: missed).length + (m + 1) := by
      rw [count, List.length_cons]
      omega
    exact .located longer more (.cons miss misses) discovers fetches asks

/-- The fetch that is told the location, and all later ones. -/
theorem course_of_discovery (h : Discovers reply url) (n : Nat) (later : List Reply) :
    ∃ xs p rest,
      exchanges (Publisher.fetch Script.send) (n + 1) ⟨authority, none⟩ (reply :: later) =
        (xs, p, rest) ∧
      Course authority (Publisher.discoveryUrl ⟨authority, none⟩) (n + 1) (reply :: later)
        xs p rest := by
  have split : reply :: later = [] ++ reply :: later := rfl
  have count : n + 1 = ([] : List Reply).length + (n + 1) := by
    rw [List.length_nil, Nat.zero_add]
  -- the location is made by this very fetch, with nothing that it remembers
  have asks := exchanges_location_asks (n + 1) ⟨url, none⟩ later
  rw [exchanges_location_succ] at asks
  refine ⟨_, _, _, ?_, .located split count .nil h (exchanges_location_succ n _ later) asks⟩
  rw [exchanges, fetch_of_discovery rfl h]
  dsimp only
  rw [exchanges_located]
  rfl

/-- Any number of fetches of a publisher that was just made. The induction is over their number, and
a miss leaves the publisher ready for the others. -/
theorem course (authority : String) (n : Nat) (replies : List Reply) :
    ∃ xs p rest,
      exchanges (Publisher.fetch Script.send) n ⟨authority, none⟩ replies = (xs, p, rest) ∧
      Course authority (Publisher.discoveryUrl ⟨authority, none⟩) n replies xs p rest := by
  induction n generalizing replies with
  | zero => exact ⟨[], ⟨authority, none⟩, replies, rfl, .searching .nil⟩
  | succ n ih =>
    by_cases told : ∃ url, Discovers (replies.headD none) url
    · obtain ⟨url, discovers⟩ := told
      cases replies with
      | nil =>
        -- after the last reply nothing is told
        obtain ⟨r, body, sent, -⟩ := discovers
        cases sent
      | cons reply later => exact course_of_discovery discovers n later
    · have untold : ∀ url, ¬ Discovers (replies.headD none) url := by
        intro url h
        exact told ⟨url, h⟩
      obtain ⟨answer, miss, fetched⟩ := fetch_of_withheld (p := ⟨authority, none⟩) rfl untold
      obtain ⟨xs, p, rest, run, course⟩ := ih replies.tail
      refine ⟨_ :: xs, p, rest, ?_, course.missed miss⟩
      rw [exchanges, fetched]
      dsimp only
      rw [run]

/-- **Discovery happens once and fails cleanly.** Take a publisher that was just made, any replies
and any number of fetches. As long as no reply tells where the key set is, every fetch sends one
request, for the discovery document, and fails for the reason that the reply gives, and the
publisher is as it was. The first fetch that is told the location goes on to ask for the key set
there. From then on every fetch sends one request, for that same URL, and they do what the fetches
of one location do. -/
theorem discovery_once (authority : String) (n : Nat) (replies : List Reply) :
    ∃ discovery xs p rest, IsDiscoveryUrl authority discovery ∧
      exchanges (Publisher.fetch Script.send) n ⟨authority, none⟩ replies = (xs, p, rest) ∧
      Course authority discovery n replies xs p rest := by
  obtain ⟨xs, p, rest, run, course⟩ := course authority n replies
  exact ⟨_, xs, p, rest, discoveryUrl_spec ⟨authority, none⟩, run, course⟩

end BearerAuth.Remote
