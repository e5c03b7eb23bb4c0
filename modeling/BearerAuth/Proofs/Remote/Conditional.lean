import BearerAuth.Remote.Provider

/-!
# BearerAuth — conditional fetches

A location remembers one document, and everything that it asks and answers later depends on that
one. If it remembered the tag of one document with the keys of another, or forgot the document
after a failure, it would hand out keys that are long out of date. So what it remembers is pinned
down by the replies alone, for every sequence of them (`Latest`): the most recent response that
delivered a key set with a mark of its version. Failures, documents that are no key sets,
unmarked documents and answers that nothing has changed do not count.

The replies are played by a script, which gives them in order, whatever is asked, and keeps the
requests.

Main results:

* `Keeps.interpret`      — what a reply does to the document that is remembered.
* `Keeps.run`            — what is remembered after any number of fetches.
* `conditional_fetching` — what every fetch asks and answers.
-/

namespace BearerAuth.Remote

variable {url : String} {earlier : List Reply} {reply : Reply} {l : Location}

/-! ## Replies by a script -/

/-- Replies that are given in order, whatever is asked. -/
structure Script where
  replies : List Reply
  /-- The requests that were made, in order. -/
  requests : List Request := []

/-- Gives the next reply. After the last one, requests fail on the way. -/
def Script.send (r : Request) (s : Script) : Reply × Script :=
  match s.replies with
  | [] => (none, { s with requests := s.requests ++ [r] })
  | reply :: rest => (reply, ⟨rest, s.requests ++ [r]⟩)

/-- The location and the other side after so many fetches, one after another. -/
def Location.run {τ : Type u} (send : Request → τ → Reply × τ) :
    Nat → Location → τ → Location × τ
  | 0, l, t => (l, t)
  | n + 1, l, t => run send n (l.fetch send t).1.2 (l.fetch send t).2

/-! ## What counts -/

/-- A response delivers a key set: it is neither an answer that nothing has changed nor an error,
and its body is a key set. -/
structure Response.Delivers (r : Response) (keys : KeySet) : Prop where
  changed : r.status ≠ 304
  success : ¬ (400 ≤ r.status ∧ r.status < 600)
  content : ∃ body, r.content? = some body ∧ KeySet.parse? body = some keys

/-- A response marks the version of its document. -/
def Response.IsMarked (r : Response) : Prop :=
  (r.header? "etag").isSome = true ∨ (r.header? "last-modified").isSome = true

/-- A reply to go by later: a response that delivers a key set and marks its version. -/
def Counts (reply : Reply) (r : Response) (keys : KeySet) : Prop :=
  reply = some r ∧ r.Delivers keys ∧ r.IsMarked

/-- The most recent reply to go by, if there is one. -/
inductive Latest (earlier : List Reply) : Option (Response × KeySet) → Prop
  | nothing (h : ∀ reply ∈ earlier, ∀ r keys, ¬ Counts reply r keys) : Latest earlier none
  | document {before after : List Reply} {reply : Reply} {r : Response} {keys : KeySet}
    (split : earlier = before ++ reply :: after) (counts : Counts reply r keys)
    (last : ∀ reply ∈ after, ∀ r keys, ¬ Counts reply r keys) : Latest earlier (some (r, keys))

/-- What is asked: the document at the URL, on the condition that it is another version than the
one to go by. The tag counts before the time. -/
structure Asks (url : String) (latest : Option (Response × KeySet)) (request : Request) :
    Prop where
  url : request.url = url
  tag : ∀ r keys tag, latest = some (r, keys) → r.header? "etag" = some tag →
    request.condition = some (.noneMatch tag)
  time : ∀ r keys time, latest = some (r, keys) → r.header? "etag" = none →
    r.header? "last-modified" = some time → request.condition = some (.modifiedSince time)
  unconditional : latest = none → request.condition = none

/-- What is answered: the keys of the document to go by, if nothing has changed, and otherwise the
keys that were delivered or the reason why there are none. -/
structure Answers (latest : Option (Response × KeySet)) (reply : Reply)
    (answer : Except FetchError KeySet) : Prop where
  notSent : reply = none → answer = .error (.retrieval none)
  unchanged : ∀ r r' keys, reply = some r → r.status = 304 → latest = some (r', keys) →
    answer = .ok keys
  unasked : ∀ r, reply = some r → r.status = 304 → latest = none →
    ∃ cause, answer = .error (.retrieval cause)
  refused : ∀ r, reply = some r → 400 ≤ r.status → r.status < 600 →
    answer = .error (.retrieval none)
  brokenOff : ∀ r, reply = some r → r.status ≠ 304 → r.content? = none →
    answer = .error (.retrieval none)
  malformed : ∀ r body, reply = some r → r.status ≠ 304 →
    ¬ (400 ≤ r.status ∧ r.status < 600) → r.content? = some body →
    KeySet.parse? body = none → answer = .error (.format none)
  delivered : ∀ r keys, reply = some r → r.Delivers keys → answer = .ok keys

/-! ## One reply -/

section Reply

variable {r : Response} {keys : KeySet} {last : Remembered}

theorem Response.isNotModified_iff : r.isNotModified = true ↔ r.status = 304 := beq_iff_eq

theorem Response.isError_iff : r.isError = true ↔ 400 ≤ r.status ∧ r.status < 600 := by
  unfold isError
  rw [Bool.and_eq_true, decide_eq_true_eq, decide_eq_true_eq]

/-- If nothing has changed, the keys that are remembered are the answer. -/
theorem interpret_of_unchanged (h : r.status = 304) (hl : l.last = some last) :
    l.interpret (some r) = (.ok last.keys, l) := by
  unfold Location.interpret
  dsimp only
  rw [if_pos (Response.isNotModified_iff.mpr h), hl]

/-- An answer that nothing has changed makes no sense if nothing is remembered. It is an error. -/
theorem interpret_of_unasked (h : r.status = 304) (hl : l.last = none) :
    ∃ cause, l.interpret (some r) = (.error (.retrieval cause), l) := by
  unfold Location.interpret
  dsimp only
  rw [if_pos (Response.isNotModified_iff.mpr h), hl]
  exact ⟨_, rfl⟩

/-- An error of the server is an error here, and what is remembered stays. -/
theorem interpret_of_refused (h : 400 ≤ r.status ∧ r.status < 600) :
    l.interpret (some r) = (.error notRetrieved, l) := by
  have changed : r.status ≠ 304 := by omega
  unfold Location.interpret
  dsimp only
  rw [if_neg (mt Response.isNotModified_iff.mp changed), if_pos (Response.isError_iff.mpr h)]

/-- Of a response that is neither an error nor an answer that nothing has changed, the body
decides. -/
theorem interpret_of_success (changed : r.status ≠ 304)
    (success : ¬ (400 ≤ r.status ∧ r.status < 600)) :
    (l.interpret (some r)).1 =
      match r.content? with
      | none => .error notRetrieved
      | some body =>
        match KeySet.parse? body with
        | none => .error (.format none)
        | some keys => .ok keys := by
  unfold Location.interpret
  dsimp only
  rw [if_neg (mt Response.isNotModified_iff.mp changed),
    if_neg (mt Response.isError_iff.mp success)]
  cases r.content? with
  | none => rfl
  | some body =>
    dsimp only
    cases KeySet.parse? body with
    | none => rfl
    | some keys =>
      -- whether the document is remembered makes no difference to the answer
      dsimp only
      split <;> rfl

/-- A reply to go by later is remembered. -/
theorem interpret_snd_of_counts (h : Counts reply r keys) :
    (l.interpret reply).2 =
      { l with last := some ⟨keys, r.header? "etag", r.header? "last-modified"⟩ } := by
  obtain ⟨rfl, delivers, marked⟩ := h
  obtain ⟨body, content, parsed⟩ := delivers.content
  have marks : ((r.header? "etag").isSome || (r.header? "last-modified").isSome) = true :=
    Bool.or_eq_true_iff.mpr marked
  unfold Location.interpret
  dsimp only
  -- of all the branches, the one that remembers
  rw [if_neg (mt Response.isNotModified_iff.mp delivers.changed),
    if_neg (mt Response.isError_iff.mp delivers.success), content]
  dsimp only
  rw [parsed]
  dsimp only
  rw [if_pos marks]

/-- Any other reply leaves the location as it was. Each branch that remembers nothing is gone
through; in the one that is left the response delivers a key set, so that it can only be ignored for
want of a mark. -/
theorem interpret_snd_of_ignored (ignored : ∀ r keys, ¬ Counts reply r keys) :
    (l.interpret reply).2 = l := by
  unfold Location.interpret
  split
  · rfl
  next r =>
  split
  · split <;> rfl
  next changed =>
  split
  · rfl
  next success =>
  split
  · rfl
  next body content =>
  split
  · rfl
  next keys parsed =>
  dsimp only
  split
  · -- a marked key set would be a reply to go by
    next marked =>
    have delivers : r.Delivers keys :=
      ⟨mt Response.isNotModified_iff.mpr changed, mt Response.isError_iff.mpr success,
        body, content, parsed⟩
    exact absurd ⟨rfl, delivers, Bool.or_eq_true_iff.mp marked⟩ (ignored r keys)
  · rfl

end Reply

/-! ## What is remembered -/

/-- What a location knows after these replies: the document to go by, and nothing else. -/
structure Keeps (url : String) (earlier : List Reply) (latest : Option (Response × KeySet))
    (l : Location) : Prop where
  url : l.url = url
  last : l.last = latest.map fun p =>
    ⟨p.2, p.1.header? "etag", p.1.header? "last-modified"⟩
  latest : Latest earlier latest

theorem keeps_nil (url : String) : Keeps url [] none ⟨url, none⟩ := by
  refine ⟨rfl, rfl, .nothing ?_⟩
  intro reply h
  cases h

section Keeps

variable {latest : Option (Response × KeySet)}

/-- A reply to go by takes the place of any before it. -/
theorem Latest.next {r : Response} {keys : KeySet} (counts : Counts reply r keys) :
    Latest (earlier ++ [reply]) (some (r, keys)) := by
  refine .document rfl counts ?_
  intro reply h
  cases h

/-- Any other reply leaves the one that there is. -/
theorem Latest.skip (h : Latest earlier latest) (ignored : ∀ r keys, ¬ Counts reply r keys) :
    Latest (earlier ++ [reply]) latest := by
  -- one more reply that does not count
  have others : ∀ after : List Reply, (∀ x ∈ after, ∀ r keys, ¬ Counts x r keys) →
      ∀ x ∈ after ++ [reply], ∀ r keys, ¬ Counts x r keys := by
    intro after h x hx
    rcases List.mem_append.mp hx with hx | hx
    · exact h x hx
    · rw [List.mem_singleton.mp hx]
      exact ignored
  cases h with
  | nothing h => exact .nothing (others earlier h)
  | @document before after last r keys split counts h =>
    have longer : earlier ++ [reply] = before ++ last :: (after ++ [reply]) := by
      rw [split, List.append_assoc, List.cons_append]
    exact .document longer counts (others after h)

/-- A reply is one to go by, or no response makes it one. -/
theorem counts_or_ignored (reply : Reply) :
    (∃ r keys, Counts reply r keys) ∨ ∀ r keys, ¬ Counts reply r keys := by
  by_cases counts : ∃ r keys, Counts reply r keys
  · exact .inl counts
  · exact .inr fun r keys hr => counts ⟨r, keys, hr⟩

/-- What a reply does to the document that is remembered: a response that delivers a key set and
marks its version takes its place, and anything else leaves it there. -/
theorem Keeps.interpret (h : Keeps url earlier latest l) (reply : Reply) :
    ∃ latest, Keeps url (earlier ++ [reply]) latest (l.interpret reply).2 := by
  obtain ⟨r, keys, counts⟩ | ignored := counts_or_ignored reply
  · rw [interpret_snd_of_counts counts]
    exact ⟨some (r, keys), h.url, rfl, .next counts⟩
  · rw [interpret_snd_of_ignored ignored]
    exact ⟨latest, h.url, h.last, h.latest.skip ignored⟩

/-- The request of a location follows from the document to go by: its condition is the mark of that
document. -/
theorem Keeps.asks (h : Keeps url earlier latest l) : Asks url latest l.request := by
  -- the condition is made of what is remembered, which is the mark of the document to go by
  have condition : l.request.condition = l.last.bind Remembered.condition? := rfl
  refine ⟨h.url, ?_, ?_, ?_⟩
  · intro r keys tag hr htag
    rw [condition, h.last, hr]
    show Remembered.condition? ⟨keys, r.header? "etag", _⟩ = _
    rw [htag]
    rfl
  · intro r keys time hr htag htime
    rw [condition, h.last, hr]
    show Remembered.condition? ⟨keys, r.header? "etag", r.header? "last-modified"⟩ = _
    rw [htag, htime]
    rfl
  · intro hr
    rw [condition, h.last, hr]
    rfl

/-- The answer of a location follows from the document to go by and from the reply. There is one
field for each kind of reply. -/
theorem Keeps.answers (h : Keeps url earlier latest l) (reply : Reply) :
    Answers latest reply (l.interpret reply).1 where
  notSent := by
    rintro rfl
    rfl
  unchanged := by
    rintro r r' keys rfl unchanged rfl
    rw [interpret_of_unchanged unchanged h.last]
  unasked := by
    rintro r rfl unchanged rfl
    obtain ⟨cause, answered⟩ := interpret_of_unasked unchanged h.last
    rw [answered]
    exact ⟨cause, rfl⟩
  refused := by
    rintro r rfl low high
    rw [interpret_of_refused ⟨low, high⟩]
    rfl
  brokenOff := by
    rintro r rfl changed content
    -- an error is not read any further, whatever its body
    by_cases refused : 400 ≤ r.status ∧ r.status < 600
    · rw [interpret_of_refused refused]
      rfl
    · rw [interpret_of_success changed refused, content]
      rfl
  malformed := by
    rintro r body rfl changed success content parsed
    rw [interpret_of_success changed success, content]
    dsimp only
    rw [parsed]
  delivered := by
    rintro r keys rfl delivers
    obtain ⟨body, content, parsed⟩ := delivers.content
    rw [interpret_of_success delivers.changed delivers.success, content]
    dsimp only
    rw [parsed]

end Keeps

/-! ## Runs -/

theorem fetch_cons (l : Location) (later : List Reply) (requests : List Request) :
    l.fetch Script.send ⟨reply :: later, requests⟩ =
      (l.interpret reply, ⟨later, requests ++ [l.request]⟩) := rfl

/-- What a location knows after it has fetched once for each of these replies. The induction is over
the replies that are left. -/
theorem Keeps.run {latest : Option (Response × KeySet)} (h : Keeps url earlier latest l)
    (replies later : List Reply) (requests : List Request) :
    ∃ latest l' requests', Keeps url (earlier ++ replies) latest l' ∧
      requests'.length = requests.length + replies.length ∧
      l.run Script.send replies.length ⟨replies ++ later, requests⟩ =
        (l', ⟨later, requests'⟩) := by
  -- each reply becomes one of the earlier ones
  induction replies generalizing earlier latest l requests with
  | nil =>
    rw [List.append_nil]
    exact ⟨latest, l, requests, h, rfl, rfl⟩
  | cons reply replies ih =>
    obtain ⟨next, hnext⟩ := h.interpret reply
    obtain ⟨latest', l', requests', h', count, run⟩ := ih hnext (requests ++ [l.request])
    rw [List.append_assoc] at h'
    refine ⟨latest', l', requests', h', ?_, run⟩
    rw [count, List.length_append, List.length_singleton, List.length_cons]
    omega

/-- **Conditional fetches.** Take a location that was just made and any sequence of replies, and
look at any fetch among those that get them. It sends one request, for the URL. If a document to go
by came before, which is the most recent one that was delivered as a key set with a mark of its
version, the request is conditional on its tag, or else on its time, and otherwise unconditional.
If nothing has changed the keys of that document are the answer, and otherwise the keys that the
reply delivers, or the reason why it delivers none. -/
theorem conditional_fetching (url : String) (earlier : List Reply) (reply : Reply)
    (later : List Reply) :
    ∃ latest l requests request answer l',
      Latest earlier latest ∧ requests.length = earlier.length ∧
      Location.run Script.send earlier.length ⟨url, none⟩ ⟨earlier ++ reply :: later, []⟩ =
        (l, ⟨reply :: later, requests⟩) ∧
      l.fetch Script.send ⟨reply :: later, requests⟩ =
        ((answer, l'), ⟨later, requests ++ [request]⟩) ∧
      Asks url latest request ∧ Answers latest reply answer := by
  -- the earlier replies bring the location to where the fetch in question begins
  obtain ⟨latest, l, requests, keeps, count, run⟩ :=
    (keeps_nil url).run earlier (reply :: later) []
  rw [List.nil_append] at keeps
  have count : requests.length = earlier.length := by
    rw [count, List.length_nil, Nat.zero_add]
  exact ⟨latest, l, requests, l.request, _, _, keeps.latest, count, run,
    fetch_cons l later requests, keeps.asks, keeps.answers reply⟩

end BearerAuth.Remote
