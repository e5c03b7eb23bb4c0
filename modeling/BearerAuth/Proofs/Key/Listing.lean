import BearerAuth.KeySet
import BearerAuth.Proofs.Json.Records
import BearerAuth.Proofs.Json.RoundTrip

/-!
# BearerAuth — what a published list of keys reads as

An issuer publishes its keys in one document, and some of the entries may be no keys here: of an
unknown kind, for an algorithm that is not known, or with a fault. Such entries are passed over, one
by one, and nothing else is. What is left is what the entries read as on their own, in their order.
So what stands beside a key in the document has no say in whether the key is found.

A document is a text that is a JSON value, by the same rules that hold for every other text here:
it is nested so deep at most, strings are well-formed and numbers fit a double.

Main results:

* `ofBytes_of_parse?` — a key that stands alone is the key of its value.
* `keysOf?_eq`        — of the entries of a list, all that are keys are kept.
* `loses_no_key`      — what a document with a list of keys reads as.
-/

namespace BearerAuth

/-! ## Entries -/

namespace Key

/-- The key that a value is on its own, if it is one. -/
def alone? (v : Json) : Option Key := (ofJson v).toOption

/-- A text that is a value is the key that the value is. -/
theorem ofBytes_of_parse? {s : Bytes} {v : Json} (h : Json.parse? s = some v) :
    ofBytes s = ofJson v := by
  obtain ⟨rest, read, nothing⟩ := Json.exists_of_parse? h
  rw [ofBytes, read]
  show (ofJson v).bind _ = _
  cases ofJson v with
  | error e => rfl
  | ok k =>
    show (if _ then _ else _) = _
    rw [if_pos nothing]
    rfl

/-- An object that repeats no name may be passed over, whatever its members hold. -/
theorem isIgnorable_of_nodup {ms : List (String × Json)} (distinct : (ms.map (·.1)).Nodup) :
    isIgnorable (.object ms) = true :=
  Json.Record.isSome_fields? distinct _

end Key

namespace KeySet

open Key (alone?)

/-- An entry of a list: an object that repeats no name. -/
def IsEntry (v : Json) : Prop := ∃ ms, v = .object ms ∧ (ms.map (·.1)).Nodup

/-- All that are keys are kept, in order. By induction on the entries, each of which is kept or
passed over by itself. -/
theorem keysOf?_eq {entries : List Json} (h : ∀ v ∈ entries, IsEntry v) :
    keysOf? entries = some (entries.filterMap alone?) := by
  induction entries with
  | nil => rfl
  | cons v rest ih =>
    have others : keysOf? rest = some (rest.filterMap alone?) :=
      ih fun w hw => h w (List.mem_cons_of_mem v hw)
    obtain ⟨ms, rfl, distinct⟩ := h v List.mem_cons_self
    rw [keysOf?, others]
    cases read : Key.ofJson (.object ms) with
    | ok k =>
      have here : alone? (.object ms) = some k := by rw [alone?, read]; rfl
      rw [List.filterMap_cons_some here]
      rfl
    | error e =>
      -- whatever is wrong with the entry, it may be passed over
      have here : alone? (.object ms) = none := by rw [alone?, read]; rfl
      rw [List.filterMap_cons_none here]
      exact if_pos (Key.isIgnorable_of_nodup distinct)

/-! ## Documents -/

/-- An object with a list of entries as its only member of the name `keys`. -/
structure Lists (members : List (String × Json)) (entries : List Json) : Prop where
  once : members.filter (·.1 == "keys") = [("keys", .array entries)]
  entries : ∀ v ∈ entries, IsEntry v

/-- A document with a list reads as the keys in it, whatever other members the document has. -/
theorem parse?_of_lists {s : Bytes} {members : List (String × Json)} {entries : List Json}
    (document : Json.parse? s = some (.object members)) (list : Lists members entries) :
    parse? s = some ⟨entries.filterMap alone?⟩ := by
  have field : Json.recordFields? ["keys"] (.object members) =
      some [.present (.array entries)] := by
    show (["keys"].mapM fun name => Json.onlyMember? name members) = _
    rw [List.mapM_cons, Json.onlyMember?, list.once]
    rfl
  rw [parse?, Json.parseRecord?_of_parse? document, field]
  show (keysOf? entries).bind _ = _
  rw [keysOf?_eq list.entries]
  rfl

/-- A document that reads as a list of keys has a list. -/
theorem exists_list_of_parse? {s : Bytes} {members : List (String × Json)} {set : KeySet}
    (document : Json.parse? s = some (.object members)) (h : parse? s = some set) :
    ∃ entries, ("keys", .array entries) ∈ members := by
  rw [parse?, Json.parseRecord?_of_parse? document] at h
  obtain ⟨fields, record, h⟩ := Option.bind_eq_some_iff.mp h
  replace record : (["keys"].mapM fun name => Json.onlyMember? name members) = some fields := record
  rw [List.mapM_cons] at record
  obtain ⟨field, only, record⟩ := Option.bind_eq_some_iff.mp record
  cases record
  obtain ⟨entries, isArray, -⟩ := Option.bind_eq_some_iff.mp h
  -- the field was there, and it held an array
  cases field with
  | unnamed => cases isArray
  | beyondEnd => cases isArray
  | present v =>
    cases v with
    | array items => exact ⟨items, Json.mem_of_onlyMember? only⟩
    | _ => cases isArray

/-- Entries that are no keys have no say: the keys are the same without them. -/
theorem filterMap_filter_alone? (entries : List Json) :
    (entries.filter fun v => (alone? v).isSome).filterMap alone? = entries.filterMap alone? := by
  rw [List.filterMap_filter]
  congr 1
  funext v
  cases alone? v with
  | none => rfl
  | some k => rfl

/-- Where entries have texts of their own, they are the keys that these texts are. -/
theorem filterMap_texts {texts : List Bytes} {entries : List Json}
    (values : texts.map Json.parse? = entries.map some) :
    texts.filterMap (fun text => (Key.ofBytes text).toOption) = entries.filterMap alone? := by
  induction texts generalizing entries with
  | nil =>
    cases entries with
    | nil => rfl
    | cons v entries => cases values
  | cons text texts ih =>
    -- the two lists are equally long, since each text is one value
    cases entries with
    | nil => cases values
    | cons v entries =>
      obtain ⟨first, others⟩ := List.cons.inj values
      rw [List.filterMap_cons, List.filterMap_cons, Key.ofBytes_of_parse? first, ih others]
      rfl

/-- How a document with these members reads as a key set. -/
structure Tolerant (s : Bytes) (members : List (String × Json)) : Prop where
  /-- The keys of a list are the entries that are keys on their own, in order. -/
  kept : ∀ entries, Lists members entries → parse? s = some ⟨entries.filterMap alone?⟩
  /-- What an entry is on its own is what its text is. -/
  alone : ∀ entries, Lists members entries →
    ∀ texts : List Bytes, texts.map Json.parse? = entries.map some →
      parse? s = some ⟨texts.filterMap fun text => (Key.ofBytes text).toOption⟩
  /-- Another document reads alike if its list differs only in entries that are no keys. They may be
  added, taken out or moved anywhere. -/
  unaffected : ∀ entries, Lists members entries →
    ∀ s' members' entries', Json.parse? s' = some (.object members') → Lists members' entries' →
      (entries'.filter fun v => (alone? v).isSome) = (entries.filter fun v => (alone? v).isSome) →
      parse? s' = parse? s
  /-- A document without a list is refused. -/
  refused : (∀ entries, ("keys", .array entries) ∉ members) → parse? s = none

/-- **Nothing usable is lost.** Every document that is an object reads as the keys in its list, and
is refused if there is no list. Entries that are no keys make no difference, whatever is wrong with
them and wherever they stand. -/
theorem loses_no_key {s : Bytes} {members : List (String × Json)}
    (document : Json.parse? s = some (.object members)) : Tolerant s members where
  kept := fun entries list => parse?_of_lists document list
  alone := by
    intro entries list texts values
    rw [parse?_of_lists document list, filterMap_texts values]
  unaffected := by
    intro entries list s' members' entries' document' list' same
    have keys : entries'.filterMap alone? = entries.filterMap alone? := by
      rw [← filterMap_filter_alone? entries', same, filterMap_filter_alone?]
    rw [parse?_of_lists document' list', parse?_of_lists document list, keys]
  refused := by
    intro missing
    cases accepted : parse? s with
    | none => rfl
    | some set =>
      -- a document that reads as keys has had a list
      obtain ⟨entries, here⟩ := exists_list_of_parse? document accepted
      exact absurd here (missing entries)

/-- The entries of a list in which a key of an unknown kind stands before a secret. -/
def exampleEntries : List Json :=
  [.object [("kty", .string "OKP"), ("x", .string "AA")],
    .object [("kty", .string "oct"), ("k", .string "AA")]]

/-- The secret is found behind the other key. The first entry is an object without repeated names,
so it is an entry although it is no key. -/
theorem loses_no_key_unknownKind :
    parse? (Bytes.ofString (Json.object [("keys", .array exampleEntries)]).render) =
      some ⟨[{ material := .secret [0] }]⟩ := by
  have list : Lists [("keys", .array exampleEntries)] exampleEntries := by
    refine ⟨rfl, fun v hv => ?_⟩
    simp only [exampleEntries, List.mem_cons, List.not_mem_nil, or_false] at hv
    rcases hv with rfl | rfl
    all_goals exact ⟨_, rfl, by decide⟩
  -- nothing but texts in it, so the document reads back
  have integral : (Json.object [("keys", .array exampleEntries)]).Integral := by
    refine .object fun m hm => ?_
    rw [List.mem_singleton] at hm
    subst hm
    refine .array fun v hv => ?_
    simp only [exampleEntries, List.mem_cons, List.not_mem_nil, or_false] at hv
    rcases hv with rfl | rfl
    all_goals
      refine .object fun m hm => ?_
      simp only [List.mem_cons, List.not_mem_nil, or_false] at hm
      rcases hm with rfl | rfl
      all_goals exact .string _
  have document := Json.parse?_render integral (by decide)
  rw [(loses_no_key document).kept _ list]
  decide

end KeySet
end BearerAuth
