import BearerAuth.Proofs.Json.RoundTrip
import BearerAuth.Proofs.Text.Base64Url
import BearerAuth.Proofs.Validator.Keys

/-!
# BearerAuth — a signed token is confirmed

A token that was made with a shared secret is taken apart into what went into it, and the secret
confirms it. Nothing is lost on the way: the header and the claims are written as JSON and read
back, their bytes are written in base64 and read back, and the dots that join the sections are the
only ones, so that the signed text is found again as it was. What is left for a verdict is whether
the claims meet the rules.

The claims must not hold doubles, which may read back as other doubles, and must not be nested
deeper than a reader goes.

Main results:

* `Header.parse?_render`, `Claims.parse?_render` — headers and claims read back.
* `sign_verify`                                  — signing and then verifying.
-/

namespace BearerAuth

/-! ## Maps in order -/

namespace OrderedMap

variable {α : Type u}

/-- A name after all others goes to the end. It neither replaces an entry nor comes before one. So a
map that is filled in the order of its names has the entries as they came. -/
theorem updateEntries_of_lt {name : String} {f : Option α → α} {l : List (String × α)}
    (h : ∀ e ∈ l, e.1 < name) : updateEntries name f l = l ++ [(name, f none)] := by
  induction l with
  | nil => rfl
  | cons e rest ih =>
    obtain ⟨n, v⟩ := e
    -- the name lies behind the first entry, and so the update is passed on
    have before : n < name := h (n, v) List.mem_cons_self
    have after : ¬ name < n := String.lt_asymm before
    have other : name ≠ n := by
      rintro rfl
      exact String.lt_irrefl _ before
    rw [updateEntries, if_neg after, if_neg other,
      ih fun e he => h e (List.mem_cons_of_mem _ he)]
    rfl

/-- Entries in order are inserted one behind the other, onto entries that come before them. So what
was written in order is read in the same order. -/
theorem entries_foldl_insert {l : List (String × α)} {m : OrderedMap α}
    (ascending : (m.entries ++ l).Pairwise fun a b => a.1 < b.1) :
    (l.foldl (fun m e => m.insert e.1 e.2) m).entries = m.entries ++ l := by
  induction l generalizing m with
  | nil => simp
  | cons e rest ih =>
    -- the first of the new entries comes after all that are there
    have last : ∀ d ∈ m.entries, d.1 < e.1 := by
      intro d hd
      exact (List.pairwise_append.mp ascending).2.2 d hd e List.mem_cons_self
    have inserted : (m.insert e.1 e.2).entries = m.entries ++ [e] := updateEntries_of_lt last
    have ascending' : ((m.insert e.1 e.2).entries ++ rest).Pairwise fun a b => a.1 < b.1 := by
      rw [inserted, List.append_assoc]
      exact ascending
    rw [List.foldl_cons, ih ascending', inserted, List.append_assoc]
    rfl

theorem ofList_entries (m : OrderedMap α) : ofList m.entries = m := by
  have ascending : ((empty : OrderedMap α).entries ++ m.entries).Pairwise fun a b => a.1 < b.1 :=
    m.ascending
  exact ext_entries (entries_foldl_insert ascending)

end OrderedMap

/-! ## Header and claims -/

/-- A header is written with members of its own only, all of them strings. -/
theorem Header.mem_members {h : Header} {m : String × Json}
    (hm : m ∈ ("alg", Json.string h.algorithmName) ::
      ((h.keyId.map fun id => ("kid", Json.string id)).toList ++
        (h.mediaType.map fun t => ("typ", Json.string t)).toList)) :
    m.1 ∈ ["alg", "kid", "typ"] ∧ ∃ s, m.2 = .string s := by
  simp only [List.mem_cons, List.mem_append, Option.mem_toList, Option.map_eq_some_iff] at hm
  rcases hm with rfl | ⟨id, -, rfl⟩ | ⟨t, -, rfl⟩
  · exact ⟨by simp, _, rfl⟩
  · exact ⟨by simp, _, rfl⟩
  · exact ⟨by simp, _, rfl⟩

/-- A written header reads as itself, whatever it names. Its strings are escaped where they have to
be, and its members are the ones that the reader looks for. -/
theorem Header.parse?_render (h : Header) : parse? (Bytes.ofString h.render) = some h := by
  unfold parse? render toJson
  rw [Json.parseRecord?_render fun m hm => ?_]
  · obtain ⟨algorithmName, keyId, mediaType⟩ := h
    cases keyId <;> cases mediaType <;> rfl
  · obtain ⟨wanted, s, hs⟩ := mem_members hm
    rw [hs]
    exact ⟨wanted, .string s, by simp [Json.depth, Json.depthLimit]⟩

/-- Claims are made of their members. The values that claims hold are mappings already, and are not
changed when they are read once more. -/
theorem Claims.ofMembers_entries (c : Claims) :
    ofMembers (c.members.entries.map fun e => (e.1, e.2.1)) = c := by
  have values : (c.members.entries.map fun e => (e.1, e.2.1)).map
      (fun m => (m.1, m.2.toCanonical)) = c.members.entries := by
    rw [List.map_map]
    -- the values are mappings already
    have same : ∀ e : String × CanonicalJson, (e.1, e.2.1.toCanonical) = e := by
      rintro ⟨n, v, canonical⟩
      exact Prod.ext rfl (Subtype.ext canonical)
    exact List.map_id'' same _
  unfold ofMembers
  rw [values, OrderedMap.ofList_entries]

/-- Written claims read as themselves. The two hypotheses exclude what is not kept by a reader:
doubles, and nesting beyond its limit. -/
theorem Claims.parse?_render {c : Claims} (integral : c.toJson.Integral)
    (shallow : c.toJson.depth ≤ Json.depthLimit) : parse? (Bytes.ofString c.render) = some c := by
  unfold parse? render
  rw [Json.parse?_render integral shallow]
  exact congrArg some c.ofMembers_entries

/-! ## Keys that sign -/

variable {k : Key} {a : Algorithm} {h : Header} {c : Claims}

/-- A key that can sign makes signatures that it confirms itself, for any message. Only secrets can
sign, and a secret confirms what it would have signed. -/
theorem Key.exists_signature (signs : k.canSign a = true) (message : Bytes) :
    ∃ signature, k.sign a message = .ok signature ∧ k.verify a message signature = .ok () := by
  unfold canSign at signs
  simp only [Bool.and_eq_true, Option.isNone_iff_eq_none] at signs
  obtain ⟨⟨secret, symmetric⟩, free⟩ := signs
  obtain ⟨algorithm, usage⟩ := useConflict?_eq_none_iff.mp free
  cases hm : k.material with
  | rsa _ | curve _ =>
    -- public keys do not sign
    rw [hm] at secret
    cases secret
  | secret s =>
    refine ⟨a.digest.hmac s message, ?_, verify_eq_ok_iff.mpr ⟨⟨?_, algorithm, usage⟩, ?_⟩⟩
    · unfold sign
      rw [free, hm]
      show Secret.sign s a message = _
      rw [Secret.sign_eq, if_pos symmetric]
    · rw [hm]
      exact symmetric
    · rw [hm]
      simp [Material.accepts, symmetric]

/-! ## Tokens -/

/-- Of a token whose signature is confirmed and whose claims can be read, the rules decide. Nothing
else can fail any more. -/
theorem Decomposed.verify_of_readable {d : Decomposed} {rules : ClaimRules} {now : UnixTime}
    (known : d.header.algorithm? = some a)
    (verified : k.verify a (Bytes.ofString d.message) d.signature = .ok ())
    (readable : d.claims = .ok c) :
    d.verify k rules now =
      match rules.check d.header c now with
      | .ok () => .ok c
      | .error e => .error (.rejectedClaims e) := by
  -- the signature comes first, and it is right
  have signature : d.checkSignature k = .ok () := by
    unfold checkSignature algorithm
    rw [known]
    show (k.verify a (Bytes.ofString d.message) d.signature).mapError TokenError.rejectedByKey = _
    rw [verified]
    rfl
  -- what is left are the checks of the claims
  unfold verify checkedClaims
  rw [signature, readable]
  show ((rules.check d.header c now).mapError TokenError.rejectedClaims >>= fun _ => .ok c) = _
  cases rules.check d.header c now <;> rfl

namespace Token

/-- The characters of a token, section by section. The alphabet of the encoding has no dot, and so
the dots that join the sections are the only ones. -/
theorem sections_sign (h : Header) (c : Claims) (signature : Bytes) :
    Sections (signedText h c ++ "." ++ Base64Url.encode signature).toList
      (Base64Url.encodeChars (Bytes.ofString h.render))
      (Base64Url.encodeChars (Bytes.ofString c.render))
      (Base64Url.encodeChars signature) where
  text := by
    simp [signedText, Base64Url.encode]
  header := Base64Url.dot_not_mem_encodeChars _
  payload := Base64Url.dot_not_mem_encodeChars _
  signature := Base64Url.dot_not_mem_encodeChars _

/-- A token reads as what went into it: each section decodes into the bytes that were encoded, and
those read as what was written. -/
theorem reads_sign (integral : c.toJson.Integral) (shallow : c.toJson.depth ≤ Json.depthLimit)
    (h : Header) (signature : Bytes) :
    Reads (signedText h c ++ "." ++ Base64Url.encode signature) h c (signedText h c) signature := by
  have header : Encodes Header.parse? (Base64Url.encodeChars (Bytes.ofString h.render)) h :=
    ⟨_, Base64Url.decodeChars?_encodeChars _, h.parse?_render⟩
  have claims : Encodes Claims.parse? (Base64Url.encodeChars (Bytes.ofString c.render)) c :=
    ⟨_, Base64Url.decodeChars?_encodeChars _, Claims.parse?_render integral shallow⟩
  -- what is signed is the text in front of the second dot
  have message : signedText h c = String.ofList
      (Base64Url.encodeChars (Bytes.ofString h.render) ++
        '.' :: Base64Url.encodeChars (Bytes.ofString c.render)) := by
    apply String.toList_inj.mp
    simp [signedText, Base64Url.encode]
  exact ⟨_, _, _, sections_sign h c signature, header, claims, message,
    Base64Url.decodeChars?_encodeChars signature⟩

/-- **Signing, then verifying.** With a secret that can sign for the algorithm of the header, any
header and claims without doubles make a token. Taken apart, it has this header, and the signed text
is all of it up to the last dot. Under the same secret it is confirmed, with the same header and
claims, if these meet the rules, and otherwise it is refused for the rule that is broken. -/
theorem sign_verify (signs : k.canSign a = true) (names : h.algorithmName = a.name)
    (integral : c.toJson.Integral) (shallow : c.toJson.depth ≤ Json.depthLimit) :
    ∃ token, sign h c k = .ok token ∧
      (∃ d rest, Decomposed.ofToken token = .ok d ∧ d.header = h ∧
        token = d.message ++ "." ++ rest ∧ '.' ∉ rest.toList) ∧
      ∀ rules now, verify token k rules now =
        match rules.check h c now with
        | .ok () => .ok (h, c)
        | .error e => .error (.rejectedClaims e) := by
  have known : h.algorithm? = some a := by
    unfold Header.algorithm?
    rw [names, Algorithm.ofName?_name]
  obtain ⟨signature, signed, verified⟩ :=
    k.exists_signature signs (Bytes.ofString (signedText h c))
  -- the signed text, found again in the token, is what the key confirms
  obtain ⟨d, parts, rfl, readable, message, rfl⟩ :=
    reads_iff.mp (reads_sign integral shallow h signature)
  refine ⟨_, ?_, ⟨d, Base64Url.encode d.signature, parts, rfl, by rw [message], ?_⟩,
    fun rules now => ?_⟩
  · unfold sign
    rw [known]
    dsimp only
    rw [signed]
  · rw [Base64Url.encode, String.toList_ofList]
    exact Base64Url.dot_not_mem_encodeChars d.signature
  · rw [← message] at verified
    unfold verify
    rw [parts]
    show (d.verify k rules now >>= fun c => .ok (d.header, c)) = _
    rw [Decomposed.verify_of_readable known verified readable]
    cases rules.check d.header c now <;> rfl

/-- A secret of one byte. -/
def exampleKey : Key := { material := .secret [1] }

def exampleHeader : Header := ⟨"HS256", some "k", none⟩

/-- Claims with characters that must be escaped, a negative number and an empty array. -/
def exampleClaims : Claims :=
  .ofSettings [.issuer "\"i\x01é\\",
    .claim "n" (.array [.number (.integer ⟨-1, by decide⟩), .array []])]

/-- The claims come back, and are refused where they would have to say when they expire. They have a
text that needs escaping, a negative number and an empty array in them. -/
theorem sign_verify_escapes :
    ∃ token, sign exampleHeader exampleClaims exampleKey = .ok token ∧
      verify token exampleKey { checkExpiration := false } ⟨0⟩ =
        .ok (exampleHeader, exampleClaims) ∧
      verify token exampleKey {} ⟨0⟩ = .error (.rejectedClaims (.missing .expiration)) := by
  have json : exampleClaims.toJson = .object [("iss", .string "\"i\x01é\\"),
      ("n", .array [.number (.integer ⟨-1, by decide⟩), .array []])] := rfl
  -- a text with characters that are escaped, a negative number and an empty array
  have integral : exampleClaims.toJson.Integral := by
    rw [json]
    refine .object fun m hm => ?_
    simp only [List.mem_cons, List.not_mem_nil, or_false] at hm
    rcases hm with rfl | rfl
    · exact .string _
    · refine .array fun v hv => ?_
      simp only [List.mem_cons, List.not_mem_nil, or_false] at hv
      rcases hv with rfl | rfl
      · exact .integer _
      · exact .array nofun
  have shallow : exampleClaims.toJson.depth ≤ Json.depthLimit := by
    rw [json]
    decide
  have signs : exampleKey.canSign .hs256 = true := rfl
  have names : exampleHeader.algorithmName = Algorithm.hs256.name := rfl
  obtain ⟨token, signed, -, verified⟩ := sign_verify signs names integral shallow
  -- the claims have no time at which they expire
  have passes : ClaimRules.check { checkExpiration := false } exampleHeader exampleClaims ⟨0⟩ =
    .ok () := rfl
  have fails : ClaimRules.check {} exampleHeader exampleClaims ⟨0⟩ =
    .error (.missing .expiration) := rfl
  refine ⟨token, signed, ?_, ?_⟩
  · rw [verified, passes]
  · rw [verified, fails]

end Token
end BearerAuth
