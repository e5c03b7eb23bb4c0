import BearerAuth.Proofs.Json.Scalars
import BearerAuth.Proofs.Token.Faults
import BearerAuth.Proofs.Validator.Acceptance
import BearerAuth.Validator.Settings

/-!
# BearerAuth — configurations leave no check out

To the rules for claims an empty list of algorithms, issuers or audiences means that anything goes.
Nobody who configures a validator means that, so no way to make one may let an empty list through: a
configuration without issuers or without audiences is refused, and for a missing list of algorithms
there is a default. There are three ways, settings and the two kinds of validators that they can
stand for, and what they ask for is said apart from the order in which it is asked
(`ValidatorConfig.Lacks`, `Settings.Lacks`).

Main results:

* `KeyOrigin.validator_follows` — the first thing that a configuration lacks is the answer.
* `KeyOrigin.guarded`           — a validator that was configured makes every check.
* `Settings.build_follows`      — settings lack a source of keys, or what their configuration lacks.
* `no_check_left_out`           — which configurations make a validator, and what it checks.
-/

namespace BearerAuth

variable {config : ValidatorConfig} {origin : KeyOrigin} {v : Validator}

/-! ## What is missing -/

/-- What is asked of a configuration. -/
inductive Demand where
  /-- Not a secret and published keys at once. -/
  | oneSource
  | source
  /-- A secret that is not empty. -/
  | secret
  /-- With a secret, algorithms that use secrets. -/
  | algorithms
  | issuers
  | audiences

namespace Demand

/-- What is asked of a configuration once it is known where the keys are. -/
def ofConfig : List Demand := [.secret, .algorithms, .issuers, .audiences]

/-- What is asked of settings. -/
def ofSettings : List Demand := .oneSource :: .source :: ofConfig

end Demand

/-- What a configuration lacks for a validator of keys of this origin, each demand by itself. -/
inductive ValidatorConfig.Lacks (config : ValidatorConfig) (origin : KeyOrigin) :
    Demand → ConfigError → Prop
  | secret (empty : origin = .secret []) : Lacks config origin .secret .emptySecret
  /-- The first algorithm of the list that uses no secret is named. -/
  | algorithms {s : Bytes} {before after : List Algorithm} {a : Algorithm}
      (secret : origin = .secret s) (listed : config.algorithms = before ++ a :: after)
      (first : ∀ b ∈ before, b.family = .hmac) (other : a.family ≠ .hmac) :
      Lacks config origin .algorithms (.incompatibleAlgorithm a)
  | issuers (none : config.issuers = []) : Lacks config origin .issuers .missingIssuers
  | audiences (none : config.audiences = []) : Lacks config origin .audiences .missingAudiences

/-- Issuers are asked for before audiences, and with both there are rules. -/
theorem ValidatorConfig.rules_follows (config : ValidatorConfig) (origin : KeyOrigin)
    (default : Algorithm) :
    Follows (config.Lacks origin) [.issuers, .audiences] (config.rules default) := by
  unfold rules
  -- one list after the other, each refused if it is empty
  refine .guard (fun e => ?_) fun _ => .guard (fun e => ?_) fun _ => .ok _
  · rw [List.isEmpty_iff]
    constructor
    · rintro ⟨⟩
      exact ⟨‹_›, rfl⟩
    · rintro ⟨none, rfl⟩
      exact .issuers none
  · rw [List.isEmpty_iff]
    constructor
    · rintro ⟨⟩
      exact ⟨‹_›, rfl⟩
    · rintro ⟨none, rfl⟩
      exact .audiences none

/-- The first algorithm of a list that uses no secret, as a split of the list. The error about a
configuration names this algorithm. -/
theorem find?_other_eq_some_iff {l : List Algorithm} {a : Algorithm} :
    (l.find? fun a => !a.isSymmetric) = some a ↔
      ∃ before after, l = before ++ a :: after ∧ (∀ b ∈ before, b.family = .hmac) ∧
        a.family ≠ .hmac := by
  rw [List.find?_eq_some_iff_append]
  simp only [Algorithm.isSymmetric, Bool.not_eq_true', Bool.not_not, beq_eq_false_iff_ne,
    beq_iff_eq]
  constructor
  · rintro ⟨other, before, after, listed, first⟩
    exact ⟨before, after, listed, first, other⟩
  · rintro ⟨before, after, listed, first, other⟩
    exact ⟨other, before, after, listed, first⟩

namespace KeyOrigin

/-- For keys in a cache only issuers and audiences are asked for. The demands about secrets are met
by any such configuration. -/
theorem cache_follows (config : ValidatorConfig) (n : Nat) :
    Follows (config.Lacks (.cache n)) Demand.ofConfig (Validator.asymmetric config n) := by
  -- no secret is asked for
  have secret : ∀ e, ¬ config.Lacks (.cache n) .secret e := by
    rintro _ ⟨empty⟩
    cases empty
  have algorithms : ∀ e, ¬ config.Lacks (.cache n) .algorithms e := by
    intro e lacks
    cases lacks with
    | algorithms secret _ _ _ => cases secret
  exact .passed secret (.passed algorithms ((config.rules_follows (.cache n) .rs256).andThen
    fun rules => (⟨rules, .cache n, config.requireKeyId⟩ : Validator)))

/-- For a secret all four demands are made, in this order. The secret and the algorithms are looked
at before the rules are made. -/
theorem secret_follows (config : ValidatorConfig) (s : Bytes) :
    Follows (config.Lacks (.secret s)) Demand.ofConfig (Validator.symmetric config s) := by
  unfold Validator.symmetric
  refine .guard (fun e => ?_) fun _ => ?_
  · rw [List.isEmpty_iff]
    constructor
    · rintro ⟨empty⟩
      exact ⟨KeyOrigin.secret.inj empty, rfl⟩
    · rintro ⟨rfl, rfl⟩
      exact .secret rfl
  · cases found : config.algorithms.find? fun a => !a.isSymmetric with
    | some a =>
      obtain ⟨before, after, listed, first, other⟩ := find?_other_eq_some_iff.mp found
      refine .failed fun e => ⟨fun lacks => ?_, ?_⟩
      · cases lacks with
        | algorithms _ listed first other =>
          -- there is one first algorithm that uses no secret
          have again := find?_other_eq_some_iff.mpr ⟨_, _, listed, first, other⟩
          rw [Option.some.inj (found.symm.trans again)]
      · rintro rfl
        exact .algorithms rfl listed first other
    | none =>
      -- the search found none, so that the demand is met
      have algorithms : ∀ e, ¬ config.Lacks (.secret s) .algorithms e := by
        intro e lacks
        cases lacks with
        | algorithms _ listed first other =>
          have some_ := find?_other_eq_some_iff.mpr ⟨_, _, listed, first, other⟩
          cases found.symm.trans some_
      exact .passed algorithms ((config.rules_follows (.secret s) .hs256).andThen
        fun rules => (⟨rules, .secret { material := .secret s }, false⟩ : Validator))

/-- A validator is made unless something is missing, and what is missing first is the answer. That
the list of demands is the same for both kinds of keys allows them to be treated alike from here
on. -/
theorem validator_follows (origin : KeyOrigin) (config : ValidatorConfig) :
    Follows (config.Lacks origin) Demand.ofConfig (origin.validator config) := by
  cases origin with
  | cache n => exact cache_follows config n
  | secret s => exact secret_follows config s

/-- With a secret all algorithms use secrets, or the first one that does not is at fault. For the
other origin the demand is always met. -/
theorem forall_not_lacks_algorithms_iff :
    (∀ e, ¬ config.Lacks origin .algorithms e) ↔
      ∀ s, origin = .secret s → ∀ a ∈ config.algorithms, a.family = .hmac := by
  constructor
  · intro passes s secret a mem
    -- a misfit is found by the search, if only another one that comes first
    refine Decidable.byContradiction fun other => ?_
    have found : (config.algorithms.find? fun a => !a.isSymmetric).isSome = true :=
      List.find?_isSome.mpr ⟨a, mem, by simpa [Algorithm.isSymmetric] using other⟩
    obtain ⟨b, found⟩ := Option.isSome_iff_exists.mp found
    obtain ⟨before, after, listed, first, other⟩ := find?_other_eq_some_iff.mp found
    exact passes _ (.algorithms secret listed first other)
  · intro suited e lacks
    cases lacks with
    | @algorithms s before after a secret listed first other =>
      have mem : a ∈ config.algorithms := by simp [listed]
      exact other (suited s secret a mem)

/-- A configuration makes a validator if nothing is missing. The four demands are put in the words
of the configuration, with no order among them: which of them is reported first matters only if one
is not met. -/
theorem exists_validator_iff :
    (∃ v, origin.validator config = .ok v) ↔
      config.issuers ≠ [] ∧ config.audiences ≠ [] ∧
        ∀ s, origin = .secret s → s ≠ [] ∧ ∀ a ∈ config.algorithms, a.family = .hmac := by
  rw [(origin.validator_follows config).exists_ok_iff]
  simp only [Demand.ofConfig, List.forall_mem_cons, forall_not_lacks_algorithms_iff]
  constructor
  · rintro ⟨secret, algorithms, issuers, audiences, -⟩
    refine ⟨fun none => issuers _ (.issuers none), fun none => audiences _ (.audiences none), ?_⟩
    -- a secret has demands of its own, and comes before the lists
    rintro s rfl
    refine ⟨?_, algorithms s rfl⟩
    rintro rfl
    exact secret _ (.secret rfl)
  · rintro ⟨issuers, audiences, secret⟩
    refine ⟨?_, fun s same => (secret s same).2, ?_, ?_, List.forall_mem_nil _⟩
    · rintro _ ⟨empty⟩
      exact (secret [] empty).1 rfl
    · intro e lacks
      cases lacks with
      | issuers none => exact issuers none
    · intro e lacks
      cases lacks with
      | audiences none => exact audiences none

end KeyOrigin

/-! ## What a validator checks -/

/-- A validator makes every check that there is. -/
structure Guarded (config : ValidatorConfig) (origin : KeyOrigin) (v : Validator) : Prop where
  /-- The lists are those that were configured, or hold the one default, and none is empty. -/
  algorithms : v.rules.algorithms =
    if config.algorithms = [] then [origin.defaultAlgorithm] else config.algorithms
  issuers : v.rules.issuers = config.issuers
  audiences : v.rules.audiences = config.audiences
  algorithms_ne : v.rules.algorithms ≠ []
  issuers_ne : v.rules.issuers ≠ []
  audiences_ne : v.rules.audiences ≠ []
  /-- No algorithm is approved that is not listed. -/
  approves : ∀ a, v.rules.approves a = true ↔ a ∈ v.rules.algorithms
  expiration : v.rules.checkExpiration = true
  notBefore : v.rules.checkNotBefore = true
  /-- What passes has an algorithm of the list, an end that has not come, a start that has, one of
  the issuers and one of the audiences. -/
  checks : ∀ h c now, v.rules.check h c now = .ok () ↔
    (∃ a ∈ v.rules.algorithms, h.algorithm? = some a) ∧ config.Demands c now
  /-- With a secret only algorithms that use secrets are approved, and only the one key is tried,
  whether the token names a key or not. -/
  secret : ∀ s, origin = .secret s → (∀ a ∈ v.rules.algorithms, a.family = .hmac) ∧
    v.source = .secret { material := .secret s } ∧ v.requireKeyId = false
  /-- Otherwise the keys are in the cache, and a token must name one if it is to. -/
  cache : ∀ n, origin = .cache n → v.source = .cache n ∧ v.requireKeyId = config.requireKeyId

/-- With a secret a token need not name its key, whatever the configuration says. There is only one
key that it could be. -/
theorem requireKeyId_of_symmetric {s : Bytes} (h : Validator.symmetric config s = .ok v) :
    v.requireKeyId = false := by
  unfold Validator.symmetric at h
  split at h
  · cases h
  · split at h
    · cases h
    · obtain ⟨_, -, made⟩ := bind_eq_ok_iff.mp h
      cases made
      rfl

/-- Whatever was configured, no check is left out. Each field is read off the rules of a configured
validator; those about empty lists are where the demands come in. -/
theorem KeyOrigin.guarded (h : origin.validator config = .ok v) : Guarded config origin v := by
  have configured := KeyOrigin.configured h
  have algorithms : v.rules.algorithms = config.allowed origin.defaultAlgorithm := by
    rw [configured.rules]
  have issuers : v.rules.issuers = config.issuers := by rw [configured.rules]
  have audiences : v.rules.audiences = config.audiences := by rw [configured.rules]
  have approves : ∀ a, v.rules.approves a = true ↔ a ∈ v.rules.algorithms := by
    intro a
    rw [configured.approves_iff, algorithms]
  refine {
    algorithms := algorithms
    issuers := issuers
    audiences := audiences
    algorithms_ne := algorithms ▸ Configured.allowed_ne config origin.defaultAlgorithm
    issuers_ne := issuers ▸ configured.issuers_ne
    audiences_ne := audiences ▸ configured.audiences_ne
    approves := approves
    expiration := by rw [configured.rules]
    notBefore := by rw [configured.rules]
    checks := ?_
    secret := ?_
    cache := ?_ }
  · intro header c now
    rw [ClaimRules.check_eq_ok_iff, configured.meets_iff]
    simp only [approves, and_comm]
  · rintro s rfl
    obtain ⟨-, -, secret⟩ := KeyOrigin.exists_validator_iff.mp ⟨v, h⟩
    refine ⟨?_, configured.source, requireKeyId_of_symmetric h⟩
    -- what is listed was checked, and the default is one that uses secrets
    intro a mem
    rw [algorithms, ValidatorConfig.allowed] at mem
    split at mem
    · rw [List.mem_singleton.mp mem]
      rfl
    · exact (secret s rfl).2 a mem
  · rintro n rfl
    exact configured.source

/-! ## Settings -/

namespace Settings

variable {s : Settings}

/-- Where settings say that the keys are. -/
inductive Origin (s : Settings) : KeyOrigin → Prop
  | secret {text : String} (given : s.secret = some text)
      (alone : s.authority = none ∧ s.keySetUrl = none) :
      Origin s (.secret (Bytes.ofString text))
  /-- At the authority or the URL, for which there is one cache. -/
  | published (noSecret : s.secret = none) (given : s.authority ≠ none ∨ s.keySetUrl ≠ none) :
      Origin s (.cache 0)

/-- What settings lack for a validator, each demand by itself. -/
inductive Lacks (s : Settings) : Demand → ConfigError → Prop
  | ambiguous (secret : s.secret ≠ none) (published : s.authority ≠ none ∨ s.keySetUrl ≠ none) :
      Lacks s .oneSource .ambiguousKeySource
  | source (secret : s.secret = none) (authority : s.authority = none)
      (url : s.keySetUrl = none) : Lacks s .source .missingKeySource
  | config {origin : KeyOrigin} {d : Demand} {e : ConfigError} (given : s.Origin origin)
      (lacks : s.config.Lacks origin d e) : Lacks s d e

theorem source?_eq_none_iff : s.source? = none ↔ s.authority = none ∧ s.keySetUrl = none := by
  unfold source?
  cases s.authority <;> cases s.keySetUrl <;> simp

/-- If either of them is given there is a source; which of them it is does not matter here. -/
theorem exists_source?_of_published (published : s.authority ≠ none ∨ s.keySetUrl ≠ none) :
    ∃ source, s.source? = some source := by
  refine Option.ne_none_iff_exists'.mp ?_
  rw [ne_eq, source?_eq_none_iff]
  rintro ⟨authority, url⟩
  exact published.elim (· authority) (· url)

/-- A secret and published keys at once are refused before anything else is looked at. It does not
matter whether either of them would do. -/
theorem build_of_ambiguous (secret : s.secret ≠ none)
    (published : s.authority ≠ none ∨ s.keySetUrl ≠ none) :
    s.build = .error .ambiguousKeySource := by
  obtain ⟨text, given⟩ := Option.ne_none_iff_exists'.mp secret
  obtain ⟨source, found⟩ := exists_source?_of_published published
  unfold build
  rw [given, found]

theorem build_of_sourceless (secret : s.secret = none)
    (unpublished : s.authority = none ∧ s.keySetUrl = none) :
    s.build = .error .missingKeySource := by
  unfold build
  rw [secret, source?_eq_none_iff.mpr unpublished]

/-- With a single source of keys there is nothing more to settings than their configuration. What
was shown of configured validators then holds of them. -/
theorem Origin.build_eq {origin : KeyOrigin} (h : s.Origin origin) :
    s.build = origin.validator s.config := by
  unfold build
  cases h with
  | secret given alone =>
    rw [given, source?_eq_none_iff.mpr alone]
    rfl
  | published none given =>
    obtain ⟨source, found⟩ := exists_source?_of_published given
    rw [none, found]
    rfl

/-- Settings give one origin at most. -/
theorem Origin.unique {origin origin' : KeyOrigin} (h : s.Origin origin) (h' : s.Origin origin') :
    origin = origin' := by
  cases h with
  | secret given alone =>
    cases h' with
    | secret given' _ => rw [Option.some.inj (given.symm.trans given')]
    | published none _ => cases given.symm.trans none
  | published none given =>
    cases h' with
    | secret given' _ => cases none.symm.trans given'
    | published _ _ => rfl

/-- Keys of one origin are given, or both kinds of sources are, or none. These are the cases of
everything about settings. -/
theorem origin_cases (s : Settings) :
    (∃ origin, s.Origin origin) ∨
      (s.secret ≠ none ∧ (s.authority ≠ none ∨ s.keySetUrl ≠ none)) ∨
      (s.secret = none ∧ s.authority = none ∧ s.keySetUrl = none) := by
  by_cases unpublished : s.authority = none ∧ s.keySetUrl = none
  · cases given : s.secret with
    | none => exact .inr (.inr ⟨rfl, unpublished⟩)
    | some text => exact .inl ⟨_, .secret given unpublished⟩
  · have published := Decidable.not_and_iff_or_not.mp unpublished
    by_cases given : s.secret = none
    · exact .inl ⟨_, .published given published⟩
    · exact .inr (.inl ⟨given, published⟩)

/-- Settings with a single source of keys lack what their configuration lacks. The two demands on
sources are met. -/
theorem Origin.lacks_iff {origin : KeyOrigin} (h : s.Origin origin) {d : Demand} {e : ConfigError} :
    s.Lacks d e ↔ s.config.Lacks origin d e := by
  refine ⟨fun lacks => ?_, .config h⟩
  -- where the origin is settled, nothing can be wrong with the choice of it
  cases lacks with
  | config h' lacks =>
    rw [h.unique h']
    exact lacks
  | ambiguous secret published =>
    cases h with
    | secret _ alone => exact (published.elim (· alone.1) (· alone.2)).elim
    | published none _ => exact absurd none secret
  | source secret authority url =>
    cases h with
    | secret given _ => cases given.symm.trans secret
    | published _ given => exact (given.elim (· authority) (· url)).elim

/-- The source of keys is asked for before anything else, and after that what the configuration
lacks counts. Settings without a single origin are refused for that, whatever else they lack. -/
theorem build_follows (s : Settings) : Follows s.Lacks Demand.ofSettings s.build := by
  rcases s.origin_cases with ⟨origin, h⟩ | ⟨secret, published⟩ | ⟨secret, authority, url⟩
  · -- one origin: both demands on sources are met
    have oneSource : ∀ e, ¬ s.Lacks .oneSource e := by
      intro e lacks
      cases h.lacks_iff.mp lacks
    have source : ∀ e, ¬ s.Lacks .source e := by
      intro e lacks
      cases h.lacks_iff.mp lacks
    rw [h.build_eq]
    exact .passed oneSource (.passed source
      ((origin.validator_follows s.config).congr fun _ _ _ => h.lacks_iff.symm))
  · rw [build_of_ambiguous secret published]
    refine .failed fun e => ⟨fun lacks => ?_, ?_⟩
    · cases lacks with
      | ambiguous _ _ => rfl
      | config _ lacks => cases lacks
    · rintro rfl
      exact .ambiguous secret published
  · -- none: the first demand is met, and the second one is not
    rw [build_of_sourceless secret ⟨authority, url⟩]
    refine .passed (fun e lacks => ?_) (.failed fun e => ⟨fun lacks => ?_, ?_⟩)
    · cases lacks with
      | ambiguous given _ => exact given secret
      | config _ lacks => cases lacks
    · cases lacks with
      | source _ _ _ => rfl
      | config _ lacks => cases lacks
    · rintro rfl
      exact .source secret authority url

/-- The bytes of a text are none only for the empty text, since a text can be had back from its
bytes. So an empty secret can be recognised as text or as bytes. -/
theorem ofString_eq_nil_iff {text : String} : Bytes.ofString text = [] ↔ text = "" := by
  constructor
  · intro empty
    have back := Bytes.toString?_ofString text
    rw [empty] at back
    exact (Option.some.inj back).symm
  · rintro rfl
    rfl

/-- Settings make a validator if their configuration makes one of keys of a single origin. What is
left is told by `exists_validator_iff`, for each origin by itself. -/
theorem exists_build_iff :
    (∃ v, s.build = .ok v) ↔
      ∃ origin, s.Origin origin ∧ ∃ v, origin.validator s.config = .ok v := by
  constructor
  · rintro ⟨v, built⟩
    rcases s.origin_cases with ⟨origin, h⟩ | ⟨secret, published⟩ | ⟨secret, unpublished⟩
    · exact ⟨origin, h, v, h.build_eq ▸ built⟩
    · cases (build_of_ambiguous secret published).symm.trans built
    · cases (build_of_sourceless secret unpublished).symm.trans built
  · rintro ⟨origin, h, v, made⟩
    exact ⟨v, h.build_eq.trans made⟩

/-- How settings are built. -/
structure Builds (s : Settings) : Prop where
  built : (∃ v, s.build = .ok v) ↔ s.issuers ≠ [] ∧ s.audiences ≠ [] ∧
    ((∃ text, s.secret = some text ∧ text ≠ "" ∧ s.authority = none ∧ s.keySetUrl = none ∧
        ∀ a ∈ s.algorithms, a.family = .hmac) ∨
      (s.secret = none ∧ (s.authority ≠ none ∨ s.keySetUrl ≠ none)))
  refused : ∀ e, s.build = .error e ↔ FirstFails s.Lacks Demand.ofSettings e
  guarded : ∀ v, s.build = .ok v → ∃ origin, s.Origin origin ∧ Guarded s.config origin v

/-- What is said of settings as a whole, put together from the demands and from what a configured
validator checks. -/
theorem builds (s : Settings) : s.Builds where
  built := by
    rw [exists_build_iff]
    simp only [KeyOrigin.exists_validator_iff]
    constructor
    · rintro ⟨origin, h, issuers, audiences, secret⟩
      refine ⟨issuers, audiences, ?_⟩
      -- a secret was given alone, or something that is published
      cases h with
      | @secret text given alone =>
        obtain ⟨some, suited⟩ := secret _ rfl
        exact .inl ⟨text, given, mt ofString_eq_nil_iff.mpr some, alone.1, alone.2, suited⟩
      | published none given => exact .inr ⟨none, given⟩
    · rintro ⟨issuers, audiences, ⟨text, given, some, authority, url, suited⟩ | ⟨none, given⟩⟩
      · refine ⟨_, .secret given ⟨authority, url⟩, issuers, audiences, ?_⟩
        rintro s ⟨⟩
        exact ⟨mt ofString_eq_nil_iff.mp some, suited⟩
      · exact ⟨_, .published none given, issuers, audiences, nofun⟩
  refused := s.build_follows
  guarded := by
    intro v built
    obtain ⟨origin, h, -⟩ := exists_build_iff.mp ⟨v, built⟩
    exact ⟨origin, h, KeyOrigin.guarded (h.build_eq ▸ built)⟩

end Settings

/-- How a configuration is made into a validator of keys of this origin. -/
structure KeyOrigin.Makes (config : ValidatorConfig) (origin : KeyOrigin) : Prop where
  made : (∃ v, origin.validator config = .ok v) ↔ config.issuers ≠ [] ∧ config.audiences ≠ [] ∧
    ∀ s, origin = .secret s → s ≠ [] ∧ ∀ a ∈ config.algorithms, a.family = .hmac
  refused : ∀ e, origin.validator config = .error e ↔
    FirstFails (config.Lacks origin) Demand.ofConfig e
  guarded : ∀ v, origin.validator config = .ok v → Guarded config origin v

/-- **No check is left out.** Settings make a validator exactly if they name issuers and audiences
and one kind of source for keys, a secret only if it is not empty and the algorithms are for
secrets; otherwise what is missing first is the answer. However a validator was made, by settings or
directly, its lists of algorithms, issuers and audiences are those that were configured, or hold the
one default algorithm, and it makes every check there is. -/
theorem no_check_left_out :
    (∀ s : Settings, s.Builds) ∧
      ∀ (config : ValidatorConfig) (origin : KeyOrigin), KeyOrigin.Makes config origin := by
  refine ⟨Settings.builds, fun config origin => ?_⟩
  exact {
    made := KeyOrigin.exists_validator_iff
    refused := origin.validator_follows config
    guarded := fun _ made => KeyOrigin.guarded made }

/-- Two sources are one too many, whatever else is missing. -/
example : Settings.build { secret := some "", keySetUrl := some "https://keys" } =
    .error .ambiguousKeySource := rfl

end BearerAuth
