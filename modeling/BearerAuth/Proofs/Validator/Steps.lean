import BearerAuth.Validator.Basic

/-!
# BearerAuth — one poll of a validation

A validation that is polled goes on until it has to wait or is done. It makes no difference to the
rest of it whether it was started or resumed: to try a validator that needs keys is to resume a
validation whose lookup was not polled yet (`run_of_lookup`), and whatever a validator comes to is
followed by the same (`follow`). All that is proved of validations begins with these equations.
-/

namespace BearerAuth

/-- The lookup that a plan asks for. -/
def Validator.Plan.asked : Validator.Plan → Option (Nat × Query)
  | .decided _ => none
  | .lookup n q _ => some (n, q)

namespace Validation

variable {σ : Type u} {ask : σ → Option ProviderAnswer × σ} {cs cs' : Caches σ} {v : Validator}
  {rest : List Validator} {token : String} {now : UnixTime} {last : ValidationError}
  {r : ValidationResult} {n : Nat} {q : Query} {settle : FetchOutcome → UnixTime → ValidationResult}
  {w : Suspension}

/-- What follows the result of one of the validators: nothing, or the others are tried. -/
def follow (ask : σ → Option ProviderAnswer × σ) (token : String) (now : UnixTime)
    (rest : List Validator) (cs : Caches σ) :
    ValidationResult → Poll Suspension ValidationResult × Caches σ
  | .ok c => (.done (.ok c), cs)
  | .error e => run ask token now rest e cs

/-- If no validators are left, the result of the last one is the result. -/
@[simp]
theorem follow_nil (r : ValidationResult) : follow ask token now [] cs r = (.done r, cs) := by
  cases r <;> rfl

/-- A validator that needs no keys comes to its result at once, and what follows it happens in the
same poll. -/
theorem run_of_decided (h : v.plan token now = .decided r) :
    run ask token now (v :: rest) last cs = follow ask token now rest cs r := by
  rw [run, h]
  cases r <;> rfl

/-- To try a validator that needs keys is to resume a validation whose lookup was not polled yet. So
whatever is proved of resumed validations holds of started ones. -/
theorem run_of_lookup (h : v.plan token now = .lookup n q settle) :
    run ask token now (v :: rest) last cs =
      resume ask ⟨token, n, ⟨q, none⟩, settle, rest⟩ now cs := by
  rw [run, h]
  rfl

/-- When the lookup is done, the token is settled with its outcome at the present time, and not at
the time at which the validation was started. -/
theorem resume_of_pollCache_done {o : FetchOutcome}
    (h : pollCache ask cs w.cache w.lookup now = (.done o, cs')) :
    resume ask w now cs = follow ask w.token now w.rest cs' (w.settle o now) := by
  unfold resume
  rw [h]
  dsimp only
  cases w.settle o now <;> rfl

/-- As long as the lookup is not done, nothing of the validation changes but the lookup. What is to
be made of its outcome was fixed at the start. -/
theorem resume_of_pollCache_pending {l : Lookup}
    (h : pollCache ask cs w.cache w.lookup now = (.pending l, cs')) :
    resume ask w now cs = (.pending { w with lookup := l }, cs') := by
  unfold resume
  rw [h]

/-! ## A single validator -/

/-- A token that a single validator decides without keys is decided in the first poll, and the
caches are left as they are. -/
theorem start_of_decided (h : v.plan token now = .decided r)
    (ask : σ → Option ProviderAnswer × σ) (cs : Caches σ) :
    start ask [v] token now cs = (.done r, cs) :=
  (run_of_decided h).trans (follow_nil r)

/-- To start a validation that needs keys is to go on with one whose lookup was not polled yet. So
all that is proved of resuming holds of starting as well. -/
theorem start_eq_resume (h : v.plan token now = .lookup n q settle)
    (ask : σ → Option ProviderAnswer × σ) (cs : Caches σ) :
    start ask [v] token now cs = resume ask ⟨token, n, ⟨q, none⟩, settle, []⟩ now cs :=
  run_of_lookup h

/-- The same as `resume_of_pollCache_done` for a single validator, in terms of the client. -/
theorem resume_of_done {o : FetchOutcome} {d : Client σ} (rest : w.rest = [])
    (h : (cs w.cache).poll ask w.lookup now = (.done o, d)) :
    resume ask w now cs = (.done (w.settle o now), cs.set w.cache d) := by
  have polled : pollCache ask cs w.cache w.lookup now = (.done o, cs.set w.cache d) := by
    unfold pollCache
    rw [h]
  rw [resume_of_pollCache_done polled, rest, follow_nil]

/-- The same as `resume_of_pollCache_pending`, in terms of the client. It does not matter whether
other validators are left. -/
theorem resume_of_pending {l : Lookup} {d : Client σ}
    (h : (cs w.cache).poll ask w.lookup now = (.pending l, d)) :
    resume ask w now cs = (.pending { w with lookup := l }, cs.set w.cache d) := by
  have polled : pollCache ask cs w.cache w.lookup now = (.pending l, cs.set w.cache d) := by
    unfold pollCache
    rw [h]
  exact resume_of_pollCache_pending polled

/-- A validation does nothing to the caches but the lookup that it waits for. Reading the token,
checking the signature and judging the claims leave no trace there. -/
theorem resume_snd (rest : w.rest = []) :
    (resume ask w now cs).2 = (pollCache ask cs w.cache w.lookup now).2 := by
  cases polled : pollCache ask cs w.cache w.lookup now with
  | mk p cs' =>
    cases p with
    | pending l => rw [resume_of_pollCache_pending polled]
    | done o => rw [resume_of_pollCache_done polled, rest, follow_nil]

/-- What the poll of a single validator's lookup ends with is all that its validation depends on. -/
theorem resume_of_rest (ask : σ → Option ProviderAnswer × σ) (cs : Caches σ) (now : UnixTime)
    (rest : w.rest = []) :
    (∀ l, ((cs w.cache).poll ask w.lookup now).1 = .pending l →
        (resume ask w now cs).1 = .pending { w with lookup := l }) ∧
      ∀ o, ((cs w.cache).poll ask w.lookup now).1 = .done o →
        (resume ask w now cs).1 = .done (w.settle o now) := by
  refine ⟨fun l hl => ?_, fun o ho => ?_⟩
  · rw [resume_of_pending (Prod.ext hl rfl)]
  · rw [resume_of_done rest (Prod.ext ho rfl)]

/-- So it is at the start, whatever the lookup is for. -/
theorem start_of_lookup (ask : σ → Option ProviderAnswer × σ) (cs : Caches σ)
    (h : v.plan token now = .lookup n q settle) :
    (∀ l, ((cs n).poll ask ⟨q, none⟩ now).1 = .pending l →
        (start ask [v] token now cs).1 = .pending ⟨token, n, l, settle, []⟩) ∧
      ∀ o, ((cs n).poll ask ⟨q, none⟩ now).1 = .done o →
        (start ask [v] token now cs).1 = .done (settle o now) := by
  rw [start_eq_resume h]
  exact resume_of_rest (w := ⟨token, n, ⟨q, none⟩, settle, []⟩) ask cs now rfl

/-! ## What is seen from outside

While a validation waits, the caches and the lookup that it waits for are all that can be seen of
it. Both are determined by the lookup that its plan asks for.
-/

/-- The cache that a validation waits for, if it has to wait, and what it looks up there. -/
def awaited : Poll Suspension ValidationResult → Option (Nat × Lookup)
  | .pending w => some (w.cache, w.lookup)
  | .done _ => none

/-- What is still looked up in a cache after a poll. -/
def awaitedIn (n : Nat) : Poll Lookup FetchOutcome → Option (Nat × Lookup)
  | .pending l => some (n, l)
  | .done _ => none

/-- What a single validator waits for is what its lookup waits for. -/
theorem awaited_resume (rest : w.rest = []) :
    awaited (resume ask w now cs).1 =
      awaitedIn w.cache (pollCache ask cs w.cache w.lookup now).1 := by
  cases polled : pollCache ask cs w.cache w.lookup now with
  | mk p cs' =>
    cases p with
    | pending l =>
      rw [resume_of_pollCache_pending polled]
      rfl
    | done o =>
      -- settled, and no validator is left that could wait again
      rw [resume_of_pollCache_done polled, rest, follow_nil]
      rfl

/-- A validation does nothing to the caches but the lookup that it asks for. If its plan is decided,
it does nothing at all. -/
theorem start_snd (ask : σ → Option ProviderAnswer × σ) (cs : Caches σ) (v : Validator)
    (token : String) (now : UnixTime) :
    (start ask [v] token now cs).2 =
      match (v.plan token now).asked with
      | none => cs
      | some (n, q) => (pollCache ask cs n ⟨q, none⟩ now).2 := by
  cases plan : v.plan token now with
  | decided r =>
    rw [start_of_decided plan]
    rfl
  | lookup n q settle =>
    rw [start_eq_resume plan]
    exact resume_snd rfl

/-- What is waited for after the start is determined by what the plan asks for. How the keys would
be used does not matter. -/
theorem awaited_start (ask : σ → Option ProviderAnswer × σ) (cs : Caches σ) (v : Validator)
    (token : String) (now : UnixTime) :
    awaited (start ask [v] token now cs).1 =
      match (v.plan token now).asked with
      | none => none
      | some (n, q) => awaitedIn n (pollCache ask cs n ⟨q, none⟩ now).1 := by
  cases plan : v.plan token now with
  | decided r =>
    rw [start_of_decided plan]
    rfl
  | lookup n q settle =>
    rw [start_eq_resume plan]
    exact awaited_resume rfl

end Validation
end BearerAuth
