import BearerAuth.KeyCache.Client

/-!
# BearerAuth — providers at hand

Two providers of keys that need nobody else. A fixed one always gives the same key set. The answers
of an arranged one are set from outside: while it is held it has no answer, and otherwise it gives
what is being served at that moment. It counts the calls that are made to it; a call goes on until
the poll that has its answer. Arranging a fixed provider changes nothing.

## Main definitions

* `Script`             — what an arranged provider answers, and how often it was called.
* `Provider`           — a fixed or an arranged provider.
* `Provider.ask`       — its answer, if it has one.
* `Provider.rearrange` — changes what it answers.
-/

namespace BearerAuth

/-- What an arranged provider answers. -/
structure Script where
  serving : ProviderAnswer
  /-- Whether the answer is held back. -/
  held : Bool := false
  /-- The number of calls that were made. -/
  calls : Nat := 0
  /-- Whether a call is not yet answered. -/
  busy : Bool := false

/-- A provider of keys. -/
inductive Provider where
  /-- A provider that always gives the same key set. -/
  | fixed (keys : KeySet)
  /-- A provider whose answers are arranged. -/
  | arranged (script : Script)

namespace Script

/-- The script with a call going on, which is a new one if none was. -/
def called (s : Script) : Script :=
  if s.busy then s else { s with calls := s.calls + 1, busy := true }

/-- Polls the call that is going on. -/
def answer (s : Script) : Option ProviderAnswer × Script :=
  if s.held then (none, s) else (some s.serving, { s with busy := false })

end Script

namespace Provider

/-- Polls the provider, which is called if no call is going on: its answer, if it is not held. -/
def ask : Provider → Option ProviderAnswer × Provider
  | .fixed keys => (some (.ok keys), .fixed keys)
  | .arranged s =>
    let (a, s) := s.called.answer
    (a, .arranged s)

/-- Changes what the provider answers, unless it is fixed. -/
def rearrange (f : Script → Script) : Provider → Provider
  | .fixed keys => .fixed keys
  | .arranged s => .arranged (f s)

/-- The key set of a fixed provider. -/
def fixedKeys? : Provider → Option KeySet
  | .fixed keys => some keys
  | .arranged _ => none

end Provider
end BearerAuth
