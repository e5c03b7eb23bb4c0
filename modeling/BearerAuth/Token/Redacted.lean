/-!
# BearerAuth — tokens in logs

A token is a credential, so its plain text does not show it at all. On request (the long form)
everything up to the last dot is shown and the signature after it is cut: with a limit of `m`, a
signature of at least `m` characters is shown as its first `m - 1` characters and an ellipsis, and
one that is shorter is shown whole. A limit of one or less leaves the ellipsis alone.

Limits count characters, but texts are cut at positions of their bytes. A position of a text always
lies between two of its characters.

## Main definitions

* `Redacted.plain`          — the text that shows nothing.
* `Redacted.boundary`       — the position between the shown part and the protected part of a token.
* `Redacted.cut`            — the protected part under a limit.
* `Redacted.long`, `Redacted.longQuoted` — the long forms.
* `Redacted.display`, `Redacted.debug`   — a token in the form that is asked for.
-/

namespace BearerAuth.Redacted

/-- The text that shows nothing of a token. -/
def plain : String := "***JWT***"

/-- The position behind the last dot. Without a dot all of a token is protected. -/
def boundary (token : String) : token.Pos := token.skipSuffixWhile fun c : Char => c ≠ '.'

/-- The protected part under a limit; without a limit it is shown whole. -/
def cut (limit : Option Nat) (hidden : String.Slice) : String :=
  match limit with
  | none => hidden.copy
  | some m =>
    if m ≤ 1 then "…"
    else
      -- Where the `m`-th character begins, if there are as many.
      let position := hidden.startPos.nextn (m - 1)
      if position = hidden.endPos then hidden.copy else (hidden.sliceTo position).copy ++ "…"

/-- The long form: the shown part, and the protected part under a limit. -/
def reveal (limit : Option Nat) (token : String) : String :=
  (token.sliceTo (boundary token)).copy ++ cut limit (token.sliceFrom (boundary token))

/-- The long form for display. Without a width the whole token is shown. -/
def long (width : Option Nat) (token : String) : String := reveal width token

/-- The long form between quotation marks. Without a width the signature is hidden. -/
def longQuoted (width : Option Nat) (token : String) : String :=
  "\"" ++ reveal (some (width.getD 0)) token ++ "\""

/-- The form in which a token is asked for. A width matters for the long form alone. -/
structure Format where
  long : Bool := false
  width : Option Nat := none

/-- A token as it is displayed. -/
def display (format : Format) (token : String) : String :=
  if format.long then long format.width token else plain

/-- A token as it is shown where values are inspected. -/
def debug (format : Format) (token : String) : String :=
  if format.long then longQuoted format.width token else plain

end BearerAuth.Redacted
