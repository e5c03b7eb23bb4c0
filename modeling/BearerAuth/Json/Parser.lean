import BearerAuth.Json.Number

/-!
# BearerAuth — reading JSON text

Texts arrive as bytes. A value may be nested at most `depthLimit` deep, strings must be well-formed
UTF-8 without raw control characters, and an escaped surrogate must be half of a pair.

A document may also be *skipped* (`skipValue`): its brackets, strings and numbers must be balanced
and well spelled, but it may nest to any depth, and neither the encoding of its strings nor the
size of its numbers is looked at. This is how members that a reader has no use for are passed over.

Every reader takes the input and gives what it read with the rest of the input. The readers that
call each other carry a step count; the length of the input is always enough, since every call
but the last of a chain consumes a byte.

## Main definitions

* `Json.depthLimit`          — the deepest nesting of a value.
* `Json.readString`          — a string after its opening quotation mark.
* `Json.readValue`           — a value at the front of a text.
* `Json.skipValue`           — passes over a value.
* `Json.parse?`, `Json.ofText?` — a text that is one value.
-/

namespace BearerAuth.Json

/-- The deepest nesting of arrays and objects. -/
def depthLimit : Nat := 127

/-- Whether a byte is one of the four blanks. -/
def isBlank (b : UInt8) : Bool := b == 32 || b == 10 || b == 13 || b == 9

/-- Drops blanks. -/
def skipBlanks (s : Bytes) : Bytes := s.dropWhile isBlank

/-! ## Strings -/

/-- The value of a hexadecimal digit. -/
def hexByte? (b : UInt8) : Option Nat := Bytes.hexValue? (Char.ofNat b.toNat)

/-- The value of four hexadecimal digits. -/
def hexWord? (a b c d : UInt8) : Option Nat := do
  let a ← hexByte? a
  let b ← hexByte? b
  let c ← hexByte? c
  let d ← hexByte? d
  return ((a * 16 + b) * 16 + c) * 16 + d

/-- The byte that a one-letter escape stands for. -/
def escapedByte? (b : UInt8) : Option UInt8 :=
  if b = 34 then some 34
  else if b = 92 then some 92
  else if b = 47 then some 47
  else if b = 98 then some 8
  else if b = 102 then some 12
  else if b = 110 then some 10
  else if b = 114 then some 13
  else if b = 116 then some 9
  else none

/-- The encoding of a code point that is not a surrogate. -/
def encodeCodePoint (n : Nat) : Bytes := String.utf8EncodeChar (Char.ofNat n)

/-- The bytes of a string up to its closing quotation mark, with the escapes replaced. -/
def readStringBytes : Bytes → Option (Bytes × Bytes)
  | [] => none
  | b :: s =>
    -- A quotation mark ends the string, and a backslash begins an escape.
    if b = 34 then some ([], s)
    else if b = 92 then
      match s with
      | [] => none
      | e :: s =>
        -- The letter `u` and four digits give a code point, or the first half of a pair.
        if e = 117 then
          match s with
          | p :: q :: r :: t :: s =>
            match hexWord? p q r t with
            | none => none
            | some high =>
              if 0xD800 ≤ high ∧ high < 0xDC00 then
                match s with
                | x :: y :: p :: q :: r :: t :: s =>
                  if x = 92 ∧ y = 117 then
                    match hexWord? p q r t with
                    | none => none
                    | some low =>
                      if 0xDC00 ≤ low ∧ low < 0xE000 then
                        let n := 0x10000 + (high - 0xD800) * 0x400 + (low - 0xDC00)
                        (readStringBytes s).map fun (bs, rest) => (encodeCodePoint n ++ bs, rest)
                      else none
                  else none
                | _ => none
              -- The second half of a pair does not stand alone.
              else if 0xDC00 ≤ high ∧ high < 0xE000 then none
              else (readStringBytes s).map fun (bs, rest) => (encodeCodePoint high ++ bs, rest)
          | _ => none
        else
          match escapedByte? e with
          | none => none
          | some c => (readStringBytes s).map fun (bs, rest) => (c :: bs, rest)
    else if b < 32 then none
    else (readStringBytes s).map fun (bs, rest) => (b :: bs, rest)

/-- A string after its opening quotation mark. -/
def readString (s : Bytes) : Option (String × Bytes) := do
  let (bs, rest) ← readStringBytes s
  return (← Bytes.toString? bs, rest)

/-- Passes over a string after its opening quotation mark. Escapes must be well spelled. -/
def skipString : Bytes → Option Bytes
  | [] => none
  | b :: s =>
    if b = 34 then some s
    else if b = 92 then
      match s with
      | [] => none
      | e :: s =>
        -- Here a half of a pair may stand alone.
        if e = 117 then
          match s with
          | p :: q :: r :: t :: s =>
            match hexWord? p q r t with
            | none => none
            | some _ => skipString s
          | _ => none
        else
          match escapedByte? e with
          | none => none
          | some _ => skipString s
    else if b < 32 then none
    else skipString s

/-! ## Values -/

/-- The rest of a text that starts with the given word. -/
def readWord : List UInt8 → Bytes → Option Bytes
  | [], s => some s
  | _ :: _, [] => none
  | w :: ws, b :: s => if w = b then readWord ws s else none

/-- The words `null`, `true` and `false`. -/
def readLiteral (b : UInt8) (s : Bytes) : Option (Json × Bytes) :=
  if b = 110 then (readWord [117, 108, 108] s).map fun rest => (.null, rest)
  else if b = 116 then (readWord [114, 117, 101] s).map fun rest => (.bool true, rest)
  else if b = 102 then (readWord [97, 108, 115, 101] s).map fun rest => (.bool false, rest)
  else none

/-- A number at the front of a text. -/
def readNumber (s : Bytes) : Option (Json × Bytes) := do
  let (t, rest) ← NumberText.read s
  return (.number (← t.toNumber?), rest)

/-- The name of a member and the colon after it. -/
def readName (s : Bytes) : Option (String × Bytes) :=
  match skipBlanks s with
  | [] => none
  | b :: s =>
    if b = 34 then do
      let (name, s) ← readString s
      match skipBlanks s with
      | [] => none
      | c :: s => if c = 58 then some (name, s) else none
    else none

mutual

/-- A value at the front of a text, nested at most `depth` deep. -/
def readValue : Nat → Nat → Bytes → Option (Json × Bytes)
  | 0, _, _ => none
  | steps + 1, depth, s =>
    match skipBlanks s with
    | [] => none
    | b :: s =>
      -- The first byte tells the kind: `"`, `[`, `{`, `-` or a digit, or the letter of a word.
      if b = 34 then (readString s).map fun (text, rest) => (.string text, rest)
      else if b = 91 then
        match depth with
        | 0 => none
        | depth + 1 => (readItems steps depth s).map fun (items, rest) => (.array items, rest)
      else if b = 123 then
        match depth with
        | 0 => none
        | depth + 1 => (readMembers steps depth s).map fun (ms, rest) => (.object ms, rest)
      else if b = 45 ∨ isDigit b then readNumber (b :: s)
      else readLiteral b s

/-- The items of an array after its opening bracket. -/
def readItems : Nat → Nat → Bytes → Option (List Json × Bytes)
  | 0, _, _ => none
  | steps + 1, depth, s =>
    match skipBlanks s with
    | [] => none
    | b :: s => if b = 93 then some ([], s) else readMoreItems steps depth (b :: s)

/-- At least one item of an array, up to its closing bracket. -/
def readMoreItems : Nat → Nat → Bytes → Option (List Json × Bytes)
  | 0, _, _ => none
  | steps + 1, depth, s =>
    match readValue steps depth s with
    | none => none
    | some (v, s) =>
      match skipBlanks s with
      | [] => none
      | b :: s =>
        -- A comma must be followed by another item.
        if b = 93 then some ([v], s)
        else if b = 44 then (readMoreItems steps depth s).map fun (vs, rest) => (v :: vs, rest)
        else none

/-- The members of an object after its opening brace. -/
def readMembers : Nat → Nat → Bytes → Option (List (String × Json) × Bytes)
  | 0, _, _ => none
  | steps + 1, depth, s =>
    match skipBlanks s with
    | [] => none
    | b :: s => if b = 125 then some ([], s) else readMoreMembers steps depth (b :: s)

/-- At least one member of an object, up to its closing brace. -/
def readMoreMembers : Nat → Nat → Bytes → Option (List (String × Json) × Bytes)
  | 0, _, _ => none
  | steps + 1, depth, s =>
    match readName s with
    | none => none
    | some (name, s) =>
      match readValue steps depth s with
      | none => none
      | some (v, s) =>
        match skipBlanks s with
        | [] => none
        | b :: s =>
          if b = 125 then some ([(name, v)], s)
          else if b = 44 then
            (readMoreMembers steps depth s).map fun (ms, rest) => ((name, v) :: ms, rest)
          else none

end

/-! ## Skipping -/

/-- Passes over a name and the colon after it. -/
def skipName (s : Bytes) : Option Bytes :=
  match skipBlanks s with
  | [] => none
  | b :: s =>
    if b = 34 then do
      match skipBlanks (← skipString s) with
      | [] => none
      | c :: s => if c = 58 then some s else none
    else none

mutual

/-- Passes over a value at the front of a text. -/
def skipValue : Nat → Bytes → Option Bytes
  | 0, _ => none
  | steps + 1, s =>
    match skipBlanks s with
    | [] => none
    | b :: s =>
      if b = 34 then skipString s
      else if b = 91 then
        match skipBlanks s with
        | [] => none
        | c :: s => if c = 93 then some s else skipMoreItems steps (c :: s)
      else if b = 123 then
        match skipBlanks s with
        | [] => none
        | c :: s => if c = 125 then some s else skipMoreMembers steps (c :: s)
      else if b = 45 ∨ isDigit b then (NumberText.read (b :: s)).map (·.2)
      else (readLiteral b s).map (·.2)

/-- Passes over at least one item of an array and its end. -/
def skipMoreItems : Nat → Bytes → Option Bytes
  | 0, _ => none
  | steps + 1, s =>
    match skipValue steps s with
    | none => none
    | some s =>
      match skipBlanks s with
      | [] => none
      | b :: s =>
        if b = 93 then some s else if b = 44 then skipMoreItems steps s else none

/-- Passes over at least one member of an object and its end. -/
def skipMoreMembers : Nat → Bytes → Option Bytes
  | 0, _ => none
  | steps + 1, s =>
    match skipName s with
    | none => none
    | some s =>
      match skipValue steps s with
      | none => none
      | some s =>
        match skipBlanks s with
        | [] => none
        | b :: s =>
          if b = 125 then some s else if b = 44 then skipMoreMembers steps s else none

end

/-! ## Whole texts -/

/-- Steps enough for any value in a text of this length. -/
def stepsFor (s : Bytes) : Nat := 3 * s.length + 3

/-- Reads a text that is one value and nothing else. -/
def parse? (s : Bytes) : Option Json := do
  let (v, rest) ← readValue (stepsFor s) depthLimit s
  if (skipBlanks rest).isEmpty then some v else none

/-- Reads a text that is one value and nothing else. -/
def ofText? (s : String) : Option Json := parse? (Bytes.ofString s)

end BearerAuth.Json
