import BearerAuth.Json.Parser

/-!
# BearerAuth — JSON records

A record is a text with a fixed list of named fields. It is written as an object, whose other
members are passed over without being looked at, or as an array of the fields in their order. A
field may stand only once in an object; an array may leave fields out at its end but not hold more
than there are.

A choice among names, such as an algorithm, is written as the name or as an object whose one
member is the name with the value null.

## Main definitions

* `Json.Record`        — the fields that a text has.
* `Json.readRecord`    — reads a record at the front of a text.
* `Json.parseRecord?`  — a text that is one record.
* `Json.optional`      — a field that may be missing or null.
* `Json.asName?`       — the name that a choice stands for.
-/

namespace BearerAuth.Json

/-- The fields of a record, by the way it was written. -/
inductive Record where
  /-- The members with a wanted name, in order. -/
  | named (members : List (String × Json))
  /-- The fields in their order. -/
  | positional (items : List Json)

/-- A field of a record after reading. -/
inductive Field where
  | present (value : Json)
  /-- An object has no member of this name. -/
  | unnamed
  /-- An array ends before this field. -/
  | beyondEnd

/-- The only member of a name. None if the name is repeated. -/
def onlyMember? (name : String) (members : List (String × Json)) : Option Field :=
  match members.filter (·.1 == name) with
  | [] => some .unnamed
  | [(_, v)] => some (.present v)
  | _ => none

/-- Pairs the fields with the items of an array. None if there are too many items. -/
def positionalFields? : List String → List Json → Option (List Field)
  | [], [] => some []
  | [], _ :: _ => none
  | _ :: names, [] => (positionalFields? names []).map (.beyondEnd :: ·)
  | _ :: names, v :: items => (positionalFields? names items).map (.present v :: ·)

/-- The fields of a record with the given names. -/
def Record.fields? (names : List String) : Record → Option (List Field)
  | .named members => names.mapM fun name => onlyMember? name members
  | .positional items => positionalFields? names items

/-- Members of an object up to its closing brace, of which only the wanted ones are read. -/
def readWantedMembers (wanted : List String) : Nat → Nat → Bytes →
    Option (List (String × Json) × Bytes)
  | 0, _, _ => none
  | steps + 1, depth, s => do
    let (name, s) ← readName s
    let (here, s) ←
      if wanted.contains name then
        (readValue (stepsFor s) depth s).map fun (v, s) => ([(name, v)], s)
      else (skipValue (stepsFor s) s).map fun s => ([], s)
    match skipBlanks s with
    | [] => none
    | b :: s =>
      if b = 125 then some (here, s)
      else if b = 44 then
        (readWantedMembers wanted steps depth s).map fun (ms, rest) => (here ++ ms, rest)
      else none

/-- Reads a record at the front of a text. -/
def readRecord (wanted : List String) (s : Bytes) : Option (Record × Bytes) :=
  match skipBlanks s with
  | [] => none
  | b :: s =>
    if b = 123 then
      match skipBlanks s with
      | [] => none
      | c :: t =>
        if c = 125 then some (.named [], t)
        else (readWantedMembers wanted (c :: t).length (depthLimit - 1) (c :: t)).map
          fun (ms, rest) => (.named ms, rest)
    else if b = 91 then
      (readItems (stepsFor s) (depthLimit - 1) s).map fun (vs, rest) => (.positional vs, rest)
    else none

/-- Reads a text that is one record and nothing else. -/
def parseRecord? (wanted : List String) (s : Bytes) : Option (List Field) := do
  let (r, rest) ← readRecord wanted s
  let fields ← r.fields? wanted
  if (skipBlanks rest).isEmpty then some fields else none

/-- The fields of a value that stands for a record. -/
def recordFields? (names : List String) : Json → Option (List Field)
  | .object members => Record.fields? names (.named members)
  | .array items => Record.fields? names (.positional items)
  | _ => none

/-! ## Reading fields -/

def Field.required? (read : Json → Option α) : Field → Option α
  | .present v => read v
  | _ => none

/-- A field with a default for when it is left out. -/
def Field.withDefault? (default : α) (read : Json → Option α) : Field → Option α
  | .present v => read v
  | _ => some default

/-- Reads null as nothing. -/
def optional (read : Json → Option α) : Json → Option (Option α)
  | .null => some none
  | v => (read v).map some

/-- The name that a choice stands for. Some formats also write the null of the long form as an
empty object (`emptyAsNull`). -/
def asName? (emptyAsNull : Bool) : Json → Option String
  | .string name => some name
  | .object [(name, .null)] => some name
  | .object [(name, .object [])] => if emptyAsNull then some name else none
  | _ => none

end BearerAuth.Json
