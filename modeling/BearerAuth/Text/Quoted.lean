import BearerAuth.Text.Printable
import BearerAuth.Json.Printer

/-!
# BearerAuth — diagnostic texts

The texts that describe configurations and requirements to a person. A string is quoted: the
quotation mark, the backslash and the common control characters have a letter of their own after a
backslash, every other character that is not printable is written with its code point, and
printable characters stand for themselves. Structures are written with the names of their fields.

## Main definitions

* `Text.quoted`     — a string in quotation marks.
* `Text.listed`     — a list in brackets.
* `Text.optional`   — a value that may be missing.
* `Text.record`     — a structure with its fields; `Text.partialRecord` says that some are left out.
* `Json.describe`   — a JSON value with the kinds of its parts.
-/

namespace BearerAuth.Text

/-- The written form of one character between quotation marks. -/
def quoteChar (c : Char) : List Char :=
  if c = '"' then ['\\', '"']
  else if c = '\\' then ['\\', '\\']
  else if c = '\n' then ['\\', 'n']
  else if c = '\r' then ['\\', 'r']
  else if c = '\t' then ['\\', 't']
  else if c.toNat = 0 then ['\\', '0']
  else if isPrintable c then [c]
  else '\\' :: 'u' :: '\x7b' :: Nat.toDigits 16 c.toNat ++ ['\x7d']

/-- A string in quotation marks. -/
def quoted (s : String) : String :=
  String.ofList ('"' :: s.toList.flatMap quoteChar ++ ['"'])

/-- A list in brackets. -/
def listed (items : List String) : String := "[" ++ ", ".intercalate items ++ "]"

/-- A value that may be missing. -/
def optional : Option String → String
  | none => "None"
  | some s => "Some(" ++ s ++ ")"

/-- A structure: its name, and the names and values of its fields. -/
def record (name : String) (fields : List (String × String)) : String :=
  match fields with
  | [] => name
  | _ => name ++ " \x7b " ++ ", ".intercalate (fields.map fun f => f.1 ++ ": " ++ f.2) ++ " \x7d"

/-- A structure of which some fields are left out. -/
def partialRecord (name : String) (fields : List (String × String)) : String :=
  name ++ " \x7b " ++ String.join (fields.map fun f => f.1 ++ ": " ++ f.2 ++ ", ") ++ ".. \x7d"

end BearerAuth.Text

namespace BearerAuth.Json

mutual

/-- A value with the kinds of its parts. -/
def describe : Json → String
  | .null => "Null"
  | .bool b => "Bool(" ++ toString b ++ ")"
  | .number n => "Number(" ++ String.ofList n.chars ++ ")"
  | .string s => "String(" ++ Text.quoted s ++ ")"
  | .array items => "Array " ++ Text.listed (describeItems items)
  | .object members => "Object \x7b" ++ ", ".intercalate (describeMembers members) ++ "\x7d"

/-- The items of an array, each with its kind. -/
def describeItems : List Json → List String
  | [] => []
  | v :: rest => v.describe :: describeItems rest

/-- The members of an object, each with the kind of its value. -/
def describeMembers : List (String × Json) → List String
  | [] => []
  | (n, v) :: rest => (Text.quoted n ++ ": " ++ v.describe) :: describeMembers rest

end

end BearerAuth.Json
