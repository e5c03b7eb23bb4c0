import BearerAuth.Json.Value
import BearerAuth.Decimal.Shortest

/-!
# BearerAuth — compact JSON text

The written form of a value has no blanks. Strings escape the quotation mark, the backslash and
the control characters below the space, the common ones with a letter and the others with four
hexadecimal digits; every other character stands for itself. Integers are written in decimal and
doubles with their shortest digits, always with a point or an exponent, so the kind of a number
can be read back from its text.

## Main definitions

* `Json.escape`  — the characters of a string between its quotation marks.
* `Json.chars`   — the characters of a value.
* `Json.render`  — the text of a value.
-/

namespace BearerAuth.Json

/-- The written form of one character of a string. -/
def escapeChar (c : Char) : List Char :=
  if c = '"' then ['\\', '"']
  else if c = '\\' then ['\\', '\\']
  else if c = '\x08' then ['\\', 'b']
  else if c = '\x0c' then ['\\', 'f']
  else if c = '\n' then ['\\', 'n']
  else if c = '\r' then ['\\', 'r']
  else if c = '\t' then ['\\', 't']
  else if c.toNat < 32 then
    ['\\', 'u', '0', '0', Bytes.hexDigit (c.toNat / 16), Bytes.hexDigit (c.toNat % 16)]
  else [c]

/-- The characters of a string between its quotation marks. -/
def escape (s : String) : List Char := s.toList.flatMap escapeChar

def quote (s : String) : List Char := '"' :: escape s ++ ['"']

def digits (n : Nat) : List Char := Nat.toDigits 10 n

/-- The written form of a number. -/
def Number.chars : Number → List Char
  | .integer i => if i.1 < 0 then '-' :: digits i.1.natAbs else digits i.1.natAbs
  | .double d => (Decimal.Layout.json.write d).toList

mutual

def chars : Json → List Char
  | .null => ['n', 'u', 'l', 'l']
  | .bool true => ['t', 'r', 'u', 'e']
  | .bool false => ['f', 'a', 'l', 's', 'e']
  | .number n => n.chars
  | .string s => quote s
  | .array [] => ['[', ']']
  | .array (v :: rest) => '[' :: chars v ++ itemChars rest
  | .object [] => ['{', '}']
  | .object ((n, v) :: rest) => '{' :: quote n ++ ':' :: chars v ++ memberChars rest

/-- The items after the first one of an array, and its end. -/
def itemChars : List Json → List Char
  | [] => [']']
  | v :: rest => ',' :: chars v ++ itemChars rest

/-- The members after the first one of an object, and its end. -/
def memberChars : List (String × Json) → List Char
  | [] => ['}']
  | (n, v) :: rest => ',' :: quote n ++ ':' :: chars v ++ memberChars rest

end

def render (v : Json) : String := String.ofList v.chars

end BearerAuth.Json
