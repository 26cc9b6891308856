import TrafficCheck.Json.Numeral

/-!
# JSON values

JSON values and their text. Objects keep their fields in the order in which they are written.

## Main definitions

* `Json.pretty`: a value with every item and field on a line of its own, indented by two spaces.
-/

namespace TrafficCheck

/-- A JSON value. -/
inductive Json where
  | null
  | bool (b : Bool)
  | number (n : Numeral)
  | string (s : String)
  | array (items : List Json)
  | object (fields : List (String × Json))

namespace Json

/-- A natural number as a value. -/
def nat (n : Nat) : Json := .number (.ofNat n)

/-- A text, or null where there is none. -/
def optional (s : Option String) : Json :=
  match s with
  | some s => .string s
  | none => .null

/-- A digit of base sixteen, in lower case. -/
def hexDigit (n : Nat) : Char := Nat.digitChar (n % 16)

/-- A character inside a quoted text. Quotes, backslashes and control characters are escaped, the
common ones of the latter by a letter. -/
def escape (c : Char) : List Char :=
  if c = '"' then ['\\', '"']
  else if c = '\\' then ['\\', '\\']
  else if c = '\n' then ['\\', 'n']
  else if c = '\t' then ['\\', 't']
  else if c = '\r' then ['\\', 'r']
  else if c = '\x08' then ['\\', 'b']
  else if c = '\x0c' then ['\\', 'f']
  else if c.toNat < 32 then ['\\', 'u', '0', '0', hexDigit (c.toNat / 16), hexDigit c.toNat]
  else [c]

/-- A text in quotes. -/
def quote (s : String) : List Char := '"' :: (s.toList.flatMap escape ++ ['"'])

/-- A new line at some depth. -/
def newLine (depth : Nat) : List Char := '\n' :: List.replicate (2 * depth) ' '

mutual

/-- A value that stands at some depth. -/
def pretty (depth : Nat) : Json → List Char
  | .null => "null".toList
  | .bool true => "true".toList
  | .bool false => "false".toList
  | .number n => n.text
  | .string s => quote s
  | .array [] => ['[', ']']
  | .array (item :: items) =>
    '[' :: (newLine (depth + 1) ++ pretty (depth + 1) item ++ prettyItems depth items)
  | .object [] => ['\x7b', '\x7d']
  | .object (field :: fields) =>
    '\x7b' :: (newLine (depth + 1) ++ prettyField (depth + 1) field ++ prettyFields depth fields)
  termination_by structural j => j

/-- The items behind the first one and the end of the array. -/
def prettyItems (depth : Nat) : List Json → List Char
  | [] => newLine depth ++ [']']
  | item :: items =>
    ',' :: (newLine (depth + 1) ++ pretty (depth + 1) item ++ prettyItems depth items)
  termination_by structural items => items

/-- The fields behind the first one and the end of the object. -/
def prettyFields (depth : Nat) : List (String × Json) → List Char
  | [] => newLine depth ++ ['\x7d']
  | field :: fields =>
    ',' :: (newLine (depth + 1) ++ prettyField (depth + 1) field ++ prettyFields depth fields)
  termination_by structural fields => fields

/-- A field: its quoted name, a colon and a space, and its value. -/
def prettyField (depth : Nat) : String × Json → List Char
  | (name, value) => quote name ++ ':' :: ' ' :: pretty depth value
  termination_by structural field => field

end

/-- A value as text. -/
def text (j : Json) : String := String.ofList (pretty 0 j)

end Json

end TrafficCheck
