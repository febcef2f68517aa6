import EventRelay.Json.Value

/-!
JSON text without any space. Quotes, backslashes and control characters are escaped in strings and
every other character is written as it is.
-/

namespace EventRelay.Json

/-- A control character as `\u00XX` in lower-case digits. -/
def controlEscape (n : Nat) : List Char :=
  '\\' :: 'u' :: '0' :: '0' :: Nat.digitChar (n / 16) :: [Nat.digitChar (n % 16)]

/-- One character inside a string. -/
def escapeChar (c : Char) : List Char :=
  if c = '"' then ['\\', '"']
  else if c = '\\' then ['\\', '\\']
  else if 0x20 ≤ c.toNat then [c]
  else if c.toNat = 0x08 then ['\\', 'b']
  else if c.toNat = 0x09 then ['\\', 't']
  else if c.toNat = 0x0A then ['\\', 'n']
  else if c.toNat = 0x0C then ['\\', 'f']
  else if c.toNat = 0x0D then ['\\', 'r']
  else controlEscape c.toNat

/-- A string between quotes. -/
def quote (cs : List Char) : List Char :=
  '"' :: cs.flatMap escapeChar ++ ['"']

def quoteText (s : String) : List Char :=
  quote s.toList

mutual

def Value.chars : Value → List Char
  | .null => ['n', 'u', 'l', 'l']
  | .bool true => ['t', 'r', 'u', 'e']
  | .bool false => ['f', 'a', 'l', 's', 'e']
  | .number n => n.chars
  | .string s => quoteText s
  | .array items => '[' :: itemsChars items ++ [']']
  | .object members => '\x7b' :: membersChars members ++ ['\x7d']

/-- Items with commas between them. -/
def itemsChars : List Value → List Char
  | [] => []
  | [v] => v.chars
  | v :: rest => v.chars ++ ',' :: itemsChars rest

/-- Members with commas between them. -/
def membersChars : List (String × Value) → List Char
  | [] => []
  | [(name, v)] => quoteText name ++ ':' :: v.chars
  | (name, v) :: rest => quoteText name ++ ':' :: v.chars ++ ',' :: membersChars rest

end

/-- The compact text of a value. -/
def Value.text (v : Value) : String :=
  String.ofList v.chars

end EventRelay.Json
