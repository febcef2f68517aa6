import EventRelay.Json.Value
import EventRelay.Text.Quoted
import EventRelay.Text.Utf8

/-!
What can be wrong with a JSON text, and where. `Cause.message` holds the wording and `Place.ofLeft`
turns a count of unread bytes into a line and a column.
-/

namespace EventRelay.Json

/-- What a value is called when another kind of value was expected. -/
inductive Shape
  | null
  | bool (b : Bool)
  | number (n : Number)
  | string (s : String)
  | sequence
  | map

inductive Cause
  | endInList
  | endInObject
  | endInString
  | endInValue
  | expectedColon
  | expectedListCommaOrEnd
  | expectedObjectCommaOrEnd
  | expectedIdent
  | expectedValue
  | invalidEscape
  | invalidNumber
  | numberOutOfRange
  | invalidCodePoint
  | controlCharacter
  | keyMustBeString
  | loneSurrogate
  | unfinishedPair
  | trailingComma
  | trailingCharacters
  | tooDeep
  | invalidType (found : Shape) (expected : String)
  | invalidLength (length : Nat) (expected : String)
  | missingField (name : String)
  | duplicateField (name : String)

/-- A cause with the number of bytes that follow the place where it was found. -/
structure Fault where
  cause : Cause
  left : Nat

/-- Lines count from 1; the column is the number of bytes before the place on its line. -/
structure Place where
  line : Nat
  column : Nat
  deriving DecidableEq

namespace Shape

def text : Shape → String
  | .null => "null"
  | .bool b => "boolean `" ++ (if b then "true" else "false") ++ "`"
  | .number (.integer i) => "integer `" ++ Digits.signedText i ++ "`"
  | .number n => "floating point `" ++ String.ofList n.chars ++ "`"
  | .string s => "string " ++ Text.quoted s
  | .sequence => "sequence"
  | .map => "map"

end Shape

namespace Cause

def message : Cause → String
  | .endInList => "EOF while parsing a list"
  | .endInObject => "EOF while parsing an object"
  | .endInString => "EOF while parsing a string"
  | .endInValue => "EOF while parsing a value"
  | .expectedColon => "expected `:`"
  | .expectedListCommaOrEnd => "expected `,` or `]`"
  | .expectedObjectCommaOrEnd => "expected `,` or `\x7d`"
  | .expectedIdent => "expected ident"
  | .expectedValue => "expected value"
  | .invalidEscape => "invalid escape"
  | .invalidNumber => "invalid number"
  | .numberOutOfRange => "number out of range"
  | .invalidCodePoint => "invalid unicode code point"
  | .controlCharacter =>
    "control character (\\u0000-\\u001F) found while parsing a string"
  | .keyMustBeString => "key must be a string"
  | .loneSurrogate => "lone leading surrogate in hex escape"
  | .unfinishedPair => "unexpected end of hex escape"
  | .trailingComma => "trailing comma"
  | .trailingCharacters => "trailing characters"
  | .tooDeep => "recursion limit exceeded"
  | .invalidType found expected => "invalid type: " ++ found.text ++ ", expected " ++ expected
  | .invalidLength length expected =>
    "invalid length " ++ Digits.toText length ++ ", expected " ++ expected
  | .missingField name => "missing field `" ++ name ++ "`"
  | .duplicateField name => "duplicate field `" ++ name ++ "`"

end Cause

namespace Place

/-- The place in a text that has `left` bytes after it. -/
def ofLeft (input : Bytes) (left : Nat) : Place :=
  let before := input.take (input.length - left)
  { line := 1 + before.count 0x0A
    column := (before.reverse.takeWhile (· != 0x0A)).length }

/-- The place as error texts end with it. -/
def suffixText (p : Place) : String :=
  " at line " ++ Digits.toText p.line ++ " column " ++ Digits.toText p.column

end Place

end EventRelay.Json
