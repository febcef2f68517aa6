import EventRelay.Event.Envelope
import EventRelay.Event.Vocabulary
import EventRelay.Json.Reader
import EventRelay.Json.Skipping

/-!
Reading envelopes from payloads. `Envelope.decode` takes an object with members in any order, or an
array of values in the order of the fields. Identifiers may be null or left out, unknown members are
passed over, and metadata may be any JSON value.
-/

namespace EventRelay

open Json

inductive DecodeError
  | empty
  | malformed (cause : Cause) (place : Place)
  | missingField (name : String)

namespace DecodeError

def message : DecodeError → String
  | .empty => "empty payload"
  | .malformed cause place => "malformed event json: " ++ cause.message ++ place.suffixText
  | .missingField name => "missing required field `" ++ name ++ "`"

end DecodeError

/-- The metadata text that a JSON value stands for: a string is taken as it is, any other value is
printed, and nothing at all is an empty object. -/
def metadataText : Value → String
  | .null => Field.absent .metadata
  | .string s => if Text.allBlank s then Field.absent .metadata else s
  | other => other.text

namespace Envelope

/-- Complains of a value that is not of the kind expected, unless it is not JSON at all. -/
def mismatch {α : Type} (expected : String) (s : Bytes) : Except Fault α :=
  match s with
  | [] => faultAtNext .expectedValue []
  | b :: rest =>
    if b = 0x5B then fault (.invalidType .sequence expected) s
    else if b = 0x7B then fault (.invalidType .map expected) s
    else do
      let (v, rest) ← readScalar b rest
      fault (.invalidType v.shape expected) rest

/-- Reads a string value. -/
def readText (s : Bytes) : Except Fault (String × Bytes) :=
  match skipSpace s with
  | [] => faultAtNext .endInValue []
  | b :: rest => if b = 0x22 then readString rest else mismatch "a string" (b :: rest)

/-- Reads a string value, or null for an empty text. -/
def readTextOrNull (s : Bytes) : Except Fault (String × Bytes) :=
  match skipSpace s with
  | 0x6E :: rest => do
    let rest ← readName [0x75, 0x6C, 0x6C] rest
    .ok ("", rest)
  | s => readText s

/-- Reads the value of a field inside the object or array that makes up the payload. -/
def readField (f : Field) (s : Bytes) : Except Fault (String × Bytes) :=
  if f = .metadata then do
    let (v, rest) ← readValue (fuelFor s) (depthLimit - 1) s
    .ok (metadataText v, rest)
  else if f.isRequired then readText s
  else readTextOrNull s

/-- The fields that a payload gives. -/
abbrev Given := List (Field × String)

namespace Given

def find? (given : Given) (f : Field) : Option String :=
  given.lookup f

/-- The envelope with absent fields filled in. -/
def toEnvelope (given : Given) : Envelope :=
  ofFields fun f => (given.find? f).getD f.absent

end Given

/-- Where an object is found to end after a name that stands in it twice. -/
def afterRepeatedName (s : Bytes) : Bytes :=
  match skipSpace s with
  | 0x7D :: rest => rest
  | s => s

/-- Reads the members of an object up to its closing brace, after those already given. -/
def readNamed (fuel : Nat) (first : Bool) (given : Given) (s : Bytes) :
    Except Fault (Given × Bytes) :=
  match fuel with
  | 0 => faultAtNext .endInObject s
  | fuel + 1 => do
    let (next, rest) ← nextName first s
    match next with
    | none => .ok (given, rest)
    | some name =>
      match Field.ofName? name with
      | none =>
        let rest ← readColon rest
        let rest ← skipValue (fuelFor rest) rest
        readNamed fuel false given rest
      | some f =>
        if (given.find? f).isSome then
          fault (.duplicateField f.name) (afterRepeatedName rest)
        else
          let rest ← readColon rest
          let (text, rest) ← readField f rest
          readNamed fuel false ((f, text) :: given) rest

/-- Reads an object after its opening brace. -/
def readObject (s : Bytes) : Except Fault (Envelope × Bytes) := do
  let (given, rest) ← readNamed (s.length + 1) true [] s
  match Field.all.find? fun f => f.isRequired && (given.find? f).isNone with
  | some f => fault (.missingField f.name) rest
  | none => .ok (given.toEnvelope, rest)

/-- Expects an array to end after its last field. -/
def endItems (s : Bytes) : Except Fault Bytes :=
  match skipSpace s with
  | [] => faultAtNext .endInList []
  | b :: rest =>
    if b = 0x5D then .ok rest
    else if b = 0x2C then
      match skipSpace rest with
      | 0x5D :: after => faultAtNext .trailingComma (0x5D :: after)
      | after => faultAtNext .trailingCharacters after
    else faultAtNext .trailingCharacters (b :: rest)

/-- Reads the values of the given fields in order, up to the closing bracket. -/
def readInOrder : List Field → Bool → Bytes → Except Fault (Given × Bytes)
  | [], _, s => do
    let rest ← endItems s
    .ok ([], rest)
  | f :: fields, first, s => do
    let (next, rest) ← nextItem first s
    match next with
    | none => .ok ([], rest)
    | some () =>
      let (text, rest) ← readField f rest
      let (more, rest) ← readInOrder fields false rest
      .ok ((f, text) :: more, rest)

/-- What an envelope is called when another kind of value was found. -/
def expectation : String := "struct EventEnvelope"

/-- Reads an array after its opening bracket. -/
def readArray (s : Bytes) : Except Fault (Envelope × Bytes) := do
  let (given, rest) ← readInOrder Field.all true s
  if Field.all.any fun f => f.isRequired && (given.find? f).isNone then
    fault (.invalidLength given.length
      (expectation ++ " with " ++ Digits.toText Field.all.length ++ " elements")) rest
  else
    .ok (given.toEnvelope, rest)

/-- Reads a whole payload as JSON. -/
def read (payload : Bytes) : Except Fault Envelope := do
  let (e, rest) ←
    match skipSpace payload with
    | [] => faultAtNext .endInValue []
    | b :: rest =>
      if b = 0x5B then readArray rest
      else if b = 0x7B then readObject rest
      else mismatch expectation (b :: rest)
  expectEnd rest
  .ok e

/-- Bytes that leave a payload empty: JSON space and form feeds. -/
def isEmptySpace (b : UInt8) : Bool :=
  isSpace b || b == 0x0C

/-- Reads an event, which needs an identifier and a type that are not blank. -/
def decode (payload : Bytes) : Except DecodeError Envelope :=
  if payload.all isEmptySpace then
    .error .empty
  else
    match read payload with
    | .error f => .error (.malformed f.cause (.ofLeft payload f.left))
    | .ok e =>
      if Text.allBlank e.eventId then .error (.missingField Field.eventId.name)
      else if Text.allBlank e.eventType then .error (.missingField Field.eventType.name)
      else .ok e

end Envelope

end EventRelay
