import EventRelay.Json.Lexeme

/-!
Passing over a value that nobody asks for. Its text has to be JSON, but strings are not decoded,
numbers may have any size, and there is no limit to the depth.
-/

namespace EventRelay.Json

/-- How many bytes an escape takes after its backslash. -/
def escapeLength (s : Bytes) : Except Fault Nat :=
  match s with
  | [] => fault .endInString []
  | e :: s =>
    if e = 0x75 then
      match s with
      | h₁ :: h₂ :: h₃ :: h₄ :: s =>
        if (hexWord? h₁ h₂ h₃ h₄).isSome then .ok 5 else fault .invalidEscape s
      | _ => fault .endInString []
    else if (simpleEscape? e).isSome then .ok 1
    else fault .invalidEscape s

/-- Passes over a string up to its closing quote, after the bytes that an escape has taken. -/
def skipStringAfter : Nat → Bytes → Except Fault Bytes
  | _, [] => fault .endInString []
  | taken + 1, _ :: s => skipStringAfter taken s
  | 0, b :: s =>
    if b = 0x22 then .ok s
    else if b = 0x5C then do
      let taken ← escapeLength s
      skipStringAfter taken s
    else if b < 0x20 then fault .controlCharacter (b :: s)
    else skipStringAfter 0 s

/-- Passes over an exponent after its letter. -/
def skipExponent (s : Bytes) : Except Fault Bytes :=
  let s := match s with
    | 0x2B :: rest | 0x2D :: rest => rest
    | _ => s
  match s with
  | [] => fault .invalidNumber []
  | b :: rest => if isDigit b then .ok (skipDigits rest) else fault .invalidNumber rest

/-- Passes over a number after its sign. -/
def skipNumber (s : Bytes) : Except Fault Bytes :=
  match s with
  | [] => fault .invalidNumber []
  | b :: rest =>
    if !isDigit b then
      fault .invalidNumber rest
    else if b = 0x30 ∧ leadingDigits rest ≠ [] then
      faultAtNext .invalidNumber rest
    else
      match skipDigits s with
      | 0x2E :: rest =>
        if leadingDigits rest = [] then faultAtNext .invalidNumber rest
        else match skipDigits rest with
          | 0x65 :: rest | 0x45 :: rest => skipExponent rest
          | rest => .ok rest
      | 0x65 :: rest | 0x45 :: rest => skipExponent rest
      | rest => .ok rest

/-- Passes over a value that is neither an array nor an object, from its first byte on. -/
def skipScalar (b : UInt8) (rest : Bytes) : Except Fault Bytes :=
  if b = 0x6E then readName [0x75, 0x6C, 0x6C] rest
  else if b = 0x74 then readName [0x72, 0x75, 0x65] rest
  else if b = 0x66 then readName [0x61, 0x6C, 0x73, 0x65] rest
  else if b = 0x2D then skipNumber rest
  else if isDigit b then skipNumber (b :: rest)
  else if b = 0x22 then skipStringAfter 0 rest
  else faultAtNext .expectedValue (b :: rest)

/-- Passes over a member's name and its colon. -/
def skipName (s : Bytes) : Except Fault Bytes :=
  match skipSpace s with
  | [] => faultAtNext .endInObject []
  | b :: rest =>
    if b = 0x22 then do
      let rest ← skipStringAfter 0 rest
      match skipSpace rest with
      | [] => faultAtNext .endInObject []
      | b :: rest => if b = 0x3A then .ok rest else faultAtNext .expectedColon (b :: rest)
    else
      faultAtNext .keyMustBeString (b :: rest)

mutual

def skipValue (fuel : Nat) (s : Bytes) : Except Fault Bytes :=
  match fuel with
  | 0 => faultAtNext .endInValue s
  | fuel + 1 =>
    match skipSpace s with
    | [] => faultAtNext .endInValue []
    | b :: rest =>
      if b = 0x5B then skipItems fuel true rest
      else if b = 0x7B then skipMembers fuel true rest
      else skipScalar b rest

/-- Passes over the items of an array and its closing bracket. -/
def skipItems (fuel : Nat) (first : Bool) (s : Bytes) : Except Fault Bytes :=
  match fuel with
  | 0 => faultAtNext .endInList s
  | fuel + 1 =>
    match skipSpace s with
    | [] => faultAtNext .endInList []
    | b :: rest =>
      if b = 0x5D then .ok rest
      else if first then do
        let rest ← skipValue fuel (b :: rest)
        skipItems fuel false rest
      else if b = 0x2C then do
        let rest ← skipValue fuel rest
        skipItems fuel false rest
      else faultAtNext .expectedListCommaOrEnd (b :: rest)

/-- Passes over the members of an object and its closing brace. -/
def skipMembers (fuel : Nat) (first : Bool) (s : Bytes) : Except Fault Bytes :=
  match fuel with
  | 0 => faultAtNext .endInObject s
  | fuel + 1 =>
    match skipSpace s with
    | [] => faultAtNext .endInObject []
    | b :: rest =>
      if b = 0x7D then .ok rest
      else if first then do
        let rest ← skipName (b :: rest)
        let rest ← skipValue fuel rest
        skipMembers fuel false rest
      else if b = 0x2C then do
        let rest ← skipName rest
        let rest ← skipValue fuel rest
        skipMembers fuel false rest
      else faultAtNext .expectedObjectCommaOrEnd (b :: rest)

end

end EventRelay.Json
