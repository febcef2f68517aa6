import EventRelay.Json.Lexeme

/-!
Reading JSON values. `Value.ofBytes` reads a whole text. Arrays and objects may be nested to a
limited depth; of members with one name the last one counts. No name is set apart: also those by which
readers may mark the raw text of a value, or of a number, are names of ordinary members.
-/

namespace EventRelay.Json

/-- How many levels of arrays and objects a text may open, with one more that may not. -/
def depthLimit : Nat := 128

/-- Goes to the next item of a list: `none` after its closing bracket. `first` tells whether an
item would be the first one, which no comma precedes. -/
def nextItem (first : Bool) (s : Bytes) : Except Fault (Option Unit × Bytes) :=
  match skipSpace s with
  | [] => faultAtNext .endInList []
  | b :: rest =>
    if b = 0x5D then .ok (none, rest)
    else if first then .ok (some (), b :: rest)
    else if b = 0x2C then
      match skipSpace rest with
      | [] => faultAtNext .endInValue []
      | b :: rest =>
        if b = 0x5D then faultAtNext .trailingComma (b :: rest) else .ok (some (), b :: rest)
    else faultAtNext .expectedListCommaOrEnd (b :: rest)

/-- Reads the name of an object's next member: `none` after the closing brace. -/
def nextName (first : Bool) (s : Bytes) : Except Fault (Option String × Bytes) :=
  match skipSpace s with
  | [] => faultAtNext .endInObject []
  | b :: rest =>
    if b = 0x7D then .ok (none, rest)
    else if first then name (b :: rest)
    else if b = 0x2C then
      match skipSpace rest with
      | [] => faultAtNext .endInValue []
      | b :: rest =>
        if b = 0x7D then faultAtNext .trailingComma (b :: rest) else name (b :: rest)
    else faultAtNext .expectedObjectCommaOrEnd (b :: rest)
where
  /-- Reads a name where one has to stand. -/
  name (s : Bytes) : Except Fault (Option String × Bytes) :=
    match s with
    | 0x22 :: rest => do
      let (text, rest) ← readString rest
      .ok (some text, rest)
    | _ => faultAtNext .keyMustBeString s

/-- Reads the colon between a name and its value. -/
def readColon (s : Bytes) : Except Fault Bytes :=
  match skipSpace s with
  | [] => faultAtNext .endInObject []
  | b :: rest => if b = 0x3A then .ok rest else faultAtNext .expectedColon (b :: rest)

/-- Reads a value that is neither an array nor an object, from its first byte on. -/
def readScalar (b : UInt8) (rest : Bytes) : Except Fault (Value × Bytes) :=
  if b = 0x6E then do
    let rest ← readName [0x75, 0x6C, 0x6C] rest
    .ok (.null, rest)
  else if b = 0x74 then do
    let rest ← readName [0x72, 0x75, 0x65] rest
    .ok (.bool true, rest)
  else if b = 0x66 then do
    let rest ← readName [0x61, 0x6C, 0x73, 0x65] rest
    .ok (.bool false, rest)
  else if b = 0x2D then do
    let (n, rest) ← readNumber false rest
    .ok (.number n, rest)
  else if isDigit b then do
    let (n, rest) ← readNumber true (b :: rest)
    .ok (.number n, rest)
  else if b = 0x22 then do
    let (s, rest) ← readString rest
    .ok (.string s, rest)
  else
    faultAtNext .expectedValue (b :: rest)

mutual

/-- Reads a value. `depth` levels may be opened, the last of them not; `fuel` bounds the calls. -/
def readValue (fuel depth : Nat) (s : Bytes) : Except Fault (Value × Bytes) :=
  match fuel with
  | 0 => faultAtNext .endInValue s
  | fuel + 1 =>
    match skipSpace s with
    | [] => faultAtNext .endInValue []
    | b :: rest =>
      if b = 0x5B then
        if depth ≤ 1 then faultAtNext .tooDeep (b :: rest)
        else do
          let (items, rest) ← readItems fuel (depth - 1) true rest
          .ok (.array items, rest)
      else if b = 0x7B then
        if depth ≤ 1 then faultAtNext .tooDeep (b :: rest)
        else do
          let (members, rest) ← readMembers fuel (depth - 1) true [] rest
          .ok (.object members, rest)
      else readScalar b rest

/-- Reads the items of an array up to its closing bracket. -/
def readItems (fuel depth : Nat) (first : Bool) (s : Bytes) : Except Fault (List Value × Bytes) :=
  match fuel with
  | 0 => faultAtNext .endInList s
  | fuel + 1 => do
    let (next, rest) ← nextItem first s
    match next with
    | none => .ok ([], rest)
    | some () =>
      let (v, rest) ← readValue fuel depth rest
      let (vs, rest) ← readItems fuel depth false rest
      .ok (v :: vs, rest)

/-- Reads the members of an object up to its closing brace, into those read before. -/
def readMembers (fuel depth : Nat) (first : Bool) (members : List (String × Value)) (s : Bytes) :
    Except Fault (List (String × Value) × Bytes) :=
  match fuel with
  | 0 => faultAtNext .endInObject s
  | fuel + 1 => do
    let (next, rest) ← nextName first s
    match next with
    | none => .ok (members, rest)
    | some name =>
      let rest ← readColon rest
      let (v, rest) ← readValue fuel depth rest
      readMembers fuel depth false (Ascending.insert name v members) rest

end

/-- Calls enough for any text: at most two levels of calls go by without a byte being read. -/
def fuelFor (s : Bytes) : Nat :=
  2 * s.length + 2

/-- Nothing but space may follow a text's value. -/
def expectEnd (s : Bytes) : Except Fault Unit :=
  match skipSpace s with
  | [] => .ok ()
  | b :: rest => faultAtNext .trailingCharacters (b :: rest)

/-- Reads a whole text as one value. -/
def Value.ofBytes (s : Bytes) : Except Fault Value := do
  let (v, rest) ← readValue (fuelFor s) depthLimit s
  expectEnd rest
  .ok v

def Value.ofText (s : String) : Except Fault Value :=
  Value.ofBytes (Utf8.ofString s)

end EventRelay.Json
