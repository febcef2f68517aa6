import EventRelay.Json.Fault
import EventRelay.Text.Utf8

/-!
The words of JSON text over the bytes that are left to read: space, names, strings and numbers. A
reader yields what it has read with the bytes that follow, or says what is wrong and where.
-/

namespace EventRelay.Json

/-- A fault found just before the bytes given. -/
def fault {α : Type} (cause : Cause) (rest : Bytes) : Except Fault α :=
  .error ⟨cause, rest.length⟩

/-- A fault shown by the next byte, which counts as read if there is one. -/
def faultAtNext {α : Type} (cause : Cause) (rest : Bytes) : Except Fault α :=
  .error ⟨cause, rest.length - 1⟩

/-- Space, tab, line feed and carriage return. -/
def isSpace (b : UInt8) : Bool :=
  b == 0x20 || b == 0x09 || b == 0x0A || b == 0x0D

def skipSpace (s : Bytes) : Bytes :=
  s.dropWhile isSpace

/-- Reads the given bytes of a name and nothing else. -/
def readName : Bytes → Bytes → Except Fault Bytes
  | [], s => .ok s
  | _ :: _, [] => fault .endInValue []
  | n :: name, b :: s => if b = n then readName name s else fault .expectedIdent s

/-! ### Strings -/

/-- What a letter after a backslash stands for. -/
def simpleEscape? (b : UInt8) : Option UInt8 :=
  if b = 0x22 ∨ b = 0x5C ∨ b = 0x2F then some b
  else if b = 0x62 then some 0x08
  else if b = 0x66 then some 0x0C
  else if b = 0x6E then some 0x0A
  else if b = 0x72 then some 0x0D
  else if b = 0x74 then some 0x09
  else none

def hexDigit? (b : UInt8) : Option Nat :=
  let n := b.toNat
  if 0x30 ≤ n ∧ n ≤ 0x39 then some (n - 0x30)
  else if 0x41 ≤ n ∧ n ≤ 0x46 then some (n - 0x41 + 10)
  else if 0x61 ≤ n ∧ n ≤ 0x66 then some (n - 0x61 + 10)
  else none

/-- The number that four hexadecimal digits denote. -/
def hexWord? (a b c d : UInt8) : Option Nat := do
  some ((((← hexDigit? a) * 16 + (← hexDigit? b)) * 16 + (← hexDigit? c)) * 16 + (← hexDigit? d))

def isLeadingSurrogate (n : Nat) : Bool :=
  0xD800 ≤ n && n ≤ 0xDBFF

def isTrailingSurrogate (n : Nat) : Bool :=
  0xDC00 ≤ n && n ≤ 0xDFFF

/-- The character that a pair of surrogates encodes. -/
def pairedChar (leading trailing : Nat) : Char :=
  Char.ofNat ((leading - 0xD800) * 0x400 + (trailing - 0xDC00) + 0x10000)

/-- Reads what follows a leading surrogate: a second escape with the other half. -/
def trailingHalf (leading : Nat) (s : Bytes) : Except Fault Char :=
  match s with
  | [] => fault .endInString []
  | b :: s =>
    if b ≠ 0x5C then fault .unfinishedPair s
    else match s with
    | [] => fault .endInString []
    | u :: s =>
      if u ≠ 0x75 then fault .unfinishedPair s
      else match s with
      | h₁ :: h₂ :: h₃ :: h₄ :: s =>
        match hexWord? h₁ h₂ h₃ h₄ with
        | none => fault .invalidEscape s
        | some n =>
          if isTrailingSurrogate n then .ok (pairedChar leading n) else fault .loneSurrogate s
      | _ => fault .endInString []

/-- Reads an escape after its backslash: the bytes it stands for and how many bytes it takes. -/
def escape (s : Bytes) : Except Fault (Bytes × Nat) :=
  match s with
  | [] => fault .endInString []
  | e :: s =>
    if e = 0x75 then
      match s with
      | h₁ :: h₂ :: h₃ :: h₄ :: s =>
        match hexWord? h₁ h₂ h₃ h₄ with
        | none => fault .invalidEscape s
        | some n =>
          if isTrailingSurrogate n then fault .loneSurrogate s
          else if isLeadingSurrogate n then do
            let c ← trailingHalf n s
            .ok (Utf8.encodeChar c, 11)
          else .ok (Utf8.encodeChar (Char.ofNat n), 5)
      | _ => fault .endInString []
    else match simpleEscape? e with
      | some b => .ok ([b], 1)
      | none => fault .invalidEscape s

/-- Reads the bytes of a string up to the closing quote, after those that an escape has taken. -/
def stringBytesAfter : Nat → Bytes → Except Fault (Bytes × Bytes)
  | _, [] => fault .endInString []
  | taken + 1, _ :: s => stringBytesAfter taken s
  | 0, b :: s =>
    if b = 0x22 then .ok ([], s)
    else if b = 0x5C then do
      let (bytes, taken) ← escape s
      let (more, rest) ← stringBytesAfter taken s
      .ok (bytes ++ more, rest)
    else if b < 0x20 then fault .controlCharacter s
    else do
      let (more, rest) ← stringBytesAfter 0 s
      .ok (b :: more, rest)

/-- Reads a string after its opening quote. Its bytes have to be well-formed UTF-8 once the escapes
are replaced. If they are not, the place of the fault is behind the closing quote, less the length
of what the string holds from its first ill-formed character on. -/
def readString (s : Bytes) : Except Fault (String × Bytes) := do
  let (bytes, rest) ← stringBytesAfter 0 s
  match Utf8.toString? bytes with
  | some text => .ok (text, rest)
  | none => .error ⟨.invalidCodePoint, rest.length + (Utf8.fromIllFormed bytes).length⟩

/-! ### Numbers -/

def isDigit (b : UInt8) : Bool :=
  0x30 ≤ b && b ≤ 0x39

/-- The values of the leading digits. -/
def leadingDigits (s : Bytes) : List Nat :=
  (s.takeWhile isDigit).map fun b => b.toNat - 0x30

def skipDigits (s : Bytes) : Bytes :=
  s.dropWhile isDigit

/-- Appends digits to a number as long as it stays within `most`; the digits from the first one that
does not fit are left over. -/
def absorb (most : Nat) : Nat → List Nat → Nat × List Nat
  | n, [] => (n, [])
  | n, d :: ds => if n * 10 + d ≤ most then absorb most (n * 10 + d) ds else (n, d :: ds)

/-- The greatest number of a 64-bit word. -/
def greatestWord : Nat := 0xFFFFFFFFFFFFFFFF

def scaled (positive : Bool) (significand : Nat) (exponent : Int) (rest : Bytes) :
    Except Fault (Number × Bytes) :=
  match Binary64.ofDecimal? significand exponent with
  | some x => .ok (.float (!positive) x, rest)
  | none => fault .numberOutOfRange rest

/-- Reads an exponent after its letter. One beyond 31 bits makes zero if it is negative, or if
nothing but zeros stands before it. -/
def readExponent (positive : Bool) (significand : Nat) (start : Int) (s : Bytes) :
    Except Fault (Number × Bytes) :=
  let (down, s) := match s with
    | 0x2B :: rest => (false, rest)
    | 0x2D :: rest => (true, rest)
    | _ => (false, s)
  match s with
  | [] => fault .endInValue []
  | b :: rest =>
    if !isDigit b then
      fault .invalidNumber rest
    else
      let digits := leadingDigits s
      match absorb 0x7FFFFFFF 0 digits with
      | (n, []) =>
        scaled positive significand (if down then start - n else start + n) (skipDigits s)
      | (_, _ :: spare) =>
        if significand ≠ 0 ∧ !down then
          fault .numberOutOfRange (s.drop (digits.length - spare.length))
        else
          .ok (.float (!positive) .zero, skipDigits s)

/-- Reads the digits after a decimal point. `start` counts integer digits that were left over. -/
def readDecimals (positive : Bool) (significand : Nat) (start : Nat) (s : Bytes) :
    Except Fault (Number × Bytes) :=
  match leadingDigits s with
  | [] => faultAtNext (if s.isEmpty then .endInValue else .invalidNumber) s
  | digits =>
    let (significand, spare) := absorb greatestWord significand digits
    let exponent : Int := start - (digits.length - spare.length : Nat)
    match skipDigits s with
    | 0x65 :: rest | 0x45 :: rest => readExponent positive significand exponent rest
    | rest => scaled positive significand exponent rest

/-- An integer that is complete: 64 bits with or without a sign hold it, or it becomes a float. -/
def wholeNumber (positive : Bool) (n : Nat) (rest : Bytes) : Except Fault (Number × Bytes) :=
  if positive then .ok (.integer n, rest)
  else if 0 < n ∧ n ≤ 0x8000000000000000 then .ok (.integer (-n), rest)
  else scaled false n 0 rest

/-- Reads a number after its sign. -/
def readNumber (positive : Bool) (s : Bytes) : Except Fault (Number × Bytes) :=
  match s with
  | [] => fault .endInValue []
  | b :: rest =>
    if !isDigit b then
      fault .invalidNumber rest
    else if b = 0x30 ∧ leadingDigits rest ≠ [] then
      faultAtNext .invalidNumber rest
    else
      let (significand, spare) := absorb greatestWord 0 (leadingDigits s)
      match skipDigits s with
      | 0x2E :: rest => readDecimals positive significand spare.length rest
      | 0x65 :: rest | 0x45 :: rest => readExponent positive significand spare.length rest
      | rest =>
        if spare.isEmpty then wholeNumber positive significand rest
        else scaled positive significand spare.length rest

end EventRelay.Json
