/-!
UTF-8: `encode` writes a list of characters as bytes, `decode?` accepts exactly the well-formed
byte sequences, and `decodeLossy` reads any bytes with U+FFFD for what is not well formed.
-/

namespace EventRelay

abbrev Bytes := List UInt8

namespace Utf8

/-- The one to four bytes of a character. -/
def encodeChar (c : Char) : Bytes :=
  let n := c.toNat
  if n < 0x80 then
    [UInt8.ofNat n]
  else if n < 0x800 then
    [UInt8.ofNat (0xC0 + n / 0x40), UInt8.ofNat (0x80 + n % 0x40)]
  else if n < 0x10000 then
    [UInt8.ofNat (0xE0 + n / 0x1000), UInt8.ofNat (0x80 + n / 0x40 % 0x40),
      UInt8.ofNat (0x80 + n % 0x40)]
  else
    [UInt8.ofNat (0xF0 + n / 0x40000), UInt8.ofNat (0x80 + n / 0x1000 % 0x40),
      UInt8.ofNat (0x80 + n / 0x40 % 0x40), UInt8.ofNat (0x80 + n % 0x40)]

def encode (cs : List Char) : Bytes :=
  cs.flatMap encodeChar

/-- The bytes of a string. -/
def ofString (s : String) : Bytes :=
  encode s.toList

/-- A byte that continues a character. -/
def isTail (b : UInt8) : Bool :=
  0x80 ≤ b.toNat && b.toNat < 0xC0

/-- The low six bits of a continuation byte. -/
def tailBits (b : UInt8) : Nat :=
  b.toNat - 0x80

/-- The character of a code point, which has to need the length it was written in and must not
be a surrogate. -/
def scalar? (least n : Nat) : Option Char :=
  if least ≤ n ∧ n.isValidChar then some (Char.ofNat n) else none

/-- Reads well-formed UTF-8: no overlong form, no surrogate, nothing above U+10FFFF. -/
def decode? : Bytes → Option (List Char)
  | [] => some []
  | a :: rest =>
    let x := a.toNat
    if x < 0x80 then
      (decode? rest).map (Char.ofNat x :: ·)
    else if x < 0xC0 then
      none
    else match rest with
      | [] => none
      | b :: rest =>
        if !isTail b then
          none
        else if x < 0xE0 then do
          let c ← scalar? 0x80 ((x - 0xC0) * 0x40 + tailBits b)
          let cs ← decode? rest
          some (c :: cs)
        else match rest with
          | [] => none
          | d :: rest =>
            if !isTail d then
              none
            else if x < 0xF0 then do
              let c ← scalar? 0x800 ((x - 0xE0) * 0x1000 + tailBits b * 0x40 + tailBits d)
              let cs ← decode? rest
              some (c :: cs)
            else match rest with
              | [] => none
              | e :: rest =>
                if !isTail e then
                  none
                else do
                  let c ← scalar? 0x10000
                    ((x - 0xF0) * 0x40000 + tailBits b * 0x1000 + tailBits d * 0x40 + tailBits e)
                  let cs ← decode? rest
                  some (c :: cs)

/-- The text of well-formed bytes. -/
def toString? (bytes : Bytes) : Option String :=
  (decode? bytes).map String.ofList

/-- How many bytes a character takes that starts with this one; 0 if none does. -/
def lengthOfLead (x : Nat) : Nat :=
  if x < 0x80 then 1
  else if x < 0xC2 then 0
  else if x < 0xE0 then 2
  else if x < 0xF0 then 3
  else if x < 0xF5 then 4
  else 0

/-- Whether `y` may follow the lead `x`: the second byte shuts out overlong forms, surrogates and
code points above U+10FFFF. -/
def mayFollowLead (x y : Nat) : Bool :=
  let least := if x = 0xE0 then 0xA0 else if x = 0xF0 then 0x90 else 0x80
  let most := if x = 0xED then 0x9F else if x = 0xF4 then 0x8F else 0xBF
  least ≤ y && y ≤ most

/-- The bytes after a lead that go on with its character, as far as they are there. -/
def tailsOfLead (a : UInt8) (rest : Bytes) : Bytes :=
  match rest with
  | [] => []
  | b :: more =>
    if mayFollowLead a.toNat b.toNat then
      (b :: more.takeWhile isTail).take (lengthOfLead a.toNat - 1)
    else
      []

/-- Whether a well-formed character starts with these bytes. -/
def startsWell (a : UInt8) (rest : Bytes) : Bool :=
  (tailsOfLead a rest).length + 1 == lengthOfLead a.toNat

/-- The first character of a byte sequence and how many bytes it covers. Ill-formed bytes give
U+FFFD for the longest start of a character among them, and at least one byte. -/
def firstChar (a : UInt8) (rest : Bytes) : Char × Nat :=
  let tails := tailsOfLead a rest
  if startsWell a rest then
    let bits := if tails.isEmpty then a.toNat else a.toNat % (1 <<< (6 - tails.length))
    (Char.ofNat (tails.foldl (fun n t => n * 0x40 + tailBits t) bits), 1 + tails.length)
  else
    (Char.ofNat 0xFFFD, 1 + tails.length)

/-- Drops well-formed characters from the front. The count is of bytes that the last one already
covers. -/
def fromIllFormedAfter : Nat → Bytes → Bytes
  | _, [] => []
  | skip + 1, _ :: rest => fromIllFormedAfter skip rest
  | 0, a :: rest =>
    if startsWell a rest then
      fromIllFormedAfter (tailsOfLead a rest).length rest
    else
      a :: rest

/-- The bytes from the first place on at which no well-formed character starts; none if there is no
such place. -/
def fromIllFormed (bytes : Bytes) : Bytes :=
  fromIllFormedAfter 0 bytes

/-- Reads any bytes as text. The count is of bytes that the last character already covers. -/
def decodeLossyAfter : Nat → Bytes → List Char
  | _, [] => []
  | skip + 1, _ :: rest => decodeLossyAfter skip rest
  | 0, a :: rest =>
    let (c, n) := firstChar a rest
    c :: decodeLossyAfter (n - 1) rest

def decodeLossy (bytes : Bytes) : String :=
  String.ofList (decodeLossyAfter 0 bytes)

end Utf8

end EventRelay
