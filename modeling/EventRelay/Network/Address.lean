import EventRelay.Text.Digits

/-!
Internet addresses: the text forms that are read, and the one in which each address is written.
-/

namespace EventRelay

/-- An address of version 4 in four bytes or of version 6 in eight words. -/
inductive IpAddress
  | v4 (octets : List UInt8)
  | v6 (groups : List UInt16)
  deriving DecidableEq

structure SocketAddress where
  ip : IpAddress
  port : UInt16
  deriving DecidableEq

namespace IpAddress

/-- Reads a decimal number of up to three digits, without a leading zero, as a byte. -/
def readOctet? (cs : List Char) : Option (UInt8 × List Char) :=
  let digits := cs.takeWhile Char.isDigit
  let n := Digits.value digits
  if digits = [] ∨ 3 < digits.length ∨ (digits.head? = some '0' ∧ digits ≠ ['0']) ∨ 255 < n then
    none
  else
    some (UInt8.ofNat n, cs.dropWhile Char.isDigit)

/-- The rest after the separator that stands before every item but the first. -/
def afterSeparator? (separator : Char) (first : Bool) (cs : List Char) : Option (List Char) :=
  if first then some cs
  else match cs with
    | [] => none
    | c :: rest => if c = separator then some rest else none

/-- Reads the given number of bytes with points between them. -/
def readOctets? : Nat → Bool → List Char → Option (List UInt8 × List Char)
  | 0, _, cs => some ([], cs)
  | n + 1, first, cs => do
    let cs ← afterSeparator? '.' first cs
    let (octet, cs) ← readOctet? cs
    let (octets, cs) ← readOctets? n false cs
    some (octet :: octets, cs)

/-- Reads up to four hexadecimal digits as a word. -/
def readGroup? (cs : List Char) : Option (UInt16 × List Char) :=
  let digits := cs.takeWhile fun c => (Digits.hexValue? c).isSome
  if digits = [] ∨ 4 < digits.length then
    none
  else
    let n := (digits.filterMap Digits.hexValue?).foldl (fun n d => n * 16 + d) 0
    some (UInt16.ofNat n, cs.dropWhile fun c => (Digits.hexValue? c).isSome)

/-- Two bytes as a word. -/
def wordOf (high low : UInt8) : UInt16 :=
  UInt16.ofNat (high.toNat * 256 + low.toNat)

/-- Reads as many words with colons between them as there are, up to a number. The last two may be
written as an address of version 4, which ends them; the flag tells whether they were. -/
def readGroups : Nat → Bool → List Char → List UInt16 × Bool × List Char
  | 0, _, cs => ([], false, cs)
  | room + 1, first, cs =>
    match afterSeparator? ':' first cs with
    | none => ([], false, cs)
    | some body =>
      match if 1 ≤ room then readOctets? 4 true body else none with
      | some ([a, b, c, d], rest) => ([wordOf a b, wordOf c d], true, rest)
      | _ =>
        match readGroup? body with
        | none => ([], false, cs)
        | some (group, rest) =>
          let (groups, endsInOctets, rest) := readGroups room false rest
          (group :: groups, endsInOctets, rest)

/-- Reads eight words, of which one run of zeros may be left out between two colons. -/
def readV6? (cs : List Char) : Option (IpAddress × List Char) :=
  let (head, endsInOctets, rest) := readGroups 8 true cs
  if head.length = 8 then
    some (.v6 head, rest)
  else if endsInOctets then
    none
  else
    match rest with
    | ':' :: ':' :: rest =>
      let (tail, _, rest) := readGroups (7 - head.length) true rest
      let zeros := List.replicate (8 - head.length - tail.length) 0
      some (.v6 (head ++ zeros ++ tail), rest)
    | _ => none

/-- Reads a whole text as an address of either version. -/
def ofText? (s : String) : Option IpAddress :=
  let read := match readOctets? 4 true s.toList with
    | some (octets, rest) => some (IpAddress.v4 octets, rest)
    | none => readV6? s.toList
  match read with
  | some (address, []) => some address
  | _ => none

def octetsText (octets : List UInt8) : List Char :=
  ['.'].intercalate (octets.map fun o => Digits.decimal o.toNat)

def groupsText (groups : List UInt16) : List Char :=
  [':'].intercalate (groups.map fun g => Digits.hexadecimal g.toNat)

/-- The first of the longest runs of zeros, as its start and its length. -/
def longestZeroRun (groups : List UInt16) : Nat × Nat :=
  let runAt (start : Nat) := ((groups.drop start).takeWhile (· == 0)).length
  (List.range groups.length).foldl
    (fun (start, length) i => if length < runAt i then (i, runAt i) else (start, length)) (0, 0)

/-- The written form: the longest run of two or more zero words is left out, and an address that
maps one of version 4 shows that one. -/
def chars : IpAddress → List Char
  | .v4 octets => octetsText octets
  | .v6 groups =>
    match groups with
    | [0, 0, 0, 0, 0, 0xFFFF, g, h] =>
      [':', ':', 'f', 'f', 'f', 'f', ':'] ++
        octetsText [(g / 256).toUInt8, g.toUInt8, (h / 256).toUInt8, h.toUInt8]
    | _ =>
      let (start, length) := longestZeroRun groups
      if 1 < length then
        groupsText (groups.take start) ++ ':' :: ':' :: groupsText (groups.drop (start + length))
      else
        groupsText groups

end IpAddress

namespace SocketAddress

/-- An address and a port; an address of version 6 stands in brackets. -/
def text (a : SocketAddress) : String :=
  let port := ':' :: Digits.decimal a.port.toNat
  match a.ip with
  | .v4 _ => String.ofList (a.ip.chars ++ port)
  | .v6 _ => String.ofList ('[' :: a.ip.chars ++ ']' :: port)

end SocketAddress

end EventRelay
