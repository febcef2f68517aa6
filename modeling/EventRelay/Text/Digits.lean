/-!
Whole numbers as decimal text: digits written with and without padding, and the two ways in which
numbers are read, from a whole text and from the front of one.
-/

namespace EventRelay.Digits

/-- The decimal digits of a number, without leading zeros. -/
def decimal (n : Nat) : List Char :=
  Nat.toDigits 10 n

/-- At least `width` decimal digits, filled up with leading zeros. -/
def padded (width n : Nat) : List Char :=
  List.replicate (width - (decimal n).length) '0' ++ decimal n

/-- The hexadecimal digits of a number in lower case. -/
def hexadecimal (n : Nat) : List Char :=
  Nat.toDigits 16 n

def toText (n : Nat) : String :=
  String.ofList (decimal n)

/-- The decimal text of an integer, with a sign only if it is negative. -/
def signedText : Int → String
  | .ofNat n => toText n
  | .negSucc n => String.ofList ('-' :: decimal (n + 1))

/-- The number that a list of decimal digits denotes. -/
def value (digits : List Char) : Nat :=
  digits.foldl (fun n c => n * 10 + (c.toNat - '0'.toNat)) 0

/-- The value of one hexadecimal digit in either case. -/
def hexValue? (c : Char) : Option Nat :=
  if c.isDigit then some (c.toNat - '0'.toNat)
  else if 'a' ≤ c ∧ c ≤ 'f' then some (c.toNat - 'a'.toNat + 10)
  else if 'A' ≤ c ∧ c ≤ 'F' then some (c.toNat - 'A'.toNat + 10)
  else none

/-- A one with `n` zeros after it. -/
def powerOfTen (n : Nat) : Nat :=
  Nat.pow 10 n

/-- Reads a whole text as a number of at most `most`: digits, with a plus sign allowed in front. -/
def unsigned? (most : Nat) (cs : List Char) : Option Nat :=
  let digits := match cs with
    | '+' :: rest => rest
    | _ => cs
  if digits ≠ [] ∧ digits.all Char.isDigit ∧ value digits ≤ most then
    some (value digits)
  else
    none

/-- Reads as many leading digits as there are, but no more than `most`, and fails below `least`. -/
def take? (least most : Nat) (cs : List Char) : Option (Nat × List Char) :=
  let digits := (cs.take most).takeWhile Char.isDigit
  if digits.length < least then none else some (value digits, cs.drop digits.length)

end EventRelay.Digits
