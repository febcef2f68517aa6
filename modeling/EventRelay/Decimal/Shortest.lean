import EventRelay.Decimal.Binary64

/-!
The shortest decimal that reads back as a given binary number: of the decimals with the fewest
digits among all that round to the number it is the nearest one.
-/

namespace EventRelay

/-- The number `digits * 10 ^ exponent`. -/
structure Decimal where
  digits : Nat
  exponent : Int
  deriving DecidableEq

namespace Decimal

/-- The position of the leading digit of a positive quotient: 0 for units, -1 for tenths. -/
def leadingPlace (num den : Nat) : Int :=
  if den ≤ num then
    (Nat.toDigits 10 (num / den)).length - 1
  else
    -((Nat.toDigits 10 ((den - 1) / num)).length : Int)

/-- Trailing zeros moved from the digits into the exponent, at most as many as given. -/
def strip : Nat → Decimal → Decimal
  | 0, d => d
  | n + 1, d =>
    if d.digits ≠ 0 ∧ d.digits % 10 = 0 then strip n ⟨d.digits / 10, d.exponent + 1⟩ else d

end Decimal

namespace Binary64

open Digits

/-- A multiple of a quarter of the last binary place of `x`, as a quotient. -/
def quarters (x : Binary64) (k : Nat) : Nat × Nat :=
  if 2 ≤ x.exponent then (k <<< (x.exponent - 2).toNat, 1)
  else (k, 1 <<< (2 - x.exponent).toNat)

/-- Whether `c * 10 ^ place` rounds to `x`: it lies no further off than half way to the neighbours,
and half way only if the mantissa is even. Below a power of two the neighbour is half as far. -/
def admits (x : Binary64) (c : Nat) (place : Int) : Bool :=
  let below := if x.mantissa = leastFull ∧ -1074 < x.exponent then 1 else 2
  let (low, den) := x.quarters (4 * x.mantissa - below)
  let (high, _) := x.quarters (4 * x.mantissa + 2)
  let (num, unit) := if 0 ≤ place then (c * powerOfTen place.toNat, 1)
    else (c, powerOfTen (-place).toNat)
  if x.mantissa % 2 = 0 then
    low * unit ≤ num * den && num * den ≤ high * unit
  else
    low * unit < num * den && num * den < high * unit

/-- The multiple of `10 ^ place` that is nearest to `x` among the two around it that round to `x`;
of two equally near ones the even. -/
def nearestOn (x : Binary64) (place : Int) : Option Nat :=
  let (num, den) := x.quarters (4 * x.mantissa)
  let (num, den) := if 0 ≤ place then (num, den * powerOfTen place.toNat)
    else (num * powerOfTen (-place).toNat, den)
  let c := num / den
  match x.admits c place, x.admits (c + 1) place with
  | true, true => some (divNearest num den)
  | true, false => some c
  | false, true => some (c + 1)
  | false, false => none

/-- Tries ever finer decimal places, at most as many as given. -/
def searchPlaces (x : Binary64) : Nat → Int → Decimal
  | 0, place => ⟨(x.nearestOn place).getD 0, place⟩
  | n + 1, place =>
    match x.nearestOn place with
    | some c => ⟨c, place⟩
    | none => searchPlaces x n (place - 1)

/-- The shortest decimal that rounds to a positive `x`; seventeen digits are always enough. -/
def shortest (x : Binary64) : Decimal :=
  let (num, den) := x.quarters (4 * x.mantissa)
  Decimal.strip 17 (x.searchPlaces 16 (Decimal.leadingPlace num den))

end Binary64

end EventRelay
