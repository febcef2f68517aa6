import EventRelay.Text.Digits

/-!
Finite binary floating-point numbers of 64 bits, in exact arithmetic on natural numbers. Every
operation rounds its exact result once, to the nearest number and from a half to the even one.
-/

namespace EventRelay

/-- The number `mantissa * 2 ^ exponent`. A mantissa below `2 ^ 52` goes with the exponent
-1074. -/
structure Binary64 where
  mantissa : Nat
  exponent : Int
  deriving DecidableEq, Inhabited

namespace Binary64

open Digits

def zero : Binary64 := ⟨0, -1074⟩

/-- The least mantissa of 53 binary digits. -/
def leastFull : Nat := 0x10000000000000

/-- A quotient rounded to the nearest natural number, from a half to the even one. -/
def divNearest (num den : Nat) : Nat :=
  let q := num / den
  let r := num % den
  if 2 * r < den then q
  else if den < 2 * r then q + 1
  else if q % 2 = 0 then q
  else q + 1

/-- The exponent that gives a positive quotient 53 binary digits before the point, or the least
exponent. -/
def exponentFor (num den : Nat) : Int :=
  let k : Int := (num.log2 : Int) - den.log2
  let reaches := if 0 ≤ k then den <<< k.toNat ≤ num else den ≤ num <<< (-k).toNat
  max (if reaches then k - 52 else k - 53) (-1074)

/-- The number nearest to a quotient; `none` if that lies above the largest one. -/
def ofRatio? (num den : Nat) : Option Binary64 :=
  if num = 0 then
    some zero
  else
    let e := exponentFor num den
    let m := if 0 ≤ e then divNearest num (den <<< e.toNat)
      else divNearest (num <<< (-e).toNat) den
    let x : Binary64 := if m = 2 * leastFull then ⟨leastFull, e + 1⟩ else ⟨m, e⟩
    if 971 < x.exponent then none else some x

/-- The number nearest to `n * 2 ^ e / d`. -/
def ofScaled? (n : Nat) (e : Int) (d : Nat) : Option Binary64 :=
  if 0 ≤ e then ofRatio? (n <<< e.toNat) d else ofRatio? n (d <<< (-e).toNat)

def mul? (x y : Binary64) : Option Binary64 :=
  ofScaled? (x.mantissa * y.mantissa) (x.exponent + y.exponent) 1

def div? (x y : Binary64) : Option Binary64 :=
  ofScaled? x.mantissa (x.exponent - y.exponent) y.mantissa

/-- A power of ten, rounded; exact up to the 22nd. -/
def tenTo? (n : Nat) : Option Binary64 :=
  ofRatio? (powerOfTen n) 1

/-- The number `significand * 10 ^ exponent` in floating point: the significand is rounded, then
scaled by a rounded power of ten. Powers beyond 308 are divided out in two steps, and twice that
leaves nothing. `none` stands for a number too large. -/
def ofDecimal? (significand : Nat) (exponent : Int) : Option Binary64 := do
  let f ← ofRatio? significand 1
  if 0 ≤ exponent then
    if exponent ≤ 308 then
      f.mul? (← tenTo? exponent.toNat)
    else if f.mantissa = 0 then
      some f
    else
      none
  else
    let n := (-exponent).toNat
    if n ≤ 308 then
      f.div? (← tenTo? n)
    else if n ≤ 616 then
      (← f.div? (← tenTo? 308)).div? (← tenTo? (n - 308))
    else
      some zero

end Binary64

end EventRelay
