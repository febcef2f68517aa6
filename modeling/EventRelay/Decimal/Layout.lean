import EventRelay.Decimal.Shortest
import EventRelay.Text.Digits

/-!
How a decimal is laid out as text: with all places written out, or with an exponent.
-/

namespace EventRelay

open Digits

/-- The choices of a text format for decimals. -/
structure DecimalLayout where
  /-- The smallest leading place, 0 for units, at which all places are written out. -/
  leastPlace : Int
  /-- The largest such place. -/
  greatestPlace : Int
  /-- What follows a whole number that is written out. -/
  wholeEnding : List Char
  /-- What stands before a positive exponent. -/
  exponentPlus : List Char

namespace DecimalLayout

/-- A positive decimal. -/
def positive (layout : DecimalLayout) (d : Decimal) : List Char :=
  let ds := decimal d.digits
  let place := d.exponent + ds.length - 1
  if layout.leastPlace ≤ place ∧ place ≤ layout.greatestPlace then
    if 0 ≤ d.exponent then
      ds ++ List.replicate d.exponent.toNat '0' ++ layout.wholeEnding
    else if 0 ≤ place then
      ds.take (place + 1).toNat ++ '.' :: ds.drop (place + 1).toNat
    else
      '0' :: '.' :: List.replicate (-place - 1).toNat '0' ++ ds
  else
    let fraction := match ds.drop 1 with
      | [] => []
      | rest => '.' :: rest
    let sign := if place < 0 then ['-'] else layout.exponentPlus
    ds.take 1 ++ fraction ++ 'e' :: sign ++ decimal place.natAbs

/-- A binary number by its shortest decimal. -/
def chars (layout : DecimalLayout) (x : Binary64) : List Char :=
  if x.mantissa = 0 then '0' :: layout.wholeEnding else layout.positive x.shortest

end DecimalLayout

end EventRelay
