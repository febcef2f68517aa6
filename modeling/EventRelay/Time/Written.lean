import EventRelay.Text.Digits
import EventRelay.Time.Instant

/-!
The two ways in which instants are written: `wireText`, with `T` and `Z`, travels in events, and
`storeText`, with a blank, is the literal that the analytics store takes. Both end in milliseconds.
-/

namespace EventRelay

open Digits

/-- Four digits; outside the years 0 to 9999 a sign and at least four digits. -/
def yearText (y : Int) : List Char :=
  if 0 ≤ y ∧ y ≤ 9999 then padded 4 y.toNat
  else (if y < 0 then '-' else '+') :: padded 4 y.natAbs

namespace Date

def text (d : Date) : List Char :=
  yearText d.year ++ '-' :: padded 2 d.month ++ '-' :: padded 2 d.day

end Date

namespace Civil

/-- The time of day with three digits of the second's fraction, further digits cut off. -/
def timeText (c : Civil) : List Char :=
  padded 2 c.hour ++ ':' :: padded 2 c.minute ++ ':' :: padded 2 c.second ++
    '.' :: padded 3 (c.nanos / 1000000)

end Civil

namespace Instant

def storeChars (t : Instant) : List Char :=
  t.toCivil.date.text ++ ' ' :: t.toCivil.timeText

def wireChars (t : Instant) : List Char :=
  t.toCivil.date.text ++ 'T' :: t.toCivil.timeText ++ ['Z']

/-- The literal of the analytics store: `YYYY-MM-DD HH:MM:SS.sss`. -/
def storeText (t : Instant) : String :=
  String.ofList t.storeChars

/-- The form in events: `YYYY-MM-DDTHH:MM:SS.sssZ`. -/
def wireText (t : Instant) : String :=
  String.ofList t.wireChars

end Instant

end EventRelay
