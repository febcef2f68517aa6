import EventRelay.Text.Blank
import EventRelay.Text.Digits
import EventRelay.Time.Written

/-!
Event times as producers write them. `Instant.ofText?` takes an RFC 3339 timestamp, or else a
time without offset, read as UTC, with `T` or blanks between date and time.
-/

namespace EventRelay

namespace Time

open Digits Text

/-- The rest of a text that starts with the given character. -/
def expect? (c : Char) : List Char → Option (List Char)
  | [] => none
  | d :: rest => if d = c then some rest else none

/-- The fraction of a second in nanoseconds: if a point follows, one digit or more, of which nine
count. -/
def fraction? (cs : List Char) : Option (Nat × List Char) :=
  match cs with
  | '.' :: rest => do
    let (n, after) ← take? 1 9 rest
    let scale := powerOfTen (9 - (rest.length - after.length))
    some (n * scale, after.dropWhile Char.isDigit)
  | _ => some (0, cs)

/-- The seconds by which local time is ahead of UTC: `Z`, or a sign, hours up to 23 and
minutes. -/
def offset? (cs : List Char) : Option (Int × List Char) :=
  match cs with
  | [] => none
  | sign :: rest =>
    if sign = 'Z' ∨ sign = 'z' then
      some (0, rest)
    else if sign = '+' ∨ sign = '-' ∨ sign = '−' then do
      let (hours, rest) ← take? 2 2 rest
      let rest ← expect? ':' rest
      let (minutes, rest) ← take? 2 2 rest
      if hours < 24 ∧ minutes < 60 then
        let ahead : Int := hours * 3600 + minutes * 60
        some (if sign = '+' then ahead else -ahead, rest)
      else
        none
    else
      none

/-- An RFC 3339 timestamp with `T`, `t` or a space before the time of day. -/
def rfc3339? (cs : List Char) : Option Instant := do
  let (year, cs) ← take? 4 4 cs
  let cs ← expect? '-' cs
  let (month, cs) ← take? 2 2 cs
  let cs ← expect? '-' cs
  let (day, cs) ← take? 2 2 cs
  let cs ← match cs with
    | 'T' :: rest | 't' :: rest | ' ' :: rest => some rest
    | _ => none
  let (hour, cs) ← take? 2 2 cs
  let cs ← expect? ':' cs
  let (minute, cs) ← take? 2 2 cs
  let cs ← expect? ':' cs
  let (second, cs) ← take? 2 2 cs
  let (nanos, cs) ← fraction? cs
  let (offset, cs) ← offset? cs
  if cs = [] then
    Civil.toInstant? ⟨⟨year, month, day⟩, hour, minute, second, nanos⟩ offset
  else
    none

/-- A year after optional blanks: up to four digits, or a sign and any number of them. -/
def year? (cs : List Char) : Option (Int × List Char) :=
  match trimStart cs with
  | '-' :: rest => (take? 1 rest.length rest).map fun (n, after) => (-(n : Int), after)
  | '+' :: rest => (take? 1 rest.length rest).map fun (n, after) => ((n : Int), after)
  | rest => (take? 1 4 rest).map fun (n, after) => ((n : Int), after)

/-- One or two digits after optional blanks. -/
def pair? (cs : List Char) : Option (Nat × List Char) :=
  take? 1 2 (trimStart cs)

/-- A time without offset, read as UTC; `separator?` reads what stands between date and time. -/
def naive? (separator? : List Char → Option (List Char)) (cs : List Char) : Option Instant := do
  let (year, cs) ← year? cs
  let cs ← expect? '-' cs
  let (month, cs) ← pair? cs
  let cs ← expect? '-' cs
  let (day, cs) ← pair? cs
  let cs ← separator? cs
  let (hour, cs) ← pair? cs
  let cs ← expect? ':' cs
  let (minute, cs) ← pair? cs
  let cs ← expect? ':' cs
  let (second, cs) ← pair? cs
  let (nanos, cs) ← fraction? cs
  if cs = [] then
    Civil.toInstant? ⟨⟨year, month, day⟩, hour, minute, second, nanos⟩ 0
  else
    none

end Time

namespace Instant

/-- Reads a trimmed event time in the first of the three forms that fits. -/
def ofChars? (cs : List Char) : Option Instant :=
  (Time.rfc3339? cs).or
    ((Time.naive? (Time.expect? 'T') cs).or
      (Time.naive? (fun rest => some (Text.trimStart rest)) cs))

/-- Reads an event time; a blank text has none. -/
def ofText? (raw : String) : Option Instant :=
  ofChars? (Text.trimChars raw.toList)

/-- The store's literal for an event time; what cannot be read becomes `now`. -/
def normalized (raw : String) (now : Instant) : String :=
  ((ofText? raw).getD now).storeText

end Instant

end EventRelay
