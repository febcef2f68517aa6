/-!
The proleptic Gregorian calendar. `Date.toDays` counts days from 1970-01-01 and `Date.ofDays`
finds the date of such a count; year 0 stands before year 1.
-/

namespace EventRelay

structure Date where
  year : Int
  month : Nat
  day : Nat
  deriving DecidableEq

namespace Calendar

def isLeapYear (y : Int) : Bool :=
  y % 4 == 0 && (y % 100 != 0 || y % 400 == 0)

/-- The length of a month, 0 for a number that is none. -/
def daysInMonth (y : Int) (month : Nat) : Nat :=
  match month with
  | 1 | 3 | 5 | 7 | 8 | 10 | 12 => 31
  | 4 | 6 | 9 | 11 => 30
  | 2 => if isLeapYear y then 29 else 28
  | _ => 0

/-- Days from 1970-01-01 to the first day of a year. -/
def daysBeforeYear (y : Int) : Int :=
  365 * y + (y + 3) / 4 - (y + 99) / 100 + (y + 399) / 400 - 719528

/-- Days of a year that precede a month. -/
def daysBeforeMonth (y : Int) : Nat → Nat
  | 0 => 0
  | month + 1 => daysBeforeMonth y month + daysInMonth y month

/-- The year in which a day lies. The mean length of a year gives it up to one. -/
def yearOfDay (day : Int) : Int :=
  let guess := (day + 719528) * 400 / 146097
  if day < daysBeforeYear guess then guess - 1
  else if daysBeforeYear (guess + 1) ≤ day then guess + 1
  else guess

/-- The month and day of month of a day of the year counted from 0, sought from the given months
on. -/
def monthAndDay (y : Int) : List Nat → Nat → Nat × Nat
  | [], rest => (12, rest + 1)
  | month :: later, rest =>
    if rest < daysInMonth y month then (month, rest + 1)
    else monthAndDay y later (rest - daysInMonth y month)

end Calendar

namespace Date

open Calendar

/-- A month from 1 to 12 and a day that the month has. -/
def IsValid (d : Date) : Prop :=
  1 ≤ d.month ∧ d.month ≤ 12 ∧ 1 ≤ d.day ∧ d.day ≤ daysInMonth d.year d.month

instance (d : Date) : Decidable d.IsValid :=
  inferInstanceAs (Decidable (_ ∧ _ ∧ _ ∧ _))

def toDays (d : Date) : Int :=
  daysBeforeYear d.year + daysBeforeMonth d.year d.month + d.day - 1

def ofDays (day : Int) : Date :=
  let year := yearOfDay day
  let (month, dayOfMonth) :=
    monthAndDay year [1, 2, 3, 4, 5, 6, 7, 8, 9, 10, 11, 12] (day - daysBeforeYear year).toNat
  ⟨year, month, dayOfMonth⟩

end Date

end EventRelay
