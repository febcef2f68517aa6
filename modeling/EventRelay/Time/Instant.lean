import EventRelay.Time.Calendar

/-!
Instants of UTC in seconds and nanoseconds from 1970-01-01T00:00:00Z. A leap second is written as
its predecessor with a second or more of nanoseconds; nothing keeps an instant from lying in a leap
second after any second of a minute. `Civil` is the same on the calendar.
-/

namespace EventRelay

/-- The instants that have a date in the years -262143 to 262142. -/
@[ext]
structure Instant where
  seconds : Int
  nanos : Nat
  seconds_ge : -8334601228800 ≤ seconds
  seconds_le : seconds ≤ 8210266876799
  nanos_lt : nanos < 2000000000
  deriving DecidableEq

/-- A date with a time of day; second 60 is a leap second. -/
structure Civil where
  date : Date
  hour : Nat
  minute : Nat
  second : Nat
  nanos : Nat
  deriving DecidableEq

namespace Instant

/-- The start of 1970. -/
def epoch : Instant := ⟨0, 0, by decide, by decide, by decide⟩

instance : Inhabited Instant := ⟨epoch⟩

/-- If the instant lies in a leap second, the leap second ends a minute. -/
def LeapAtEnd (t : Instant) : Prop :=
  1000000000 ≤ t.nanos → t.seconds % 60 = 59

instance (t : Instant) : Decidable t.LeapAtEnd :=
  inferInstanceAs (Decidable (_ → _))

/-- The instant of a count of seconds. Counts give leap seconds at the end of a minute only. -/
def ofUnix? (seconds : Int) (nanos : Nat) : Option Instant :=
  if h : -8334601228800 ≤ seconds ∧ seconds ≤ 8210266876799 ∧ nanos < 2000000000 ∧
      (1000000000 ≤ nanos → seconds % 60 = 59) then
    some ⟨seconds, nanos, h.1, h.2.1, h.2.2.1⟩
  else
    none

/-- Whether one instant is no later than another: by seconds, then by nanoseconds. -/
def le (s t : Instant) : Prop :=
  s.seconds < t.seconds ∨ s.seconds = t.seconds ∧ s.nanos ≤ t.nanos

instance : LE Instant := ⟨le⟩

instance (s t : Instant) : Decidable (s ≤ t) :=
  inferInstanceAs (Decidable (_ ∨ _))

/-- The same second with the nanoseconds cut to whole milliseconds. -/
def truncateMillis (t : Instant) : Instant where
  seconds := t.seconds
  nanos := t.nanos / 1000000 * 1000000
  seconds_ge := t.seconds_ge
  seconds_le := t.seconds_le
  nanos_lt := by have := t.nanos_lt; omega

def toCivil (t : Instant) : Civil :=
  let ofDay := (t.seconds % 86400).toNat
  { date := Date.ofDays (t.seconds / 86400)
    hour := ofDay / 3600
    minute := ofDay / 60 % 60
    second := ofDay % 60 + t.nanos / 1000000000
    nanos := t.nanos % 1000000000 }

def year (t : Instant) : Int :=
  (Date.ofDays (t.seconds / 86400)).year

end Instant

namespace Civil

/-- A date that exists, and a time of day in which the second may be 60. -/
def IsValid (c : Civil) : Prop :=
  c.date.IsValid ∧ c.hour < 24 ∧ c.minute < 60 ∧ c.second ≤ 60 ∧ c.nanos < 1000000000

instance (c : Civil) : Decidable c.IsValid :=
  inferInstanceAs (Decidable (_ ∧ _ ∧ _ ∧ _ ∧ _))

/-- The instant that clocks show so which are ahead of UTC by `offset` seconds. -/
def toInstant? (c : Civil) (offset : Int) : Option Instant :=
  if c.IsValid then
    let ofDay := c.hour * 3600 + c.minute * 60 + min c.second 59
    Instant.ofUnix? (c.date.toDays * 86400 + ofDay - offset)
      (c.nanos + if c.second = 60 then 1000000000 else 0)
  else
    none

end Civil

end EventRelay
