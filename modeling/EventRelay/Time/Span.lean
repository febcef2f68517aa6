/-!
Spans of time: whole seconds in a 64-bit word and nanoseconds below one second. `Span.toNanos` is
the view in which they are compared; arithmetic saturates at `Span.longest`. A timer that is set to
a span sleeps for `Span.slept`, which stops at `Span.longestSleep`.
-/

namespace EventRelay

structure Span where
  seconds : UInt64
  nanos : UInt32
  nanos_lt : nanos.toNat < 1000000000
  deriving DecidableEq

namespace Span

def zero : Span := ⟨0, 0, by decide⟩

/-- The longest span that the two words hold. -/
def longest : Span := ⟨0xFFFFFFFFFFFFFFFF, 999999999, by decide⟩

instance : Inhabited Span := ⟨zero⟩

def toNanos (d : Span) : Nat :=
  d.seconds.toNat * 1000000000 + d.nanos.toNat

def ofSeconds (n : UInt64) : Span := ⟨n, 0, by decide⟩

/-- A number of nanoseconds, cut at one second less one. -/
def fraction (n : Nat) : { w : UInt32 // w.toNat < 1000000000 } :=
  ⟨UInt32.ofNat (n % 1000000000), by
    have h : n % 1000000000 < 1000000000 := Nat.mod_lt _ (by decide)
    rw [UInt32.toNat_ofNat_of_lt' (Nat.lt_trans h (by decide))]
    exact h⟩

def ofMillis (n : UInt64) : Span :=
  let f := fraction ((n % 1000).toNat * 1000000)
  ⟨n / 1000, f.val, f.property⟩

theorem toNat_fraction (n : Nat) : (fraction n).val.toNat = n % 1000000000 := by
  have below : n % 1000000000 < 1000000000 := Nat.mod_lt _ (by decide)
  exact UInt32.toNat_ofNat_of_lt' (Nat.lt_trans below (by decide))

@[simp] theorem toNanos_ofSeconds (n : UInt64) : (ofSeconds n).toNanos = n.toNat * 1000000000 := by
  simp [toNanos, ofSeconds]

@[simp] theorem toNanos_ofMillis (n : UInt64) : (ofMillis n).toNanos = n.toNat * 1000000 := by
  have below : (n % 1000).toNat = n.toNat % 1000 := UInt64.toNat_mod n 1000
  have whole : (n / 1000).toNat = n.toNat / 1000 := UInt64.toNat_div n 1000
  rw [toNanos, ofMillis, toNat_fraction, whole, below]
  omega

/-- Whole milliseconds, the rest cut off. -/
def toMillis (d : Span) : Nat :=
  d.toNanos / 1000000

/-- The product of two words, if it is one. -/
def mulWord? (a b : UInt64) : Option UInt64 :=
  if a.toNat * b.toNat < UInt64.size then some (a * b) else none

/-- The sum of two words, if it is one. -/
def addWord? (a b : UInt64) : Option UInt64 :=
  if a.toNat + b.toNat < UInt64.size then some (a + b) else none

/-- Multiplies seconds and nanoseconds apart and carries; `none` once the seconds overflow. -/
def mul? (d : Span) (k : UInt32) : Option Span := do
  let nanos := d.nanos.toUInt64 * k.toUInt64
  let seconds ← mulWord? d.seconds k.toUInt64
  let seconds ← addWord? seconds (nanos / 1000000000)
  let f := fraction nanos.toNat
  some ⟨seconds, f.val, f.property⟩

def saturatingMul (d : Span) (k : UInt32) : Span :=
  (d.mul? k).getD longest

def add? (d e : Span) : Option Span := do
  let nanos := d.nanos.toUInt64 + e.nanos.toUInt64
  let seconds ← addWord? d.seconds e.seconds
  let seconds ← addWord? seconds (nanos / 1000000000)
  let f := fraction nanos.toNat
  some ⟨seconds, f.val, f.property⟩

def saturatingAdd (d e : Span) : Span :=
  (d.add? e).getD longest

/-- The longest time that a timer sleeps: thirty years of 365 days. -/
def longestSleep : Span := ofSeconds 946080000

/-- How long a timer sleeps that is set to a span. -/
def slept (d : Span) : Span :=
  if d.toNanos ≤ longestSleep.toNanos then d else longestSleep

theorem toNanos_slept (d : Span) : d.slept.toNanos = min d.toNanos longestSleep.toNanos := by
  unfold slept
  split <;> omega

end Span

/-- A reading of a clock that never runs backwards, in nanoseconds from its start. -/
structure Moment where
  nanos : Nat
  deriving DecidableEq, Inhabited

namespace Moment

/-- How many nanoseconds after `earlier` this reading was taken; none if it was taken before. -/
def since (now earlier : Moment) : Nat :=
  now.nanos - earlier.nanos

end Moment

end EventRelay
