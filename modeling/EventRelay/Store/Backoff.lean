import EventRelay.Time.Span

/-!
Repeating an operation that may fail, with waits that double from one attempt to the next.
-/

namespace EventRelay

/-- How often an operation is tried, where 0 counts as once, and how long the first wait is. -/
structure Backoff where
  maxAttempts : UInt32
  firstWait : Span
  deriving DecidableEq

namespace Backoff

/-- The power of two in a 32-bit word, or the greatest word if it is none. -/
def powerOfTwo (n : UInt32) : UInt32 :=
  if n < 32 then 1 <<< n else 0xFFFFFFFF

/-- The wait after a failed attempt, counted from 1: the base, twice the base, four times. -/
def waitAfter (b : Backoff) (attempt : UInt32) : Span :=
  b.firstWait.saturatingMul (powerOfTwo (if attempt = 0 then 0 else attempt - 1))

/-- The number of attempts. -/
def attempts (b : Backoff) : UInt32 :=
  max b.maxAttempts 1

variable {σ ε α : Type}

/-- Runs attempts from the given one on until one succeeds, with as many left as stated after it. -/
def runFrom (b : Backoff) (operation : UInt32 → σ → Except ε α × σ)
    (sleep : Span → σ → σ) : Nat → UInt32 → σ → Except ε α × σ
  | left, attempt, s =>
    match operation attempt s with
    | (.ok v, s) => (.ok v, s)
    | (.error e, s) =>
      match left with
      | 0 => (.error e, s)
      | left + 1 => runFrom b operation sleep left (attempt + 1)
          (sleep (b.waitAfter attempt) s)

/-- Runs an operation until it succeeds or the attempts are used up, and waits in between. The
operation is told the number of the attempt; both act on a state. -/
def run (b : Backoff) (operation : UInt32 → σ → Except ε α × σ) (sleep : Span → σ → σ)
    (s : σ) : Except ε α × σ :=
  runFrom b operation sleep (b.attempts.toNat - 1) 1 s

end Backoff

end EventRelay
