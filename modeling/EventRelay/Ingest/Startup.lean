import EventRelay.Ingest.Ports
import EventRelay.Metrics

/-!
Startup: the bus and the store are tried until both are there. A side that is up stays up while the
other one is tried again.
-/

namespace EventRelay

structure StartupPolicy where
  maxAttempts : UInt32
  interval : Span

/-- The attempts are used up. -/
structure StartupFailure where
  attempts : UInt32
  busUp : Bool
  storeUp : Bool
  deriving DecidableEq

namespace StartupFailure

def message (f : StartupFailure) : String :=
  let flag (b : Bool) := if b then "true" else "false"
  "startup failed after " ++ Digits.toText f.attempts.toNat ++ " attempts (bus_connected=" ++
    flag f.busUp ++ ", sink_connected=" ++ flag f.storeUp ++ ")"

end StartupFailure

/-- Ways to connect to the bus, which yields a source `β`, to look for a sign of life of the store,
and to wait. -/
structure StartupPorts (σ β : Type) where
  connect : σ → Except BusError β × σ
  ping : σ → Bool × σ
  sleep : Span → σ → σ

namespace StartupPolicy

variable {σ β : Type}

/-- What is known of both sides while they are being connected. -/
structure Progress (σ β : Type) where
  source : Option β := none
  storeUp : Bool := false
  metrics : Metrics
  world : σ

/-- Tries each side that is not up yet. -/
def attempt (io : StartupPorts σ β) (p : Progress σ β) : Progress σ β :=
  let p :=
    if p.source.isSome then p
    else
      match io.connect p.world with
      | (.ok source, w) =>
        { p with source := some source, metrics := p.metrics.withBus true, world := w }
      | (.error _, w) => { p with world := w }
  if p.storeUp then p
  else
    let (up, w) := io.ping p.world
    { p with storeUp := up, metrics := p.metrics.withStore up, world := w }

/-- The number of attempts, of which there is at least one. -/
def attempts (policy : StartupPolicy) : UInt32 :=
  max policy.maxAttempts 1

/-- Makes an attempt, and after it as many more as stated, with waits in between. -/
def startFrom (policy : StartupPolicy) (io : StartupPorts σ β) :
    Nat → Progress σ β → Except StartupFailure β × Metrics × σ
  | left, p =>
    let p := attempt io p
    match p.source, p.storeUp with
    | some source, true => (.ok source, p.metrics, p.world)
    | source, storeUp =>
      match left with
      | 0 => (.error ⟨policy.attempts, source.isSome, storeUp⟩, p.metrics, p.world)
      | left + 1 =>
        startFrom policy io left { p with world := io.sleep policy.interval p.world }

/-- Connects both sides, or fails when the attempts are used up. -/
def start (policy : StartupPolicy) (io : StartupPorts σ β) (metrics : Metrics) (world : σ) :
    Except StartupFailure β × Metrics × σ :=
  policy.startFrom io (policy.attempts.toNat - 1) { metrics, world }

end StartupPolicy

end EventRelay
