import EventRelay.Event.Envelope
import EventRelay.Time.Span

/-!
The producer side of the bus: the connection over which records are sent, and a bus within the
process to send them on.
-/

namespace EventRelay

inductive PublishError
  | notConfigured
  | serialization (reason : String)
  | kafka (reason : String)
  | unavailable (reason : String)
  deriving DecidableEq

namespace PublishError

def message : PublishError → String
  | .notConfigured => "publisher not configured"
  | .serialization reason => "serialization error: " ++ reason
  | .kafka reason => "kafka error: " ++ reason
  | .unavailable reason => "bus unavailable: " ++ reason

end PublishError

/-- A record on a topic. -/
structure BusRecord where
  topic : String
  key : String
  payload : Bytes
  deriving DecidableEq

/-- A live connection to the bus, acting on the state `σ` of the bus. `send` only enqueues; delivery
happens on `poll` and `flush`. -/
structure BusWriter (σ : Type) where
  send : BusRecord → σ → Except PublishError Unit × σ
  poll : σ → σ
  flush : Span → σ → Except PublishError Unit × σ

/-- A bus within the process that can be taken offline. -/
structure LocalBus where
  records : List BusRecord := []
  available : Bool := true
  connects : Nat := 0
  flushes : Nat := 0
  deriving DecidableEq

namespace LocalBus

def offline : PublishError := .unavailable "memory bus offline"

def connect (bus : LocalBus) : Except PublishError Unit × LocalBus :=
  (if bus.available then .ok () else .error offline, { bus with connects := bus.connects + 1 })

def send (r : BusRecord) (bus : LocalBus) : Except PublishError Unit × LocalBus :=
  if bus.available then (.ok (), { bus with records := bus.records ++ [r] })
  else (.error offline, bus)

def flush (_ : Span) (bus : LocalBus) : Except PublishError Unit × LocalBus :=
  (.ok (), { bus with flushes := bus.flushes + 1 })

def writer : BusWriter LocalBus where
  send := send
  poll := id
  flush := flush

def recordsOn (bus : LocalBus) (topic : String) : List BusRecord :=
  bus.records.filter fun r => r.topic = topic

end LocalBus

end EventRelay
