import EventRelay.Event.Envelope
import EventRelay.Time.Span

/-!
What the ingest reaches outside itself: the consumer side of the bus, the analytics store and two
clocks. Each is a record of functions on a state `σ` that stands for everything outside.
-/

namespace EventRelay

/-- One partition of a topic. -/
structure Partition where
  topic : String
  index : Int32
  deriving DecidableEq

/-- Partitions are ordered by topic, then by index. -/
instance : Ord Partition where
  compare p q := (compare p.topic q.topic).then (compare p.index q.index)

/-- A point in one partition's log. -/
structure Position where
  partition : Partition
  offset : Int64
  deriving DecidableEq

/-- What one bounded wait for a message brings. -/
inductive Delivery
  | message (payload : Bytes) (position : Position)
  | timeout
  | error (reason : String)
  deriving DecidableEq

inductive BusError
  | create (reason : String)
  | unreachable (reason : String)
  | subscribe (topic reason : String)
  | commit (reason : String)
  deriving DecidableEq

namespace BusError

def message : BusError → String
  | .create reason => "failed to create consumer: " ++ reason
  | .unreachable reason => "broker unreachable: " ++ reason
  | .subscribe topic reason => "subscribe to " ++ topic ++ " failed: " ++ reason
  | .commit reason => "offset commit failed: " ++ reason

end BusError

/-- The consumer side of the bus. `commit` stores each position as the next offset that the group
reads from its partition. -/
structure BusReader (σ : Type) where
  poll : Span → σ → Delivery × σ
  commit : List Position → σ → Except BusError Unit × σ
  close : σ → σ
  isConnected : σ → Bool

/-- The store that takes decoded events; `insert` answers how many rows are durably written. -/
structure RowStore (σ : Type) where
  ping : σ → Bool × σ
  insert : List Envelope → σ → Nat × σ

/-- A clock that never runs backwards and the time of day. -/
structure Clocks (σ : Type) where
  moment : σ → Moment × σ
  instant : σ → Instant × σ

/-- All that a consumer reaches outside itself. -/
structure Ports (σ : Type) where
  reader : BusReader σ
  store : RowStore σ
  clocks : Clocks σ

variable {σ τ : Type}

/-- A store beside which something else has a state of its own. -/
def RowStore.beside (store : RowStore τ) : RowStore (σ × τ) where
  ping := fun (s, t) => let (up, t) := store.ping t; (up, (s, t))
  insert := fun rows (s, t) => let (n, t) := store.insert rows t; (n, (s, t))

def BusReader.beside (reader : BusReader σ) : BusReader (σ × τ) where
  poll := fun wait (s, t) => let (d, s) := reader.poll wait s; (d, (s, t))
  commit := fun positions (s, t) => let (r, s) := reader.commit positions s; (r, (s, t))
  close := fun (s, t) => (reader.close s, t)
  isConnected := fun (s, _) => reader.isConnected s

def Clocks.beside (clocks : Clocks σ) : Clocks (σ × τ) where
  moment := fun (s, t) => let (m, s) := clocks.moment s; (m, (s, t))
  instant := fun (s, t) => let (i, s) := clocks.instant s; (i, (s, t))

end EventRelay
