import EventRelay.Json.Printer
import EventRelay.Time.Written

/-!
Counters and connection flags of the ingest, and the report of them that is shown to others.
-/

namespace EventRelay

/-- Counters are 64-bit words; both sides start out as not connected. -/
structure Metrics where
  consumed : UInt64 := 0
  inserted : UInt64 := 0
  batches : UInt64 := 0
  errors : UInt64 := 0
  busUp : Bool := false
  storeUp : Bool := false
  lastFlush : Option Instant := none
  started : Instant
  deriving DecidableEq

structure MetricsReport where
  status : String
  busUp : Bool
  storeUp : Bool
  consumed : UInt64
  inserted : UInt64
  batches : UInt64
  errors : UInt64
  lastFlush : Option String
  started : String
  deriving DecidableEq

namespace Metrics

def countConsumed (m : Metrics) (n : UInt64) : Metrics :=
  { m with consumed := m.consumed + n }

/-- Counts one batch of `n` rows that was written at the given time. -/
def countBatch (m : Metrics) (n : UInt64) (now : Instant) : Metrics :=
  { m with
    inserted := m.inserted + n
    batches := m.batches + 1
    lastFlush := some now }

def countErrors (m : Metrics) (n : UInt64) : Metrics :=
  { m with errors := m.errors + n }

def withBus (m : Metrics) (connected : Bool) : Metrics :=
  { m with busUp := connected }

def withStore (m : Metrics) (connected : Bool) : Metrics :=
  { m with storeUp := connected }

def isHealthy (m : Metrics) : Bool :=
  m.busUp && m.storeUp

def report (m : Metrics) : MetricsReport where
  status := if m.isHealthy then "healthy" else "unhealthy"
  busUp := m.busUp
  storeUp := m.storeUp
  consumed := m.consumed
  inserted := m.inserted
  batches := m.batches
  errors := m.errors
  lastFlush := m.lastFlush.map Instant.wireText
  started := m.started.wireText

end Metrics

namespace MetricsReport

def isHealthy (s : MetricsReport) : Bool :=
  s.busUp && s.storeUp

/-- The members of the report as JSON, in the order in which they are shown. -/
def members (s : MetricsReport) : List (String × Json.Value) :=
  let count (n : UInt64) : Json.Value := .number (.integer n.toNat)
  [("status", .string s.status), ("bus_connected", .bool s.busUp),
    ("sink_connected", .bool s.storeUp), ("events_consumed", count s.consumed),
    ("events_inserted", count s.inserted), ("batches_flushed", count s.batches),
    ("errors", count s.errors),
    ("last_flush_at", (s.lastFlush.map Json.Value.string).getD .null),
    ("started_at", .string s.started)]

def jsonText (s : MetricsReport) : String :=
  String.ofList ('\x7b' :: Json.membersChars s.members ++ ['\x7d'])

end MetricsReport

end EventRelay
