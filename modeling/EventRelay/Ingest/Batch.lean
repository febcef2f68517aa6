import EventRelay.Ascending
import EventRelay.Ingest.Ports

/-!
Events that wait for one bulk write, in the order of their delivery, with the offsets that were
read since the last write.
-/

namespace EventRelay

/-- The lowest and the highest offset read from a partition. -/
structure Extent where
  first : Int64
  last : Int64
  deriving DecidableEq

namespace Extent

/-- The extent that one more offset makes of another. -/
def covering (offset : Int64) : Option Extent → Extent
  | none => ⟨offset, offset⟩
  | some e => ⟨min e.first offset, max e.last offset⟩

end Extent

/-- Settings of batching and flushing. -/
structure BatchPolicy where
  maxSize : Nat := 1000
  maxAge : Span := .ofSeconds 5
  pollWait : Span := .ofSeconds 1
  /-- How often one batch is handed to the store before it is dropped. -/
  maxFlushes : UInt32 := 1
  progressInterval : Span := .ofSeconds 10

structure Batch where
  rows : List Envelope := []
  /-- What was read from each partition, messages that could not be decoded included. -/
  extents : List (Partition × Extent) := []
  /-- When the first of the rows was added. -/
  opened : Option Moment := none
  failures : UInt32 := 0

namespace Batch

def empty : Batch := {}

def isEmpty (b : Batch) : Bool :=
  b.rows.isEmpty

def size (b : Batch) : Nat :=
  b.rows.length

def push (b : Batch) (e : Envelope) (now : Moment) : Batch :=
  { b with
    opened := if b.isEmpty then some now else b.opened
    rows := b.rows ++ [e] }

/-- Notes that a message was read at a position. -/
def markRead (b : Batch) (p : Position) : Batch :=
  { b with extents := Ascending.alter p.partition (Extent.covering p.offset) b.extents }

/-- Whether the first row has waited as long as the given age. -/
def isOverdue (b : Batch) (maxAge : Span) (now : Moment) : Bool :=
  match b.opened with
  | none => false
  | some opened => maxAge.toNanos ≤ now.since opened

end Batch

end EventRelay
