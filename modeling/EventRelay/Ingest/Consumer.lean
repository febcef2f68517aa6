import EventRelay.Event.Decoding
import EventRelay.Ingest.Batch
import EventRelay.Metrics

/-!
The consumer: it polls the bus, decodes and normalizes messages, gathers them in a batch, hands the
batch to the store and commits offsets once every row is written. One batch is in flight at a time.
-/

namespace EventRelay

inductive ConsumerPhase
  | disconnected
  | connecting
  | consuming
  | draining
  | stopped
  deriving DecidableEq

inductive FlushResult
  | empty
  | committed
  /-- Written, but the commit failed, so the messages will be delivered again. -/
  | uncommitted
  | retained
  | dropped
  deriving DecidableEq

/-- A consumer together with the state `world` of all that lies outside of it. -/
structure Consumer (σ : Type) where
  settings : BatchPolicy
  batch : Batch := .empty
  /-- For each partition the lowest offset that belongs to a dropped batch. No commit goes beyond
  it, so that these messages come back after a restart. -/
  limits : List (Partition × Int64) := []
  phase : ConsumerPhase := .consuming
  metrics : Metrics
  world : σ

namespace ConsumerPhase

def name : ConsumerPhase → String
  | .disconnected => "Disconnected"
  | .connecting => "Connecting"
  | .consuming => "Consuming"
  | .draining => "Draining"
  | .stopped => "Stopped"

end ConsumerPhase

namespace FlushResult

def name : FlushResult → String
  | .empty => "Empty"
  | .committed => "Committed"
  | .uncommitted => "Uncommitted"
  | .retained => "Retained"
  | .dropped => "Dropped"

end FlushResult

namespace Consumer

variable {σ : Type}

/-- The next offset to read from each partition, unless a dropped batch holds it back. -/
def nextPositions (extents : List (Partition × Extent)) (limits : List (Partition × Int64)) :
    List Position :=
  extents.map fun (partition, extent) =>
    let next := extent.last + 1
    let offset := match Ascending.find? partition limits with
      | some limit => if limit < next then limit else next
      | none => next
    ⟨partition, offset⟩

/-- Holds back commits at the first offsets of a batch that is dropped. -/
def withhold (extents : List (Partition × Extent)) (limits : List (Partition × Int64)) :
    List (Partition × Int64) :=
  extents.foldl (fun limits (partition, extent) =>
    Ascending.alter partition (fun limit => match limit with
      | some limit => min limit extent.first
      | none => extent.first) limits) limits

/-- Gives a batch up: its rows count as errors and its offsets stay uncommitted. -/
def dropBatch (c : Consumer σ) : Consumer σ :=
  { c with
    metrics := c.metrics.countErrors c.batch.size.toUInt64
    limits := withhold c.batch.extents c.limits
    batch := .empty }

/-- Hands the batch to the store. Offsets are committed only if every row was written; otherwise the
batch is kept until its flushes are used up. -/
def flush (io : Ports σ) (c : Consumer σ) : FlushResult × Consumer σ :=
  if c.batch.isEmpty then
    (.empty, c)
  else
    let (written, w) := io.store.insert c.batch.rows c.world
    if written = c.batch.size then
      let (now, w) := io.clocks.instant w
      let metrics := (c.metrics.countBatch c.batch.size.toUInt64 now).withStore true
      let (result, w) := io.reader.commit (nextPositions c.batch.extents c.limits) w
      match result with
      | .ok () => (.committed, { c with batch := .empty, metrics, world := w })
      | .error _ =>
        (.uncommitted, { c with batch := .empty, metrics := metrics.countErrors 1, world := w })
    else
      let failed := c.batch.failures + 1
      let c := { c with
        batch := { c.batch with failures := failed }
        metrics := c.metrics.withStore false
        world := w }
      if c.settings.maxFlushes ≤ failed then (.dropped, c.dropBatch) else (.retained, c)

/-- Decodes and normalizes a payload; one that cannot be decoded counts as an error. -/
def decode (io : Ports σ) (payload : Bytes) (c : Consumer σ) : Option Envelope × Consumer σ :=
  match Envelope.decode payload with
  | .ok e =>
    let (now, w) := io.clocks.instant c.world
    (some (e.normalized now), { c with world := w })
  | .error _ => (none, { c with metrics := c.metrics.countErrors 1 })

/-- Flushes a batch that has waited too long. -/
def flushOverdue (io : Ports σ) (c : Consumer σ) : Consumer σ :=
  let (now, w) := io.clocks.moment c.world
  let c := { c with world := w }
  if c.batch.isOverdue c.settings.maxAge now then (c.flush io).2 else c

/-- Takes a message into the batch, and flushes the batch once it is full or has waited too long. -/
def receive (io : Ports σ) (payload : Bytes) (position : Position) (c : Consumer σ) : Consumer σ :=
  let c := { c with
    metrics := c.metrics.withBus true
    batch := c.batch.markRead position }
  let (event, c) := c.decode io payload
  let c := match event with
    | none => c
    | some e =>
      let (now, w) := io.clocks.moment c.world
      { c with batch := c.batch.push e now, metrics := c.metrics.countConsumed 1, world := w }
  if c.settings.maxSize ≤ c.batch.size then (c.flush io).2 else c.flushOverdue io

/-- Acts on what a poll has brought. -/
def react (io : Ports σ) (delivery : Delivery) (c : Consumer σ) : Consumer σ :=
  match delivery with
  | .message payload position => c.receive io payload position
  | .timeout =>
    flushOverdue io { c with
      metrics := c.metrics.withBus (io.reader.isConnected c.world) }
  | .error _ => { c with metrics := (c.metrics.countErrors 1).withBus false }

/-- One turn: another flush of a batch that was kept, or else one poll and what follows from it. -/
def step (io : Ports σ) (c : Consumer σ) : Consumer σ :=
  if c.phase ≠ .consuming then
    c
  else if 0 < c.batch.failures then
    (c.flush io).2
  else
    let (delivery, w) := io.reader.poll c.settings.pollWait c.world
    { c with world := w }.react io delivery

/-- Makes one last flush, closes the subscription and stops. A batch that is kept even then has no
more chances. -/
def drain (io : Ports σ) (c : Consumer σ) : Consumer σ :=
  if c.phase = .stopped then
    c
  else
    let c := { c with phase := .draining }
    let c :=
      if c.batch.isEmpty then c
      else
        match c.flush io with
        | (.retained, c) => c.dropBatch
        | (_, c) => c
    { c with world := io.reader.close c.world, phase := .stopped }

/-- Consumes until the shutdown flag is seen to be raised, then drains; `none` if that takes more
than the given number of turns. -/
def runFor (io : Ports σ) (raised : σ → Bool) : Nat → Consumer σ → Option (Consumer σ)
  | 0, _ => none
  | turns + 1, c =>
    if !raised c.world && c.phase = .consuming then runFor io raised turns (c.step io)
    else some (c.drain io)

/-- Turns enough for a source that brings so many deliveries and raises the flag when it is asked
for one more: between two polls a batch is flushed no more often than its attempts allow. -/
def turnsFor (settings : BatchPolicy) (deliveries : Nat) : Nat :=
  (deliveries + 2) * (settings.maxFlushes.toNat + 1) + 1

end Consumer

end EventRelay
