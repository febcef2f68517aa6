import EventRelay.Ingest.Script
import EventRelay.Publisher.Basic

/-!
The way of events from the publisher over a bus in memory to the consumer: the records of a topic
become the messages of one partition.
-/

namespace EventRelay.Pipeline

/-- Publishes envelopes in order and answers what became of each. -/
def publishAll {σ : Type} (io : PublisherPorts σ) :
    List Envelope → Publisher σ → List (Option String) × Publisher σ
  | [], p => ([], p)
  | e :: rest, p =>
    let (id, p) := p.publish io e
    let (ids, p) := publishAll io rest p
    (id :: ids, p)

/-- Records as messages of partition 0 of a topic, at consecutive offsets from the given one on. -/
def deliveriesFrom (topic : String) : Int64 → List BusRecord → List Arrival
  | _, [] => []
  | offset, r :: rest =>
    { delivery := .message r.payload ⟨⟨topic, 0⟩, offset⟩ } ::
      deliveriesFrom topic (offset + 1) rest

/-- The messages that a topic of a bus in memory holds. -/
def deliveries (topic : String) (bus : LocalBus) : List Arrival :=
  deliveriesFrom topic 0 (bus.recordsOn topic)

end EventRelay.Pipeline
