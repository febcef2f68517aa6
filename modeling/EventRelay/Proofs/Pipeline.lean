import EventRelay.Pipeline
import EventRelay.Proofs.Event.Metadata
import EventRelay.Proofs.Ingest.Chunks
import EventRelay.Proofs.Publisher.Records

/-!
The whole way of an event, from the draft of an application to the rows of the store.
-/

namespace EventRelay

variable {σ : Type}

namespace LocalBus

theorem acquire_available {p : Publisher LocalBus} (up : p.bus.available = true)
    (free : p.connection = .idle ∨ p.connection = .ready) :
    ∃ connects, p.acquire ports = (true, { p with connection := .ready, bus := { p.bus with connects } }) := by
  rcases free with idle | ready
  · exact ⟨p.bus.connects + 1, by
      simp [Publisher.acquire, idle, Connection.claim, ports, connect, up, Connection.settle]⟩
  · exact ⟨p.bus.connects, by simp [Publisher.acquire, ready, Connection.claim]⟩

theorem send_available {p : Publisher LocalBus} (up : p.bus.available = true) (topic : String) (e : Envelope) :
    p.send ports topic e =
      (.ok (), { p with bus := { p.bus with records := p.bus.records ++ [e.recordOn topic] } }) := by
  simp [Publisher.send, ports, writer, send, up, Envelope.recordOn]

/-- Publishing on a bus that is available leaves one more record on the primary topic. -/
theorem publish_available {p : Publisher LocalBus} (up : p.bus.available = true)
    (free : p.connection = .idle ∨ p.connection = .ready) (e : Envelope) :
    ∃ bus, p.publish ports e = (some e.eventId, { p with connection := .ready, bus }) ∧ bus.available = true ∧
      bus.recordsOn p.settings.topic = p.bus.recordsOn p.settings.topic ++ [e.recordOn p.settings.topic] := by
  obtain ⟨connects, acquired⟩ := acquire_available up free
  unfold Publisher.publish
  rw [acquired]
  dsimp only
  rw [send_available (by exact up)]
  dsimp only
  cases routed : p.settings.topicOfCategory e.eventCategory with
  | none =>
    refine ⟨_, rfl, up, ?_⟩
    simp [ports, writer, recordsOn, Envelope.recordOn]
  | some topic =>
    have other := PublisherSettings.topicOfCategory_ne routed
    dsimp only
    rw [send_available (by exact up)]
    refine ⟨_, rfl, up, ?_⟩
    simp [ports, writer, recordsOn, Envelope.recordOn, other]

end LocalBus

namespace Pipeline

/-- What is published on a bus that is available is on the primary topic, in order. -/
theorem publishAll_available {p : Publisher LocalBus} (up : p.bus.available = true)
    (free : p.connection = .idle ∨ p.connection = .ready) (es : List Envelope) :
    (publishAll LocalBus.ports es p).1 = es.map (fun e => some e.eventId) ∧
      (publishAll LocalBus.ports es p).2.bus.recordsOn p.settings.topic =
        p.bus.recordsOn p.settings.topic ++ es.map (·.recordOn p.settings.topic) := by
  induction es generalizing p with
  | nil => simp [publishAll]
  | cons e es ih =>
    obtain ⟨bus, published, still, records⟩ := LocalBus.publish_available up free e
    obtain ⟨answers, more⟩ := ih (p := { p with connection := .ready, bus }) still (.inr rfl)
    simp only [publishAll, published, List.map_cons]
    exact ⟨by rw [answers], by rw [more, records]; simp⟩

/-- Drafts as envelopes, each stamped with its identifier and time. -/
def stamped (drafts : List (Draft × Uuid × Instant)) : List Envelope :=
  drafts.map fun (draft, id, now) => draft.toEnvelope id now

theorem leftOf_deliveriesFrom (topic : String) (i : Nat) (records : List BusRecord) :
    Carries ⟨topic, 0⟩ i (records.map (·.payload)) (Script.leftOf (deliveriesFrom topic (.ofNat i) records)) := by
  induction records generalizing i with
  | nil => exact .timeout .done
  | cons r records ih =>
    have next : Int64.ofNat i + 1 = .ofNat (i + 1) := (Int64.ofNat_add i 1).symm
    simp only [deliveriesFrom, Script.leftOf, Bool.false_eq_true, if_false, next]
    exact .message (ih (i + 1))

/-- A script whose arrivals are the messages of a topic carries its records. -/
theorem carries_deliveries (topic : String) (bus : LocalBus) :
    Carries ⟨topic, 0⟩ 0 ((bus.recordsOn topic).map (·.payload)) (Script.left { arrivals := deliveries topic bus }) :=
  leftOf_deliveriesFrom topic 0 (bus.recordsOn topic)

/-- Events that are published on a bus in memory, and delivered to a consumer at the offsets from 0 on, are
stored in chunks of the size that is set, as long as the store and the commits do their part and batches are
not written before they are full. Offsets are words of 64 bits with a sign, and the events fewer than these. -/
theorem events_stored {io : Ports σ} {raised : σ → Bool} {left : σ → List Delivery} (feeds : io.Feeds raised left)
    (drafts : List (Draft × Uuid × Instant)) (fits : drafts.length < 2 ^ 63) (publishing : PublisherSettings)
    (policy : BatchPolicy) (positive : 1 ≤ policy.maxSize) (started : Instant) (k : Partition) (w : σ)
    (carried : Carries k 0
      (((publishAll LocalBus.ports (stamped drafts) { settings := publishing, bus := {} }).2.bus.recordsOn
        publishing.topic).map (·.payload))
      (left w)) :
    (publishAll LocalBus.ports (stamped drafts) { settings := publishing, bus := {} }).1 =
        (stamped drafts).map (fun e => some e.eventId) ∧
      (∀ payload position, .message payload position ∈ left w → ∃ e, Envelope.decode payload = .ok e) ∧
      (∃ d, (Consumer.fresh policy { started } w).runFor io.recorded (fun r => raised r.world)
        (Consumer.turnsFor policy (left w).length) = some d) ∧
      ∀ turns d, (Consumer.fresh policy { started } w).runFor io.recorded (fun r => raised r.world) turns = some d →
        Smooth policy.maxAge d.world.calls → Consumer.Stored k policy.maxSize (stamped drafts) d := by
  obtain ⟨answers, records⟩ :=
    publishAll_available (p := { settings := publishing, bus := {} }) rfl (.inl rfl) (stamped drafts)
  have readable : ∀ e ∈ stamped drafts, Envelope.decode e.encode = .ok e.reread := by
    intro e member
    obtain ⟨⟨draft, id, now⟩, _, rfl⟩ := List.mem_map.mp member
    exact draft.decode_toEnvelope id now
  have payloads : ((publishAll LocalBus.ports (stamped drafts) { settings := publishing, bus := {} }).2.bus.recordsOn
      publishing.topic).map (·.payload) = (stamped drafts).map Envelope.encode := by
    rw [records, LocalBus.recordsOn, List.filter_nil, List.nil_append, List.map_map]
    rfl
  rw [payloads] at carried
  refine ⟨answers, fun payload position member => ?_, Consumer.exists_runFor_turnsFor feeds policy _ w, ?_⟩
  · obtain ⟨e, published, rfl⟩ := List.mem_map.mp (carried.payload_mem member)
    exact ⟨_, readable e published⟩
  · intro turns d run smooth
    have filling : Consumer.Filling k [] [] (Consumer.fresh policy { started } w) :=
      ⟨.start k policy started w, by simp, positive, rfl⟩
    exact filling.run feeds readable (by simpa [stamped] using fits) carried run smooth

/-- Two events fill a batch, and the third one is left for the end. The first has blank metadata. -/
def threeDrafts : List (Draft × Uuid × Instant) :=
  [({ type := .accessGranted, org := some "org", metadata := .string " " }, ⟨1⟩, .epoch),
    ({ type := .policyViolation }, ⟨2⟩, .epoch), ({ type := .promptCreated, agent := some "a\n" }, ⟨3⟩, .epoch)]

def pairs : BatchPolicy where
  maxSize := 2

def arriving : Script where
  arrivals := deliveries "governance.events"
    (publishAll LocalBus.ports (stamped threeDrafts) { settings := {}, bus := {} }).2.bus

/-- The consumer at the end of its run. -/
def arrived : Option (Consumer (Recorded Script)) :=
  (Consumer.fresh pairs { started := .epoch } arriving).runFor Script.ports.recorded (fun r => r.world.shutdown)
    (Consumer.turnsFor pairs (Script.left arriving).length)

theorem events_stored_threeDrafts :
    ∃ d, arrived = some d ∧ Consumer.Stored ⟨"governance.events", 0⟩ 2 (stamped threeDrafts) d ∧
      (insertsOf d.world.calls).map (·.map (·.eventType)) =
        [["ACCESS_GRANTED", "POLICY_VIOLATION"], ["PROMPT_CREATED"]] := by
  obtain ⟨_, _, ⟨d, run⟩, stored⟩ := events_stored Script.ports_feeds threeDrafts (by decide) {} pairs (by decide)
    .epoch ⟨"governance.events", 0⟩ arriving (carries_deliveries _ _)
  have facts : arrived.map (fun d =>
      (d.world.calls.all Call.isStill, (insertsOf d.world.calls).map (·.map (·.eventType)))) =
      some (true, [["ACCESS_GRANTED", "POLICY_VIOLATION"], ["PROMPT_CREATED"]]) := by decide +kernel
  have ended : arrived = some d := run
  rw [ended, Option.map_some, Option.some.injEq, Prod.mk.injEq] at facts
  exact ⟨d, ended, stored _ d run (.of_still (by decide) facts.1), facts.2⟩

end Pipeline

end EventRelay
