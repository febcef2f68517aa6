import EventRelay.Health
import EventRelay.Ingest.Settings
import EventRelay.Proofs.Event.Canonical
import EventRelay.Proofs.Event.Lines
import EventRelay.Proofs.Event.Metadata
import EventRelay.Proofs.Event.Normalized
import EventRelay.Proofs.Event.Occurrence
import EventRelay.Proofs.Ingest.Acceptance
import EventRelay.Proofs.Ingest.Aging
import EventRelay.Proofs.Ingest.Counters
import EventRelay.Proofs.Ingest.Flushes
import EventRelay.Proofs.Ingest.Forward
import EventRelay.Proofs.Ingest.Redelivery
import EventRelay.Proofs.Ingest.Shutdown
import EventRelay.Proofs.Ingest.Transparency
import EventRelay.Proofs.Pipeline
import EventRelay.Proofs.Publisher.SingleFlight
import EventRelay.Proofs.Publisher.Throttling
import EventRelay.Proofs.Store.Retries
import EventRelay.Proofs.Store.Waits
import EventRelay.Proofs.Time.Days
import EventRelay.Proofs.Time.Literal
import EventRelay.Proofs.Time.Timestamp
import EventRelay.Publisher.Script
import EventRelay.Proofs.Ingest.Handshake
import EventRelay.Proofs.Environment
import EventRelay.Proofs.Ingest.Bounds
import EventRelay.Proofs.Time.Order
import EventRelay.Proofs.Event.InOrder
import EventRelay.Proofs.Ingest.Held
