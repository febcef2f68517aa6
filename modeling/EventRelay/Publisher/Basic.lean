import EventRelay.Event.Draft
import EventRelay.Publisher.Bus
import EventRelay.Publisher.Settings

/-!
The publisher of governance events. Its first use connects. A connection that fails is remembered
for a while, so that a bus in trouble is not asked again by every caller.

Each operation is made up of steps that touch the connection, and these are given on their own:
`claim` decides what a caller may do and takes on the task of connecting, and `settle` stores how
that task ended. Between the two the connection is free for other callers, who find it `connecting`.
-/

namespace EventRelay

/-- What a publisher knows of its connection. -/
inductive Connection
  | idle
  /-- A caller is connecting, and the others pass. -/
  | connecting
  | ready
  | failed (moment : Moment) (reason : PublishError)
  deriving DecidableEq

/-- What a caller may do that wants to send. -/
inductive Claim
  | send
  | skip
  | connect
  deriving DecidableEq

namespace Connection

/-- Decides what a caller may do at a moment. A failure that is as old as the cooldown no longer
counts. -/
def claim (cooldown : Span) (now : Moment) : Connection → Claim × Connection
  | .ready => (.send, .ready)
  | .connecting => (.skip, .connecting)
  | .idle => (.connect, .connecting)
  | .failed moment reason =>
    if now.since moment < cooldown.toNanos then (.skip, .failed moment reason)
    else (.connect, .connecting)

/-- Whoever finds the connection ready sends, and whoever connects marks it so. -/
theorem claim_cases {cooldown : Span} {now : Moment} {before after : Connection} {verdict : Claim}
    (claimed : before.claim cooldown now = (verdict, after)) :
    (verdict = .send ∧ before = .ready ∧ after = .ready) ∨ (verdict = .skip ∧ before ≠ .ready ∧ after = before) ∨
      (verdict = .connect ∧ before ≠ .ready ∧ before ≠ .connecting ∧ after = .connecting) := by
  cases before with
  | failed moment reason =>
    simp only [claim] at claimed
    split at claimed <;> cases claimed
    · exact .inr (.inl ⟨rfl, by simp, rfl⟩)
    · exact .inr (.inr ⟨rfl, by simp, by simp, rfl⟩)
  | idle =>
    cases claimed
    exact .inr (.inr ⟨rfl, by simp, by simp, rfl⟩)
  | connecting =>
    cases claimed
    exact .inr (.inl ⟨rfl, by simp, rfl⟩)
  | ready =>
    cases claimed
    exact .inl ⟨rfl, rfl, rfl⟩

theorem claim_connect {cooldown : Span} {now : Moment} {before after : Connection}
    (claimed : before.claim cooldown now = (.connect, after)) : after = .connecting := by
  rcases claim_cases claimed with ⟨other, _⟩ | ⟨other, _⟩ | ⟨_, _, _, connecting⟩
  · cases other
  · cases other
  · exact connecting

/-- What an attempt to connect leaves behind. -/
def settle (now : Moment) : Except PublishError Unit → Connection
  | .ok () => .ready
  | .error reason => .failed now reason

/-- Forgets a failure, so that the next caller connects. -/
def reset : Connection → Connection
  | .failed _ _ => .idle
  | other => other

def isDown : Connection → Bool
  | .failed _ _ => true
  | _ => false

end Connection

/-- A publisher together with the state `bus` of the bus. -/
structure Publisher (σ : Type) where
  settings : PublisherSettings
  connection : Connection := .idle
  bus : σ

/-- How a publisher reaches the bus. A connector may itself use the publisher while it is
connecting. -/
structure PublisherPorts (σ : Type) where
  connect : Publisher σ → Except PublishError Unit × Publisher σ
  writer : BusWriter σ
  now : σ → Moment

namespace Publisher

variable {σ : Type}

/-- Gets hold of the bus: whether there is a connection to send on. -/
def acquire (io : PublisherPorts σ) (p : Publisher σ) : Bool × Publisher σ :=
  match p.connection.claim p.settings.cooldown (io.now p.bus) with
  | (.send, connection) => (true, { p with connection })
  | (.skip, connection) => (false, { p with connection })
  | (.connect, connection) =>
    let (result, p) := io.connect { p with connection }
    ((match result with
      | .ok () => true
      | .error _ => false),
      { p with connection := .settle (io.now p.bus) result })

/-- Sends a record. -/
def send (io : PublisherPorts σ) (topic : String) (e : Envelope) (p : Publisher σ) :
    Except PublishError Unit × Publisher σ :=
  let (result, bus) := io.writer.send ⟨topic, e.partitionKey, e.encode⟩ p.bus
  (result, { p with bus })

/-- Sends an event on the primary topic, then on the topic of its category, and answers its
identifier once the primary topic has taken it. -/
def publish (io : PublisherPorts σ) (e : Envelope) (p : Publisher σ) :
    Option String × Publisher σ :=
  match p.acquire io with
  | (false, p) => (none, p)
  | (true, p) =>
    match p.send io p.settings.topic e with
    | (.error _, p) => (none, p)
    | (.ok (), p) =>
      let p := match p.settings.topicOfCategory e.eventCategory with
        | none => p
        | some topic => (p.send io topic e).2
      (some e.eventId, { p with bus := io.writer.poll p.bus })

/-- Publishes a draft, stamped with an identifier and a time. -/
def publishDraft (io : PublisherPorts σ) (d : Draft) (id : Uuid) (now : Instant)
    (p : Publisher σ) : Option String × Publisher σ :=
  p.publish io (d.toEnvelope id now)

/-- Drives deliveries without waiting for them. -/
def poll (io : PublisherPorts σ) (p : Publisher σ) : Publisher σ :=
  match p.connection with
  | .ready => { p with bus := io.writer.poll p.bus }
  | _ => p

/-- Waits for outstanding deliveries, but not for long. -/
def flush (io : PublisherPorts σ) (p : Publisher σ) : Except PublishError Unit × Publisher σ :=
  match p.connection with
  | .ready =>
    let (result, bus) := io.writer.flush p.settings.flushWait p.bus
    (result, { p with bus })
  | _ => (.ok (), p)

def reset (p : Publisher σ) : Publisher σ :=
  { p with connection := p.connection.reset }

def isDown (p : Publisher σ) : Bool :=
  p.connection.isDown

end Publisher

namespace LocalBus

/-- How a publisher reaches a bus in memory; its clock stands still. -/
def ports : PublisherPorts LocalBus where
  connect p :=
    let (result, bus) := p.bus.connect
    (result, { p with bus })
  writer := writer
  now _ := ⟨0⟩

end LocalBus

end EventRelay
