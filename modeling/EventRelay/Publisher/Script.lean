import EventRelay.Publisher.Basic

/-!
A bus that follows a script, for publishers: connects, sends and flushes take their outcomes from
lists and succeed once these are used up, and every call is kept.
-/

namespace EventRelay

/-- The outcome of a connect: an error or success, and whether the connector uses the publisher
before it answers. -/
structure ScriptedConnect where
  outcome : Option PublishError := none
  reenters : Bool := false

/-- A call that reached the bus, or the use that a connector made of the publisher. -/
inductive BusCall
  | connect
  | inside (published : Option String) (flushed : Except PublishError Unit) (degraded : Bool)
  | send (topic key : String)
  | poll
  | flush (wait : Span)

structure ScriptedBus where
  connects : List ScriptedConnect := []
  sends : List (Option PublishError) := []
  flushes : List (Option PublishError) := []
  calls : List BusCall := []
  records : List BusRecord := []
  moment : Moment := ⟨0⟩

namespace ScriptedBus

/-- The first outcome of a list. -/
def outcome (list : List (Option PublishError)) : Except PublishError Unit :=
  match list with
  | some e :: _ => .error e
  | _ => .ok ()

def note (call : BusCall) (bus : ScriptedBus) : ScriptedBus :=
  { bus with calls := bus.calls ++ [call] }

/-- A send that fails leaves no record. -/
def send (r : BusRecord) (bus : ScriptedBus) : Except PublishError Unit × ScriptedBus :=
  let result := outcome bus.sends
  let records := match result with
    | .ok () => bus.records ++ [r]
    | .error _ => bus.records
  (result, { bus.note (.send r.topic r.key) with sends := bus.sends.tail, records })

def flush (wait : Span) (bus : ScriptedBus) : Except PublishError Unit × ScriptedBus :=
  (outcome bus.flushes, { bus.note (.flush wait) with flushes := bus.flushes.tail })

def writer : BusWriter ScriptedBus where
  send := send
  poll := note .poll
  flush := flush

/-- Ports for calls that come from within a connector. They never connect, because the connection is
being made. -/
def portsWithin : PublisherPorts ScriptedBus where
  connect p := (.error .notConfigured, p)
  writer := writer
  now bus := bus.moment

/-- What a connector does with the publisher: it publishes, polls, resets, flushes and asks. -/
def reenter (p : Publisher ScriptedBus) : Publisher ScriptedBus :=
  let e := Envelope.ofFields fun
    | .eventId => "reentrant"
    | .eventType => "T"
    | _ => ""
  let (published, p) := p.publish portsWithin e
  let p := p.poll portsWithin
  let p := p.reset
  let (flushed, p) := p.flush portsWithin
  { p with bus := p.bus.note (.inside published flushed p.isDown) }

def connect (p : Publisher ScriptedBus) : Except PublishError Unit × Publisher ScriptedBus :=
  let entry := p.bus.connects.headD {}
  let p := { p with bus := { p.bus.note .connect with connects := p.bus.connects.tail } }
  let p := if entry.reenters then reenter p else p
  (match entry.outcome with
    | some e => .error e
    | none => .ok (), p)

def ports : PublisherPorts ScriptedBus := { portsWithin with connect }

end ScriptedBus

end EventRelay
