import EventRelay.Event.Decoding

/-!
Events as an application describes them. `Draft.toEnvelope` stamps a draft with an identifier and a
time and turns it into an envelope; the time of ingestion stays open.
-/

namespace EventRelay

/-- A universally unique identifier of 128 bits. -/
structure Uuid where
  bits : BitVec 128
  deriving DecidableEq

namespace Uuid

/-- The bits that 32 hexadecimal digits denote. -/
def ofHex? (s : String) : Option Uuid := do
  let digits ← s.toList.mapM Digits.hexValue?
  if digits.length = 32 then
    some ⟨BitVec.ofNat 128 (digits.foldl (fun n d => n * 16 + d) 0)⟩
  else
    none

/-- Groups of 8, 4, 4, 4 and 12 hexadecimal digits in lower case. -/
def text (u : Uuid) : String :=
  let digits := Digits.hexadecimal u.bits.toNat
  let digits := List.replicate (32 - digits.length) '0' ++ digits
  let group (start length : Nat) := (digits.drop start).take length
  String.ofList (group 0 8 ++ '-' :: group 8 4 ++ '-' :: group 12 4 ++ '-' :: group 16 4 ++
    '-' :: group 20 12)

end Uuid

/-- A hash over what an event governs, with the name of its algorithm. -/
structure GovernanceHash where
  hash : String
  hashType : String
  deriving DecidableEq

/-- The request that led to an event. -/
structure RequestOrigin where
  method : String
  path : String
  sourceIp : Option String
  deriving DecidableEq

structure Draft where
  type : EventType
  category : Category := type.defaultCategory
  agent : Option String := none
  org : Option String := none
  context : Option String := none
  prompt : Option String := none
  version : Option String := none
  classification : Option String := none
  hash : Option GovernanceHash := none
  severity : Severity := .default
  trace : Option String := none
  request : Option RequestOrigin := none
  occurredAt : Option Instant := none
  metadata : Json.Value := .object []

namespace Draft

/-- The metadata text of a draft: a string is taken as it is, any other value is printed, and null
is an empty object. -/
def metadataText : Json.Value → String
  | .null => Field.absent .metadata
  | .string s => s
  | other => other.text

def toEnvelope (d : Draft) (id : Uuid) (now : Instant) : Envelope where
  eventId := id.text
  eventType := d.type.name
  eventCategory := d.category.name
  agentId := d.agent.getD ""
  orgId := d.org.getD ""
  contextId := d.context.getD ""
  promptId := d.prompt.getD ""
  versionId := d.version.getD ""
  dataClassification := d.classification.getD ""
  governanceHash := (d.hash.map (·.hash)).getD ""
  hashType := (d.hash.map (·.hashType)).getD ""
  severity := d.severity.name
  traceId := d.trace.getD ""
  sourceIp := (d.request.bind (·.sourceIp)).getD ""
  requestMethod := (d.request.map (·.method)).getD ""
  requestPath := (d.request.map (·.path)).getD ""
  eventTime := (d.occurredAt.getD now).wireText
  ingestedAt := ""
  metadata := metadataText d.metadata

end Draft

end EventRelay
