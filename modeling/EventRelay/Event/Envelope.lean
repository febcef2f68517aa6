import EventRelay.Text.Utf8
import EventRelay.Json.Printer
import EventRelay.Time.Reading

/-!
The envelope of a governance event: nineteen texts, in a fixed order, of which all but the first
three may be empty. `Envelope.encode` writes it as the JSON that travels on the bus.
-/

namespace EventRelay

/-- One governance event as it travels over the bus and lands in the analytics store. -/
structure Envelope where
  eventId : String
  eventType : String
  eventCategory : String
  agentId : String
  orgId : String
  contextId : String
  promptId : String
  versionId : String
  dataClassification : String
  governanceHash : String
  hashType : String
  severity : String
  traceId : String
  sourceIp : String
  requestMethod : String
  requestPath : String
  eventTime : String
  ingestedAt : String
  metadata : String
  deriving DecidableEq, Inhabited

/-- The fields of an envelope. -/
inductive Field
  | eventId
  | eventType
  | eventCategory
  | agentId
  | orgId
  | contextId
  | promptId
  | versionId
  | dataClassification
  | governanceHash
  | hashType
  | severity
  | traceId
  | sourceIp
  | requestMethod
  | requestPath
  | eventTime
  | ingestedAt
  | metadata
  deriving DecidableEq

namespace Field

/-- All fields in the order in which they are written. -/
def all : List Field :=
  [.eventId, .eventType, .eventCategory, .agentId, .orgId, .contextId, .promptId, .versionId,
    .dataClassification, .governanceHash, .hashType, .severity, .traceId, .sourceIp,
    .requestMethod, .requestPath, .eventTime, .ingestedAt, .metadata]

def name : Field → String
  | .eventId => "event_id"
  | .eventType => "event_type"
  | .eventCategory => "event_category"
  | .agentId => "agent_id"
  | .orgId => "org_id"
  | .contextId => "context_id"
  | .promptId => "prompt_id"
  | .versionId => "version_id"
  | .dataClassification => "data_classification"
  | .governanceHash => "governance_hash"
  | .hashType => "hash_type"
  | .severity => "severity"
  | .traceId => "trace_id"
  | .sourceIp => "source_ip"
  | .requestMethod => "request_method"
  | .requestPath => "request_path"
  | .eventTime => "event_time"
  | .ingestedAt => "ingested_at"
  | .metadata => "metadata"

/-- The field with this name. -/
def ofName? (name : String) : Option Field :=
  all.find? fun f => f.name == name

/-- The fields without which there is no event. -/
def isRequired : Field → Bool
  | .eventId | .eventType | .eventCategory => true
  | _ => false

/-- What a field holds that is not given: no metadata is an empty object. -/
def absent : Field → String
  | .metadata => "\x7b\x7d"
  | _ => ""

theorem mem_all (f : Field) : f ∈ all := by
  cases f <;> decide

theorem ofName?_name (f : Field) : ofName? f.name = some f := by
  cases f <;> decide

end Field

namespace Envelope

/-- What a field holds. -/
def get (e : Envelope) : Field → String
  | .eventId => e.eventId
  | .eventType => e.eventType
  | .eventCategory => e.eventCategory
  | .agentId => e.agentId
  | .orgId => e.orgId
  | .contextId => e.contextId
  | .promptId => e.promptId
  | .versionId => e.versionId
  | .dataClassification => e.dataClassification
  | .governanceHash => e.governanceHash
  | .hashType => e.hashType
  | .severity => e.severity
  | .traceId => e.traceId
  | .sourceIp => e.sourceIp
  | .requestMethod => e.requestMethod
  | .requestPath => e.requestPath
  | .eventTime => e.eventTime
  | .ingestedAt => e.ingestedAt
  | .metadata => e.metadata

/-- The envelope whose fields hold the given texts. -/
def ofFields (content : Field → String) : Envelope where
  eventId := content .eventId
  eventType := content .eventType
  eventCategory := content .eventCategory
  agentId := content .agentId
  orgId := content .orgId
  contextId := content .contextId
  promptId := content .promptId
  versionId := content .versionId
  dataClassification := content .dataClassification
  governanceHash := content .governanceHash
  hashType := content .hashType
  severity := content .severity
  traceId := content .traceId
  sourceIp := content .sourceIp
  requestMethod := content .requestMethod
  requestPath := content .requestPath
  eventTime := content .eventTime
  ingestedAt := content .ingestedAt
  metadata := content .metadata

@[simp] theorem get_ofFields (content : Field → String) (f : Field) :
    (ofFields content).get f = content f := by
  cases f <;> rfl

@[simp] theorem ofFields_get (e : Envelope) : ofFields e.get = e := rfl

theorem ext_get {e e' : Envelope} (h : ∀ f, e.get f = e'.get f) : e = e' := by
  rw [← ofFields_get e, ← ofFields_get e', funext h]

/-- The key of events that belong to no organization and no agent. -/
def fallbackKey : String := "default"

/-- The organization, or else the agent, so that one organization's events share a partition. -/
def partitionKey (e : Envelope) : String :=
  if e.orgId ≠ "" then e.orgId
  else if e.agentId ≠ "" then e.agentId
  else fallbackKey

/-- A field as a member of a JSON object. -/
def memberChars (e : Envelope) (f : Field) : List Char :=
  Json.quoteText f.name ++ ':' :: Json.quoteText (e.get f)

/-- The envelope as compact JSON with all fields in order. -/
def chars (e : Envelope) : List Char :=
  '\x7b' :: [','].intercalate (Field.all.map e.memberChars) ++ ['\x7d']

def encodedText (e : Envelope) : String :=
  String.ofList e.chars

/-- The payload that carries the envelope. -/
def encode (e : Envelope) : Bytes :=
  Utf8.encode e.chars

/-- The envelope with its event time as the store's literal, `now` for what cannot be read, and the
time of ingestion set. -/
def normalized (e : Envelope) (now : Instant) : Envelope :=
  { e with eventTime := Instant.normalized e.eventTime now, ingestedAt := now.storeText }

/-- Envelopes as lines of JSON, each ended by a line feed. -/
def linesChars (rows : List Envelope) : List Char :=
  rows.flatMap fun e => e.chars ++ ['\n']

def linesText (rows : List Envelope) : String :=
  String.ofList (linesChars rows)

end Envelope

end EventRelay
