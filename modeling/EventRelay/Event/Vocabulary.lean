import EventRelay.Json.Fault
import EventRelay.Text.Blank

/-!
The fixed words of governance events: categories, event types and severities, with their spellings
and the values of JSON that name them.
-/

namespace EventRelay

inductive Category
  | agent
  | context
  | prompt
  | access
  | policy
  deriving DecidableEq

inductive EventType
  | agentRegistered
  | agentUpdated
  | agentDeactivated
  | contextCreated
  | contextUpdated
  | contextDeleted
  | promptCreated
  | promptVersionPublished
  | injectSuccess
  | injectDenied
  | accessGranted
  | accessDenied
  | accessRevoked
  | policyViolation
  deriving DecidableEq

inductive Severity
  | info
  | warning
  | critical
  deriving DecidableEq

/-- Why a JSON value names no word of a vocabulary. -/
inductive VocabularyError
  | unknown (found : String) (known : List String)
  | invalidType (found : Json.Shape) (expected : String)
  | notOneMember

namespace Json.Value

/-- What a value of this kind is called. -/
def shape : Value → Shape
  | .null => .null
  | .bool b => .bool b
  | .number n => .number n
  | .string s => .string s
  | .array _ => .sequence
  | .object _ => .map

end Json.Value

namespace VocabularyError

def message : VocabularyError → String
  | .unknown found known =>
    "unknown variant `" ++ found ++ "`, expected one of " ++
      ", ".intercalate (known.map fun word => "`" ++ word ++ "`")
  | .invalidType found expected => (Json.Cause.invalidType found expected).message
  | .notOneMember => "invalid value: map, expected map with a single key"

end VocabularyError

namespace Vocabulary

/-- The word with exactly this spelling. -/
def find {α : Type} (words : List α) (name : α → String) (spelling : String) :
    Except VocabularyError α :=
  match words.find? fun word => name word == spelling with
  | some word => .ok word
  | none => .error (.unknown spelling (words.map name))

/-- A word stands as its spelling, or as the name of a sole member whose value is null. -/
def ofJson {α : Type} (words : List α) (name : α → String) :
    Json.Value → Except VocabularyError α
  | .string spelling => find words name spelling
  | .object [(spelling, content)] => do
    let word ← find words name spelling
    match content with
    | .null => .ok word
    | other => .error (.invalidType other.shape "unit")
  | .object _ => .error .notOneMember
  | other => .error (.invalidType other.shape "string or map")

end Vocabulary

namespace Category

def all : List Category := [.agent, .context, .prompt, .access, .policy]

def name : Category → String
  | .agent => "agent"
  | .context => "context"
  | .prompt => "prompt"
  | .access => "access"
  | .policy => "policy"

/-- Reads a category's name in any case and with blanks around it. -/
def ofText? (text : String) : Option Category :=
  all.find? fun c => c.name == Text.asciiLower (Text.trim text)

def ofJson : Json.Value → Except VocabularyError Category :=
  Vocabulary.ofJson all name

end Category

namespace EventType

def all : List EventType :=
  [.agentRegistered, .agentUpdated, .agentDeactivated, .contextCreated, .contextUpdated,
    .contextDeleted, .promptCreated, .promptVersionPublished, .injectSuccess, .injectDenied,
    .accessGranted, .accessDenied, .accessRevoked, .policyViolation]

def name : EventType → String
  | .agentRegistered => "AGENT_REGISTERED"
  | .agentUpdated => "AGENT_UPDATED"
  | .agentDeactivated => "AGENT_DEACTIVATED"
  | .contextCreated => "CONTEXT_CREATED"
  | .contextUpdated => "CONTEXT_UPDATED"
  | .contextDeleted => "CONTEXT_DELETED"
  | .promptCreated => "PROMPT_CREATED"
  | .promptVersionPublished => "PROMPT_VERSION_PUBLISHED"
  | .injectSuccess => "INJECT_SUCCESS"
  | .injectDenied => "INJECT_DENIED"
  | .accessGranted => "ACCESS_GRANTED"
  | .accessDenied => "ACCESS_DENIED"
  | .accessRevoked => "ACCESS_REVOKED"
  | .policyViolation => "POLICY_VIOLATION"

/-- The category under which an event of this type is routed unless another one is chosen. -/
def defaultCategory : EventType → Category
  | .agentRegistered | .agentUpdated | .agentDeactivated => .agent
  | .contextCreated | .contextUpdated | .contextDeleted => .context
  | .promptCreated | .promptVersionPublished => .prompt
  | .injectSuccess | .injectDenied | .accessGranted | .accessDenied | .accessRevoked => .access
  | .policyViolation => .policy

def ofJson : Json.Value → Except VocabularyError EventType :=
  Vocabulary.ofJson all name

end EventType

namespace Severity

def all : List Severity := [.info, .warning, .critical]

def name : Severity → String
  | .info => "info"
  | .warning => "warning"
  | .critical => "critical"

/-- The severity of an event that states none. -/
def default : Severity := .info

def ofJson : Json.Value → Except VocabularyError Severity :=
  Vocabulary.ofJson all name

end Severity

end EventRelay
