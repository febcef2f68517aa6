import EventRelay.Environment
import EventRelay.Ingest.Batch
import EventRelay.Ingest.Startup
import EventRelay.Network.Address
import EventRelay.Store.Client

/-!
Settings of the ingest as environment variables give them. Numbers that make no sense are pulled
into their bounds; only an unknown offset policy and an invalid address are errors.
-/

namespace EventRelay

/-- Where a group starts in a log in which it has no offset yet. -/
inductive OffsetReset
  | earliest
  | latest
  deriving DecidableEq

structure IngestSettings where
  bootstrapServers : String
  topic : String
  consumerGroup : String
  offsetReset : OffsetReset
  store : StoreClient
  batch : BatchPolicy
  startup : StartupPolicy
  healthAddress : SocketAddress
  logLevel : String

inductive SettingsError
  | unsupportedOffsetReset (policy : String)
  | invalidHealthHost (host : String)
  deriving DecidableEq

namespace SettingsError

def message : SettingsError → String
  | .unsupportedOffsetReset policy =>
    "Failed to parse AUTO_OFFSET_RESET: Unsupported offset reset policy '" ++ policy ++
      "'. Use earliest or latest."
  | .invalidHealthHost host =>
    "Invalid HEALTH_HOST '" ++ host ++ "': invalid IP address syntax"

end SettingsError

namespace OffsetReset

def name : OffsetReset → String
  | .earliest => "earliest"
  | .latest => "latest"

/-- Reads a policy by either of its two names, in any case and with blanks around it. -/
def ofText (text : String) : Except SettingsError OffsetReset :=
  let policy := Text.asciiLower (Text.trim text)
  if policy = "earliest" ∨ policy = "smallest" then .ok .earliest
  else if policy = "latest" ∨ policy = "largest" then .ok .latest
  else .error (.unsupportedOffsetReset policy)

end OffsetReset

namespace IngestSettings

/-- A text without the slashes at its end. -/
def withoutEndSlashes (s : String) : String :=
  String.ofList (s.toList.reverse.dropWhile (· = '/')).reverse

/-- The number in a variable, no less than `least`. -/
def wordAtLeast (env : Environment) (name : String) (default least : UInt64) : UInt64 :=
  max (env.wordD name default) least

def storeClient (env : Environment) : StoreClient where
  url := withoutEndSlashes (env.textD "CLICKHOUSE_URL" "http://localhost:8123")
  database := env.textD "CLICKHOUSE_DATABASE" "governance"
  table := env.textD "CLICKHOUSE_TABLE" "events"
  user := env.textD "CLICKHOUSE_USER" "default"
  password := env.textD "CLICKHOUSE_PASSWORD" ""
  pingTimeout := .ofSeconds 2
  requestTimeout := .ofSeconds 30
  retry :=
    { maxAttempts := (min (wordAtLeast env "SINK_MAX_RETRIES" 3 1) 10).toUInt32
      firstWait := .ofMillis (env.wordD "SINK_RETRY_BASE_MS" 2000) }

/-- Attempts are counted in 32 bits, of a larger number the low ones. -/
def batchPolicy (env : Environment) : BatchPolicy where
  maxSize := (wordAtLeast env "BATCH_SIZE" 1000 1).toNat
  maxAge := .ofMillis (wordAtLeast env "BATCH_TIMEOUT_MS" 5000 100)
  pollWait := .ofMillis (wordAtLeast env "POLL_TIMEOUT_MS" 1000 10)
  maxFlushes := (wordAtLeast env "FLUSH_MAX_ATTEMPTS" 1 1).toUInt32
  progressInterval := .ofSeconds (wordAtLeast env "PROGRESS_INTERVAL_SECONDS" 10 1)

def startupPolicy (env : Environment) : StartupPolicy where
  maxAttempts := (wordAtLeast env "STARTUP_MAX_ATTEMPTS" 30 1).toUInt32
  interval := .ofMillis (env.wordD "STARTUP_RETRY_INTERVAL_MS" 2000)

/-- The address of the health endpoint; a port that is no number of 16 bits counts as unset. -/
def healthSocket (env : Environment) : Except SettingsError SocketAddress :=
  let host := env.textD "HEALTH_HOST" "0.0.0.0"
  let port := ((env.text? "HEALTH_PORT").bind fun text =>
    Digits.unsigned? (UInt16.size - 1) text.toList).getD 8090
  match IpAddress.ofText? host with
  | some ip => .ok ⟨ip, UInt16.ofNat port⟩
  | none => .error (.invalidHealthHost host)

/-- The settings that variables give, with the defaults for those that are unset. -/
def ofEnvironment (env : Environment) : Except SettingsError IngestSettings := do
  let offsetReset ← match env.text? "AUTO_OFFSET_RESET" with
    | some text => OffsetReset.ofText text
    | none => .ok .earliest
  let healthAddress ← healthSocket env
  .ok { bootstrapServers := env.textD "KAFKA_BOOTSTRAP" "localhost:9092"
        topic := env.textD "GOVERNANCE_TOPIC" "governance.events"
        consumerGroup := env.textD "CONSUMER_GROUP" "governance-ingest"
        offsetReset
        store := storeClient env
        batch := batchPolicy env
        startup := startupPolicy env
        healthAddress
        logLevel := env.textD "LOG_LEVEL" "info" }

end IngestSettings

end EventRelay
