import EventRelay.Environment
import EventRelay.Time.Span

/-!
Settings of the publisher, and the topics that it derives from them.
-/

namespace EventRelay

structure PublisherSettings where
  bootstrapServers : String := "localhost:9092"
  topic : String := "governance.events"
  categoryTopicRoot : String := "governance.events."
  lingerMillis : UInt64 := 5
  batchBytes : UInt64 := 1048576
  batchMessages : UInt64 := 10000
  compression : String := "lz4"
  acks : String := "all"
  messageTimeoutMillis : UInt64 := 30000
  connectWait : Span := .ofMillis 3000
  cooldown : Span := .ofSeconds 30
  flushWait : Span := .ofMillis 5000

namespace PublisherSettings

/-- The settings that variables give, with the defaults for those that are unset. A batch holds at
least one byte and one message. -/
def ofEnvironment (env : Environment) : PublisherSettings :=
  let d : PublisherSettings := {}
  { bootstrapServers := env.textD "KAFKA_BOOTSTRAP" d.bootstrapServers
    topic := env.textD "GOVERNANCE_TOPIC" d.topic
    categoryTopicRoot := env.textD "GOVERNANCE_CATEGORY_TOPIC_PREFIX" d.categoryTopicRoot
    lingerMillis := env.wordD "KAFKA_LINGER_MS" d.lingerMillis
    batchBytes := max (env.wordD "KAFKA_BATCH_BYTES" d.batchBytes) 1
    batchMessages := max (env.wordD "KAFKA_BATCH_MESSAGES" d.batchMessages) 1
    compression := env.textD "KAFKA_COMPRESSION" d.compression
    acks := env.textD "KAFKA_ACKS" d.acks
    messageTimeoutMillis := env.wordD "KAFKA_MESSAGE_TIMEOUT_MS" d.messageTimeoutMillis
    connectWait := ((env.word? "PUBLISHER_CONNECT_TIMEOUT_MS").map Span.ofMillis).getD
      d.connectWait
    cooldown := ((env.word? "PUBLISHER_RECONNECT_COOLDOWN_SECONDS").map
      Span.ofSeconds).getD d.cooldown
    flushWait := ((env.word? "PUBLISHER_FLUSH_TIMEOUT_MS").map Span.ofMillis).getD
      d.flushWait }

/-- The topic to which a category's events go besides the primary one, by the category's trimmed
name in lower case; `none` for no name, no common start, or the primary topic itself. -/
def topicOfCategory (settings : PublisherSettings) (category : String) : Option String :=
  let category := Text.asciiLower (Text.trim category)
  if category = "" ∨ settings.categoryTopicRoot = "" then
    none
  else
    let topic := settings.categoryTopicRoot ++ category
    if topic = settings.topic then none else some topic

end PublisherSettings

end EventRelay
