import EventRelay.Ingest.Ports
import EventRelay.Network.Http
import EventRelay.Store.Backoff

/-!
The analytics store behind its HTTP interface: a sign of life, bulk inserts that are repeated until
they succeed or the attempts are used up, and diagnostic queries.
-/

namespace EventRelay

structure StoreClient where
  url : String
  database : String
  table : String
  user : String
  password : String
  pingTimeout : Span
  requestTimeout : Span
  retry : Backoff

inductive StoreError
  | status (code : Nat) (body : String)
  | transport
  | unexpected (text : String)
  deriving DecidableEq

namespace StoreError

def message : StoreError → String
  | .status code body => "clickhouse returned " ++ Digits.toText code ++ ": " ++ body
  | .transport => "http transport error"
  | .unexpected text => "unexpected response: " ++ text

end StoreError

namespace StoreClient

variable {σ : Type}

def tableName (client : StoreClient) : String :=
  client.database ++ "." ++ client.table

/-- The headers that name the user, and the password if there is one. -/
def credentials (client : StoreClient) : List (String × String) :=
  ("X-ClickHouse-User", client.user) ::
    if client.password = "" then [] else [("X-ClickHouse-Key", client.password)]

/-- A request with credentials; none can be made of texts that headers cannot carry. -/
def post? (client : StoreClient) (query headers : List (String × String)) (body : String) :
    Option HttpRequest :=
  let headers := client.credentials ++ headers
  if headers.all fun (_, value) => Http.fitsHeader value then
    some { method := "POST", target := Http.target (client.url ++ "/") query, headers, body }
  else
    none

/-- Sends a request that could be made. The reply is the last one, if the link was redirected;
without a reply the transport has failed. -/
def send (client : StoreClient) (link : Link σ) (request : Option HttpRequest) (s : σ) :
    Except StoreError HttpReply × σ :=
  match request with
  | none => (.error .transport, s)
  | some r =>
    match link.exchange r client.requestTimeout s with
    | (.ok reply, s) => (.ok reply, s)
    | (.error _, s) => (.error .transport, s)

/-- Sends a diagnostic query and answers the text of the reply. -/
def query (client : StoreClient) (link : Link σ) (sql : String) (s : σ) :
    Except StoreError String × σ :=
  match client.send link (client.post? [("database", client.database)] [] sql) s with
  | (.error e, s) => (.error e, s)
  | (.ok reply, s) =>
    if reply.isSuccess then (.ok reply.text, s) else (.error (.status reply.status reply.text), s)

/-- The number of rows in the table. -/
def rowCount (client : StoreClient) (link : Link σ) (s : σ) : Except StoreError UInt64 × σ :=
  match client.query link ("SELECT count() FROM " ++ client.tableName) s with
  | (.error e, s) => (.error e, s)
  | (.ok text, s) =>
    match Digits.unsigned? (UInt64.size - 1) (Text.trimChars text.toList) with
    | some n => (.ok (UInt64.ofNat n), s)
    | none => (.error (.unexpected ("count() returned '" ++ Text.trim text ++ "'")), s)

/-- The request that writes rows. -/
def insertRequest? (client : StoreClient) (rows : List Envelope) : Option HttpRequest :=
  client.post? [("query", "INSERT INTO " ++ client.tableName ++ " FORMAT JSONEachRow")]
    [("Content-Type", "application/x-ndjson")] (Envelope.linesText rows)

/-- One attempt to write rows. -/
def insertOnce (client : StoreClient) (link : Link σ) (rows : List Envelope) (s : σ) :
    Except StoreError Unit × σ :=
  match client.send link (client.insertRequest? rows) s with
  | (.error e, s) => (.error e, s)
  | (.ok reply, s) =>
    if reply.isSuccess then (.ok (), s)
    else (.error (.status reply.status (Text.trim reply.text)), s)

/-- Writes rows, with repeated attempts, and answers how many are written: all of them or none. -/
def insert (client : StoreClient) (link : Link σ) (rows : List Envelope) (s : σ) : Nat × σ :=
  if rows.isEmpty then
    (0, s)
  else
    match client.retry.run (fun _ => client.insertOnce link rows) link.sleep s with
    | (.ok (), s) => (rows.length, s)
    | (.error _, s) => (0, s)

/-- Whether the store gives a sign of life. -/
def ping (client : StoreClient) (link : Link σ) (s : σ) : Bool × σ :=
  match link.exchange { method := "GET", target := Http.target (client.url ++ "/ping") [] }
      client.pingTimeout s with
  | (.ok reply, s) => (reply.isSuccess, s)
  | (.error _, s) => (false, s)

/-- The store as the ingest sees it. -/
def rowStore (client : StoreClient) (link : Link σ) : RowStore σ where
  ping := client.ping link
  insert := client.insert link

end StoreClient

end EventRelay
