import EventRelay.Text.Utf8
import EventRelay.Time.Span

/-!
Exchanges over HTTP: requests and replies, the target of a request, and the link over which it
travels. A link is given by what it makes of each request.
-/

namespace EventRelay

structure HttpRequest where
  method : String
  target : String
  headers : List (String × String) := []
  body : String := ""
  deriving DecidableEq

structure HttpReply where
  status : Nat
  headers : List (String × String) := []
  body : Bytes := []
  deriving DecidableEq

/-- Why a request got no reply. -/
inductive LinkFault
  | unreachable
  | closed
  | timedOut
  deriving DecidableEq

/-- A way to a server, acting on a state: exchanges with a limit of time, and waits. An exchange
follows the redirections that it meets, and what it answers is the last reply. -/
structure Link (σ : Type) where
  exchange : HttpRequest → Span → σ → Except LinkFault HttpReply × σ
  sleep : Span → σ → σ

/-- What a server does with one request. -/
inductive ServerTurn
  | reply (r : HttpReply)
  | close
  | hang

/-- A server that goes through a list of turns, then replies with 200, and keeps the requests. -/
structure HttpServer where
  turns : List ServerTurn
  received : List HttpRequest := []

namespace LinkFault

def message : LinkFault → String
  | .unreachable => "Network is unreachable (os error 101)"
  | .closed => "connection closed before message completed"
  | .timedOut => "operation timed out"

end LinkFault

namespace Link

/-- No request ever leaves. -/
def unreachable {σ : Type} : Link σ where
  exchange _ _ s := (.error .unreachable, s)
  sleep _ s := s

/-- The way to a server that is up. -/
def served : Link HttpServer where
  exchange request _ server :=
    let server' := { server with
      turns := server.turns.tail
      received := server.received ++ [request] }
    match server.turns with
    | [] => (.ok { status := 200 }, server')
    | .reply r :: _ => (.ok r, server')
    | .close :: _ => (.error .closed, server')
    | .hang :: _ => (.error .timedOut, server')
  sleep _ server := server

end Link

namespace HttpReply

def isSuccess (r : HttpReply) : Bool :=
  200 ≤ r.status && r.status < 300

/-- The body as text. A byte order mark in front stays. -/
def text (r : HttpReply) : String :=
  Utf8.decodeLossy r.body

end HttpReply

namespace Http

/-- A byte as a percent sign and two digits. -/
def percent (b : UInt8) : List Char :=
  let digit (n : Nat) := if n < 10 then Char.ofNat (0x30 + n) else Char.ofNat (0x37 + n)
  ['%', digit (b.toNat / 16), digit (b.toNat % 16)]

/-- A byte of a form's name or value. -/
def formByte (b : UInt8) : List Char :=
  let c := Char.ofNat b.toNat
  if c.isAlphanum || c == '*' || c == '-' || c == '.' || c == '_' then [c]
  else if c == ' ' then ['+']
  else percent b

def formText (s : String) : List Char :=
  (Utf8.ofString s).flatMap formByte

/-- Names and values as a form sends them. -/
def form (pairs : List (String × String)) : List Char :=
  ['&'].intercalate (pairs.map fun (name, value) => formText name ++ '=' :: formText value)

/-- A byte of a path: controls, blanks, bytes beyond ASCII and a few marks are escaped. -/
def pathByte (b : UInt8) : List Char :=
  let c := Char.ofNat b.toNat
  if b ≤ 0x20 || 0x7E < b || ['"', '<', '>', '\x60', '\x7b', '\x7d', '^'].contains c then percent b
  else [c]

/-- What follows the scheme and the authority of an address. -/
def afterAuthority (cs : List Char) : List Char :=
  let rec go : List Char → List Char
    | [] => cs
    | ':' :: '/' :: '/' :: rest => rest.dropWhile fun c => c ≠ '/' && c ≠ '?' && c ≠ '#'
    | _ :: rest => go rest
  match cs with
  | '/' :: _ => cs
  | _ => go cs

/-- The path of an address or of a target, without query and fragment. -/
def pathChars (cs : List Char) : List Char :=
  let path := (afterAuthority cs).takeWhile fun c => c ≠ '?' && c ≠ '#'
  if path.isEmpty then ['/'] else path

/-- The target of a request to an address, with names and values added to its query. -/
def target (url : String) (pairs : List (String × String)) : String :=
  let whole := (afterAuthority url.toList).takeWhile (· ≠ '#')
  let path := (Utf8.encode (pathChars url.toList)).flatMap pathByte
  let own := (whole.dropWhile (· ≠ '?')).drop 1
  let parts := [(Utf8.encode own).flatMap pathByte, form pairs].filter (!·.isEmpty)
  let query := ['&'].intercalate parts
  String.ofList (if query.isEmpty then path else path ++ '?' :: query)

/-- Whether a header can carry a text: no control characters but tabs. -/
def fitsHeader (s : String) : Bool :=
  (Utf8.ofString s).all fun b => (0x20 ≤ b && b ≠ 0x7F) || b == 0x09

end Http

end EventRelay
