import EventRelay.Metrics
import EventRelay.Network.Http

/-!
The health endpoint: `GET /health` shows the metrics, and there is nothing else to be found.
-/

namespace EventRelay.Health

def path : String := "/health"

/-- The reply to a request. A method that the endpoint does not know is told those it knows. -/
def respond (m : Metrics) (method target : String) : HttpReply :=
  if String.ofList (Http.pathChars target.toList) = path then
    if method = "GET" then
      { status := 200
        headers := [("content-type", "application/json")]
        body := Utf8.ofString m.report.jsonText }
    else if method = "HEAD" then
      { status := 200, headers := [("content-type", "application/json")] }
    else
      { status := 405, headers := [("allow", "GET,HEAD")] }
  else
    { status := 404
      headers := [("content-type", "text/plain; charset=utf-8")]
      body := Utf8.ofString "not found" }

/-- A request that reaches the endpoint over a link, which it may be kept from. -/
def fetch {σ : Type} (link : Link σ) (limit : Span) (method target : String) (s : σ) :
    Except LinkFault HttpReply × σ :=
  link.exchange { method, target } limit s

end EventRelay.Health
