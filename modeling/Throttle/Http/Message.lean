import Throttle.Http.Header
import Throttle.Http.Url
import Throttle.Time.MailDate

/-!
Requests and replies. A reply carries the date that its server gave it; a probe is the request
without its body, made only for the headers of the reply.
-/

namespace Throttle.Http

/-- A request as it is handed to the transport. -/
structure Request where
  method : String
  url : Url
  headers : Headers
  body : List UInt8
  deriving DecidableEq, Repr

namespace Request

/-- The request that asks only for headers. -/
def probe (r : Request) : Request := { r with method := "HEAD", body := [] }

/-- Sets a header, in place of the values it has. -/
def withHeader (r : Request) (n : HeaderName) (v : HeaderValue) : Request :=
  { r with headers := r.headers.insert n v }

/-- Sets a header that the request does not have. -/
def withDefault (r : Request) (n : HeaderName) (v : HeaderValue) : Request :=
  { r with headers := r.headers.insertNew n v }

end Request

/-- What a server answered. -/
structure Reply where
  status : Nat
  headers : Headers
  body : List UInt8
  /-- When the server says that it answered. -/
  date : Moment
  deriving DecidableEq, Repr

namespace Reply

def isSuccess (r : Reply) : Bool := 200 ≤ r.status && r.status < 300

/-- The server refused the request because a limit was overrun. -/
def isViolation (r : Reply) : Bool := r.status == 429

/-- How long the server asks to wait, in seconds or until a date. -/
def retryAfter (r : Reply) : Option Delay := do
  let cs := Text.trim (← (r.headers.get? "retry-after").bind HeaderValue.chars?)
  match Text.unsigned? UInt64.size cs with
  | some s => return Delay.ofSeconds s
  | none => return Moment.gap r.date (← MailDate.read? cs).moment

end Reply

/-- The header that carries credentials. -/
def authorizationName : HeaderName := ⟨"authorization"⟩

def userAgentName : HeaderName := ⟨"user-agent"⟩

end Throttle.Http
