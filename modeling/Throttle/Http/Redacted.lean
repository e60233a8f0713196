import Throttle.Http.Message
import Throttle.Text.Quoted

/-!
Headers for diagnostics, in which credentials are masked.
-/

namespace Throttle.Http.Headers

/-- What a diagnostic shows of a header. -/
def shown (n : HeaderName) (v : HeaderValue) : String :=
  if n = authorizationName then "<redacted>"
  else
    match v.chars? with
    | some cs => String.ofList cs
    | none => "<binary>"

/-- The headers in order, without credentials. -/
def redacted (h : Headers) : String :=
  Text.Quoted.mapping (h.toList.map fun (n, v) => (n.text, shown n v))

end Throttle.Http.Headers
