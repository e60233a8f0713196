import Throttle.Authorizer
import Throttle.Policy.Basic
import Throttle.Time.Calendar

/-!
Why a request or a probe failed. A refusal for an overrun limit is no failure: such a request is
sent again.
-/

namespace Throttle

/-- Why no reply came. -/
inductive TransportFailure where
  | network (cause : String)
  | io (cause : String)
  /-- The request was under way for too long. -/
  | timedOut (after : Delay)
  deriving DecidableEq, Repr

/-- Why a submission failed. -/
inductive Failure where
  /-- The probe's reply named no policy. -/
  | unnamedPolicy (endpoint : Endpoint)
  /-- The probe was answered with an error status. -/
  | probeStatus (endpoint : Endpoint) (status : Nat)
  /-- The probe's reply declared a policy that makes no sense. -/
  | malformedPolicy (cause : PolicyError)
  | transport (cause : TransportFailure)
  | authorization (refusal : Refusal)
  /-- The reply named no policy although its endpoint has one. -/
  | missingHeaders (policy : PolicyName) (status : Nat)
  /-- The reply has an error status. -/
  | unexpectedStatus (policy : PolicyName) (status : Nat)
  /-- The limiter stopped before the request was answered. -/
  | shutdown
  deriving DecidableEq

namespace TransportFailure

def message : TransportFailure → String
  | network _ => "Network error occurred while calling a rate limited endpoint."
  | io _ => "I/O error occurred while calling a rate limited endpoint."
  | timedOut d => "Request did not complete within " ++ d.render ++ "."

end TransportFailure

namespace Failure

def message : Failure → String
  | unnamedPolicy e =>
    "Probe for endpoint " ++ PolicyError.quoted e.text ++ " returned no rate limit policy."
  | probeStatus e s =>
    "Probe for endpoint " ++ PolicyError.quoted e.text ++ " returned HTTP " ++ toString s ++ "."
  | malformedPolicy _ => "Rate limit policy headers are malformed."
  | transport t => t.message
  | authorization _ => "Request authorization failed."
  | missingHeaders p s =>
    "Reply for policy " ++ PolicyError.quoted p.text ++ " (HTTP " ++ toString s ++
      ") carried no rate limit headers."
  | unexpectedStatus p s =>
    "Endpoint governed by " ++ PolicyError.quoted p.text ++ " responded with HTTP " ++
      toString s ++ "."
  | shutdown => "The rate limiter shut down before the request completed."

end Failure

end Throttle
