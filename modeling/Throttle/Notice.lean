import Throttle.Event
import Throttle.Failure
import Throttle.Http.Redacted
import Throttle.Policy.Drift

/-!
Lines of the log. Each kind of line is one definition, with its level, its message and its fields.
-/

namespace Throttle

/-- How important a line is. -/
inductive Level where
  | error
  | warn
  | info
  | debug
  | trace
  deriving DecidableEq, Repr

namespace Level

/-- How much a level lets through; the most important is 1. -/
def verbosity : Level → Nat
  | error => 1
  | warn => 2
  | info => 3
  | debug => 4
  | trace => 5

def label : Level → String
  | error => "ERROR"
  | warn => "WARN"
  | info => "INFO"
  | debug => "DEBUG"
  | trace => "TRACE"

end Level

/-- Where a line was written: for a policy or an endpoint, and at which stage. -/
structure Span where
  policy : String
  stage : String
  deriving DecidableEq, Repr

/-- The written form of a span that is being worked in. -/
def spanGuardText : String := "PolicySpanGuard(..)"

/-- A line of the log. -/
structure Notice where
  level : Level
  message : String
  fields : List (String × String)
  deriving DecidableEq, Repr

namespace Notice

/-! Lines of a manager. -/

def seedViolated (wait : Delay) : Notice :=
  ⟨.warn, "Discovery probe was rejected with HTTP 429.", [("wait", wait.render)]⟩

def queued (id : Nat) (endpoint : Endpoint) : Notice :=
  ⟨.trace, "Request queued.", [("request", toString id), ("endpoint", endpoint.text)]⟩

def activated (id : Nat) (status : Status) (wait : Delay) : Notice :=
  ⟨.debug, "Request activated.",
    [("request", toString id), ("status", status.label), ("delay", wait.render)]⟩

def resumed : Notice := ⟨.info, "Suspension elapsed; resuming the queue.", []⟩

def refused (id : Nat) (failure : Failure) : Notice :=
  ⟨.warn, "Authorizer rejected the request.",
    [("request", toString id), ("error", failure.message)]⟩

def sending (id : Nat) (method : String) (url : Http.Url) : Notice :=
  ⟨.debug, "Sending request.",
    [("request", toString id), ("method", method), ("url", url.render)]⟩

def strayReply (phase : String) : Notice :=
  ⟨.warn, "Discarding a reply that arrived outside of a send.", [("phase", phase)]⟩

def transportFailed (failure : TransportFailure) : Notice :=
  ⟨.warn, "Transport failed.", [("error", failure.message)]⟩

def acceptedInViolation (status : Nat) : Notice :=
  ⟨.warn, "Policy reports a violation but the server accepted the request.",
    [("status", toString status)]⟩

def headersMissing (status : Nat) : Notice :=
  ⟨.error, "Reply on a rate limited route carried no rate limit headers.",
    [("status", toString status)]⟩

def surprisingViolation (status : Status) : Notice :=
  ⟨.warn, "Server answered HTTP 429 although the policy was not in violation.",
    [("status", status.label)]⟩

def resending (id : Nat) (wait : Delay) : Notice :=
  ⟨.warn, "Rate limit violated; resending the same request later.",
    [("request", toString id), ("retry_after", wait.render)]⟩

def headersMalformed (error : PolicyError) : Notice :=
  ⟨.error, "Rate limit headers are malformed.", [("error", error.message)]⟩

def policyChanged (drift : Drift) : Notice :=
  ⟨.warn, "Rate limit policy changed.", [("change", drift.describe)]⟩

def historyGrown (capacity : Nat) : Notice :=
  ⟨.debug, "Request history grown.", [("capacity", toString capacity)]⟩

def suspending (resume : Moment) : Notice :=
  ⟨.error, "Suspending the queue after malformed rate limit headers.",
    [("until", resume.render)]⟩

def violated (id : Option Nat) (total : Nat) : Notice :=
  ⟨.error, "Rate limit violation.",
    (id.toList.map fun i => ("request", toString i)) ++ [("total", toString total)]⟩

def resolved (id : Nat) (transition : Transition) : Notice :=
  ⟨.trace, "Request resolved.", [("request", toString id), ("outcome", transition.label)]⟩

def callerGone (id : Nat) : Notice :=
  ⟨.debug, "Caller stopped waiting; request dropped.", [("request", toString id)]⟩

def failingPending (requests : Nat) : Notice :=
  ⟨.debug, "Manager shutting down; failing pending requests.",
    [("requests", toString requests)]⟩

def awaitingLast : Notice :=
  ⟨.debug, "Waiting for the in-flight request before stopping.", []⟩

/-! Lines of discovery. -/

def awaitingDiscovery (id : Nat) (endpoint : Endpoint) : Notice :=
  ⟨.trace, "Waiting for discovery in progress.",
    [("request", toString id), ("endpoint", endpoint.text)]⟩

def probing (method : String) (url : Http.Url) : Notice :=
  ⟨.debug, "Probing for the rate limit policy.", [("method", method), ("url", url.render)]⟩

def rateLimitHeader (name value : String) : Notice :=
  ⟨.debug, "Rate limit header.", [("name", name), ("value", value)]⟩

def probeRejected (status : Nat) (sent : Http.Headers) : Notice :=
  ⟨.warn, "Probe was rejected.",
    [("status", toString status), ("request_headers", sent.redacted)]⟩

def probeUnnamed (status : Nat) (sent : Http.Headers) : Notice :=
  ⟨.error, "Probe reply named no rate limit policy.",
    [("status", toString status), ("request_headers", sent.redacted)]⟩

def probeMalformed (error : PolicyError) : Notice :=
  ⟨.error, "Probe reply carried malformed rate limit headers.", [("error", error.message)]⟩

def creatingManager (policy : PolicyName) : Notice :=
  ⟨.info, "Creating policy manager.", [("policy", policy.text)]⟩

def managerStopped (policy : PolicyName) : Notice :=
  ⟨.warn, "Manager stopped before it could be seeded.", [("policy", policy.text)]⟩

def registered (endpoint : Endpoint) (policy : PolicyName) (waiting : Nat) : Notice :=
  ⟨.info, "Endpoint registered.",
    [("endpoint", endpoint.text), ("policy", policy.text), ("waiting", toString waiting)]⟩

def discoveryFailed (endpoint : Endpoint) (failure : Failure) : Notice :=
  ⟨.warn, "Discovery failed.", [("endpoint", endpoint.text), ("error", failure.message)]⟩

/-! Lines of the limiter. -/

def cancelled (id : Nat) : Notice :=
  ⟨.trace, "Request cancelled by caller.", [("request", toString id)]⟩

def shuttingDown : Notice := ⟨.debug, "Rate limiter shutting down.", []⟩

def pause (p : Pause) : Notice := ⟨.trace, "Pause status.", [("status", p.render)]⟩

end Notice

end Throttle
