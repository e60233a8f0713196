import Throttle.Policy.Basic

/-!
What a limiter tells its listeners, and the transitions of requests that it counts.
-/

namespace Throttle

/-- How long the longest wait of all policies still is. -/
structure Pause where
  seconds : Nat
  policy : PolicyName
  deriving DecidableEq

def Pause.render (p : Pause) : String :=
  "Paused for " ++ toString p.seconds ++ " seconds due to rate limiting (" ++ p.policy.text ++ ")."

/-- A notification to listeners. -/
inductive Event where
  /-- A policy came, changed, or was asked for again. -/
  | policyUpdated (policy : Policy)
  /-- The length of a queue changed. -/
  | queueUpdated (policy : PolicyName) (queued : Nat)
  /-- The next send lies in the future. -/
  | paused (policy : PolicyName) (resume : Moment)
  /-- The pause that the display shows. -/
  | status (pause : Pause)
  /-- The server refused a request; `total` counts such refusals over all policies. -/
  | violation (policy : PolicyName) (total : Nat)
  /-- Rate limit headers made no sense. -/
  | diagnostic (policy : PolicyName) (message : String)
  deriving DecidableEq

/-- The policy that a notification is about. -/
def Event.policy : Event → PolicyName
  | policyUpdated p => p.name
  | queueUpdated p _ => p
  | paused p _ => p
  | status p => p.policy
  | violation p _ => p
  | diagnostic p _ => p

/-- What happened to a request, as it is counted for each policy. -/
inductive Transition where
  | sent
  | delivered
  | failed
  | violation
  | abandoned
  | probe
  deriving DecidableEq, Repr

namespace Transition

def label : Transition → String
  | sent => "sent"
  | delivered => "delivered"
  | failed => "failed"
  | violation => "violation"
  | abandoned => "abandoned"
  | probe => "probe"

def all : List Transition := [sent, delivered, failed, violation, abandoned, probe]

end Transition

end Throttle
