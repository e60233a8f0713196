import Throttle.Manager.Turn
import Throttle.Policy.Headers

/-!
What a manager takes from a reply: the policy that its headers declare, the date for the history,
the wait after a refusal, and the result for the caller.
-/

namespace Throttle

open Http Turn

/-- What the rate limit headers of a reply came to. -/
inductive Absorbed where
  | parsed
  | malformed (error : PolicyError)
  | missing
  deriving DecidableEq

namespace Manager

/-! ### Bookkeeping -/

/-- Drops a request whose caller stopped waiting. -/
def abandon (m : Manager) (p : Pending) : List Output :=
  [.notice (.callerGone p.id), .count m.policy.name .abandoned]

def queueUpdated (m : Manager) : Output := .event (.queueUpdated m.policy.name m.queue.length)

/-- Gives the active request its result. -/
def finish (m : Manager) (result : Except Failure Reply) : Turn Manager :=
  match m.active with
  | none => pure m
  | some p => do
    let transition : Transition := match result with
      | .ok _ => .delivered
      | .error _ => .failed
    tell [.notice (.resolved p.id transition), .count m.policy.name transition,
      .answer p.id result]
    return { m with active := none }

/-- Sets the alarm; it alone wakes the manager from now on. -/
def schedule (s : Surroundings) (due : Moment) (m : Manager) : Turn Manager := do
  if s.now < due then tell [.event (.paused m.policy.name due)]
  tell [.arm (m.generation + 1) due]
  return { m with generation := m.generation + 1 }

/-- Counts a refusal for an overrun limit. -/
def countViolation (s : Surroundings) (id : Option Nat) (m : Manager) : Turn Manager := do
  let total := s.violations + 1
  tell [.notice (.violated id total), .count m.policy.name .violation,
    .event (.violation m.policy.name total)]
  return { m with violations := m.violations + 1 }

/-- Keeps sends back until an instant, if no longer wait is known. -/
def restrictUntil (t : Moment) (m : Manager) : Manager :=
  { m with restrictedUntil := some (m.restrictedUntil.elim t (max · t)) }

/-- How long to wait after a refusal: what the reply asks for, else the longest penalty of the
policy, else the default. -/
def violationWait (s : Surroundings) (m : Manager) (reply : Reply) : Delay :=
  match reply.retryAfter with
  | some d => d
  | none =>
    match m.policy.violationRestriction with
    | some seconds => Delay.ofSeconds seconds
    | none => s.config.defaultRetryAfter

/-! ### Taking in replies -/

/-- Takes over a newly declared policy. -/
def adopt (policy : Policy) (m : Manager) : Turn Manager := do
  if m.policy.status ≠ .unknown then
    tell ((policy.driftFrom m.policy).map fun d => .notice (.policyChanged d))
  if m.history.capacity < policy.maximumHits then
    tell [.notice (.historyGrown policy.maximumHits)]
  tell [.event (.policyUpdated policy)]
  return { m with policy, history := m.history.grow policy.maximumHits }

/-- Reads the rate limit headers of a reply, without regard to the reply's date. -/
def readHeaders (reply : Reply) (m : Manager) : Turn (Manager × Absorbed) :=
  if !namesPolicy reply.headers then pure (m, .missing)
  else
    match Policy.ofHeaders? reply.headers >>= Policy.ensureConsistent with
    | .ok policy => do return (← m.adopt policy, .parsed)
    | .error e => do
      let m := { m with policy := m.policy.invalidated }
      tell [.notice (.headersMalformed e), .event (.policyUpdated m.policy)]
      return (m, .malformed e)

/-- Takes in a reply: its policy first, then its date. -/
def absorb (reply : Reply) (m : Manager) : Turn (Manager × Absorbed) := do
  let (m, absorbed) ← m.readHeaders reply
  return ({ m with history := m.history.push reply.date }, absorbed)

/-- What the caller gets of a reply that was not refused. -/
def outcome (m : Manager) (reply : Reply) (absorbed : Absorbed) : Turn (Except Failure Reply) :=
  match absorbed with
  | .missing => do
    tell [.notice (.headersMissing reply.status)]
    return .error (.missingHeaders m.policy.name reply.status)
  | _ =>
    if reply.isSuccess then pure (.ok reply)
    else pure (.error (.unexpectedStatus m.policy.name reply.status))

end Manager

end Throttle
