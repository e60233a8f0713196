import Throttle.Manager.Absorb

/-!
The end of a manager: all it holds fails, but a request under way is waited for and gets the result
of its own reply.
-/

namespace Throttle

open Http Turn

namespace Manager

/-- A request is under way. -/
def inFlight (m : Manager) : Bool := m.phase == .sending && m.active.isSome

/-- The requests that fail when a manager stops: all but the one under way. -/
def unsent (m : Manager) : List Pending :=
  (if m.inFlight then [] else m.active.toList) ++ m.queue

/-- Stops a manager: what it holds fails, and so does what is still in its mailbox. A request under
way is waited for. -/
def close (late : List Pending) (m : Manager) : Turn Manager := do
  let failing := m.unsent ++ late
  tell [.disarm]
  if !failing.isEmpty then tell [.notice (.failingPending failing.length)]
  tell (failing.map fun p => .answer p.id (.error .shutdown))
  if m.inFlight then
    tell [.notice .awaitingLast]
    return { m with queue := [] }
  else return { m with queue := [], active := none, phase := .idle }

/-- Ends the request that a closing manager waited for. -/
def conclude (s : Surroundings) (result : Except TransportFailure Reply) (m : Manager) :
    Turn Manager := do
  let m ← match result with
    | .error e => m.finish (.error (.transport e))
    | .ok reply => do
      let (m, absorbed) ← m.absorb reply
      if reply.isViolation then do
        let m ← m.countViolation s (m.active.map (·.id))
        m.finish (.error .shutdown)
      else do
        let result ← m.outcome reply absorbed
        m.finish result
  return { m with phase := .idle }

end Manager

end Throttle
