import Throttle.Config.Basic
import Throttle.History
import Throttle.Notice

/-!
The manager of one policy: one queue, one request at a time, one history. This module holds its
state and the messages it receives.

```text
idle ─activate─▶ activating ─alarm─▶ sending ─reply─▶ idle
                                       │ refused
                                       ▼
                                 violationWait ─alarm─▶ sending
sending ─malformed headers─▶ suspended ─alarm─▶ idle
```
-/

namespace Throttle

open Http

/-- A request that waits for its reply. -/
structure Pending where
  id : Nat
  endpoint : Endpoint
  request : Request
  deriving DecidableEq

/-- What a manager is doing. -/
inductive Phase where
  | idle
  /-- A request leaves when the alarm goes off. -/
  | activating (sendAt : Moment)
  /-- A request is under way. -/
  | sending
  /-- The same request leaves again when the alarm goes off. -/
  | violationWait (sendAt : Moment)
  /-- Nothing leaves before the alarm goes off. -/
  | suspended (resume : Moment)
  deriving DecidableEq, Repr

namespace Phase

/-- The instant that the alarm is set to. -/
def due? : Phase → Option Moment
  | idle => none
  | activating t => some t
  | sending => none
  | violationWait t => some t
  | suspended t => some t

def describe : Phase → String
  | idle => "Idle"
  | activating t => "Activating \x7b send_at: " ++ t.render ++ " \x7d"
  | sending => "Sending"
  | violationWait t => "ViolationWait \x7b send_at: " ++ t.render ++ " \x7d"
  | suspended t => "Suspended \x7b until: " ++ t.render ++ " \x7d"

end Phase

/-- The state of a manager. -/
structure Manager where
  policy : Policy
  history : History
  queue : List Pending
  active : Option Pending
  phase : Phase
  /-- The latest instant for which a send was planned. -/
  lastSend : Option Moment
  /-- The end of the longest wait that a violation asked for. -/
  restrictedUntil : Option Moment
  violations : Nat
  /-- How often the alarm was set; only its latest setting counts. -/
  generation : Nat
  deriving DecidableEq

/-- A manager that has seen no reply yet. -/
def Manager.new (name : PolicyName) : Manager :=
  { policy := Policy.unknown name
    history := History.empty 0
    queue := []
    active := none
    phase := .idle
    lastSend := none
    restrictedUntil := none
    violations := 0
    generation := 0 }

/-- What a manager shows of itself. -/
structure Snapshot where
  policy : Policy
  queued : Nat
  active : Bool
  nextSend : Option Moment
  violations : Nat
  historyLength : Nat
  historyCapacity : Nat
  deriving DecidableEq

def Manager.snapshot (m : Manager) : Snapshot :=
  { policy := m.policy
    queued := m.queue.length
    active := m.active.isSome
    nextSend := m.phase.due?
    violations := m.violations
    historyLength := m.history.entries.length
    historyCapacity := m.history.capacity }

/-- What a manager is told from outside. -/
inductive Command where
  /-- The reply to a probe. -/
  | seed (reply : Reply)
  | queue (pending : Pending)
  | shutdown
  deriving DecidableEq

/-- What a manager hears of what it started itself. -/
inductive Signal where
  /-- The alarm of a generation went off. -/
  | fire (generation : Nat)
  /-- The request under way has come to an end. -/
  | reply (result : Except TransportFailure Reply)

end Throttle
