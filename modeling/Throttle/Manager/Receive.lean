import Throttle.Manager.Absorb

/-!
How a running manager handles its messages. Each message ends with the manager waiting: for its
alarm, for the reply under way, or for a request to come.
-/

namespace Throttle

open Http Turn

namespace Manager

/-! ### Planning sends -/

/-- Added to the safe instant. -/
def buffer (s : Surroundings) (m : Manager) : Delay :=
  if .borderline ≤ m.policy.status then s.config.borderlineBuffer else s.config.normalBuffer

/-- When the next request may leave. -/
def sendTime (s : Surroundings) (m : Manager) : Except Overflow Moment := do
  let safe ← m.history.nextSafeSend m.policy s.now
  let allowed ← Moment.after (m.restrictedUntil.elim safe (max safe)) (m.buffer s)
  match m.lastSend with
  | none => return allowed
  | some last => return max allowed (← Moment.after last s.config.minimumInterval)

/-- Plans the next send of the active request. -/
def plan (s : Surroundings) (p : Pending) (m : Manager) : Turn Manager := do
  let sendAt ← lift (m.sendTime s)
  tell [.notice (.activated p.id m.policy.status (Moment.gap s.now sendAt))]
  schedule s sendAt { m with lastSend := some sendAt, phase := .activating sendAt }

/-- Makes the first request of the queue whose caller still waits the active one, unless there is
one or the manager is not idle. -/
def activate (s : Surroundings) (m : Manager) : Turn Manager :=
  if m.active.isSome || m.phase ≠ .idle then pure m
  else do
    let gone := m.queue.takeWhile fun p => s.gone p.id
    let live := m.queue.dropWhile fun p => s.gone p.id
    tell (gone.flatMap m.abandon)
    match live with
    | [] =>
      let m' := { m with queue := [] }
      if !gone.isEmpty then tell [m'.queueUpdated]
      return m'
    | p :: rest =>
      let m' := { m with queue := rest, active := some p }
      tell [m'.queueUpdated]
      plan s p m'

/-! ### Messages -/

/-- The reply to a probe came. -/
def onSeed (s : Surroundings) (reply : Reply) (m : Manager) : Turn Manager := do
  let (m, _) ← m.absorb reply
  if reply.isViolation then
    let wait := m.violationWait s reply
    tell [.notice (.seedViolated wait)]
    let m ← m.countViolation s none
    let lapse ← lift (do Moment.after (← Moment.after s.now wait) s.config.violationBuffer)
    activate s (m.restrictUntil lapse)
  else activate s m

/-- A request joins the queue. -/
def onQueue (s : Surroundings) (p : Pending) (m : Manager) : Turn Manager :=
  if s.gone p.id then do
    tell (m.abandon p)
    return m
  else do
    let m := { m with queue := m.queue ++ [p] }
    tell [.notice (.queued p.id p.endpoint), m.queueUpdated]
    activate s m

/-- Gives the place of the active request to the next one. -/
def skipActive (s : Surroundings) (p : Pending) (m : Manager) : Turn Manager := do
  tell (m.abandon p)
  activate s { m with active := none, phase := .idle }

/-- Hands the active request to the transport. -/
def send (s : Surroundings) (m : Manager) : Turn Manager :=
  match m.active with
  | none => activate s { m with phase := .idle }
  | some p =>
    if s.gone p.id then m.skipActive s p
    else
      match s.authorizer p.request with
      | .error refusal => do
        tell [.notice (.refused p.id (.authorization refusal))]
        let m ← finish { m with phase := .idle } (.error (.authorization refusal))
        activate s m
      | .ok signed => do
        tell [.notice (.sending p.id signed.method signed.url), .count m.policy.name .sent,
          .transmit p.id signed]
        return { m with phase := .sending }

/-- The alarm of a generation went off. -/
def onFire (s : Surroundings) (generation : Nat) (m : Manager) : Turn Manager :=
  if generation ≠ m.generation then pure m
  else
    match m.phase with
    | .activating _ => send s m
    | .violationWait _ => send s m
    | .suspended _ => do
      tell [.notice .resumed]
      activate s { m with phase := .idle }
    | .idle => pure m
    | .sending => pure m

/-- The server refused the active request. -/
def onViolation (s : Surroundings) (reply : Reply) (before : Status) (m : Manager) :
    Turn Manager := do
  let wait := m.violationWait s reply
  if before < .violation then tell [.notice (.surprisingViolation before)]
  let m ← m.countViolation s (m.active.map (·.id))
  let lapse ← lift (Moment.after s.now wait)
  let m := m.restrictUntil lapse
  match m.active with
  | none => activate s m
  | some p =>
    if s.gone p.id then m.skipActive s p
    else do
      let sendAt ← lift (Moment.after lapse s.config.violationBuffer)
      tell [.notice (.resending p.id wait)]
      schedule s sendAt { m with lastSend := some sendAt, phase := .violationWait sendAt }

/-- What listeners are told about malformed headers. -/
def malformedMessage (m : Manager) (error : PolicyError) (resume : Moment) : String :=
  "Rate limit headers for " ++ PolicyError.quoted m.policy.name.text ++ " are malformed (" ++
    error.message ++ "); holding requests until " ++ resume.render ++ "."

/-- Holds the queue back after malformed headers. -/
def suspend (s : Surroundings) (error : PolicyError) (m : Manager) : Turn Manager := do
  let resume ← lift (Moment.after s.now s.config.invalidPolicyBackoff)
  tell [.notice (.suspending resume),
    .event (.diagnostic m.policy.name (m.malformedMessage error resume))]
  schedule s resume { m with phase := .suspended resume }

/-- A reply came that was not refused. -/
def onAccepted (s : Surroundings) (reply : Reply) (absorbed : Absorbed) (m : Manager) :
    Turn Manager := do
  if reply.isSuccess && m.policy.status == .violation then
    tell [.notice (.acceptedInViolation reply.status)]
  let result ← m.outcome reply absorbed
  let m ← m.finish result
  match absorbed with
  | .malformed e => do activate s (← m.suspend s e)
  | _ => activate s m

/-- The request under way has come to an end. -/
def onReply (s : Surroundings) (result : Except TransportFailure Reply) (m : Manager) :
    Turn Manager :=
  if m.phase ≠ .sending then do
    tell [.notice (.strayReply m.phase.describe)]
    return m
  else
    let before := m.policy.status
    let m := { m with phase := .idle }
    match result with
    | .error e => do
      tell [.notice (.transportFailed e)]
      activate s (← m.finish (.error (.transport e)))
    | .ok reply => do
      let (m, absorbed) ← m.absorb reply
      if reply.isViolation then m.onViolation s reply before
      else m.onAccepted s reply absorbed

/-- A message to a running manager other than to stop. -/
inductive Message where
  | seed (reply : Reply)
  | queue (pending : Pending)
  | fire (generation : Nat)
  | reply (result : Except TransportFailure Reply)

/-- Handles one message. -/
def receive (s : Surroundings) (m : Manager) : Message → Turn Manager
  | .seed reply => m.onSeed s reply
  | .queue p => m.onQueue s p
  | .fire generation => m.onFire s generation
  | .reply result => m.onReply s result

end Manager

end Throttle
