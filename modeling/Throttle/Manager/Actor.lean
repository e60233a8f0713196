import Throttle.Manager.Close
import Throttle.Manager.Receive

/-!
A manager with its surroundings: the mailbox that others write to, the inbox for what it hears of
its own alarm and transmission, and the snapshot that it last published. Each step handles one
message to its end.
-/

namespace Throttle

open Http

/-- An alarm that has not gone off. -/
structure Alarm where
  generation : Nat
  due : Moment
  deriving DecidableEq, Repr

/-- How far the life of a manager has come. -/
inductive Stage where
  | running
  /-- Told to stop, with a request under way. -/
  | closing
  | stopped
  /-- Ended by an instant outside the calendar. -/
  | failed
  deriving DecidableEq, Repr

/-- A manager and all that is on its way to it. -/
structure Actor where
  /-- The name of the policy for which it was made. -/
  name : PolicyName
  manager : Manager
  mailbox : List Command
  inbox : List Signal
  alarm : Option Alarm
  /-- The transmissions that have not come to an end, by request. -/
  outstanding : List Nat
  /-- Somebody can still write to the mailbox. -/
  connected : Bool
  stage : Stage
  snapshot : Snapshot

namespace Actor

def new (name : PolicyName) : Actor :=
  { name
    manager := Manager.new name
    mailbox := []
    inbox := []
    alarm := none
    outstanding := []
    connected := true
    stage := .running
    snapshot := (Manager.new name).snapshot }

/-- Commands are accepted. -/
def isOpen (a : Actor) : Bool := a.stage == .running

/-- Puts a command into the mailbox of an open actor. -/
def post (a : Actor) (c : Command) : Actor := { a with mailbox := a.mailbox ++ [c] }

/-- Tells an open actor to stop. -/
def stop (a : Actor) : Actor := if a.isOpen then a.post .shutdown else a

/-- Nobody can write to the mailbox any more. -/
def disconnect (a : Actor) : Actor := { a with connected := false }

/-- The requests in a list of commands. -/
def queuedIn (cs : List Command) : List Pending :=
  cs.filterMap fun
    | .queue p => some p
    | _ => none

/-- The requests that an actor holds. -/
def held (a : Actor) : List Pending :=
  a.manager.active.toList ++ a.manager.queue ++ queuedIn a.mailbox

/-- What an output does to the alarm and the transmissions. -/
def perform (a : Actor) : Output → Actor
  | .arm generation due => { a with alarm := some ⟨generation, due⟩ }
  | .disarm => { a with alarm := none }
  | .transmit id _ => { a with outstanding := a.outstanding ++ [id] }
  | _ => a

/-- Shows the state that a manager has now. -/
def publish (a : Actor) (m : Manager) : Actor := { a with manager := m, snapshot := m.snapshot }

/-- What a step of an actor comes to. -/
structure Step where
  actor : Actor
  outputs : List Output
  /-- The requests that were dropped without an answer. -/
  orphans : List Pending

/-- The actor shows that it waits for an instant to come. -/
def waits (a : Actor) (now : Moment) : Bool :=
  match a.snapshot.nextSend with
  | none => false
  | some t => now < t

/-- Ends a turn: the new state is published, or the actor fails with all that it holds. -/
def finish (a : Actor) (stage : Stage) (holding : List Pending) (t : Turn Manager) : Step :=
  let b := t.outputs.foldl perform a
  match t.result with
  | .ok m => ⟨{ b.publish m with stage }, t.outputs, []⟩
  | .error _ =>
    ⟨{ b with stage := .failed, mailbox := [], inbox := [], alarm := none }, t.outputs,
      a.held ++ holding⟩

/-- Stops the actor. -/
def close (a : Actor) : Step :=
  let t := a.manager.close (queuedIn a.mailbox)
  let stage : Stage := if a.manager.inFlight then .closing else .stopped
  finish { a with mailbox := [] } stage (queuedIn a.mailbox) t

/-- Handles the next command, or the loss of everybody who could write one. -/
def command (s : Surroundings) (a : Actor) : Option Step :=
  if a.stage ≠ .running then none
  else
    match a.mailbox with
    | [] => if a.connected then none else some a.close
    | c :: rest =>
      let a := { a with mailbox := rest }
      match c with
      | .seed reply => some (a.finish .running [] (a.manager.receive s (.seed reply)))
      | .queue p => some (a.finish .running [p] (a.manager.receive s (.queue p)))
      | .shutdown => some a.close

/-- Handles the next signal. A closing actor waits for its reply only. -/
def signal (s : Surroundings) (a : Actor) : Option Step :=
  match a.inbox with
  | [] => none
  | signal :: rest =>
    let a := { a with inbox := rest }
    match a.stage, signal with
    | .running, .fire generation =>
      some (a.finish .running [] (a.manager.receive s (.fire generation)))
    | .running, .reply result =>
      some (a.finish .running [] (a.manager.receive s (.reply result)))
    | .closing, .fire _ => some ⟨a, [], []⟩
    | .closing, .reply result => some (a.finish .stopped [] (a.manager.conclude s result))
    | _, _ => some ⟨a, [], []⟩

/-- The alarm goes off, once its instant has come. -/
def ring (now : Moment) (a : Actor) : Option Actor :=
  (a.alarm.filter (·.due ≤ now)).map fun alarm =>
    { a with alarm := none, inbox := a.inbox ++ [.fire alarm.generation] }

/-- A transmission comes to an end. -/
def returned (a : Actor) (id : Nat) (result : Except TransportFailure Reply) : Option Actor :=
  if id ∈ a.outstanding then
    some { a with
      outstanding := a.outstanding.erase id
      inbox := a.inbox ++ [.reply result] }
  else none

end Actor

end Throttle
