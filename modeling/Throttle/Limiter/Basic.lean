import Throttle.Manager.Actor

/-!
The limiter: which endpoint is governed by which manager, which endpoints are being probed, and who
still waits. `Move` names everything that can happen next, in whatever order; a move that is not
possible changes nothing.
-/

namespace Throttle

open Http

/-- How the requests to an endpoint are handled. -/
inductive Route where
  /-- They wait, the oldest first, until its policy is known. -/
  | discovering (waiting : List Pending)
  /-- They go to a manager. -/
  | ready (manager : Nat)
  deriving DecidableEq

/-- The requests that wait for a probe. -/
def Route.waiting : Route → List Pending
  | discovering waiting => waiting
  | ready _ => []

/-- How far a probe has come. -/
inductive Probe where
  /-- About to be signed and sent. -/
  | starting (request : Request)
  /-- Under way as signed. -/
  | awaiting (signed : Request)
  /-- Over; its manager or its failure is not yet passed on. -/
  | ended (outcome : Except Failure Nat)

/-- The search for the policy of one endpoint. -/
structure Discovery where
  endpoint : Endpoint
  probe : Probe

/-- The clockwork behind the pause display. -/
inductive Ticker where
  | off
  /-- About to wait for a wake-up. -/
  | arriving
  /-- Waiting; `woken` once a wake-up has come. -/
  | waiting (woken : Bool)
  /-- Reporting, next at an instant. -/
  | ticking (next : Moment)
  deriving DecidableEq, Repr

/-- The state of a limiter. Managers and requests are known by number. -/
structure Limiter where
  now : Moment
  config : Config
  /-- How requests are signed from now on. -/
  authorizer : Authorizer
  nextId : Nat
  /-- The submissions whose callers stopped waiting. -/
  dropped : List Nat
  /-- The submissions that have their result. -/
  answered : List Nat
  violations : Nat
  closed : Bool
  /-- How many hold the limiter, apart from its own discoveries. -/
  owners : Nat
  routes : List (Endpoint × Route)
  registered : List (PolicyName × Nat)
  actors : List Actor
  discoveries : List Discovery
  ticker : Ticker
  /-- A wake-up that nobody was waiting for. -/
  permit : Bool
  /-- The managers that have shown where they stand and are yet to call the ticker. -/
  calling : List Nat

/-- Who handed a request to the transport. -/
inductive Sender where
  | probe (endpoint : Endpoint)
  | manager (index : Nat) (id : Nat)
  deriving DecidableEq

/-- What can be observed of a step. -/
inductive Happening where
  | event (event : Event)
  | notice (span : Option Span) (notice : Notice)
  | count (policy : String) (transition : Transition)
  | answered (id : Nat) (result : Except Failure Reply)
  | transmitted (sender : Sender) (request : Request)

namespace Limiter

/-- A limiter that has seen no submission. -/
def new (config : Config) (authorizer : Authorizer) (now : Moment) : Limiter :=
  { now, config, authorizer
    nextId := 1
    dropped := []
    answered := []
    violations := 0
    closed := false
    owners := 1
    routes := []
    registered := []
    actors := []
    discoveries := []
    ticker := .off
    permit := false
    calling := [] }

/-- What a manager sees of the world. -/
def surroundings (w : Limiter) : Surroundings :=
  { now := w.now
    config := w.config
    authorizer := w.authorizer
    gone := fun id => w.dropped.contains id
    violations := w.violations }

/-- A caller that neither has a result nor stopped waiting. -/
def isWaiting (w : Limiter) (id : Nat) : Bool :=
  id < w.nextId && 0 < id && !w.dropped.contains id && !w.answered.contains id

/-- Gives a caller its result, if it still waits for one. -/
def answer (w : Limiter) (id : Nat) (result : Except Failure Reply) :
    Limiter × List Happening :=
  if w.dropped.contains id then (w, [])
  else ({ w with answered := id :: w.answered }, [.answered id result])

/-- The caller of a request that got lost learns that the limiter stopped. -/
def orphan (w : Limiter) (p : Pending) : Limiter × List Happening :=
  if w.answered.contains p.id then (w, []) else w.answer p.id (.error .shutdown)

/-- Does a step for each element in turn. -/
def each (f : Limiter → α → Limiter × List Happening) (w : Limiter) :
    List α → Limiter × List Happening
  | [] => (w, [])
  | a :: as =>
    let (w, hs) := f w a
    let (w, more) := each f w as
    (w, hs ++ more)

def answerAll (w : Limiter) (result : Except Failure Reply) (ps : List Pending) :
    Limiter × List Happening :=
  each (fun w p => w.answer p.id result) w ps

/-- Wakes the ticker, or keeps the wake-up for it. -/
def wake (w : Limiter) : Limiter :=
  match w.ticker with
  | .waiting false => { w with ticker := .waiting true }
  | _ => { w with permit := true }

/-- The log lines of a manager belong to the policy for which it was made. -/
def managerSpan (a : Actor) : Span := ⟨a.name.text, "manager"⟩

def discoverySpan (e : Endpoint) : Span := ⟨e.text, "discovery"⟩

/-- Passes on one output of a manager. -/
def perform (index : Nat) (span : Span) (w : Limiter) : Output → Limiter × List Happening
  | .event (.violation p total) =>
    ({ w with violations := w.violations + 1 }, [.event (.violation p total)])
  | .event e => (w, [.event e])
  | .notice n => (w, [.notice (some span) n])
  | .count p t => (w, [.count p.text t])
  | .answer id result => w.answer id result
  | .transmit id request => (w, [.transmitted (.manager index id) request])
  | .arm _ _ => (w, [])
  | .disarm => (w, [])

/-- A manager is about to call the ticker. -/
def expectCall (w : Limiter) (index : Nat) : Limiter := { w with calling := index :: w.calling }

/-- Takes over a step of a manager. It shows where it stands, unless it failed; the call to the
ticker comes after that, as a move of its own. -/
def commit (w : Limiter) (index : Nat) (step : Actor.Step) : Limiter × List Happening :=
  let w := { w with actors := w.actors.set index step.actor }
  let (w, hs) := each (perform index (managerSpan step.actor)) w step.outputs
  let (w, lost) := each orphan w step.orphans
  let shown := step.actor.stage != .failed
  (if shown then w.expectCall index else w, hs ++ lost)

/-- A step of one manager. -/
def withActor (w : Limiter) (index : Nat) (f : Surroundings → Actor → Option Actor.Step) :
    Limiter × List Happening :=
  match w.actors[index]? with
  | none => (w, [])
  | some a =>
    match f w.surroundings a with
    | none => (w, [])
    | some step => w.commit index step

/-- The managers, after a change to those that are registered. -/
def mapRegistered (w : Limiter) (f : Actor → Actor) : List Actor :=
  w.registered.foldl (fun actors p => actors.modify p.2 f) w.actors

/-- Changes one manager without any output. -/
def updateActor (w : Limiter) (index : Nat) (f : Actor → Option Actor) : Limiter :=
  match w.actors[index]? with
  | none => w
  | some a =>
    match f a with
    | none => w
    | some b => { w with actors := w.actors.set index b }

end Limiter

end Throttle
