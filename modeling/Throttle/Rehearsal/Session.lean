import Throttle.Broadcast
import Throttle.Limiter.Move
import Throttle.Rehearsal.Server

/-!
A rehearsal: a limiter on a virtual clock in front of a scripted server. Of all the orders in which
a limiter may move, a rehearsal takes the one of a single cooperative thread: what can go on is put
in line, and whatever is first in line goes on until it has to wait.
-/

namespace Throttle.Rehearsal

open Http

/-- A request on its way through the server. -/
structure Flight where
  number : Nat
  sender : Sender
  request : Request
  arrived : Bool
  /-- When the answer is complete, unless it never is. -/
  outcome : Option (Moment × Except TransportFailure Reply)
  /-- When the watchdog gives up. -/
  deadline : Moment

/-- When a request at the server comes to an end. -/
def Flight.due (f : Flight) : Moment :=
  match f.outcome with
  | some (t, _) => min t f.deadline
  | none => f.deadline

/-- How far such a caller has come. -/
inductive Progress where
  | starting
  | submitted (id : Nat)
  | done (id : Nat)

/-- A caller that submits from a task of its own and holds the limiter until it has its result. -/
structure Execution where
  /-- The number under which its result is reported. -/
  number : Nat
  endpoint : Endpoint
  request : Request
  progress : Progress

/-- A task that can go on. -/
inductive Job where
  | actor (index : Nat)
  | discovery (endpoint : Endpoint)
  | flight (number : Nat)
  | alarm (index : Nat)
  | ticker
  | execution (number : Nat)
  deriving DecidableEq

/-- The state of a rehearsal. -/
structure Session where
  limiter : Limiter
  start : Moment
  server : Server
  flights : List Flight
  nextFlight : Nat
  /-- What can go on, in order. -/
  line : List Job
  executions : List Execution
  /-- What was observed since the last report, the newest first. -/
  observed : List Limiter.Observation
  /-- What arrived at the server since the last report, the newest first. -/
  arrivals : List (Moment × Request)
  /-- Counts since the start. -/
  counts : List ((String × Transition) × Nat)
  /-- The requests other than probes that are open at the server. -/
  opened : Nat
  mostOpened : Nat
  channel : Broadcast Event
  /-- How much of the channel each named listener has seen. -/
  listeners : List (String × Nat)
  /-- The caller still holds the limiter. -/
  holding : Bool

namespace Session

def new (config : Config) (authorizer : Authorizer) (server : Server) (start : Moment) :
    Session :=
  { limiter := Limiter.new config authorizer start
    start, server
    flights := []
    nextFlight := 0
    line := []
    executions := []
    observed := []
    arrivals := []
    counts := []
    opened := 0
    mostOpened := 0
    channel := Broadcast.new config.eventCapacity
    listeners := []
    holding := true }

def now (s : Session) : Moment := s.limiter.now

/-! ### What can go on -/

def actorReady (a : Actor) : Bool :=
  (a.stage == .running && (!a.mailbox.isEmpty || !a.connected)) || !a.inbox.isEmpty

def discoveryReady (d : Discovery) : Bool :=
  match d.probe with
  | .starting _ => true
  | .awaiting _ => false
  | .ended _ => true

def flightReady (now : Moment) (f : Flight) : Bool := !f.arrived || f.due.ceilMilli ≤ now

def tickerReady (w : Limiter) : Bool :=
  match w.ticker with
  | .off => false
  | .arriving => true
  | .waiting woken => woken
  | .ticking due => due ≤ w.now

def executionReady (w : Limiter) (x : Execution) : Bool :=
  match x.progress with
  | .starting => true
  | .submitted id => w.answered.contains id
  | .done _ => false

/-- Everything that can go on. -/
def ready (s : Session) : List Job :=
  let w := s.limiter
  let actors := w.actors.zipIdx.filterMap fun (a, i) =>
    if actorReady a then some (.actor i) else none
  let discoveries := w.discoveries.filterMap fun d =>
    if discoveryReady d then some (.discovery d.endpoint) else none
  let flights := s.flights.filterMap fun f =>
    if flightReady w.now f then some (.flight f.number) else none
  let alarms := w.actors.zipIdx.filterMap fun (a, i) =>
    if a.alarm.any (·.due.ceilMilli ≤ w.now) then some (.alarm i) else none
  let ticker := if tickerReady w then [.ticker] else []
  let executions := s.executions.zipIdx.filterMap fun (x, i) =>
    if executionReady w x then some (.execution i) else none
  flights ++ alarms ++ executions ++ discoveries ++ actors ++ ticker

/-- Puts in line what can go on, apart from what is going on. -/
def enqueue (current : Option Job) (s : Session) : Session :=
  let fresh := s.ready.filter fun j => !s.line.contains j && some j ≠ current
  { s with line := s.line ++ fresh }

/-! ### Moves -/

/-- Adds one to a count. -/
def increment (k : String × Transition) :
    List ((String × Transition) × Nat) → List ((String × Transition) × Nat)
  | [] => [(k, 1)]
  | (l, n) :: rest => if l = k then (l, n + 1) :: rest else (l, n) :: increment k rest

/-- Takes note of what can be observed. -/
def observe (s : Session) (h : Happening) : Session :=
  let s := { s with observed := ⟨s.now, h⟩ :: s.observed }
  match h with
  | .event e => { s with channel := s.channel.send e }
  | .count p t => { s with counts := increment (p, t) s.counts }
  | .transmitted sender request =>
    let f : Flight := ⟨s.nextFlight, sender, request, false, none,
      s.now + (s.limiter.config.requestTimeout : Int)⟩
    { s with flights := s.flights ++ [f], nextFlight := s.nextFlight + 1 }
  | _ => s

/-- Makes a move of the limiter. -/
def move (current : Option Job) (m : Move) (s : Session) : Session :=
  let (w, hs) := s.limiter.step m
  (hs.foldl observe { s with limiter := w }).enqueue current

/-! ### Tasks -/

/-- A manager handles a message and calls the ticker. -/
def handle (i : Nat) (m : Move) (s : Session) : Session :=
  (s.move (some (.actor i)) m).move (some (.actor i)) (.call i)

/-- A manager handles its messages until there are none. -/
def runActor (i : Nat) : Nat → Session → Session
  | 0, s => s
  | fuel + 1, s =>
    match s.limiter.actors[i]? with
    | none => s
    | some a =>
      if a.stage == .running && (!a.mailbox.isEmpty || !a.connected) then
        runActor i fuel (s.handle i (.command i))
      else if !a.inbox.isEmpty then runActor i fuel (s.handle i (.signal i))
      else s

/-- A discovery goes on until its probe is under way or it is over. -/
def runDiscovery (e : Endpoint) : Nat → Session → Session
  | 0, s => s
  | fuel + 1, s =>
    match s.limiter.discovery? e with
    | some ⟨_, .starting _⟩ =>
      runDiscovery e fuel (s.move (some (.discovery e)) (.startProbe e))
    | some ⟨_, .ended _⟩ => runDiscovery e fuel (s.move (some (.discovery e)) (.settle e))
    | _ => s

/-- The ticker goes on until it has to wait. -/
def runTicker : Nat → Session → Session
  | 0, s => s
  | fuel + 1, s =>
    if tickerReady s.limiter then
      match s.limiter.ticker with
      | .ticking _ => runTicker fuel (s.move (some .ticker) .tick)
      | _ => runTicker fuel (s.move (some .ticker) .awaitPause)
    else s

def isProbe (r : Request) : Bool := r.method == "HEAD"

/-- A request arrives at the server. -/
def arrive (f : Flight) (s : Session) : Session :=
  let (answer, scripts) := Server.serve f.request s.server.scripts
  let f := { f with arrived := true, outcome := answer.outcome s.now }
  let opened := if isProbe f.request then s.opened else s.opened + 1
  { s with
    server := ⟨scripts⟩
    arrivals := (s.now, f.request) :: s.arrivals
    flights := s.flights.map fun g => if g.number = f.number then f else g
    opened
    mostOpened := max s.mostOpened opened }

/-- A request leaves the server, and its sender learns what came of it. -/
def complete (f : Flight) (s : Session) (fuel : Nat) : Session :=
  let late := .error (.timedOut s.limiter.config.requestTimeout)
  let result := match f.outcome with
    | some (t, r) => if t ≤ f.deadline then r else late
    | none => late
  let s := { s with
    flights := s.flights.filter (·.number ≠ f.number)
    opened := if isProbe f.request then s.opened else s.opened - 1 }
  match f.sender with
  | .probe e => runDiscovery e fuel (s.move (some (.discovery e)) (.endProbe e result))
  | .manager i id => s.move none (.returned i id result)

def flight? (s : Session) (number : Nat) : Option Flight :=
  s.flights.find? (·.number = number)

/-- A request goes on through the server. -/
def runFlight (number : Nat) (fuel : Nat) (s : Session) : Session :=
  match s.flight? number with
  | none => s
  | some f =>
    let s := if f.arrived then s else s.arrive f
    match s.flight? number with
    | some f => if f.due.ceilMilli ≤ s.now then s.complete f fuel else s
    | none => s

def setExecution (i : Nat) (x : Execution) (s : Session) : Session :=
  { s with executions := s.executions.set i x }

/-- A caller makes its submission, or lets go of the limiter once it has its result. -/
def runExecution (i : Nat) (s : Session) : Session :=
  match s.executions[i]? with
  | none => s
  | some x =>
    match x.progress with
    | .starting =>
      let s := s.setExecution i { x with progress := .submitted s.limiter.nextId }
      s.move (some (.execution i)) (.submit x.endpoint x.request)
    | .submitted id =>
      if s.limiter.answered.contains id then
        (s.setExecution i { x with progress := .done id }).move none .release
      else s
    | .done _ => s

/-- Does one task. -/
def perform (fuel : Nat) (j : Job) (s : Session) : Session :=
  match j with
  | .actor i => runActor i fuel s
  | .discovery e => runDiscovery e fuel s
  | .flight n => runFlight n fuel s
  | .alarm i => s.move none (.ring i)
  | .ticker => runTicker fuel s
  | .execution i => runExecution i s

/-- Does what is in line until nothing can go on at this instant. -/
def settle : Nat → Session → Session
  | 0, s => s
  | fuel + 1, s =>
    let s := s.enqueue none
    match s.line with
    | [] => s
    | j :: rest => settle fuel (perform fuel j { s with line := rest })

/-! ### Time -/

/-- The instants at which something will be able to go on. -/
def dueTimes (s : Session) : List Moment :=
  let alarms := s.limiter.actors.filterMap fun a => a.alarm.map (·.due.ceilMilli)
  let flights := s.flights.map fun f => f.due.ceilMilli
  let ticker := match s.limiter.ticker with
    | .ticking due => [due]
    | _ => []
  (alarms ++ flights ++ ticker).filter (s.now < ·)

/-- Lets time pass up to an instant at which nothing happens before. -/
def elapseTo (t : Moment) (s : Session) : Session :=
  s.move none (.elapse (t - s.now).toNat)

/-- Lets time pass up to an instant, with all that happens on the way. -/
def advance (target : Moment) : Nat → Session → Session
  | 0, s => s
  | fuel + 1, s =>
    match (s.dueTimes.filter (· ≤ target)).min? with
    | none => s.elapseTo target
    | some t => advance target fuel (settle fuel (s.elapseTo t))

end Session

end Throttle.Rehearsal
