import Throttle.Json.Quoted
import Throttle.Rehearsal.Session

/-!
What is done in a rehearsal, step by step, and what is reported after each step. What happened at
one instant is reported in an order that does not depend on which task came first.
-/

namespace Throttle.Rehearsal

open Http

/-- One step of a rehearsal. -/
inductive Action where
  /-- Lets time pass. -/
  | advance (delay : Delay)
  /-- Submits requests to endpoints given by name. -/
  | submit (requests : List (String × Request))
  /-- Submits each request from a task that holds the limiter. -/
  | execute (requests : List (String × Request))
  | cancel (id : Nat)
  | policies
  | policyFor (endpoint : String)
  | estimate (endpoint : String) (count : UInt32)
  | pause
  | violations
  | describe
  | refresh
  | shutdown
  /-- Lets go of the limiter. -/
  | drop
  /-- Starts to listen, under a name. -/
  | subscribe (name : String)
  /-- Takes what such a listener has to hear. -/
  | drain (name : String)

/-- What a listener hears. -/
inductive Heard where
  | event (event : Event)
  /-- So many events were missed. -/
  | lagged (missed : Nat)
  /-- There will be no more. -/
  | closed

/-- What a step answers. -/
inductive Answer where
  | nothing
  /-- The limiter is gone. -/
  | dropped
  /-- The numbers of submissions, and the fault of the endpoint at which they ended. -/
  | ids (ids : List Nat) (fault : Option IdentifierError)
  | flag (value : Bool)
  | policies (policies : List Policy)
  | snapshot (snapshot : Option Snapshot)
  | estimate (delay : Option Delay)
  | text (text : Option String)
  | number (value : Nat)
  | heard (what : List Heard)

/-- Why a rehearsal ends early. -/
inductive Abort where
  | identifier (error : IdentifierError)
  | overflow (cause : Overflow)

/-- The first number under which the results of tasks are reported. -/
def firstAlias : Nat := 9001

namespace Session

/-- Enough steps for any rehearsal. -/
def fuel : Nat := 1000000000

/-- The policy that governs an endpoint, once it is known. -/
def policyFor (s : Session) (e : Endpoint) : Option Snapshot :=
  match s.limiter.route? e with
  | some (.ready index) => (s.limiter.actors[index]?).map (·.snapshot)
  | _ => none

/-- Submits requests in turn, until an endpoint is no endpoint. -/
def submitAll : List (String × Request) → Session →
    Session × List Nat × Option IdentifierError
  | [], s => (s, [], none)
  | (e, r) :: rest, s =>
    match Endpoint.ofString? e with
    | .error fault => (s, [], some fault)
    | .ok e =>
      let id := s.limiter.nextId
      let (s, ids, fault) := submitAll rest (s.move none (.submit e r))
      (s, id :: ids, fault)

/-- Starts tasks that submit one request each. -/
def executeAll : List (String × Request) → Session →
    Session × List Nat × Option IdentifierError
  | [], s => (s, [], none)
  | (e, r) :: rest, s =>
    match Endpoint.ofString? e with
    | .error fault => (s, [], some fault)
    | .ok e =>
      let number := firstAlias + s.executions.length
      let x : Execution := ⟨number, e, r, .starting⟩
      let s := { s with executions := s.executions ++ [x] }
      let (s, ids, fault) := executeAll rest (s.move none .retain)
      (s, number :: ids, fault)

/-- Nobody can send to the listeners any more. -/
def isSilent (s : Session) : Bool :=
  s.limiter.owners = 0 && s.limiter.discoveries.isEmpty &&
    s.limiter.actors.all fun a => a.stage == .stopped || a.stage == .failed

/-- Takes what a listener has to hear. -/
def drain (name : String) (s : Session) : Session × List Heard :=
  match s.listeners.lookup name with
  | none => (s, [])
  | some seen =>
    let missed := s.channel.missed seen
    let lag := if missed = 0 then [] else [.lagged missed]
    let events := (s.channel.rest seen).map .event
    let close := if s.isSilent then [.closed] else []
    let listeners := s.listeners.map fun (n, k) => if n = name then (n, s.channel.sent) else (n, k)
    ({ s with listeners }, lag ++ events ++ close)

/-- The submissions of tasks, which nobody can cancel. -/
def ofTask (s : Session) (id : Nat) : Option Nat :=
  s.executions.findSome? fun x =>
    match x.progress with
    | .submitted i => if i = id then some x.number else none
    | .done i => if i = id then some x.number else none
    | .starting => none

/-- The written form of a limiter for diagnostics. -/
def describe (s : Session) : String :=
  "RateLimiter \x7b endpoints: " ++ toString s.limiter.routes.length ++ ", policies: [" ++
    ", ".intercalate (s.limiter.registered.map fun (n, _) => n.describe) ++ "] \x7d"

/-- No step waits longer than thirty years of 365 days. -/
def longestWait : Delay := Delay.ofSeconds (30 * 365 * 86400)

/-- A step that needs no limiter. -/
def actWithout (s : Session) : Action → Option (Session × Answer)
  | .advance d => some (s.advance (s.now + (min d longestWait : Delay)) fuel, .nothing)
  | .cancel id =>
    if s.limiter.isWaiting id && (s.ofTask id).isNone then
      some (s.move none (.cancel id), .flag true)
    else some (s, .flag false)
  | .drain name =>
    let (s, heard) := s.drain name
    some (s, .heard heard)
  | .drop =>
    if s.holding then some ({ s.move none .release with holding := false }, .nothing)
    else some (s, .nothing)
  | _ => none

def known (e : String) : Except Abort Endpoint := (Endpoint.ofString? e).mapError .identifier

/-- A step that needs the limiter. -/
def actWith (s : Session) : Action → Except Abort (Session × Answer)
  | .submit requests =>
    let (s, ids, fault) := s.submitAll requests
    .ok (s, .ids ids fault)
  | .execute requests =>
    let (s, ids, fault) := s.executeAll requests
    .ok (s, .ids ids fault)
  | .policies => .ok (s, .policies (s.limiter.policies.map (·.policy)))
  | .policyFor e => do return (s, .snapshot (s.policyFor (← known e)))
  | .estimate e count => do
    match s.policyFor (← known e) with
    | none => return (s, .estimate none)
    | some snapshot =>
      match snapshot.policy.estimate count s.limiter.config.minimumInterval with
      | .error cause => .error (.overflow cause)
      | .ok d => return (s, .estimate (some d))
  | .pause => .ok (s, .text (s.limiter.pause.map Pause.render))
  | .violations => .ok (s, .number s.limiter.violations)
  | .describe => .ok (s, .text (some s.describe))
  | .refresh => .ok (s.move none .refresh, .nothing)
  | .shutdown => .ok (s.move none .shutdown, .nothing)
  | .subscribe name =>
    let others := s.listeners.filter (·.1 ≠ name)
    .ok ({ s with listeners := (name, s.channel.sent) :: others }, .nothing)
  | _ => .ok (s, .nothing)

/-- Does all that can go on at this instant. -/
def quiet (s : Session) : Session := settle fuel s

/-- Takes one step, with all that happens at this instant. -/
def act (s : Session) (a : Action) : Except Abort (Session × Answer) :=
  match s.actWithout a with
  | some (s, answer) => .ok (s.quiet, answer)
  | none =>
    if s.holding then do
      let (s, answer) ← s.actWith a
      return (s.quiet, answer)
    else .ok (s.quiet, .dropped)

end Session

/-- A result as it is reported. -/
structure Resolution where
  time : Moment
  id : Nat
  result : Except Failure Reply

/-- A line of the log as it is reported. -/
structure LogLine where
  time : Moment
  span : Option Span
  notice : Notice

/-- What happened during a step. -/
structure Report where
  events : List (Moment × Event)
  pauses : List (Moment × Pause)
  resolutions : List Resolution
  arrivals : List (Moment × Request)
  log : List LogLine

/-- The text by which lines of one instant are ordered. -/
def spanText : Option Span → String
  | none => "[null,null]"
  | some s => "[" ++ Json.quote s.policy ++ "," ++ Json.quote s.stage ++ "]"

/-- Sorts by time and then by a text, and keeps the order of what agrees in both. -/
def sortBy (time : α → Moment) (text : α → String) (l : List α) : List α :=
  l.mergeSort fun a b =>
    decide (time a < time b) || (decide (time a = time b) && decide (text a ≤ text b))

namespace Session

/-- Everything observed and not yet reported, the oldest first. -/
def observations (s : Session) : List Limiter.Observation := s.observed.reverse

def events (s : Session) : List (Moment × Event) :=
  sortBy (·.1) (·.2.policy.text) <| s.observations.filterMap fun o =>
    match o.what with
    | .event (.status _) => none
    | .event e => some (o.time, e)
    | _ => none

def pauses (s : Session) : List (Moment × Pause) :=
  s.observations.filterMap fun o =>
    match o.what with
    | .event (.status p) => some (o.time, p)
    | _ => none

/-- The number under which a submission is reported. -/
def reportedId (s : Session) (id : Nat) : Nat := (s.ofTask id).getD id

def resolutions (s : Session) : List Resolution :=
  let all := s.observations.filterMap fun o =>
    match o.what with
    | .answered id result => some ⟨o.time, s.reportedId id, result⟩
    | _ => none
  all.mergeSort fun a b => decide (a.time < b.time) || (a.time == b.time && decide (a.id ≤ b.id))

/-- The lines of at most a verbosity. -/
def log (s : Session) (level : Option Level) : List LogLine :=
  match level with
  | none => []
  | some level =>
    sortBy (·.time) (fun l => spanText l.span) <| s.observations.filterMap fun o =>
      match o.what with
      | .notice span n =>
        if n.level.verbosity ≤ level.verbosity then some ⟨o.time, span, n⟩ else none
      | _ => none

/-- What happened since the last report. -/
def report (s : Session) (level : Option Level) : Report :=
  { events := s.events
    pauses := s.pauses
    resolutions := s.resolutions
    arrivals := sortBy (·.1) (·.2.url.render) s.arrivals.reverse
    log := s.log level }

/-- Forgets what was reported. -/
def forget (s : Session) : Session := { s with observed := [], arrivals := [] }

end Session

end Throttle.Rehearsal
