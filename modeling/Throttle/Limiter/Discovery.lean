import Throttle.Limiter.Basic

/-!
Discovery: the first submission to an endpoint starts a probe, later ones wait behind it. A failed
probe costs the oldest submission; what waits behind it gets a probe of its own.
-/

namespace Throttle.Limiter

open Http

def route? (w : Limiter) (e : Endpoint) : Option Route := w.routes.lookup e

/-- Gives an endpoint a route, in place of the one it has. -/
def setRoute (w : Limiter) (e : Endpoint) (r : Route) : Limiter :=
  { w with routes := (e, r) :: w.routes.filter (·.1 ≠ e) }

def removeRoute (w : Limiter) (e : Endpoint) : Limiter :=
  { w with routes := w.routes.filter (·.1 ≠ e) }

def discovery? (w : Limiter) (e : Endpoint) : Option Discovery :=
  w.discoveries.find? (·.endpoint = e)

def setDiscovery (w : Limiter) (e : Endpoint) (p : Probe) : Limiter :=
  { w with discoveries := w.discoveries.map fun d => if d.endpoint = e then ⟨e, p⟩ else d }

def endDiscovery (w : Limiter) (e : Endpoint) : Limiter :=
  { w with discoveries := w.discoveries.filter (·.endpoint ≠ e) }

/-- Hands a request to a manager; one that has stopped refuses it. -/
def enqueue (index : Nat) (w : Limiter) (p : Pending) : Limiter × List Happening :=
  match w.actors[index]? with
  | none => (w, [])
  | some a =>
    if a.isOpen then ({ w with actors := w.actors.set index (a.post (.queue p)) }, [])
    else w.answer p.id (.error .shutdown)

/-- The manager of a policy, which is made if there is none. -/
def managerFor (w : Limiter) (span : Span) (name : PolicyName) :
    Limiter × List Happening × Nat :=
  match w.registered.lookup name with
  | some index => (w, [], index)
  | none =>
    let index := w.actors.length
    ({ w with
        actors := w.actors ++ [Actor.new name]
        registered := w.registered ++ [(name, index)] },
      [.notice (some span) (.creatingManager name)], index)

/-- Hands a probe's reply to a manager. -/
def seed (w : Limiter) (span : Span) (index : Nat) (reply : Reply) : Limiter × List Happening :=
  match w.actors[index]? with
  | none => (w, [])
  | some a =>
    if a.isOpen then ({ w with actors := w.actors.set index (a.post (.seed reply)) }, [])
    else (w, [.notice (some span) (.managerStopped a.name)])

/-- Signs a probe and hands it to the transport. -/
def startProbe (w : Limiter) (e : Endpoint) : Limiter × List Happening :=
  match w.discovery? e with
  | some ⟨_, .starting request⟩ =>
    match w.authorizer request with
    | .error refusal => (w.setDiscovery e (.ended (.error (.authorization refusal))), [])
    | .ok signed =>
      (w.setDiscovery e (.awaiting signed),
        [.notice (some (discoverySpan e)) (.probing signed.method signed.url),
          .transmitted (.probe e) signed])
  | _ => (w, [])

/-- The log lines and the count of a probe's reply. -/
def probeReport (e : Endpoint) (reply : Reply) : List Happening :=
  let owner := match policyText? reply.headers with
    | some cs => String.ofList cs
    | none => e.text
  .count owner .probe ::
    (rateLimitHeaders reply.headers).map fun (n, v) =>
      .notice (some (discoverySpan e)) (.rateLimitHeader n v)

/-- The policy that a probe's reply declares, or why the probe failed with its log line. -/
def probePolicy (e : Endpoint) (signed : Request) (reply : Reply) :
    Except (Failure × Notice) Policy :=
  if !reply.isSuccess && !reply.isViolation then
    .error (.probeStatus e reply.status, .probeRejected reply.status signed.headers)
  else if !namesPolicy reply.headers then
    .error (.unnamedPolicy e, .probeUnnamed reply.status signed.headers)
  else
    match Policy.ofHeaders? reply.headers >>= Policy.ensureConsistent with
    | .error cause => .error (.malformedPolicy cause, .probeMalformed cause)
    | .ok policy => .ok policy

/-- A probe has come to an end; the manager of its policy gets the reply. -/
def endProbe (w : Limiter) (e : Endpoint) (result : Except TransportFailure Reply) :
    Limiter × List Happening :=
  match w.discovery? e with
  | some ⟨_, .awaiting signed⟩ =>
    match result with
    | .error cause => (w.setDiscovery e (.ended (.error (.transport cause))), [])
    | .ok reply =>
      let span := discoverySpan e
      let report := probeReport e reply
      match probePolicy e signed reply with
      | .error (failure, notice) =>
        (w.setDiscovery e (.ended (.error failure)), report ++ [.notice (some span) notice])
      | .ok policy =>
        let (w, made, index) := w.managerFor span policy.name
        let (w, lost) := w.seed span index reply
        (w.setDiscovery e (.ended (.ok index)), report ++ made ++ lost)
  | _ => (w, [])

/-- Everybody who holds the limiter has let go of it: the ticker stops, and no manager can be
written to any more. -/
def hangUp (w : Limiter) : Limiter :=
  { w with
    ticker := .off
    routes := []
    registered := []
    actors := w.mapRegistered Actor.disconnect }

/-- Hangs up if nobody holds the limiter. -/
def hangUpIfFree (w : Limiter) : Limiter :=
  if w.owners = 0 ∧ w.discoveries = [] then w.hangUp else w

/-- Ends the search for an endpoint's policy. -/
def leave (w : Limiter) (e : Endpoint) : Limiter := (w.endDiscovery e).hangUpIfFree

/-- A probe found a manager, which gets everything that waited. -/
def settleFound (w : Limiter) (e : Endpoint) (index : Nat) (waiting : List Pending) :
    Limiter × List Happening :=
  let name := match w.actors[index]? with
    | some a => [a.name]
    | none => []
  let report := name.map fun n => .notice none (.registered e n waiting.length)
  let (w, hs) := each (enqueue index) (w.setRoute e (.ready index)) waiting
  (w.leave e, report ++ hs)

/-- A probe failed: its failure goes to the oldest submission, and the next one whose caller still
waits gives the next probe. -/
def settleFailed (w : Limiter) (e : Endpoint) (failure : Failure) (waiting : List Pending) :
    Limiter × List Happening :=
  let report := .notice none (.discoveryFailed e failure)
  let (w, hs) := w.answerAll (.error failure) (waiting.take 1)
  match (waiting.drop 1).filter fun p => !w.dropped.contains p.id with
  | [] => ((w.removeRoute e).leave e, report :: hs)
  | p :: rest =>
    ((w.setRoute e (.discovering (p :: rest))).setDiscovery e (.starting p.request.probe),
      report :: hs)

/-- Passes on what a probe came to. -/
def settle (w : Limiter) (e : Endpoint) : Limiter × List Happening :=
  match w.discovery? e with
  | some ⟨_, .ended outcome⟩ =>
    match w.route? e with
    | none => (w.leave e, [])
    | some (.ready _) => (w.leave e, [])
    | some (.discovering waiting) =>
      if w.closed then
        let (w, hs) := (w.removeRoute e).answerAll (.error .shutdown) waiting
        (w.leave e, hs)
      else
        match outcome with
        | .ok index => w.settleFound e index waiting
        | .error failure => w.settleFailed e failure waiting
  | _ => (w, [])

end Throttle.Limiter
