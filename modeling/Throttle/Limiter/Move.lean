import Throttle.Limiter.Discovery
import Throttle.Limiter.Pause

/-!
The moves of a limiter. `Limiter.step` makes one move, `Limiter.run` a list of them; every order of
moves is allowed, so what holds of all runs holds of every way in which callers, timers, managers,
probes and the ticker can take turns. A turn is not taken apart: a call of a caller is one move (with
its look at `closed` and what it then does to the routes), and so are a message that a manager handles
(with the count of a violation and the event about it) and a report of the ticker (with all the
snapshots that it reads). Only the end of a message is a move of its own: the manager has shown its
snapshot by then, and now calls the ticker. Others may come in between, even further messages of that
manager, which in a real one come after the call.
-/

namespace Throttle

open Http

/-- Something that can happen to a limiter. -/
inductive Move where
  /-- Time passes. -/
  | elapse (delay : Delay)
  /-- A caller submits a request. -/
  | submit (endpoint : Endpoint) (request : Request)
  /-- A caller gives up on a submission. -/
  | cancel (id : Nat)
  /-- A caller drops the handle of a submission. -/
  | letGo (id : Nat)
  /-- A probe is sent. -/
  | startProbe (endpoint : Endpoint)
  /-- A probe comes to an end. -/
  | endProbe (endpoint : Endpoint) (result : Except TransportFailure Reply)
  /-- What a probe came to is passed on. -/
  | settle (endpoint : Endpoint)
  /-- A manager handles its next command. -/
  | command (manager : Nat)
  /-- A manager handles its next signal. -/
  | signal (manager : Nat)
  /-- The alarm of a manager goes off. -/
  | ring (manager : Nat)
  /-- A transmission comes to an end. -/
  | returned (manager : Nat) (id : Nat) (result : Except TransportFailure Reply)
  /-- A manager calls the ticker, after it has shown where it stands. -/
  | call (manager : Nat)
  /-- The ticker waits for a wake-up, or takes one. -/
  | awaitPause
  /-- The ticker reports. -/
  | tick
  /-- A caller asks for every policy again. -/
  | refresh
  /-- A caller stops the limiter. -/
  | shutdown
  /-- One more holds the limiter. -/
  | retain
  /-- One lets go of the limiter. -/
  | release
  /-- From now on requests are signed, or refused, in another way. -/
  | renew (authorizer : Authorizer)

/-- A move that only somebody who holds the limiter can make. -/
def Move.needsHolder : Move → Bool
  | .submit _ _ => true
  | .refresh => true
  | .shutdown => true
  | .retain => true
  | _ => false

namespace Limiter

/-- The `User-Agent` for requests that bring none. -/
def withUserAgent (w : Limiter) (r : Request) : Request :=
  match w.config.userAgent.bind HeaderValue.ofString? with
  | some v => r.withDefault userAgentName v
  | none => r

/-- Starts the ticker with the first submission. -/
def startTicker (w : Limiter) : Limiter :=
  if w.ticker = .off then { w with ticker := .arriving } else w

/-- Takes a submission, under the next number. -/
def submit (w : Limiter) (e : Endpoint) (request : Request) : Limiter × List Happening :=
  let p : Pending := ⟨w.nextId, e, w.withUserAgent request⟩
  let w := { w with nextId := w.nextId + 1 }
  if w.closed then w.answer p.id (.error .shutdown)
  else
    let w := w.startTicker
    match w.route? e with
    | some (.ready index) => w.enqueue index p
    | some (.discovering waiting) =>
      (w.setRoute e (.discovering (waiting ++ [p])),
        [.notice none (.awaitingDiscovery p.id e)])
    | none =>
      let w := w.setRoute e (.discovering [p])
      ({ w with discoveries := w.discoveries ++ [⟨e, .starting p.request.probe⟩] }, [])

/-- Nobody waits for a submission any more. -/
def letGo (w : Limiter) (id : Nat) : Limiter :=
  if w.isWaiting id then { w with dropped := id :: w.dropped } else w

/-- A caller gives up on a submission, which the log shows. -/
def cancel (w : Limiter) (id : Nat) : Limiter × List Happening :=
  (w.letGo id, [.notice none (.cancelled id)])

/-- Tells every listener about every policy. -/
def refresh (w : Limiter) : List Happening :=
  w.policies.map fun s => .event (.policyUpdated s.policy)

/-- Tells every registered manager to stop, and fails what waits for a probe. -/
def shutdown (w : Limiter) : Limiter × List Happening :=
  if w.closed then (w, [])
  else
    let waiting := w.routes.flatMap (·.2.waiting)
    let w := { w with closed := true, actors := w.mapRegistered Actor.stop }
    let (w, hs) := w.answerAll (.error .shutdown) waiting
    ({ w with routes := [], registered := [], ticker := .off }, .notice none .shuttingDown :: hs)

/-- Makes one move that is possible. -/
def make (w : Limiter) : Move → Limiter × List Happening
  | .elapse d => ({ w with now := w.now + (d : Int) }, [])
  | .submit e r => w.submit e r
  | .cancel id => w.cancel id
  | .letGo id => (w.letGo id, [])
  | .startProbe e => w.startProbe e
  | .endProbe e result => w.endProbe e result
  | .settle e => w.settle e
  | .command i => w.withActor i Actor.command
  | .signal i => w.withActor i Actor.signal
  | .ring i => (w.updateActor i (Actor.ring w.now), [])
  | .returned i id result => (w.updateActor i (·.returned id result), [])
  | .call i => (w.call i, [])
  | .awaitPause => (w.awaitPause, [])
  | .tick => w.tick
  | .refresh => (w, w.refresh)
  | .shutdown => w.shutdown
  | .retain => ({ w with owners := w.owners + 1 }, [])
  | .release => ({ w with owners := w.owners - 1 }.hangUpIfFree, [])
  | .renew f => ({ w with authorizer := f }, [])

/-- Makes one move. What only a holder of the limiter can ask for needs one. -/
def step (w : Limiter) (m : Move) : Limiter × List Happening :=
  if m.needsHolder && w.owners == 0 then (w, []) else w.make m

/-- Something observed, and when. -/
structure Observation where
  time : Moment
  what : Happening

/-- Makes some moves, and keeps what can be observed. -/
def run (w : Limiter) : List Move → Limiter × List Observation
  | [] => (w, [])
  | m :: ms =>
    let (v, hs) := w.step m
    let (u, more) := run v ms
    (u, hs.map (⟨v.now, ·⟩) ++ more)

end Limiter

end Throttle
