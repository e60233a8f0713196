import Throttle.Failure
import Throttle.Http.Message

/-!
A server that answers from a script: for each path a list of answers to probes and one to other
requests, of which the last answer repeats.
-/

namespace Throttle.Rehearsal

open Http

/-- The date that a scripted reply carries. -/
inductive ReplyDate where
  | fixed (date : Moment)
  /-- So much after the arrival of the request. -/
  | sinceArrival (nanos : Int)

/-- What a script answers. -/
inductive ScriptedAnswer where
  | reply (latency : Delay) (status : Nat) (headers : Headers) (body : List UInt8)
      (date : ReplyDate)
  | failure (latency : Delay) (cause : TransportFailure)
  /-- The request never comes to an end. -/
  | silence

/-- The answers of one path that are still to come. -/
structure Script where
  probes : List ScriptedAnswer
  sends : List ScriptedAnswer

/-- What a path without a script answers. -/
def notFound : ScriptedAnswer := .reply 0 404 .empty [] (.sinceArrival 0)

/-- Takes the next answer; the last one stays. -/
def next : List ScriptedAnswer → ScriptedAnswer × List ScriptedAnswer
  | [] => (notFound, [])
  | [a] => (a, [a])
  | a :: rest => (a, rest)

/-- The scripts of a server, by path. -/
structure Server where
  scripts : List (String × Script)

namespace Server

/-- The answer to one request. -/
def serve (r : Request) : List (String × Script) → ScriptedAnswer × List (String × Script)
  | [] => (notFound, [])
  | (path, script) :: rest =>
    if path = r.url.path then
      if r.method = "HEAD" then
        let (a, probes) := next script.probes
        (a, (path, { script with probes }) :: rest)
      else
        let (a, sends) := next script.sends
        (a, (path, { script with sends }) :: rest)
    else
      let (a, rest) := serve r rest
      (a, (path, script) :: rest)

end Server

namespace ScriptedAnswer

/-- When an answer to a request that arrives now is complete, and what it is. -/
def outcome (now : Moment) : ScriptedAnswer →
    Option (Moment × Except TransportFailure Reply)
  | reply latency status headers body date =>
    let stamp := match date with
      | .fixed t => t
      | .sinceArrival n => now + n
    some (now + (latency : Int), .ok ⟨status, headers, body, stamp⟩)
  | failure latency cause => some (now + (latency : Int), .error cause)
  | silence => none

end ScriptedAnswer

end Throttle.Rehearsal
