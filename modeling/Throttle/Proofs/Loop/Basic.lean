import Throttle.Proofs.History
import Throttle.Proofs.Limiter.Frame

/-!
  A limiter and a server in a closed loop, for one endpoint. The server has a list of windows. It
  accepts an arrival if every window has room for it, and else answers 429; its clock is that of the
  limiter. A request is on the way to the server for any time, and so is its reply on the way back;
  no transmission gets lost. Everything else that can happen to a limiter can happen in between.
-/

namespace Throttle

open Http

/-! ## The server -/

/-- Every window has room for an arrival, after those at some dates. -/
def Accepts (ws : List Window) (dates : List Moment) (t : Moment) : Prop :=
  ∀ w ∈ ws, w.HasRoom dates t

instance (ws : List Window) (dates : List Moment) (t : Moment) : Decidable (Accepts ws dates t) :=
  inferInstanceAs (Decidable (∀ w ∈ ws, w.HasRoom dates t))

/-- The policy that a reply declares, if its headers can be read. -/
def declared? (reply : Reply) : Option Policy :=
  (Manager.declaration reply).bind Except.toOption

/-- A reply declares exactly some windows, each with the true count of the accepted arrivals at the
date of the reply, and no restriction. -/
def Declares (ws : List Window) (accepted : List Moment) (reply : Reply) : Prop :=
  ∃ p ∈ declared? reply, p.items.map (·.limit) = ws ∧
    ∀ i ∈ p.items, i.state.hits.toNat = i.limit.count accepted reply.date ∧
      i.state.restriction = 0

instance (ws : List Window) (accepted : List Moment) (reply : Reply) :
    Decidable (Declares ws accepted reply) :=
  inferInstanceAs (Decidable (∃ p ∈ declared? reply, _ ∧ ∀ i ∈ p.items, _ ∧ _))

def Sender.isProbe : Sender → Bool
  | .probe _ => true
  | .manager _ _ => false

/-- What the server may answer to an arrival that it accepts: not 429, and to a probe a success. The
accepted arrivals include this one. -/
structure Grants (ws : List Window) (accepted : List Moment) (now : Moment) (sender : Sender)
    (reply : Reply) : Prop where
  date : reply.date = now
  granted : reply.isViolation = false
  success : sender.isProbe = true → reply.isSuccess = true
  declares : Declares ws accepted reply

instance (ws : List Window) (accepted : List Moment) (now : Moment) (sender : Sender)
    (reply : Reply) : Decidable (Grants ws accepted now sender reply) :=
  decidable_of_iff
    (reply.date = now ∧ reply.isViolation = false ∧
      (sender.isProbe = true → reply.isSuccess = true) ∧ Declares ws accepted reply)
    ⟨fun ⟨hdate, hgranted, hsuccess, hdeclares⟩ => ⟨hdate, hgranted, hsuccess, hdeclares⟩,
      fun h => ⟨h.date, h.granted, h.success, h.declares⟩⟩

/-! ## The loop -/

/-- The limiter, the server, and what is on the way between them. -/
structure Loop where
  limiter : Limiter
  /-- When the server accepted an arrival, the latest first. -/
  accepted : List Moment
  /-- When the server answered 429. -/
  refused : List Moment
  /-- On the way to the server. -/
  transit : List Sender
  /-- On the way back. -/
  replies : List (Sender × Reply)

namespace Loop

/-- Something that can happen in the loop. -/
inductive Move where
  /-- The limiter, its callers or the clock move. -/
  | limiter (m : Throttle.Move)
  /-- What is on the way to the server arrives; the reply says what the server answers if it
  accepts. -/
  | arrive (sender : Sender) (reply : Reply)
  /-- A reply on the way back arrives. -/
  | deliver (sender : Sender) (reply : Reply)

end Loop

/-- A move that the loop leaves open: any but the end of a transmission, which is up to the server,
and submissions to other endpoints. -/
def Move.isFree (e : Endpoint) : Move → Bool
  | .submit f _ => f = e
  | .endProbe _ _ => false
  | .returned _ _ _ => false
  | _ => true

/-- The move by which a reply comes to the limiter. -/
def Sender.ended (reply : Reply) : Sender → Move
  | .probe e => .endProbe e (.ok reply)
  | .manager i id => .returned i id (.ok reply)

namespace Loop

/-- A limiter that has seen no submission, and a server that has seen no request. -/
def start (config : Config) (authorizer : Authorizer) (now : Moment) : Loop :=
  { limiter := .new config authorizer now
    accepted := []
    refused := []
    transit := []
    replies := [] }

/-- A move of the limiter; what it sends is on its way. -/
def advance (l : Loop) (m : Throttle.Move) : Loop :=
  { l with
    limiter := (l.limiter.step m).1
    transit := l.transit ++ Limiter.senders (l.limiter.step m).2 }

/-- An arrival at the server. One that is not accepted is answered with 429. -/
def arrive (ws : List Window) (l : Loop) (sender : Sender) (reply : Reply) : Loop :=
  let now := l.limiter.now
  let transit := l.transit.erase sender
  if Accepts ws l.accepted now then
    let accepted := now :: l.accepted
    if Grants ws accepted now sender reply then
      { l with accepted, transit, replies := l.replies ++ [(sender, reply)] }
    else l
  else
    { l with
      refused := now :: l.refused
      transit
      replies := l.replies ++ [(sender, { reply with status := 429, date := now })] }

/-- A reply comes back to the limiter. -/
def deliver (l : Loop) (sender : Sender) (reply : Reply) : Loop :=
  { l with replies := l.replies.erase (sender, reply) }.advance (sender.ended reply)

/-- One move, for a server with some windows; one that is not possible changes nothing. -/
def step (ws : List Window) (e : Endpoint) (l : Loop) : Move → Loop
  | .limiter m => if m.isFree e then l.advance m else l
  | .arrive sender reply => if sender ∈ l.transit then l.arrive ws sender reply else l
  | .deliver sender reply =>
    if (sender, reply) ∈ l.replies then l.deliver sender reply else l

/-- Some moves. -/
def run (ws : List Window) (e : Endpoint) (l : Loop) (ms : List Move) : Loop :=
  ms.foldl (step ws e) l

end Loop

end Throttle
