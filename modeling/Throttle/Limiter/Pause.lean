import Throttle.Limiter.Basic

/-!
The pause display: the longest wait of all managers, in whole seconds, reported at once when a wait
begins and then at fixed intervals until none is left.
-/

namespace Throttle

/-- The wait that a snapshot shows, if it is not over. -/
def Snapshot.wait? (now : Moment) (s : Snapshot) : Option (Moment × PolicyName) :=
  match s.nextSend with
  | some t => if now < t then some (t, s.policy.name) else none
  | none => none

/-- The later of two waits; of equal ones, the second. -/
def laterWait (a b : Moment × PolicyName) : Moment × PolicyName :=
  if a.1 ≤ b.1 then b else a

/-- The longest wait of some snapshots. -/
def longestPause (now : Moment) (ss : List Snapshot) : Option Pause :=
  match ss.filterMap (Snapshot.wait? now) with
  | [] => none
  | a :: rest =>
    let (t, policy) := rest.foldl laterWait a
    some ⟨Delay.secondsUp (Moment.gap now t), policy⟩

namespace Limiter

/-- The snapshots of the registered managers. -/
def snapshots (w : Limiter) : List Snapshot :=
  w.registered.filterMap fun (_, i) => (w.actors[i]?).map (·.snapshot)

def pause (w : Limiter) : Option Pause := longestPause w.now w.snapshots

/-- The registered policies, ordered by name. Those of one name, which there can be, come in the order
of their registration here; the order among them is not specified. -/
def policies (w : Limiter) : List Snapshot :=
  w.snapshots.mergeSort fun a b => decide (a.policy.name.text ≤ b.policy.name.text)

/-- A manager that has shown where it stands calls the ticker if it waits for an instant to come. -/
def call (w : Limiter) (index : Nat) : Limiter :=
  if w.calling.contains index then
    let called := { w with calling := w.calling.erase index }
    match w.actors[index]? with
    | some a => if a.waits w.now then called.wake else called
    | none => called
  else w

/-- The ticker waits for a wake-up, or takes the one that came. -/
def awaitPause (w : Limiter) : Limiter :=
  match w.ticker with
  | .arriving =>
    if w.permit then { w with permit := false, ticker := .ticking w.now }
    else { w with ticker := .waiting false }
  | .waiting true => { w with ticker := .ticking w.now }
  | _ => w

/-- When a tick that was due at an instant is followed by the next: an interval after it, or after
now if it came more than five milliseconds late. -/
def nextTick (now due : Moment) (interval : Delay) : Moment :=
  (if due + 5000000 < now then now else due) + (interval : Int)

/-- The ticker reports the pause, or stops ticking if there is none. -/
def tick (w : Limiter) : Limiter × List Happening :=
  match w.ticker with
  | .ticking due =>
    if w.now < due then (w, [])
    else
      match w.pause with
      | none => ({ w with ticker := .arriving }, [])
      | some p =>
        ({ w with ticker := .ticking (nextTick w.now due w.config.statusInterval) },
          [.notice none (.pause p), .event (.status p)])
  | _ => (w, [])

end Limiter

end Throttle
