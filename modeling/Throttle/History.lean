import Throttle.Policy.Basic

/-!
When the replies of a policy were dated. A history keeps the newest entries, as many as its
capacity; `nextSafeSend` is the earliest instant at which one more send fits every window.
-/

namespace Throttle

/-- Reply dates, newest first. -/
structure History where
  entries : List Moment
  capacity : Nat
  deriving DecidableEq, Repr

namespace History

def empty (capacity : Nat) : History := ⟨[], capacity⟩

/-- Puts an instant before the first one that is not later. -/
def place (t : Moment) : List Moment → List Moment
  | [] => [t]
  | e :: es => if e ≤ t then t :: e :: es else e :: place t es

/-- Records an instant; the oldest entry gives way once the capacity is reached. -/
def push (h : History) (t : Moment) : History :=
  { h with entries := (place t h.entries).take h.capacity }

/-- Raises the capacity; a smaller one is ignored. -/
def grow (h : History) (capacity : Nat) : History :=
  { h with capacity := max h.capacity capacity }

/-- For how many more entries a growth asks room: none can be asked for if there are more entries
already than the new capacity holds. -/
def shortage? (h : History) (capacity : Nat) : Option Nat :=
  if h.entries.length ≤ capacity then some (capacity - h.entries.length) else none

/-- A growth with the room that it asks for, and whether the capacity rose. It never lacks a result
(`grow?_eq`), so that managers use `grow`. -/
def grow? (h : History) (capacity : Nat) : Option (Bool × History) :=
  if capacity ≤ h.capacity then some (false, h)
  else (h.shortage? capacity).map fun _ => (true, { h with capacity })

/-- The newest entry. -/
def latest? (h : History) : Option Moment := h.entries.head?

/-- When the window of an item next has room, if that is not at once. -/
def windowConstraint (h : History) (i : Item) (now : Moment) : Except Overflow (Option Moment) := do
  let period := i.limit.periodDelay
  let start ← Moment.before now period
  match i.limit.hits.toNat with
  | 0 => return some (← Moment.after now period)
  | hits + 1 =>
    match (h.entries.takeWhile (start < ·))[hits]? with
    | none => return none
    | some e => return some (← Moment.after e period)

/-- When the penalty that an item's state reports is over, if it reports one. -/
def restrictionConstraint (h : History) (i : Item) (now : Moment) :
    Except Overflow (Option Moment) :=
  if i.state.restriction = 0 then .ok none
  else (Moment.after (h.latest?.getD now) i.state.restrictionDelay).map some

/-- The later of two instants, either of which may be missing. -/
def later? : Option Moment → Option Moment → Option Moment
  | some a, some b => some (max a b)
  | some a, none => some a
  | none, b => b

/-- When an item next lets a request through, if that is not at once. -/
def itemConstraint (h : History) (i : Item) (now : Moment) : Except Overflow (Option Moment) := do
  return later? (← h.windowConstraint i now) (← h.restrictionConstraint i now)

/-- The earliest instant, from `now` on, at which every item has room. -/
def nextSafeSend (h : History) (p : Policy) (now : Moment) : Except Overflow Moment :=
  p.items.foldlM (fun t i => return (← h.itemConstraint i now).elim t (max t)) now

end History

end Throttle
