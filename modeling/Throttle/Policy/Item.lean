import Throttle.Policy.Status
import Throttle.Policy.Window

/-!
A limit paired with the server's count against it: how severe the pair is, and how long a number
of requests will take.
-/

namespace Throttle

/-- The hits left at which an item is borderline. -/
def borderlineBuffer : Nat := 2

/-- A limit and the state that the server reports for it. -/
structure Item where
  limit : Window
  state : Window
  deriving DecidableEq, Repr

/-- How severe a limit and its state are together. -/
def classify (limit state : Window) : Status :=
  if state.period ≠ limit.period then .invalid
  else if limit.hits ≤ state.hits then .violation
  else if limit.hits.toNat - state.hits.toNat ≤ borderlineBuffer then .borderline
  else .ok

namespace Item

def status (i : Item) : Status := classify i.limit i.state

/-- The limit and its state count over one period. -/
def Consistent (i : Item) : Prop := i.limit.period = i.state.period

instance (i : Item) : Decidable i.Consistent := inferInstanceAs (Decidable (_ = _))

theorem status_eq_invalid_iff (i : Item) : i.status = .invalid ↔ ¬ i.Consistent := by
  unfold status classify Consistent
  constructor
  · intro h hp
    rw [if_neg (by simp [hp])] at h
    split at h
    · cases h
    · split at h <;> cases h
  · intro h
    exact if_pos fun hp => h hp.symm

/-- How long `count` requests take with `spacing` between them: what is left of the budget first,
then whole periods, then the rest; after a penalty when the budget is overdrawn. -/
def estimate (i : Item) (count : UInt32) (spacing : Delay) : Except Overflow Delay :=
  let hits := i.limit.hits.toNat
  if hits = 0 then .ok 0
  else do
    let burst := min (hits - i.state.hits.toNat) count.toNat
    let remaining := count.toNat - burst
    let penalty := if i.limit.hits < i.state.hits then i.limit.restrictionDelay else 0
    let first ← Delay.plus penalty (← Delay.times spacing burst)
    let middle ← Delay.plus first (Delay.ofSeconds (remaining / hits * i.limit.period.toNat))
    Delay.plus middle (← Delay.times spacing (remaining % hits))

end Item

end Throttle
