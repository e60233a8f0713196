import Throttle.Manager.Basic

/-!
One message handled by a manager: what the manager sees, what it brings about, and the new state,
unless an instant leaves the calendar. What was brought about before that stays.
-/

namespace Throttle

open Http

/-- What handling a message brings about. -/
inductive Output where
  | event (event : Event)
  | notice (notice : Notice)
  | count (policy : PolicyName) (transition : Transition)
  /-- The caller gets a result. -/
  | answer (id : Nat) (result : Except Failure Reply)
  /-- The alarm is set, and an earlier one no longer counts. -/
  | arm (generation : Nat) (due : Moment)
  /-- The alarm is off. -/
  | disarm
  /-- A signed request is handed to the transport. -/
  | transmit (id : Nat) (request : Request)

/-- What a manager sees of the world while it handles one message. -/
structure Surroundings where
  now : Moment
  config : Config
  authorizer : Authorizer
  /-- The callers that stopped waiting. -/
  gone : Nat → Bool
  /-- The violations of all managers so far. -/
  violations : Nat

/-- One message handled: what it brought about, and the result unless an instant left the
calendar, which ends the manager. -/
structure Turn (α : Type) where
  outputs : List Output
  result : Except Overflow α

namespace Turn

instance : Monad Turn where
  pure a := ⟨[], .ok a⟩
  bind t f :=
    match t.result with
    | .error e => ⟨t.outputs, .error e⟩
    | .ok a => ⟨t.outputs ++ (f a).outputs, (f a).result⟩

def tell (os : List Output) : Turn Unit := ⟨os, .ok ()⟩

/-- A computation that may leave the calendar. -/
def lift (r : Except Overflow α) : Turn α := ⟨[], r⟩

theorem pure_def (a : α) : (pure a : Turn α) = ⟨[], .ok a⟩ := rfl

theorem bind_of_ok {t : Turn α} {a : α} (h : t.result = .ok a) (f : α → Turn β) :
    t >>= f = ⟨t.outputs ++ (f a).outputs, (f a).result⟩ := by
  change (match t.result with
    | .error e => (⟨t.outputs, .error e⟩ : Turn β)
    | .ok a => ⟨t.outputs ++ (f a).outputs, (f a).result⟩) = _
  rw [h]

theorem bind_of_error {t : Turn α} {e : Overflow} (h : t.result = .error e) (f : α → Turn β) :
    t >>= f = ⟨t.outputs, .error e⟩ := by
  change (match t.result with
    | .error e => (⟨t.outputs, .error e⟩ : Turn β)
    | .ok a => ⟨t.outputs ++ (f a).outputs, (f a).result⟩) = _
  rw [h]

theorem tell_bind (os : List Output) (f : Unit → Turn β) :
    tell os >>= f = ⟨os ++ (f ()).outputs, (f ()).result⟩ :=
  bind_of_ok rfl f

end Turn

end Throttle
