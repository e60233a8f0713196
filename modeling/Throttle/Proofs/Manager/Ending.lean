import Throttle.Proofs.Manager.Answers
import Throttle.Proofs.Manager.Planning

/-!
  The end of a manager, turn by turn. Neither the stop nor the last reply leaves the calendar:
  `close_result` and `conclude_yields` say what becomes of the manager, `close_answers` and again
  `conclude_yields` who gets which result.
-/

namespace Throttle

open Http Turn

/-- A turn comes to a result, and answers some requests. -/
structure Turn.Yields (t : Turn α) (a : α) (as : List (Nat × Except Failure Reply)) : Prop where
  result : t.result = .ok a
  answers : answers t.outputs = as

namespace Turn.Yields

variable {t : Turn α} {a : α} {b : β} {as bs : List (Nat × Except Failure Reply)}

theorem pure (a : α) : (Pure.pure a : Turn α).Yields a [] := ⟨rfl, rfl⟩

/-- A turn that comes to a result, before another. -/
theorem bind {f : α → Turn β} (h : t.Yields a as) (hf : (f a).Yields b bs) :
    (t >>= f).Yields b (as ++ bs) := by
  rw [bind_of_ok h.result]
  exact ⟨hf.result, (answers_append _ _).trans (congrArg₂ _ h.answers hf.answers)⟩

end Turn.Yields

namespace Manager

variable {s : Surroundings} {m : Manager} {r : Except TransportFailure Reply}

/-- The requests that a stopping manager fails get that result, in their order. -/
theorem close_answers (late : List Pending) (m : Manager) :
    answers (m.close late).outputs =
      (m.unsent ++ late).map fun p => (p.id, .error .shutdown) := by
  have hfailed (ps : List Pending) :
      answers (ps.map fun p => .answer p.id (.error .shutdown)) =
        ps.map fun p => (p.id, .error .shutdown) := by
    unfold answers
    rw [List.filterMap_map]
    exact List.filterMap_eq_map.symm ▸ rfl
  have hcount : answers (if !(m.unsent ++ late).isEmpty then
      [.notice (.failingPending (m.unsent ++ late).length)] else []) = [] := by split <;> rfl
  have hlast : answers (if m.inFlight then [.notice .awaitingLast] else []) = [] := by
    split <;> rfl
  rw [close_outputs_eq]
  show answers (_ ++ (_ ++ _)) = _
  rw [answers_append, answers_append, hcount, hlast, hfailed, List.append_nil, List.nil_append]

/-- A stopping manager that has taken in the end of its last transmission. -/
def concluded (m : Manager) : Except TransportFailure Reply → Manager
  | .error _ => m.vacated
  | .ok reply =>
    if reply.isViolation then (m.heard reply).counted.vacated else (m.heard reply).vacated

/-- The result that the end of its last transmission gives the caller. -/
def lastResult (m : Manager) : Except TransportFailure Reply → Except Failure Reply
  | .error e => .error (.transport e)
  | .ok reply => if reply.isViolation then .error .shutdown else (m.heard reply).resultOf reply

theorem finish_yields (m : Manager) (result : Except Failure Reply) :
    (m.finish result).Yields { m with active := none }
      (m.active.toList.map fun p => (p.id, result)) :=
  ⟨finish_result m result, finish_answers m result⟩

theorem absorb_yields (reply : Reply) (m : Manager) :
    (m.absorb reply).Yields (m.heard reply, verdict reply) [] :=
  ⟨absorb_result reply m, (silent_absorb reply m).answers_eq⟩

theorem countViolation_yields (s : Surroundings) (id : Option Nat) (m : Manager) :
    (m.countViolation s id).Yields m.counted [] :=
  ⟨countViolation_result s id m, (silent_countViolation s id m).answers_eq⟩

theorem outcome_yields (m : Manager) (reply : Reply) :
    (m.outcome reply (verdict reply)).Yields (m.resultOf reply) [] :=
  ⟨outcome_result m reply, (silent_outcome m reply _).answers_eq⟩

/-- The last turn of a manager answers its request. -/
theorem conclude_yields (s : Surroundings) (r : Except TransportFailure Reply) (m : Manager) :
    (m.conclude s r).Yields (m.concluded r)
      (m.active.toList.map fun p => (p.id, m.lastResult r)) := by
  have last (k : Manager) (result : Except Failure Reply) :
      (k.finish result >>= fun k => pure { k with phase := .idle }).Yields k.vacated
        (k.active.toList.map fun p => (p.id, result)) := by
    have h := (k.finish_yields result).bind (f := fun k => pure { k with phase := .idle }) (.pure _)
    rwa [List.append_nil] at h
  unfold conclude concluded lastResult
  cases r with
  | error e => exact last m _
  | ok reply =>
    refine (absorb_yields reply m).bind ?_
    dsimp only
    split
    · exact (countViolation_yields s _ (m.heard reply)).bind (last (m.heard reply).counted _)
    · exact (outcome_yields (m.heard reply) reply).bind (last (m.heard reply) _)

end Manager

end Throttle
