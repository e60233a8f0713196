import Mathlib.Tactic.Simps.Basic
import Throttle.Manager.Actor

/-!
  What the outputs of a turn leave behind. `sends` are the requests handed to the transport,
  `alarmAfter` is the alarm that is set in the end. An actor takes nothing else from them
  (`foldl_perform`). The parts of which every turn is made that cannot leave the calendar have
  their result here (`finish_result`, `schedule_result`, `countViolation_result`,
  `absorb_result`), and are quiet apart from the alarm that `schedule` sets.
-/

namespace Throttle

open Http Turn

/-! ## Lists of outputs -/

namespace Output

/-- The request that an output hands to the transport. -/
def sent? : Output → Option Nat
  | .transmit id _ => some id
  | _ => none

/-- The alarm after an output. -/
def alarm (x : Option Alarm) : Output → Option Alarm
  | .arm generation due => some ⟨generation, due⟩
  | .disarm => none
  | _ => x

/-- An output that leaves the alarm and the transmissions as they are. -/
def Quiet : Output → Prop
  | .arm _ _ => False
  | .disarm => False
  | .transmit _ _ => False
  | _ => True

end Output

/-- The requests that some outputs hand to the transport, in order. -/
def sends (os : List Output) : List Nat := os.filterMap Output.sent?

/-- The alarm after some outputs. -/
def alarmAfter (os : List Output) (x : Option Alarm) : Option Alarm := os.foldl Output.alarm x

/-- Outputs none of which touches the alarm or hands out a request. -/
def AllQuiet (os : List Output) : Prop := ∀ o ∈ os, o.Quiet

@[simp] theorem sends_nil : sends [] = [] := rfl

@[simp] theorem sends_append (os ps : List Output) : sends (os ++ ps) = sends os ++ sends ps :=
  List.filterMap_append

@[simp] theorem alarmAfter_nil (x : Option Alarm) : alarmAfter [] x = x := rfl

@[simp] theorem alarmAfter_append (os ps : List Output) (x : Option Alarm) :
    alarmAfter (os ++ ps) x = alarmAfter ps (alarmAfter os x) :=
  List.foldl_append

@[simp] theorem sends_notice (n : Notice) (os : List Output) :
    sends (.notice n :: os) = sends os := rfl

@[simp] theorem sends_event (e : Event) (os : List Output) :
    sends (.event e :: os) = sends os := rfl

@[simp] theorem sends_count (p : PolicyName) (t : Transition) (os : List Output) :
    sends (.count p t :: os) = sends os := rfl

@[simp] theorem sends_answer (id : Nat) (r : Except Failure Reply) (os : List Output) :
    sends (.answer id r :: os) = sends os := rfl

@[simp] theorem sends_disarm (os : List Output) : sends (.disarm :: os) = sends os := rfl

@[simp] theorem sends_transmit (id : Nat) (r : Request) (os : List Output) :
    sends (.transmit id r :: os) = id :: sends os := rfl

@[simp] theorem alarmAfter_notice (n : Notice) (os : List Output) (x : Option Alarm) :
    alarmAfter (.notice n :: os) x = alarmAfter os x := rfl

@[simp] theorem alarmAfter_event (e : Event) (os : List Output) (x : Option Alarm) :
    alarmAfter (.event e :: os) x = alarmAfter os x := rfl

@[simp] theorem alarmAfter_count (p : PolicyName) (t : Transition) (os : List Output)
    (x : Option Alarm) : alarmAfter (.count p t :: os) x = alarmAfter os x := rfl

@[simp] theorem alarmAfter_answer (id : Nat) (r : Except Failure Reply) (os : List Output)
    (x : Option Alarm) : alarmAfter (.answer id r :: os) x = alarmAfter os x := rfl

@[simp] theorem alarmAfter_disarm (os : List Output) (x : Option Alarm) :
    alarmAfter (.disarm :: os) x = alarmAfter os none := rfl

@[simp] theorem alarmAfter_transmit (id : Nat) (r : Request) (os : List Output)
    (x : Option Alarm) : alarmAfter (.transmit id r :: os) x = alarmAfter os x := rfl

theorem AllQuiet.append {os ps : List Output} (ho : AllQuiet os) (hp : AllQuiet ps) :
    AllQuiet (os ++ ps) := by
  intro o h
  rcases List.mem_append.1 h with h | h
  · exact ho o h
  · exact hp o h

theorem allQuiet_nil : AllQuiet [] := fun _ h => nomatch h

theorem allQuiet_ite {c : Prop} [Decidable c] {os : List Output} (h : AllQuiet os) :
    AllQuiet (if c then os else []) := by
  split
  · exact h
  · exact allQuiet_nil

theorem allQuiet_cons {o : Output} {os : List Output} (ho : o.Quiet) (h : AllQuiet os) :
    AllQuiet (o :: os) := by
  intro p hp
  rcases List.mem_cons.1 hp with rfl | hp
  · exact ho
  · exact h p hp

@[simp] theorem AllQuiet.sends_eq {os : List Output} (h : AllQuiet os) : sends os = [] := by
  unfold sends
  rw [List.filterMap_eq_nil_iff]
  intro o ho
  have hq := h o ho
  cases o <;> first | rfl | exact hq.elim

@[simp] theorem AllQuiet.alarmAfter_eq {os : List Output} (h : AllQuiet os) (x : Option Alarm) :
    alarmAfter os x = x := by
  induction os with
  | nil => rfl
  | cons o os ih =>
    have ho : Output.alarm x o = x := by
      have hq := h o List.mem_cons_self
      cases o <;> first | rfl | exact hq.elim
    unfold alarmAfter
    rw [List.foldl_cons, ho]
    exact ih fun p hp => h p (List.mem_cons_of_mem _ hp)

/-- An actor takes the alarm and the transmissions from outputs, and nothing else. -/
theorem foldl_perform (os : List Output) (a : Actor) :
    os.foldl Actor.perform a =
      { a with alarm := alarmAfter os a.alarm, outstanding := a.outstanding ++ sends os } := by
  induction os generalizing a with
  | nil => simp
  | cons o os ih =>
    rw [List.foldl_cons, ih]
    cases o with
    | transmit id request =>
      simp [Actor.perform, alarmAfter, Output.alarm, sends, Output.sent?]
    | _ => rfl

/-! ## How a turn ends -/

/-- A turn that succeeds does so with `P` of its result and its outputs; one that leaves the
calendar has only quiet outputs. -/
def Turn.Ends (t : Turn α) (P : α → List Output → Prop) : Prop :=
  match t.result with
  | .ok a => P a t.outputs
  | .error _ => AllQuiet t.outputs

namespace Turn.Ends

variable {P Q : α → List Output → Prop} {R : β → List Output → Prop}

theorem of_ok {t : Turn α} {a : α} (h : t.result = .ok a) (hP : P a t.outputs) : t.Ends P := by
  unfold Ends
  rw [h]
  exact hP

theorem of_error {e : Overflow} : Ends (⟨[], .error e⟩ : Turn α) P := allQuiet_nil

theorem pure {a : α} (h : P a []) : Ends (Pure.pure a : Turn α) P := h

theorem result {t : Turn α} (h : t.Ends P) {a : α} (ha : t.result = .ok a) : P a t.outputs := by
  unfold Ends at h
  rw [ha] at h
  exact h

theorem quiet {t : Turn α} (h : t.Ends P) {e : Overflow} (he : t.result = .error e) :
    AllQuiet t.outputs := by
  unfold Ends at h
  rw [he] at h
  exact h

theorem mono {t : Turn α} (h : t.Ends P) (hPQ : ∀ a os, P a os → Q a os) : t.Ends Q := by
  unfold Ends at h ⊢
  cases hr : t.result with
  | ok a => rw [hr] at h; exact hPQ a _ h
  | error e => rw [hr] at h; exact h

/-- A quiet turn that succeeds comes before another. -/
theorem bind {t : Turn α} {a : α} {f : α → Turn β} (h : t.result = .ok a)
    (hq : AllQuiet t.outputs) (hf : (f a).Ends fun b os => R b (t.outputs ++ os)) :
    (t >>= f).Ends R := by
  rw [bind_of_ok h]
  unfold Ends at hf ⊢
  cases hr : (f a).result with
  | ok b => rw [hr] at hf; exact hf
  | error e => rw [hr] at hf; exact hq.append hf

theorem tell {os : List Output} {f : Unit → Turn β} (hq : AllQuiet os)
    (hf : (f ()).Ends fun b ps => R b (os ++ ps)) : (Turn.tell os >>= f).Ends R :=
  bind (a := ()) rfl hq hf

theorem lift {r : Except Overflow α} {f : α → Turn β}
    (hf : ∀ a, r = .ok a → (f a).Ends R) : (Turn.lift r >>= f).Ends R := by
  cases r with
  | error e => exact of_error
  | ok a => exact bind (a := a) rfl allQuiet_nil (hf a rfl)

end Turn.Ends

/-- A turn leaves the calendar. -/
def Turn.Fails (t : Turn α) : Prop := ∃ e, t.result = .error e

theorem Turn.Fails.bind {t : Turn α} {f : α → Turn β} {a : α} (h : t.result = .ok a)
    (hf : (f a).Fails) : (t >>= f).Fails := by
  rw [bind_of_ok h]
  exact hf

theorem Turn.Fails.lift {r : Except Overflow α} {f : α → Turn β} {e : Overflow}
    (h : r = .error e) : (Turn.lift r >>= f).Fails := by
  rw [bind_of_error (t := Turn.lift r) h]
  exact ⟨e, rfl⟩

/-! ## Parts of a turn -/

namespace Manager

@[simp] theorem abandon_quiet (m : Manager) (p : Pending) : AllQuiet (m.abandon p) :=
  allQuiet_cons trivial (allQuiet_cons trivial allQuiet_nil)

@[simp] theorem flatMap_abandon_quiet (m : Manager) (ps : List Pending) :
    AllQuiet (ps.flatMap m.abandon) := by
  intro o h
  obtain ⟨p, _, hp⟩ := List.mem_flatMap.1 h
  exact m.abandon_quiet p o hp

theorem finish_result (m : Manager) (result : Except Failure Reply) :
    (m.finish result).result = .ok { m with active := none } := by
  unfold finish
  cases h : m.active with
  | none =>
    cases m
    cases h
    rfl
  | some p => cases result <;> rfl

@[simp] theorem finish_quiet (m : Manager) (result : Except Failure Reply) :
    AllQuiet (m.finish result).outputs := by
  unfold finish
  cases m.active with
  | none => exact allQuiet_nil
  | some p =>
    cases result <;>
      exact allQuiet_cons trivial (allQuiet_cons trivial (allQuiet_cons trivial allQuiet_nil))

theorem schedule_result (s : Surroundings) (due : Moment) (m : Manager) :
    (schedule s due m).result = .ok { m with generation := m.generation + 1 } := by
  unfold schedule
  split <;> rfl

theorem schedule_outputs (s : Surroundings) (due : Moment) (m : Manager) :
    (schedule s due m).outputs =
      (if s.now < due then [.event (.paused m.policy.name due)] else []) ++
        [.arm (m.generation + 1) due] := by
  unfold schedule
  split <;> rfl

@[simp] theorem sends_schedule (s : Surroundings) (due : Moment) (m : Manager) :
    sends (schedule s due m).outputs = [] := by
  rw [schedule_outputs]
  split <;> rfl

@[simp] theorem alarmAfter_schedule (s : Surroundings) (due : Moment) (m : Manager)
    (x : Option Alarm) :
    alarmAfter (schedule s due m).outputs x = some ⟨m.generation + 1, due⟩ := by
  rw [schedule_outputs]
  split <;> rfl

theorem countViolation_result (s : Surroundings) (id : Option Nat) (m : Manager) :
    (m.countViolation s id).result = .ok { m with violations := m.violations + 1 } := rfl

@[simp] theorem countViolation_quiet (s : Surroundings) (id : Option Nat) (m : Manager) :
    AllQuiet (m.countViolation s id).outputs :=
  allQuiet_cons trivial (allQuiet_cons trivial (allQuiet_cons trivial allQuiet_nil))

/-! ## Taking in a reply -/

/-- What the rate limit headers of a reply declare, if they name a policy at all. -/
def declaration (reply : Reply) : Option (Except PolicyError Policy) :=
  if namesPolicy reply.headers then
    some (Policy.ofHeaders? reply.headers >>= Policy.ensureConsistent)
  else none

/-- What the rate limit headers of a reply come to. -/
def verdict (reply : Reply) : Absorbed :=
  match declaration reply with
  | none => .missing
  | some (.ok _) => .parsed
  | some (.error e) => .malformed e

/-- The policy after a reply. -/
def policyAfter (reply : Reply) (m : Manager) : Policy :=
  match declaration reply with
  | none => m.policy
  | some (.ok p) => p
  | some (.error _) => m.policy.invalidated

/-- The history after a reply. -/
def historyAfter (reply : Reply) (m : Manager) : History :=
  match declaration reply with
  | some (.ok p) => (m.history.grow p.maximumHits).push reply.date
  | _ => m.history.push reply.date

/-- A manager that has taken in a reply. -/
@[simps]
def heard (reply : Reply) (m : Manager) : Manager :=
  { m with policy := m.policyAfter reply, history := m.historyAfter reply }

theorem adopt_result (policy : Policy) (m : Manager) :
    (m.adopt policy).result =
      .ok { m with policy, history := m.history.grow policy.maximumHits } := by
  unfold adopt
  split <;> split <;> rfl

/-- Adopting a policy writes to the log and tells the listeners. -/
theorem adopt_outputs (policy : Policy) (m : Manager) :
    (m.adopt policy).outputs =
      (if m.policy.status ≠ .unknown then
        (policy.driftFrom m.policy).map fun d => .notice (.policyChanged d) else []) ++
      ((if m.history.capacity < policy.maximumHits then
        [.notice (.historyGrown policy.maximumHits)] else []) ++
      [.event (.policyUpdated policy)]) := by
  unfold adopt
  split <;> split <;> simp [tell_bind, pure_def]

theorem adopt_quiet (policy : Policy) (m : Manager) : AllQuiet (m.adopt policy).outputs := by
  rw [adopt_outputs]
  refine .append ?_ (.append ?_ (allQuiet_cons trivial allQuiet_nil))
  · split
    · intro o h
      obtain ⟨d, _, rfl⟩ := List.mem_map.1 h
      trivial
    · exact allQuiet_nil
  · exact allQuiet_ite (allQuiet_cons trivial allQuiet_nil)

theorem readHeaders_result (reply : Reply) (m : Manager) :
    (m.readHeaders reply).result =
      .ok ({ m with
        policy := m.policyAfter reply
        history := match declaration reply with
          | some (.ok p) => m.history.grow p.maximumHits
          | _ => m.history }, verdict reply) := by
  unfold readHeaders policyAfter verdict declaration
  cases hn : namesPolicy reply.headers with
  | false => rfl
  | true =>
    cases hp : Policy.ofHeaders? reply.headers >>= Policy.ensureConsistent with
    | error e => rfl
    | ok p =>
      simp only [Bool.not_true, Bool.false_eq_true, ↓reduceIte]
      rw [bind_of_ok (adopt_result p m)]
      rfl

theorem readHeaders_quiet (reply : Reply) (m : Manager) : AllQuiet (m.readHeaders reply).outputs := by
  unfold readHeaders
  split
  · exact allQuiet_nil
  · split
    · rw [bind_of_ok (adopt_result _ m)]
      exact (adopt_quiet _ m).append allQuiet_nil
    · exact allQuiet_cons trivial (allQuiet_cons trivial allQuiet_nil)

theorem absorb_result (reply : Reply) (m : Manager) :
    (m.absorb reply).result = .ok (m.heard reply, verdict reply) := by
  unfold absorb
  rw [bind_of_ok (readHeaders_result reply m)]
  unfold heard historyAfter
  cases declaration reply with
  | none => rfl
  | some d => cases d <;> rfl

@[simp] theorem absorb_quiet (reply : Reply) (m : Manager) : AllQuiet (m.absorb reply).outputs := by
  unfold absorb
  rw [bind_of_ok (readHeaders_result reply m)]
  exact (readHeaders_quiet reply m).append allQuiet_nil

/-- What the caller gets of a reply that was not refused. -/
def resultOf (m : Manager) (reply : Reply) : Except Failure Reply :=
  match verdict reply with
  | .missing => .error (.missingHeaders m.policy.name reply.status)
  | _ => if reply.isSuccess then .ok reply
    else .error (.unexpectedStatus m.policy.name reply.status)

theorem outcome_result (m : Manager) (reply : Reply) :
    (m.outcome reply (verdict reply)).result = .ok (m.resultOf reply) := by
  unfold outcome resultOf
  cases verdict reply with
  | missing => rfl
  | parsed => dsimp only; split <;> rfl
  | malformed e => dsimp only; split <;> rfl

theorem outcome_quiet (m : Manager) (reply : Reply) (absorbed : Absorbed) :
    AllQuiet (m.outcome reply absorbed).outputs := by
  unfold outcome
  split
  · exact allQuiet_cons trivial allQuiet_nil
  · split <;> exact allQuiet_nil

end Manager

end Throttle
