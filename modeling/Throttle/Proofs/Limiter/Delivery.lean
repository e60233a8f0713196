import Throttle.Proofs.Limiter.Lives
import Throttle.Proofs.Manager.Answers

/-!
  What callers see of the requests that end. `delivered` are the results that reach their callers,
  `endings` the requests that end with a result or with the log line that says that the caller is
  gone. A step of a manager delivers its answers to the callers that still wait for them
  (`delivered_commit`), and nothing else ends with it but what its outputs end
  (`count_endings_performAll`).
-/

namespace Throttle

open Http

namespace Happening

/-- The result that reaches a caller. -/
def answer? : Happening → Option (Nat × Except Failure Reply)
  | .answered id result => some (id, result)
  | _ => none

/-- The request that a happening ends. -/
def end? : Happening → Option Nat
  | .answered id _ => some id
  | .notice _ n => n.gone?
  | _ => none

end Happening

/-- The results that reach their callers, in order. -/
def delivered (hs : List Happening) : List (Nat × Except Failure Reply) :=
  hs.filterMap Happening.answer?

/-- The requests that end, in order. -/
def endings (hs : List Happening) : List Nat := hs.filterMap Happening.end?

@[simp] theorem delivered_append (hs gs : List Happening) :
    delivered (hs ++ gs) = delivered hs ++ delivered gs := List.filterMap_append

@[simp] theorem endings_append (hs gs : List Happening) :
    endings (hs ++ gs) = endings hs ++ endings gs := List.filterMap_append

theorem mem_delivered {id : Nat} {result : Except Failure Reply} {hs : List Happening} :
    (id, result) ∈ delivered hs ↔ .answered id result ∈ hs := by
  unfold delivered
  rw [List.mem_filterMap]
  constructor
  · rintro ⟨h, hmem, heq⟩
    cases h <;> cases heq
    exact hmem
  · exact fun hmem => ⟨_, hmem, rfl⟩

/-- A request ends with a result or with a log line. -/
theorem mem_endings {id : Nat} {hs : List Happening} :
    id ∈ endings hs ↔
      (∃ result, (id, result) ∈ delivered hs) ∨
        ∃ span n, .notice span n ∈ hs ∧ n.gone? = some id := by
  unfold endings
  rw [List.mem_filterMap]
  constructor
  · rintro ⟨h, hmem, heq⟩
    cases h with
    | answered k result =>
      cases heq
      exact .inl ⟨result, mem_delivered.2 hmem⟩
    | notice span n => exact .inr ⟨span, n, hmem, heq⟩
    | _ => cases heq
  · rintro (⟨result, hmem⟩ | ⟨span, n, hmem, hgone⟩)
    · exact ⟨_, mem_delivered.1 hmem, rfl⟩
    · exact ⟨_, hmem, hgone⟩

namespace Limiter

variable {w : Limiter} {i k : Nat} {step : Actor.Step}

/-! ## Passing on outputs -/

theorem dropped_answer (w : Limiter) (id : Nat) (result : Except Failure Reply) :
    (w.answer id result).1.dropped = w.dropped := by
  unfold answer
  split <;> rfl

theorem delivered_answer (w : Limiter) (id : Nat) (result : Except Failure Reply) :
    delivered (w.answer id result).2 = if id ∈ w.dropped then [] else [(id, result)] := by
  unfold answer
  simp only [List.contains_iff_mem]
  split <;> rfl

/-- The callers that have their results are those that had them and those that got them. -/
theorem answered_answer (w : Limiter) (id : Nat) (result : Except Failure Reply) :
    (w.answer id result).1.answered =
      ((delivered (w.answer id result).2).map (·.1)).reverse ++ w.answered := by
  unfold answer
  split <;> rfl

theorem endings_answer (w : Limiter) (id : Nat) (result : Except Failure Reply) :
    endings (w.answer id result).2 = if id ∈ w.dropped then [] else [id] := by
  unfold answer
  simp only [List.contains_iff_mem]
  split <;> rfl

theorem dropped_perform (k : Nat) (span : Span) (w : Limiter) (o : Output) :
    (perform k span w o).1.dropped = w.dropped := by
  cases o with
  | event e => cases e <;> rfl
  | answer id result => exact dropped_answer w id result
  | _ => rfl

theorem delivered_perform (k : Nat) (span : Span) (w : Limiter) (o : Output) :
    delivered (perform k span w o).2 =
      o.answer?.toList.filter fun x => !w.dropped.contains x.1 := by
  cases o with
  | event e => cases e <;> rfl
  | answer id result =>
    refine (delivered_answer w id result).trans ?_
    by_cases h : id ∈ w.dropped <;> simp [Output.answer?, h]
  | _ => rfl

theorem answered_perform (k : Nat) (span : Span) (w : Limiter) (o : Output) :
    (perform k span w o).1.answered =
      ((delivered (perform k span w o).2).map (·.1)).reverse ++ w.answered := by
  cases o with
  | event e => cases e <;> rfl
  | answer id result => exact answered_answer w id result
  | _ => rfl

/-- An output ends what it says, unless its result goes to a caller that stopped waiting. -/
theorem count_endings_perform (k : Nat) (span : Span) (w : Limiter) (o : Output) (id : Nat) :
    (endings (perform k span w o).2).count id ≤ o.end?.toList.count id ∧
      (id ∉ w.dropped → (endings (perform k span w o).2).count id = o.end?.toList.count id) := by
  cases o with
  | event e => cases e <;> exact ⟨Nat.le_refl _, fun _ => rfl⟩
  | answer x result =>
    have hends : endings (perform k span w (.answer x result)).2 =
        if x ∈ w.dropped then [] else [x] := endings_answer w x result
    rw [hends]
    split
    · rename_i hdropped
      refine ⟨Nat.zero_le _, fun hid => ?_⟩
      have hne : x ≠ id := fun heq => hid (heq ▸ hdropped)
      simp [Output.end?, hne]
    · exact ⟨Nat.le_refl _, fun _ => rfl⟩
  | notice n =>
    have hends : endings (perform k span w (.notice n)).2 = n.gone?.toList := by
      show List.filterMap _ [_] = _
      rw [List.filterMap_cons]
      cases hn : n.gone? <;> simp [Happening.end?, hn]
    rw [hends]
    exact ⟨Nat.le_refl _, fun _ => rfl⟩
  | _ => exact ⟨Nat.le_refl _, fun _ => rfl⟩

theorem dropped_performAll (k : Nat) (span : Span) (w : Limiter) (os : List Output) :
    (each (perform k span) w os).1.dropped = w.dropped :=
  each_preserves dropped (dropped_perform k span) w os

theorem delivered_performAll (k : Nat) (span : Span) (w : Limiter) (os : List Output) :
    delivered (each (perform k span) w os).2 =
      (answers os).filter fun x => !w.dropped.contains x.1 := by
  induction os generalizing w with
  | nil => rfl
  | cons o os ih =>
    have hsplit : answers (o :: os) = o.answer?.toList ++ answers os := by
      unfold answers
      rw [List.filterMap_cons]
      cases o.answer? <;> rfl
    rw [each_cons, hsplit, List.filter_append, delivered_append, delivered_perform, ih,
      dropped_perform]

theorem answered_performAll (k : Nat) (span : Span) (w : Limiter) (os : List Output) :
    (each (perform k span) w os).1.answered =
      ((delivered (each (perform k span) w os).2).map (·.1)).reverse ++ w.answered := by
  induction os generalizing w with
  | nil => rfl
  | cons o os ih =>
    rw [each_cons, delivered_append, List.map_append, List.reverse_append, List.append_assoc,
      ← answered_perform]
    exact ih _

theorem count_endings_performAll (k : Nat) (span : Span) (w : Limiter) (os : List Output)
    (id : Nat) :
    (endings (each (perform k span) w os).2).count id ≤ (ends os).count id ∧
      (id ∉ w.dropped →
        (endings (each (perform k span) w os).2).count id = (ends os).count id) := by
  induction os generalizing w with
  | nil => exact ⟨Nat.le_refl _, fun _ => rfl⟩
  | cons o os ih =>
    have hsplit : ends (o :: os) = o.end?.toList ++ ends os := by
      unfold ends
      rw [List.filterMap_cons]
      cases o.end? <;> rfl
    obtain ⟨hle, heq⟩ := count_endings_perform k span w o id
    obtain ⟨hle', heq'⟩ := ih (perform k span w o).1
    rw [dropped_perform] at heq'
    rw [each_cons, hsplit, endings_append, List.count_append, List.count_append]
    exact ⟨Nat.add_le_add hle hle', fun hid => by rw [heq hid, heq' hid]⟩

/-- What a log line or a result ends is known to the limiter, if the outputs end nothing but for
callers that are gone or get an answer. -/
theorem known_performAll (k : Nat) (span : Span) (w : Limiter) {os : List Output}
    (h : ∀ id ∈ ends os, id ∈ w.dropped ∨ ∃ result, (id, result) ∈ answers os) {id : Nat}
    (hid : id ∈ endings (each (perform k span) w os).2) :
    id ∈ w.dropped ∨ id ∈ (delivered (each (perform k span) w os).2).map (·.1) := by
  have hpos := List.count_pos_iff.2 hid
  have hle := (count_endings_performAll k span w os id).1
  have hend : id ∈ ends os := List.count_pos_iff.1 (Nat.lt_of_lt_of_le hpos hle)
  by_cases hdropped : id ∈ w.dropped
  · exact .inl hdropped
  · obtain ⟨result, hanswer⟩ := (h id hend).resolve_left hdropped
    refine .inr (List.mem_map.2 ⟨(id, result), ?_, rfl⟩)
    rw [delivered_performAll, List.mem_filter]
    exact ⟨hanswer, by simp [hdropped]⟩

/-! ## Taking over a step of a manager -/

/-- A limiter with a manager in its place. -/
def placed (w : Limiter) (k : Nat) (a : Actor) : Limiter := { w with actors := w.actors.set k a }

/-- A step that orphans nothing only passes on its outputs. -/
theorem commit_eq (w : Limiter) (k : Nat) (h : step.orphans = []) :
    (w.commit k step).2 =
        (each (perform k (managerSpan step.actor)) (w.placed k step.actor) step.outputs).2 ∧
      (w.commit k step).1.dropped =
        (each (perform k (managerSpan step.actor)) (w.placed k step.actor) step.outputs).1.dropped ∧
      (w.commit k step).1.answered =
        (each (perform k (managerSpan step.actor)) (w.placed k step.actor)
          step.outputs).1.answered := by
  unfold commit
  rw [h]
  dsimp only
  refine ⟨List.append_nil _, ?_, ?_⟩
  · split <;> rfl
  · split <;> rfl

theorem delivered_commit (w : Limiter) (k : Nat) (h : step.orphans = []) :
    delivered (w.commit k step).2 =
      (answers step.outputs).filter fun x => !w.dropped.contains x.1 := by
  rw [(commit_eq w k h).1, delivered_performAll]
  rfl

/-- A caller that still waits gets what a step of its manager answers. -/
theorem mem_delivered_commit {id : Nat} {result : Except Failure Reply}
    (h : (id, result) ∈ answers step.outputs) (hid : id ∉ w.dropped) (k : Nat) :
    (id, result) ∈ delivered (w.commit k step).2 := by
  unfold commit
  dsimp only
  rw [delivered_append, delivered_performAll]
  exact List.mem_append_left _ (List.mem_filter.2 ⟨h, by simpa using hid⟩)

theorem answered_commit (w : Limiter) (k : Nat) (h : step.orphans = []) :
    (w.commit k step).1.answered =
      ((delivered (w.commit k step).2).map (·.1)).reverse ++ w.answered := by
  rw [(commit_eq w k h).2.2, (commit_eq w k h).1, answered_performAll]
  rfl

/-- A step of a manager is taken over. -/
theorem withActor_eq {f : Surroundings → Actor → Option Actor.Step} {a : Actor}
    (ha : w.actors[k]? = some a) (hstep : f w.surroundings a = some step) :
    w.withActor k f = w.commit k step := by
  unfold withActor
  rw [ha]
  dsimp only
  rw [hstep]

theorem step_command {a : Actor} (ha : w.actors[k]? = some a)
    (hstep : a.command w.surroundings = some step) : w.step (.command k) = w.commit k step :=
  withActor_eq ha hstep

theorem step_signal {a : Actor} (ha : w.actors[k]? = some a)
    (hstep : a.signal w.surroundings = some step) : w.step (.signal k) = w.commit k step :=
  withActor_eq ha hstep

/-- A manager that acts handles a message, which the limiter takes over, or goes on as it was. -/
theorem acting_cases {m : Move} {a : Actor} (ha : w.actors[i]? = some a) (hm : m.actor? = some i) :
    ((w.step m).2 = [] ∧ ∃ b, (w.step m).1.actors[i]? = some b ∧
      b.stage = a.stage ∧ b.manager = a.manager) ∨
    ∃ step, (m = .command i ∧ a.command w.surroundings = some step ∨
      m = .signal i ∧ a.signal w.surroundings = some step) ∧ w.step m = w.commit i step := by
  have still {f : Surroundings → Actor → Option Actor.Step} (hf : f w.surroundings a = none) :
      w.withActor i f = (w, []) := by
    unfold withActor
    rw [ha]
    dsimp only
    rw [hf]
  obtain ⟨d, hd, hcore, -⟩ := acting_step hm w
  have hplace : (w.step m).1.actors[i]? = some (a.undergo d) := by
    rw [actors_of_core hcore, getElem?_live, ha, Option.map_some, if_pos rfl]
    rfl
  cases m with
  | command k =>
    obtain rfl := Option.some.inj hm
    cases hstep : a.command w.surroundings with
    | some step => exact .inr ⟨step, .inl ⟨rfl, rfl⟩, step_command ha hstep⟩
    | none =>
      have hstill : w.step (.command k) = (w, []) := still hstep
      rw [hstill]
      exact .inl ⟨rfl, a, ha, rfl, rfl⟩
  | signal k =>
    obtain rfl := Option.some.inj hm
    cases hstep : a.signal w.surroundings with
    | some step => exact .inr ⟨step, .inr ⟨rfl, rfl⟩, step_signal ha hstep⟩
    | none =>
      have hstill : w.step (.signal k) = (w, []) := still hstep
      rw [hstill]
      exact .inl ⟨rfl, a, ha, rfl, rfl⟩
  | ring k =>
    obtain rfl := Option.some.inj hd
    refine .inl ⟨rfl, _, hplace, ?_⟩
    simp only [Actor.undergo, Actor.ring]
    cases a.alarm.filter fun x => decide (x.due ≤ w.surroundings.now) <;> exact ⟨rfl, rfl⟩
  | returned k id result =>
    obtain rfl := Option.some.inj hd
    refine .inl ⟨rfl, _, hplace, ?_⟩
    simp only [Actor.undergo, Actor.returned]
    split <;> exact ⟨rfl, rfl⟩
  | _ => cases hm

/-- What a manager that goes on delivers in a move, it answers in its step. -/
theorem delivered_acting {m : Move} {a b : Actor} {id : Nat} {result : Except Failure Reply}
    (ha : w.actors[i]? = some a) (hm : m.actor? = some i) (hb : (w.step m).1.actors[i]? = some b)
    (hstage : b.stage = .running) (h : (id, result) ∈ delivered (w.step m).2) :
    ∃ step, (m = .command i ∧ a.command w.surroundings = some step ∨
        m = .signal i ∧ a.signal w.surroundings = some step) ∧
      b = step.actor ∧ (id, result) ∈ answers step.outputs := by
  rcases acting_cases ha hm with ⟨hnone, -⟩ | ⟨step, hstep, hmove⟩
  · rw [hnone] at h
    cases h
  · rw [hmove] at hb h
    rw [actor_commit ha step] at hb
    obtain rfl := Option.some.inj hb
    have hcourse : Actor.Course w.surroundings a step := by
      rcases hstep with ⟨-, hstep⟩ | ⟨-, hstep⟩
      · exact Actor.command_course hstep
      · exact Actor.signal_course hstep
    have hnone := (hcourse.accounts (by rw [hstage]; nofun)).1
    rw [delivered_commit w i hnone] at h
    exact ⟨step, hstep, rfl, List.mem_of_mem_filter h⟩

end Limiter

end Throttle
