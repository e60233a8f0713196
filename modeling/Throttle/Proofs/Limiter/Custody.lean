import Throttle.Proofs.Limiter.Delivery
import Throttle.Proofs.Limiter.Fifo

/-!
  What a limiter holds, and the balance of a move. `held` counts how often a limiter holds a
  request: among those that wait for a probe, and in what the managers hold. `Settles` is the law of
  all parts of a move: what was held or in hand is held or in hand afterwards or has ended, and only
  a request whose caller stopped waiting can vanish. It composes (`Settles.trans`, `Settles.frame`),
  and answers, deliveries to a mailbox and steps of managers obey it.
-/

namespace Throttle

open Http Actor

/-! ## Counting in lists of lists -/

section Counting

variable {α : Type} {f : α → List Nat} {id : Nat}

theorem count_flatMap_cons (x : α) (xs : List α) :
    ((x :: xs).flatMap f).count id = (f x).count id + (xs.flatMap f).count id := by
  rw [List.flatMap_cons, List.count_append]

/-- An element in place of another takes its share. -/
theorem count_flatMap_set (id : Nat) {xs : List α} {k : Nat} {a : α} (h : xs[k]? = some a) (b : α) :
    ((xs.set k b).flatMap f).count id + (f a).count id =
      (xs.flatMap f).count id + (f b).count id := by
  induction xs generalizing k with
  | nil => cases h
  | cons x xs ih =>
    cases k with
    | zero =>
      obtain rfl := Option.some.inj h
      rw [List.set_cons_zero, count_flatMap_cons, count_flatMap_cons]
      omega
    | succ k =>
      have htail := ih (k := k) h
      rw [List.set_cons_succ, count_flatMap_cons, count_flatMap_cons]
      omega

theorem count_le_flatMap {xs : List α} {i : Nat} {a : α} (h : xs[i]? = some a) :
    (f a).count id ≤ (xs.flatMap f).count id := by
  obtain ⟨hlt, rfl⟩ := List.getElem?_eq_some_iff.1 h
  exact (List.sublist_flatten_of_mem (List.mem_map_of_mem (List.getElem_mem hlt))).count_le id

/-- Two elements have their shares side by side. -/
theorem count_two_le_flatMap {xs : List α} {i j : Nat} {a b : α} (hij : i ≠ j)
    (ha : xs[i]? = some a) (hb : xs[j]? = some b) :
    (f a).count id + (f b).count id ≤ (xs.flatMap f).count id := by
  induction xs generalizing i j with
  | nil => cases ha
  | cons x xs ih =>
    rw [count_flatMap_cons]
    cases i with
    | zero =>
      obtain rfl := Option.some.inj ha
      cases j with
      | zero => exact absurd rfl hij
      | succ j =>
        rw [List.getElem?_cons_succ] at hb
        exact Nat.add_le_add_left (count_le_flatMap hb) _
    | succ i =>
      cases j with
      | zero =>
        obtain rfl := Option.some.inj hb
        rw [List.getElem?_cons_succ] at ha
        have hrest : (f a).count id ≤ (xs.flatMap f).count id := count_le_flatMap ha
        omega
      | succ j =>
        have hrest := ih (i := i) (j := j) (fun heq => hij (congrArg _ heq)) ha hb
        omega

end Counting

namespace Route

/-- The requests that wait for a probe, by number. -/
def ids (r : Route) : List Nat := r.waiting.map (·.id)

end Route

namespace Limiter

variable {w v u : Limiter} {ps qs rs xs : List Nat} {hs gs : List Happening}

/-! ## The requests that a limiter holds -/

/-- How often a limiter holds a request. -/
def held (w : Limiter) (id : Nat) : Nat :=
  (w.routes.flatMap fun x => x.2.ids).count id + (w.actors.flatMap Actor.custody).count id

/-- The parts of a limiter that say what it holds and whom it has answered. -/
def ledger (w : Limiter) : List (Endpoint × Route) × List Actor × List Nat × List Nat :=
  (w.routes, w.actors, w.dropped, w.answered)

theorem held_of_ledger (h : v.ledger = w.ledger) (id : Nat) : v.held id = w.held id := by
  have hroutes : v.routes = w.routes := congrArg (·.1) h
  have hactors : v.actors = w.actors := congrArg (·.2.1) h
  unfold held
  rw [hroutes, hactors]

theorem held_of_core (h : v.core = w.core) (id : Nat) : v.held id = w.held id := by
  have hheld : v.core.held id = w.core.held id := congrArg (fun c => held c id) h
  exact hheld

/-- What is done to managers without changing what they hold. -/
theorem flatMap_custody_of_map {as bs : List Actor}
    (h : bs.map Actor.custody = as.map Actor.custody) :
    bs.flatMap Actor.custody = as.flatMap Actor.custody := by
  rw [List.flatMap_def, List.flatMap_def, h]

theorem custody_stop (a : Actor) : a.stop.custody = a.custody := by
  unfold stop
  split
  · rw [custody_eq, custody_eq]
    show _ ++ (queuedIn (a.mailbox ++ [.shutdown])).map _ = _
    rw [queuedIn_append, List.map_append]
    exact congrArg (_ ++ ·) (List.append_nil _)
  · rfl

/-! ## The law of a part of a move -/

/-- What is held or in hand before is held or in hand afterwards, or it has ended, or its caller had
stopped waiting. -/
structure Settles (w : Limiter) (ps : List Nat) (v : Limiter) (qs : List Nat)
    (hs : List Happening) : Prop where
  dropped : v.dropped = w.dropped
  answered : v.answered = ((delivered hs).map (·.1)).reverse ++ w.answered
  known : ∀ id ∈ endings hs, id ∈ w.dropped ∨ id ∈ (delivered hs).map (·.1)
  bound : ∀ id, v.held id + qs.count id + (endings hs).count id ≤ w.held id + ps.count id
  balance : ∀ id, id ∉ w.dropped →
    v.held id + qs.count id + (endings hs).count id = w.held id + ps.count id

theorem delivered_of_endings (h : endings hs = []) : delivered hs = [] := by
  refine List.eq_nil_iff_forall_not_mem.2 fun ⟨id, result⟩ hmem => ?_
  have hend : id ∈ endings hs := mem_endings.2 (.inl ⟨result, hmem⟩)
  rw [h] at hend
  cases hend

namespace Settles

/-- Nothing is held that was not held before, and nothing ends. -/
theorem still (hdropped : v.dropped = w.dropped) (hanswered : v.answered = w.answered)
    (hheld : ∀ id, v.held id + qs.count id = w.held id + ps.count id) (hs : endings gs = []) :
    Settles w ps v qs gs where
  dropped := hdropped
  answered := by
    rw [delivered_of_endings hs]
    exact hanswered
  known := by
    rw [hs]
    exact List.forall_mem_nil _
  bound id := by
    rw [hs, hheld]
    exact Nat.le_refl _
  balance id _ := by
    rw [hs, hheld]
    rfl

/-- A part of a move that leaves the ledger alone. -/
theorem aside (h : v.ledger = w.ledger) (hs : endings gs = []) : Settles w ps v ps gs :=
  still (congrArg (·.2.2.1) h) (congrArg (·.2.2.2) h)
    (fun id => congrArg (· + _) (held_of_ledger h id)) hs

theorem trans (h : Settles w ps v qs hs) (h' : Settles v qs u rs gs) :
    Settles w ps u rs (hs ++ gs) where
  dropped := h'.dropped.trans h.dropped
  answered := by
    rw [h'.answered, h.answered, delivered_append, List.map_append, List.reverse_append,
      List.append_assoc]
  known id hid := by
    rw [endings_append, List.mem_append] at hid
    rw [delivered_append, List.map_append, List.mem_append]
    rcases hid with hid | hid
    · exact (h.known id hid).imp_right .inl
    · rw [← h.dropped]
      exact (h'.known id hid).imp_right .inr
  bound id := by
    have hfirst := h.bound id
    have hsecond := h'.bound id
    rw [endings_append, List.count_append]
    omega
  balance id hid := by
    have hfirst := h.balance id hid
    have hsecond := h'.balance id (by rwa [h.dropped])
    rw [endings_append, List.count_append]
    omega

theorem perm_left (h : Settles w ps v qs hs) (hp : ps.Perm rs) : Settles w rs v qs hs where
  dropped := h.dropped
  answered := h.answered
  known := h.known
  bound id := by
    rw [← hp.count_eq]
    exact h.bound id
  balance id hid := by
    rw [← hp.count_eq]
    exact h.balance id hid

theorem perm_right (h : Settles w ps v qs hs) (hp : qs.Perm rs) : Settles w ps v rs hs where
  dropped := h.dropped
  answered := h.answered
  known := h.known
  bound id := by
    rw [← hp.count_eq]
    exact h.bound id
  balance id hid := by
    rw [← hp.count_eq]
    exact h.balance id hid

/-- What else is in hand stays in hand. -/
theorem frame (h : Settles w ps v qs hs) (xs : List Nat) :
    Settles w (xs ++ ps) v (xs ++ qs) hs where
  dropped := h.dropped
  answered := h.answered
  known := h.known
  bound id := by
    have hbound := h.bound id
    rw [List.count_append, List.count_append]
    omega
  balance id hid := by
    have hbalance := h.balance id hid
    rw [List.count_append, List.count_append]
    omega

/-- What is in hand before and after does not matter. -/
theorem cancel (h : Settles w (xs ++ ps) v (xs ++ qs) hs) : Settles w ps v qs hs where
  dropped := h.dropped
  answered := h.answered
  known := h.known
  bound id := by
    have hbound := h.bound id
    rw [List.count_append, List.count_append] at hbound
    omega
  balance id hid := by
    have hbalance := h.balance id hid
    rw [List.count_append, List.count_append] at hbalance
    omega

/-- The other parts of a limiter do not matter. -/
theorem of_ledger {w' v' : Limiter} (h : Settles w ps v qs hs) (hw : w'.ledger = w.ledger)
    (hv : v'.ledger = v.ledger) : Settles w' ps v' qs hs := by
  have hdropped : w'.dropped = w.dropped := congrArg (·.2.2.1) hw
  have hanswered : w'.answered = w.answered := congrArg (·.2.2.2) hw
  refine ⟨?_, ?_, ?_, ?_, ?_⟩
  · exact (congrArg (·.2.2.1) hv).trans (h.dropped.trans hdropped.symm)
  · rw [hanswered, ← h.answered]
    exact congrArg (·.2.2.2) hv
  · rw [hdropped]
    exact h.known
  · intro id
    rw [held_of_ledger hw, held_of_ledger hv]
    exact h.bound id
  · intro id
    rw [hdropped, held_of_ledger hw, held_of_ledger hv]
    exact h.balance id

/-- A log line that ends nothing. -/
theorem cons (h : Settles w ps v qs hs) {x : Happening} (hx : endings [x] = []) :
    Settles w ps v qs (x :: hs) :=
  have hline : Settles w ps w ps [x] := aside rfl hx
  hline.trans h

end Settles

/-! ## Parts of a move -/

theorem answer_settles (w : Limiter) (id : Nat) (result : Except Failure Reply) :
    Settles w [id] (w.answer id result).1 [] (w.answer id result).2 where
  dropped := dropped_answer w id result
  answered := answered_answer w id result
  known k hk := by
    rw [endings_answer] at hk
    rw [delivered_answer]
    by_cases hid : id ∈ w.dropped
    · rw [if_pos hid] at hk
      cases hk
    · rw [if_neg hid] at hk ⊢
      exact .inr hk
  bound k := by
    rw [held_of_core (core_answer w id result), endings_answer]
    split
    · exact Nat.add_le_add_left (Nat.zero_le _) _
    · exact Nat.le_refl _
  balance k hk := by
    rw [held_of_core (core_answer w id result), endings_answer]
    split
    · rename_i hid
      have hne : id ≠ k := fun heq => hk (heq ▸ hid)
      rw [List.count_cons_of_ne hne]
      rfl
    · rfl

/-- Steps for a list settle what they are given one by one. -/
theorem each_settles {α : Type} {f : Limiter → α → Limiter × List Happening} {g : α → Nat}
    {P : Limiter → Prop} (hf : ∀ w a, P w → Settles w [g a] (f w a).1 [] (f w a).2)
    (hP : ∀ w a, P w → P (f w a).1) (as : List α) (hw : P w) :
    Settles w (as.map g) (each f w as).1 [] (each f w as).2 := by
  induction as generalizing w with
  | nil => exact .aside rfl rfl
  | cons a as ih =>
    rw [each_cons]
    have hfirst := (hf w a hw).frame (as.map g)
    rw [List.append_nil] at hfirst
    exact (hfirst.trans (ih (hP w a hw))).perm_left (List.perm_append_singleton (g a) (as.map g))

theorem answerAll_settles (w : Limiter) (result : Except Failure Reply) (as : List Pending) :
    Settles w (as.map (·.id)) (w.answerAll result as).1 [] (w.answerAll result as).2 :=
  each_settles (P := fun _ => True) (fun w p _ => answer_settles w p.id result)
    (fun _ _ _ => trivial) as trivial

/-- A command that is written to a mailbox is held there. -/
theorem post_settles {k : Nat} {a : Actor} (ha : w.actors[k]? = some a) (c : Command) :
    Settles w ((queuedIn [c]).map (·.id)) { w with actors := w.actors.set k (a.post c) } [] [] := by
  refine .still rfl rfl (fun id => ?_) rfl
  have hset := count_flatMap_set (f := Actor.custody) id ha (a.post c)
  have hpost : (a.post c).custody = a.custody ++ (queuedIn [c]).map (·.id) := by
    rw [custody_eq, custody_eq, List.append_assoc, ← List.map_append, ← queuedIn_append]
    rfl
  rw [hpost, List.count_append] at hset
  unfold held
  dsimp only
  rw [List.count_nil]
  omega

theorem enqueue_settles {k : Nat} (hk : k < w.actors.length) (p : Pending) :
    Settles w [p.id] (enqueue k w p).1 [] (enqueue k w p).2 := by
  unfold enqueue
  rw [List.getElem?_eq_getElem hk]
  dsimp only
  split
  · exact post_settles (List.getElem?_eq_getElem hk) (.queue p)
  · exact answer_settles w p.id _

theorem length_enqueue (w : Limiter) (k : Nat) (p : Pending) :
    (enqueue k w p).1.actors.length = w.actors.length := by
  rw [actors_of_core (core_enqueue w k p)]
  exact List.length_modify _ _ _

theorem enqueueAll_settles {k : Nat} (hk : k < w.actors.length) (as : List Pending) :
    Settles w (as.map (·.id)) (each (enqueue k) w as).1 [] (each (enqueue k) w as).2 :=
  each_settles (P := fun w => k < w.actors.length) (fun _ p hk => enqueue_settles hk p)
    (fun w p hk => by rwa [length_enqueue]) as hk

/-- A step of a manager that does not leave the calendar. -/
theorem commit_settles {k : Nat} {a : Actor} {step : Actor.Step} (ha : w.actors[k]? = some a)
    (hcourse : Course w.surroundings a step) (hstage : step.actor.stage ≠ .failed) :
    Settles w [] (w.commit k step).1 [] (w.commit k step).2 := by
  obtain ⟨hnone, haccounts⟩ := hcourse.accounts hstage
  obtain ⟨hhappenings, hdropped, hanswered⟩ := commit_eq w k hnone
  have hheld (id : Nat) :
      (w.commit k step).1.held id + (ends step.outputs).count id = w.held id := by
    have hset := count_flatMap_set (f := Actor.custody) id ha step.actor
    have hbalance := haccounts.balance.count_eq id
    rw [List.count_append] at hbalance
    rw [held_of_core (core_commit w k step)]
    unfold held
    dsimp only
    omega
  have hends (id : Nat) := count_endings_performAll k (managerSpan step.actor)
    (w.placed k step.actor) step.outputs id
  refine ⟨hdropped.trans (dropped_performAll _ _ _ _), answered_commit w k hnone, ?_, ?_, ?_⟩
  · intro id hid
    rw [hhappenings] at hid ⊢
    refine known_performAll _ _ _ (fun id hid => ?_) hid
    exact (haccounts.known id hid).imp_left List.contains_iff_mem.1
  · intro id
    have hle := (hends id).1
    have heq := hheld id
    rw [hhappenings]
    simp only [List.count_nil]
    omega
  · intro id hid
    have hsame := (hends id).2 hid
    have heq := hheld id
    rw [hhappenings]
    simp only [List.count_nil]
    omega

end Limiter

end Throttle
