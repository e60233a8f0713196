import Throttle.Proofs.Limiter.Display
import Throttle.Proofs.Manager.Telling

/-!
  What listeners of a limiter hear. In a move in which a manager acts they hear what the manager
  tells, in its order, and the limiter counts the violations among it (`acting_told`). In any other
  move they hear of no violation and of no queue (`plain_feeding`), and nothing is counted
  (`violations_feeding`).
-/

namespace Throttle

open Http Actor

/-- The event that listeners hear. -/
def Happening.event? : Happening → Option Event
  | .event e => some e
  | _ => none

/-- What listeners hear, in order. -/
def told (hs : List Happening) : List Event := hs.filterMap Happening.event?

@[simp] theorem told_append (hs gs : List Happening) : told (hs ++ gs) = told hs ++ told gs :=
  List.filterMap_append

theorem told_eq_nil {hs : List Happening} (h : ∀ x ∈ hs, x.event? = none) : told hs = [] :=
  List.filterMap_eq_nil_iff.2 h

namespace Limiter

variable {w v : Limiter} {m : Move} {k : Nat} {d : Deed}

/-! ## A step of a manager -/

theorem told_answer (w : Limiter) (id : Nat) (r : Except Failure Reply) :
    told (w.answer id r).2 = [] := by
  unfold answer
  split <;> rfl

/-- Steps for a list tell nothing if none of them does. -/
theorem told_each_nil {f : Limiter → α → Limiter × List Happening}
    (h : ∀ w a, told (f w a).2 = []) (w : Limiter) (as : List α) : told (each f w as).2 = [] := by
  induction as generalizing w with
  | nil => rfl
  | cons a as ih => rw [each_cons, told_append, h, ih, List.append_nil]

theorem told_answerAll (w : Limiter) (r : Except Failure Reply) (ps : List Pending) :
    told (w.answerAll r ps).2 = [] :=
  told_each_nil (fun w (p : Pending) => told_answer w p.id r) w ps

theorem told_orphan (w : Limiter) (p : Pending) : told (w.orphan p).2 = [] := by
  unfold orphan
  split
  · rfl
  · exact told_answer w _ _

theorem told_perform (k : Nat) (span : Span) (w : Limiter) (o : Output) :
    told (perform k span w o).2 = o.event?.toList := by
  cases o with
  | event e => cases e <;> rfl
  | answer id r => exact told_answer w id r
  | _ => rfl

/-- The limiter counts the violations that a manager tells. -/
theorem violations_perform (k : Nat) (span : Span) (w : Limiter) (o : Output) :
    (perform k span w o).1.violations =
      w.violations + (totals o.event?.toList).length := by
  cases o with
  | event e => cases e <;> rfl
  | answer id r => exact congrArg Prod.fst (gauges_answer w id r)
  | _ => rfl

theorem tells_cons (o : Output) (os : List Output) :
    tells (o :: os) = o.event?.toList ++ tells os := by
  unfold tells
  rw [List.filterMap_cons]
  cases o.event? <;> rfl

theorem told_performAll (k : Nat) (span : Span) (w : Limiter) (os : List Output) :
    told (each (perform k span) w os).2 = tells os := by
  induction os generalizing w with
  | nil => rfl
  | cons o os ih => rw [each_cons, told_append, told_perform, ih, tells_cons]

theorem violations_performAll (k : Nat) (span : Span) (w : Limiter) (os : List Output) :
    (each (perform k span) w os).1.violations = w.violations + (totals (tells os)).length := by
  induction os generalizing w with
  | nil => rfl
  | cons o os ih =>
    rw [each_cons, tells_cons, totals_append, List.length_append, ← Nat.add_assoc,
      ← violations_perform k span w o]
    exact ih _

theorem told_commit (w : Limiter) (k : Nat) (step : Actor.Step) :
    told (w.commit k step).2 = tells step.outputs := by
  unfold commit
  dsimp only
  rw [told_append, told_performAll, told_each_nil told_orphan, List.append_nil]

theorem violations_commit (w : Limiter) (k : Nat) (step : Actor.Step) :
    (w.commit k step).1.violations = w.violations + (totals (tells step.outputs)).length := by
  unfold commit
  dsimp only
  generalize hu : each (perform k (managerSpan step.actor))
    { w with actors := w.actors.set k step.actor } step.outputs = u
  have hcounted : u.1.violations = w.violations + (totals (tells step.outputs)).length := by
    rw [← hu]
    exact violations_performAll k _ { w with actors := w.actors.set k step.actor } step.outputs
  have hlost : (each orphan u.1 step.orphans).1.violations = u.1.violations :=
    each_preserves violations (fun w p => congrArg Prod.fst (gauges_orphan w p)) _ _
  rw [← hcounted, ← hlost]
  split <;> rfl

/-- What the manager at a place brings about with a deed. -/
def outputsOf (w : Limiter) (k : Nat) (d : Deed) : List Output :=
  (w.actors[k]?).elim [] fun a => a.outputs d

theorem withActor_told {f : Surroundings → Actor → Option Actor.Step}
    (hf : ∀ a, a.outputs d = (f w.surroundings a).elim [] Actor.Step.outputs) (k : Nat) :
    told (w.withActor k f).2 = tells (w.outputsOf k d) ∧
      (w.withActor k f).1.violations =
        w.violations + (totals (tells (w.outputsOf k d))).length := by
  unfold withActor outputsOf
  cases w.actors[k]? with
  | none => exact ⟨rfl, rfl⟩
  | some a =>
    rw [Option.elim_some, hf a]
    dsimp only
    cases f w.surroundings a with
    | none => exact ⟨rfl, rfl⟩
    | some step => exact ⟨told_commit w k step, violations_commit w k step⟩

/-- In a move in which a manager acts, listeners hear what it tells, and the limiter counts the
violations. -/
theorem acting_told (hm : m.actor? = some k) (hd : m.deed? w.surroundings = some d) :
    told (w.step m).2 = tells (w.outputsOf k d) ∧
      (w.step m).1.violations = w.violations + (totals (tells (w.outputsOf k d))).length := by
  have silent (houtputs : ∀ a : Actor, a.outputs d = []) : tells (w.outputsOf k d) = [] := by
    unfold outputsOf
    cases w.actors[k]? with
    | none => rfl
    | some a => rw [Option.elim_some, houtputs]; rfl
  cases m with
  | command j =>
    cases hm
    cases hd
    exact withActor_told (fun _ => rfl) k
  | signal j =>
    cases hm
    cases hd
    exact withActor_told (fun _ => rfl) k
  | ring j =>
    cases hd
    rw [silent fun _ => rfl]
    exact ⟨rfl, congrArg Prod.fst (gauges_updateActor w j _)⟩
  | returned j id result =>
    cases hd
    rw [silent fun _ => rfl]
    exact ⟨rfl, congrArg Prod.fst (gauges_updateActor w j _)⟩
  | _ => cases hm

/-! ## Other moves -/

theorem told_enqueue (w : Limiter) (k : Nat) (p : Pending) : told (enqueue k w p).2 = [] := by
  unfold enqueue
  split
  · rfl
  · split
    · rfl
    · exact told_answer w _ _

theorem told_submit (w : Limiter) (e : Endpoint) (r : Request) : told (w.submit e r).2 = [] := by
  unfold submit
  dsimp only
  split
  · exact told_answer _ _ _
  · split
    · exact told_enqueue _ _ _
    · rfl
    · rfl

theorem told_startProbe (w : Limiter) (e : Endpoint) : told (w.startProbe e).2 = [] := by
  unfold startProbe
  split
  · split <;> rfl
  · rfl

theorem told_seed (w : Limiter) (span : Span) (k : Nat) (reply : Reply) :
    told (w.seed span k reply).2 = [] := by
  unfold seed
  split
  · rfl
  · split <;> rfl

theorem told_managerFor (w : Limiter) (span : Span) (name : PolicyName) :
    told (w.managerFor span name).2.1 = [] := by
  unfold managerFor
  split <;> rfl

theorem told_probeReport (e : Endpoint) (reply : Reply) : told (probeReport e reply) = [] := by
  refine told_eq_nil fun x hx => ?_
  rcases List.mem_cons.1 hx with rfl | hx
  · rfl
  · obtain ⟨y, -, rfl⟩ := List.mem_map.1 hx
    rfl

theorem told_endProbe (w : Limiter) (e : Endpoint) (result : Except TransportFailure Reply) :
    told (w.endProbe e result).2 = [] := by
  unfold endProbe
  split
  · split
    · rfl
    · dsimp only
      split
      · rw [told_append, told_probeReport]
        rfl
      · rw [told_append, told_append, told_probeReport, told_managerFor, told_seed]
        rfl
  · rfl

theorem told_settle (w : Limiter) (e : Endpoint) : told (w.settle e).2 = [] := by
  unfold settle
  split
  · split
    · rfl
    · rfl
    · split
      · exact told_answerAll _ _ _
      · split
        · unfold settleFound
          dsimp only
          rw [told_append, told_each_nil (told_enqueue · _), List.append_nil]
          split <;> rfl
        · unfold settleFailed
          dsimp only
          split <;> exact told_answerAll _ _ _
  · rfl

theorem told_shutdown (w : Limiter) : told w.shutdown.2 = [] := by
  unfold shutdown
  split
  · rfl
  · exact told_answerAll _ _ _

theorem plain_refresh (w : Limiter) : ∀ e ∈ told w.refresh, e.Plain := by
  intro e he
  obtain ⟨x, hx, hxe⟩ := List.mem_filterMap.1 he
  obtain ⟨s, -, rfl⟩ := List.mem_map.1 hx
  cases hxe
  trivial

theorem plain_tick (w : Limiter) : ∀ e ∈ told w.tick.2, e.Plain := by
  unfold tick
  split
  · split
    · exact List.forall_mem_nil _
    · split
      · exact List.forall_mem_nil _
      · exact List.forall_mem_singleton.2 trivial
  · exact List.forall_mem_nil _

/-- In a move in which no manager acts, listeners hear of no violation and of no queue. -/
theorem plain_feeding (hm : m.actor? = none) (w : Limiter) : ∀ e ∈ told (w.step m).2, e.Plain := by
  have silent {hs : List Happening} (h : told hs = []) : ∀ e ∈ told hs, e.Plain := by
    rw [h]
    exact List.forall_mem_nil _
  unfold step
  split
  · exact silent rfl
  · cases m with
    | submit e r => exact silent (told_submit w e r)
    | startProbe e => exact silent (told_startProbe w e)
    | endProbe e result => exact silent (told_endProbe w e result)
    | settle e => exact silent (told_settle w e)
    | shutdown => exact silent (told_shutdown w)
    | refresh => exact plain_refresh w
    | tick => exact plain_tick w
    | release => exact silent rfl
    | cancel id => exact silent rfl
    | letGo id => exact silent rfl
    | call i => exact silent rfl
    | awaitPause => exact silent rfl
    | elapse d => exact silent rfl
    | retain => exact silent rfl
    | renew f => exact silent rfl
    | command i => cases hm
    | signal i => cases hm
    | ring i => cases hm
    | returned i id result => cases hm

theorem violations_call (w : Limiter) (k : Nat) : (w.call k).violations = w.violations := by
  have hwake (v : Limiter) : v.wake.violations = v.violations := by
    unfold wake
    split <;> rfl
  exact call_preserves violations (fun _ _ => rfl) hwake w k

/-- In a move in which no manager acts, nothing is counted. -/
theorem violations_feeding (hm : m.actor? = none) (w : Limiter) :
    (w.step m).1.violations = w.violations := by
  cases feeding_gauges hm w with
  | same h => exact congrArg Prod.fst h
  | started hoff h => exact congrArg Prod.fst h
  | off h hregistered hover => exact congrArg Prod.fst h
  | called i heq h =>
    rw [h]
    exact violations_call w i
  | awaited heq h =>
    rw [h]
    unfold awaitPause
    split
    · split <;> rfl
    · rfl
    · rfl
  | ticked heq h =>
    rw [h]
    unfold tick
    split
    · split
      · rfl
      · split <;> rfl
    · rfl

end Limiter

end Throttle
