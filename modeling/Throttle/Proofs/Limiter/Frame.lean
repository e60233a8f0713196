import Mathlib.Data.List.Basic
import Throttle.Limiter.Move
import Throttle.Proofs.Manager.Life

/-!
  What a move of the limiter leaves alone, and how others treat a manager. Results, log lines and
  wake-ups leave the managers alone (`core`). A move in which no manager acts feeds the managers,
  that is, it writes commands to their mailboxes, cuts them off, or makes one for the reply of a
  probe (`feeding_step`); no manager sends anything then (`senders`).
-/

namespace Throttle

open Http

namespace Limiter

variable {w v : Limiter} {i k : Nat}

/-! ## What results and log lines leave alone -/

/-- A limiter without what results, log lines and wake-ups change. -/
def core (w : Limiter) : Limiter :=
  { w with
    answered := []
    violations := 0
    ticker := .off
    permit := false
    calling := [] }

/-- Who handed a request to the transport, among some happenings, in order. -/
def senders (hs : List Happening) : List Sender :=
  hs.filterMap fun
    | .transmitted sender _ => some sender
    | _ => none

@[simp] theorem senders_nil : senders [] = [] := rfl

@[simp] theorem senders_append (hs gs : List Happening) :
    senders (hs ++ gs) = senders hs ++ senders gs := List.filterMap_append

@[simp] theorem senders_notice (span : Option Span) (n : Notice) (hs : List Happening) :
    senders (.notice span n :: hs) = senders hs := rfl

@[simp] theorem senders_event (e : Event) (hs : List Happening) :
    senders (.event e :: hs) = senders hs := rfl

@[simp] theorem senders_count (p : String) (t : Transition) (hs : List Happening) :
    senders (.count p t :: hs) = senders hs := rfl

@[simp] theorem senders_answered (id : Nat) (r : Except Failure Reply) (hs : List Happening) :
    senders (.answered id r :: hs) = senders hs := rfl

/-- A part of the limiter that no single step changes is not changed by steps for a list. -/
theorem each_preserves {β : Type} (g : Limiter → β) {f : Limiter → α → Limiter × List Happening}
    (h : ∀ w a, g (f w a).1 = g w) (w : Limiter) (as : List α) : g (each f w as).1 = g w := by
  induction as generalizing w with
  | nil => rfl
  | cons a as ih => exact (ih _).trans (h w a)

theorem senders_each {g : α → List Sender} {f : Limiter → α → Limiter × List Happening}
    (h : ∀ w a, senders (f w a).2 = g a) (w : Limiter) (as : List α) :
    senders (each f w as).2 = as.flatMap g := by
  induction as generalizing w with
  | nil => rfl
  | cons a as ih =>
    rw [List.flatMap_cons, ← h w a, ← ih (f w a).1]
    exact senders_append _ _

/-- Steps for a list send nothing if none of them does. -/
theorem senders_each_nil {f : Limiter → α → Limiter × List Happening}
    (h : ∀ w a, senders (f w a).2 = []) (w : Limiter) (as : List α) :
    senders (each f w as).2 = [] := by
  rw [senders_each h]
  exact List.flatMap_eq_nil_iff.2 fun _ _ => rfl

@[simp] theorem core_answer (w : Limiter) (id : Nat) (r : Except Failure Reply) :
    (w.answer id r).1.core = w.core := by
  unfold answer
  split <;> rfl

@[simp] theorem senders_answer (w : Limiter) (id : Nat) (r : Except Failure Reply) :
    senders (w.answer id r).2 = [] := by
  unfold answer
  split <;> rfl

@[simp] theorem core_answerAll (w : Limiter) (r : Except Failure Reply) (ps : List Pending) :
    (w.answerAll r ps).1.core = w.core :=
  each_preserves core (fun w (p : Pending) => core_answer w p.id r) w ps

@[simp] theorem senders_answerAll (w : Limiter) (r : Except Failure Reply) (ps : List Pending) :
    senders (w.answerAll r ps).2 = [] :=
  senders_each_nil (fun w (p : Pending) => senders_answer w p.id r) w ps

theorem core_orphan (w : Limiter) (p : Pending) : (w.orphan p).1.core = w.core := by
  unfold orphan
  split
  · rfl
  · exact core_answer w _ _

theorem senders_orphan (w : Limiter) (p : Pending) : senders (w.orphan p).2 = [] := by
  unfold orphan
  split
  · rfl
  · exact senders_answer w _ _

@[simp] theorem core_wake (w : Limiter) : w.wake.core = w.core := by
  unfold wake
  split <;> rfl

@[simp] theorem core_expectCall (w : Limiter) (k : Nat) : (w.expectCall k).core = w.core := rfl

/-- A manager that calls has its call behind it, and the ticker may be woken. -/
theorem call_cases (w : Limiter) (k : Nat) :
    w.call k = w ∨ w.call k = { w with calling := w.calling.erase k } ∨
      w.call k = ({ w with calling := w.calling.erase k } : Limiter).wake := by
  unfold call
  split
  · dsimp only
    split
    · split
      · exact .inr (.inr rfl)
      · exact .inr (.inl rfl)
    · exact .inr (.inl rfl)
  · exact .inl rfl

/-- A call leaves alone what has to do neither with calls nor with the ticker. -/
theorem call_preserves (f : Limiter → α) (hcalling : ∀ w ks, f { w with calling := ks } = f w)
    (hwake : ∀ w : Limiter, f w.wake = f w) (w : Limiter) (k : Nat) : f (w.call k) = f w := by
  rcases call_cases w k with h | h | h <;> rw [h]
  · exact hcalling w _
  · rw [hwake, hcalling]

theorem core_call (w : Limiter) (k : Nat) : (w.call k).core = w.core :=
  call_preserves core (fun _ _ => rfl) core_wake w k

theorem core_perform (k : Nat) (span : Span) (w : Limiter) (o : Output) :
    (perform k span w o).1.core = w.core := by
  cases o with
  | event e => cases e <;> rfl
  | answer id r => exact core_answer w id r
  | _ => rfl

theorem senders_perform (k : Nat) (span : Span) (w : Limiter) (o : Output) :
    senders (perform k span w o).2 = o.sent?.toList.map (.manager k) := by
  cases o with
  | event e => cases e <;> rfl
  | answer id r => exact senders_answer w id r
  | _ => rfl

/-- Taking over a step of a manager puts it in its place. -/
theorem core_commit (w : Limiter) (k : Nat) (step : Actor.Step) :
    (w.commit k step).1.core = { w with actors := w.actors.set k step.actor }.core := by
  unfold commit
  dsimp only
  split
  · rw [core_expectCall, each_preserves core core_orphan, each_preserves core (core_perform k _)]
  · rw [each_preserves core core_orphan, each_preserves core (core_perform k _)]

theorem senders_commit (w : Limiter) (k : Nat) (step : Actor.Step) :
    senders (w.commit k step).2 = (sends step.outputs).map (.manager k) := by
  unfold commit
  dsimp only
  rw [senders_append, senders_each_nil senders_orphan, senders_each (senders_perform k _),
    List.append_nil]
  unfold sends
  rw [List.filterMap_eq_flatMap_toList, List.map_flatMap]

/-! ## Changing one manager -/

theorem modify_of_some {l : List α} {k : Nat} {a : α} (h : l[k]? = some a) (f : α → α) :
    l.modify k f = l.set k (f a) := by
  apply List.ext_getElem?
  intro i
  obtain ⟨hlt, rfl⟩ := List.getElem?_eq_some_iff.1 h
  rw [List.getElem?_set, List.getElem?_modify]
  by_cases hik : k = i
  · subst hik
    simp [hlt]
  · simp [hik]

theorem modify_of_none {l : List α} {k : Nat} (h : l[k]? = none) (f : α → α) :
    l.modify k f = l :=
  List.modify_eq_self (List.getElem?_eq_none_iff.1 h)

theorem set_of_some {l : List α} {k : Nat} {a : α} (h : l[k]? = some a) : l.set k a = l := by
  obtain ⟨hlt, rfl⟩ := List.getElem?_eq_some_iff.1 h
  exact List.set_getElem_self hlt

/-- A change at one place does not show where it does not show on the element. -/
theorem map_modify_of {o : α → β} {f : α → α} (hf : ∀ a, o (f a) = o a) (l : List α) (k : Nat) :
    (l.modify k f).map o = l.map o := by
  cases ha : l[k]? with
  | none => rw [modify_of_none ha]
  | some a =>
    rw [modify_of_some ha, List.map_set, hf]
    refine set_of_some ?_
    rw [List.getElem?_map, ha]
    rfl

/-- What is seen of the managers is the same after a change that does not show. -/
theorem map_mapRegistered {o : Actor → β} {f : Actor → Actor} (hf : ∀ a, o (f a) = o a)
    (w : Limiter) : (w.mapRegistered f).map o = w.actors.map o := by
  unfold mapRegistered
  induction w.registered generalizing w with
  | nil => rfl
  | cons x rest ih =>
    exact (ih { w with actors := w.actors.modify x.2 f }).trans (map_modify_of hf _ _)

/-- A limiter in which one manager has done some deeds. -/
def live (w : Limiter) (k : Nat) (ds : List Actor.Deed) : Limiter :=
  { w with actors := w.actors.modify k (·.live ds) }

@[simp] theorem core_live (w : Limiter) (k : Nat) (ds : List Actor.Deed) :
    (w.live k ds).core = w.core.live k ds := rfl

theorem live_of_none (h : w.actors[k]? = none) (ds : List Actor.Deed) : w.live k ds = w := by
  unfold live
  rw [modify_of_none h]

theorem live_of_some {a : Actor} (h : w.actors[k]? = some a) (ds : List Actor.Deed) :
    w.live k ds = { w with actors := w.actors.set k (a.live ds) } := by
  unfold live
  rw [modify_of_some h]

theorem live_of_same {a : Actor} (h : w.actors[k]? = some a) {ds : List Actor.Deed}
    (hds : a.live ds = a) : w.live k ds = w := by
  rw [live_of_some h, hds, set_of_some h]

theorem live_live (w : Limiter) (k : Nat) (ds es : List Actor.Deed) :
    (w.live k ds).live k es = w.live k (ds ++ es) := by
  unfold live
  simp only [List.modify_modify_eq, Function.comp_def, Actor.live_append]

theorem core_updateActor {f : Actor → Option Actor} {d : Actor.Deed}
    (h : ∀ a, (f a).getD a = a.live [d]) (w : Limiter) (k : Nat) :
    (w.updateActor k f).core = (w.live k [d]).core := by
  unfold updateActor
  cases ha : w.actors[k]? with
  | none => rw [live_of_none ha]
  | some a =>
    have hd := h a
    cases hf : f a with
    | none =>
      rw [hf, Option.getD_none] at hd
      rw [live_of_same ha hd.symm]
      dsimp only
      rw [hf]
    | some b =>
      rw [hf, Option.getD_some] at hd
      rw [live_of_some ha, ← hd]
      dsimp only
      rw [hf]

theorem core_withActor {f : Surroundings → Actor → Option Actor.Step} {d : Actor.Deed}
    (h : ∀ a, (f w.surroundings a).elim a Actor.Step.actor = a.live [d]) (k : Nat) :
    (w.withActor k f).1.core = (w.live k [d]).core := by
  unfold withActor
  cases ha : w.actors[k]? with
  | none => rw [live_of_none ha]
  | some a =>
    have hd := h a
    cases hf : f w.surroundings a with
    | none =>
      rw [hf, Option.elim_none] at hd
      rw [live_of_same ha hd.symm]
      dsimp only
      rw [hf]
    | some step =>
      rw [hf, Option.elim_some] at hd
      rw [live_of_some ha, ← hd, ← core_commit]
      dsimp only
      rw [hf]

/-- A manager sends what its step hands out. -/
theorem senders_withActor {f : Surroundings → Actor → Option Actor.Step} (k : Nat) :
    senders (w.withActor k f).2 =
      ((w.actors[k]?).elim [] fun a =>
        (f w.surroundings a).elim [] fun step => sends step.outputs).map (.manager k) := by
  unfold withActor
  cases ha : w.actors[k]? with
  | none => rfl
  | some a =>
    cases hf : f w.surroundings a with
    | none =>
      simp only [Option.elim_some, hf]
      rfl
    | some step =>
      simp only [Option.elim_some, hf]
      exact senders_commit w k step

theorem core_enqueue (w : Limiter) (k : Nat) (p : Pending) :
    (enqueue k w p).1.core = (w.live k [.post (.queue p)]).core := by
  unfold enqueue
  cases ha : w.actors[k]? with
  | none => rw [live_of_none ha]
  | some a =>
    by_cases hopen : a.isOpen
    · have hd : a.live [.post (.queue p)] = a.post (.queue p) := if_pos hopen
      rw [live_of_some ha, hd]
      simp only [hopen, if_true]
    · have hd : a.live [.post (.queue p)] = a := if_neg hopen
      rw [live_of_same ha hd, ← core_answer w p.id (.error .shutdown)]
      simp only [hopen]
      rfl

theorem senders_enqueue (w : Limiter) (k : Nat) (p : Pending) :
    senders (enqueue k w p).2 = [] := by
  unfold enqueue
  split
  · rfl
  · split
    · rfl
    · exact senders_answer w _ _

theorem core_seed (w : Limiter) (span : Span) (k : Nat) (reply : Reply) :
    (w.seed span k reply).1.core = (w.live k [.post (.seed reply)]).core := by
  unfold seed
  cases ha : w.actors[k]? with
  | none => rw [live_of_none ha]
  | some a =>
    by_cases hopen : a.isOpen
    · have hd : a.live [.post (.seed reply)] = a.post (.seed reply) := if_pos hopen
      rw [live_of_some ha, hd]
      simp only [hopen, if_true]
    · have hd : a.live [.post (.seed reply)] = a := if_neg hopen
      rw [live_of_same ha hd]
      simp only [hopen]
      rfl

theorem senders_seed (w : Limiter) (span : Span) (k : Nat) (reply : Reply) :
    senders (w.seed span k reply).2 = [] := by
  unfold seed
  split
  · rfl
  · split <;> rfl

theorem each_cons (f : Limiter → α → Limiter × List Happening) (w : Limiter) (a : α)
    (as : List α) :
    each f w (a :: as) =
      ((each f (f w a).1 as).1, (f w a).2 ++ (each f (f w a).1 as).2) := rfl

/-- Handing over requests one by one writes them to the mailbox in their order. -/
theorem core_enqueueAll (w : Limiter) (k : Nat) (ps : List Pending) :
    (each (enqueue k) w ps).1.core =
      (w.live k (ps.map fun p => .post (.queue p))).core := by
  induction ps generalizing w with
  | nil =>
    have hnil : w.live k [] = w := by
      cases ha : w.actors[k]? with
      | none => exact live_of_none ha []
      | some a => exact live_of_same ha rfl
    exact (congrArg core hnil).symm
  | cons p ps ih =>
    rw [each_cons, ih, core_live, core_enqueue, ← core_live, live_live]
    rfl

theorem senders_enqueueAll (w : Limiter) (k : Nat) (ps : List Pending) :
    senders (each (enqueue k) w ps).2 = [] :=
  senders_each_nil (fun w p => senders_enqueue w k p) w ps

/-! ## Feeding managers -/

/-- What others do to the manager at a place: it is fed, or made and fed for the reply of a probe,
or there is none. -/
inductive Fed (ps : List Pending) (rs : Option Reply) : Option Actor → Option Actor → Prop where
  | absent : Fed ps rs none none
  | kept (a : Actor) {ds : List Actor.Deed} (h : Actor.Feeding ps rs ds) :
      Fed ps rs (some a) (some (a.live ds))
  | made (name : PolicyName) {ds : List Actor.Deed} (hreply : rs ≠ none)
      (h : Actor.Feeding ps rs ds) : Fed ps rs none (some ((Actor.new name).live ds))

theorem Fed.refl (ps : List Pending) (rs : Option Reply) (x : Option Actor) : Fed ps rs x x := by
  cases x with
  | none => exact .absent
  | some a => exact .kept a (Actor.feeding_nil ps rs)

theorem Fed.trans {ps qs : List Pending} {rs : Option Reply} {x y z : Option Actor}
    (h : Fed ps rs x y) (h' : Fed qs rs y z) : Fed (ps ++ qs) rs x z := by
  cases h with
  | absent =>
    cases h' with
    | absent => exact .absent
    | made name hreply h' => exact .made name hreply ((Actor.feeding_nil ps rs).append h')
  | kept a h =>
    cases h' with
    | kept _ h' =>
      rw [← Actor.live_append]
      exact .kept a (h.append h')
  | made name hreply h =>
    cases h' with
    | kept _ h' =>
      rw [← Actor.live_append]
      exact .made name hreply (h.append h')

/-- Each manager of a list is fed, with requests among those listed for its place, and there may be
a new manager for the reply of a probe. -/
def FedAll (ps : Nat → List Pending) (rs : Option Reply) (xs ys : List Actor) : Prop :=
  ∀ i : Nat, Fed (ps i) rs xs[i]? ys[i]?

section FedAll

variable {ps : Nat → List Pending} {rs : Option Reply} {xs ys zs : List Actor}
  {ds : List Actor.Deed}

theorem FedAll.refl (ps : Nat → List Pending) (rs : Option Reply) (xs : List Actor) :
    FedAll ps rs xs xs := fun i => .refl (ps i) rs _

/-- Feeding with requests, after feeding without. -/
theorem FedAll.before (h : FedAll (fun _ => []) rs xs ys) (h' : FedAll ps rs ys zs) :
    FedAll ps rs xs zs := fun i => (h i).trans (h' i)

/-- Feeding with requests, before feeding without. -/
theorem FedAll.afterwards (h : FedAll ps rs xs ys) (h' : FedAll (fun _ => []) rs ys zs) :
    FedAll ps rs xs zs := by
  intro i
  have hi := (h i).trans (h' i)
  rw [List.append_nil] at hi
  exact hi

theorem fedAll_modify {f : Actor → Actor} (h : Actor.Feeding (ps k) rs ds)
    (hf : ∀ a, f a = a.live ds) (xs : List Actor) : FedAll ps rs xs (xs.modify k f) := by
  intro i
  rw [List.getElem?_modify]
  cases xs[i]? with
  | none => exact .absent
  | some a =>
    show Fed (ps i) rs (some a) (some (if k = i then f a else a))
    split
    · rename_i hki
      subst hki
      rw [hf]
      exact .kept a h
    · exact .refl _ _ _

theorem fedAll_append (ps : Nat → List Pending) (xs : List Actor) (name : PolicyName)
    (hreply : rs ≠ none) : FedAll ps rs xs (xs ++ [Actor.new name]) := by
  intro i
  by_cases hlt : i < xs.length
  · rw [List.getElem?_append_left hlt]
    exact .refl _ _ _
  · rw [List.getElem?_eq_none (Nat.le_of_not_lt hlt), List.getElem?_append_right (by omega)]
    cases i - xs.length with
    | zero => exact .made name hreply (Actor.feeding_nil (ps i) rs)
    | succ n => exact .absent

theorem fedAll_mapRegistered {f : Actor → Actor} (h : Actor.Feeding [] rs ds)
    (hf : ∀ a, f a = a.live ds) (w : Limiter) :
    FedAll (fun _ => []) rs w.actors (w.mapRegistered f) := by
  unfold mapRegistered
  induction w.registered generalizing w with
  | nil => exact .refl _ _ _
  | cons p rest ih =>
    have hstep : FedAll (fun _ => []) rs w.actors (w.actors.modify p.2 f) :=
      fedAll_modify h hf w.actors
    exact hstep.before (ih { w with actors := w.actors.modify p.2 f })

theorem actors_of_core (h : v.core = w.core) : v.actors = w.actors := by
  have hactors : v.core.actors = w.core.actors := congrArg actors h
  exact hactors

/-- A manager whose step is taken over is what the step made of it. -/
theorem actor_commit {k : Nat} {a : Actor} (ha : w.actors[k]? = some a) (step : Actor.Step) :
    (w.commit k step).1.actors[k]? = some step.actor := by
  rw [actors_of_core (core_commit w k step)]
  exact List.getElem?_set_self (List.getElem?_eq_some_iff.1 ha).1

theorem fedAll_of_core (h : v.core = w.core) : FedAll ps rs w.actors v.actors := by
  rw [actors_of_core h]
  exact .refl _ _ _

theorem fedAll_of_live (hds : Actor.Feeding (ps k) rs ds) (h : v.core = (w.live k ds).core) :
    FedAll ps rs w.actors v.actors := by
  rw [actors_of_core h]
  exact fedAll_modify hds (fun _ => rfl) w.actors

theorem fedAll_hangUpIfFree (w : Limiter) :
    FedAll (fun _ => []) rs w.actors w.hangUpIfFree.actors := by
  unfold hangUpIfFree
  split
  · exact fedAll_mapRegistered (Actor.feeding_disconnect [] rs) (fun _ => rfl) w
  · exact .refl _ _ _

theorem fedAll_leave (w : Limiter) (e : Endpoint) :
    FedAll (fun _ => []) rs w.actors (w.leave e).actors :=
  fedAll_hangUpIfFree (w.endDiscovery e)

end FedAll

theorem core_startTicker (w : Limiter) : w.startTicker.core = w.core := by
  unfold startTicker
  split <;> rfl

/-! ## Moves that feed -/

/-- The request that a submission becomes. -/
def submission (w : Limiter) (e : Endpoint) (r : Request) : Pending :=
  ⟨w.nextId, e, w.withUserAgent r⟩

/-- The requests that a move can hand to a manager. -/
def handed (w : Limiter) (m : Move) (i : Nat) : List Pending :=
  match m with
  | .submit e r => if w.route? e = some (.ready i) then [w.submission e r] else []
  | .settle e =>
    match w.discovery? e, w.route? e with
    | some ⟨_, .ended (.ok k)⟩, some (.discovering waiting) => if k = i then waiting else []
    | _, _ => []
  | _ => []

section

variable {rs : Option Reply}

theorem submit_feeds (w : Limiter) (e : Endpoint) (r : Request) :
    FedAll (w.handed (.submit e r)) rs w.actors (w.submit e r).1.actors ∧
      senders (w.submit e r).2 = [] := by
  unfold submit
  dsimp only
  split
  · exact ⟨(fedAll_of_core (core_answer { w with nextId := w.nextId + 1 } _ _) :),
      senders_answer _ _ _⟩
  · have hstart : FedAll (fun _ => []) rs w.actors
        { w with nextId := w.nextId + 1 }.startTicker.actors :=
      (fedAll_of_core (core_startTicker { w with nextId := w.nextId + 1 }) :)
    have hroute : { w with nextId := w.nextId + 1 }.startTicker.route? e = w.route? e := by
      unfold startTicker
      split <;> rfl
    rw [hroute]
    split
    · rename_i k hready
      refine ⟨hstart.before (fedAll_of_live ?_ (core_enqueue _ _ _)), senders_enqueue _ _ _⟩
      simp only [handed, if_pos hready]
      exact Actor.feeding_queue [w.submission e r] rs
    · exact ⟨hstart.before (.refl _ _ _), rfl⟩
    · exact ⟨hstart.before (.refl _ _ _), rfl⟩

/-- Sending a probe changes no manager. -/
theorem actors_startProbe (w : Limiter) (e : Endpoint) : (w.startProbe e).1.actors = w.actors := by
  unfold startProbe
  split
  · split <;> rfl
  · rfl

theorem senders_startProbe (w : Limiter) (e : Endpoint) :
    senders (w.startProbe e).2 = [] ∨ senders (w.startProbe e).2 = [.probe e] := by
  unfold startProbe
  split
  · split
    · exact .inl rfl
    · exact .inr rfl
  · exact .inl rfl

theorem managerFor_feeds (w : Limiter) (span : Span) (name : PolicyName) (hreply : rs ≠ none) :
    FedAll (fun _ => []) rs w.actors (w.managerFor span name).1.actors ∧
      senders (w.managerFor span name).2.1 = [] := by
  unfold managerFor
  split
  · exact ⟨.refl _ _ _, rfl⟩
  · exact ⟨fedAll_append _ _ _ hreply, rfl⟩

@[simp] theorem senders_probeReport (e : Endpoint) (reply : Reply) :
    senders (probeReport e reply) = [] := by
  unfold probeReport
  rw [senders_count]
  unfold senders
  rw [List.filterMap_map, List.filterMap_eq_nil_iff]
  exact fun _ _ => rfl

theorem endProbe_feeds (w : Limiter) (e : Endpoint) (result : Except TransportFailure Reply) :
    FedAll (fun _ => []) result.toOption w.actors (w.endProbe e result).1.actors ∧
      senders (w.endProbe e result).2 = [] := by
  unfold endProbe
  split
  · split
    · exact ⟨.refl _ _ _, rfl⟩
    · rename_i reply
      dsimp only
      split
      · refine ⟨.refl _ _ _, ?_⟩
        rw [senders_append, senders_probeReport]
        rfl
      · rename_i policy _
        obtain ⟨hmade, hmadeSent⟩ :=
          managerFor_feeds w (discoverySpan e) policy.name (Option.some_ne_none reply)
        have hseed : Actor.Feeding [] (some reply) [.post (.seed reply)] :=
          Actor.feeding_post [] rfl fun _ h => congrArg some (Command.seed.inj h)
        refine ⟨hmade.before ?_, ?_⟩
        · show FedAll _ _ _ (seed _ _ _ _).1.actors
          rw [actors_of_core (core_seed _ _ _ _)]
          exact fedAll_modify hseed (fun _ => rfl) _
        · rw [senders_append, senders_append, senders_probeReport, hmadeSent, senders_seed]
          rfl
  · exact ⟨.refl _ _ _, rfl⟩

theorem settleFound_feeds {ps : Nat → List Pending} (w : Limiter) (e : Endpoint) (k : Nat)
    (waiting : List Pending) (hps : ps k = waiting) :
    FedAll ps rs w.actors (w.settleFound e k waiting).1.actors ∧
      senders (w.settleFound e k waiting).2 = [] := by
  have hqueue : FedAll ps rs w.actors
      (each (enqueue k) (w.setRoute e (.ready k)) waiting).1.actors := by
    subst hps
    exact (fedAll_of_live (w := w.setRoute e (.ready k)) (Actor.feeding_queue (ps k) rs)
      (core_enqueueAll (w.setRoute e (.ready k)) k (ps k)) :)
  refine ⟨hqueue.afterwards (fedAll_leave _ e), ?_⟩
  unfold settleFound
  dsimp only
  rw [senders_append, senders_enqueueAll, List.append_nil]
  split <;> rfl

theorem settleFailed_feeds {ps : Nat → List Pending} (w : Limiter) (e : Endpoint)
    (failure : Failure) (waiting : List Pending) :
    FedAll ps rs w.actors (w.settleFailed e failure waiting).1.actors ∧
      senders (w.settleFailed e failure waiting).2 = [] := by
  have hanswer {v : Limiter} : FedAll ps rs v.actors
      (v.answerAll (.error failure) (waiting.take 1)).1.actors :=
    fedAll_of_core (core_answerAll v _ _)
  unfold settleFailed
  dsimp only
  split
  · refine ⟨?_, senders_answerAll _ _ _⟩
    exact (hanswer.afterwards (fedAll_leave ((w.answerAll _ _).1.removeRoute e) e) :)
  · exact ⟨(hanswer :), senders_answerAll _ _ _⟩

theorem settle_feeds (w : Limiter) (e : Endpoint) :
    FedAll (w.handed (.settle e)) rs w.actors (w.settle e).1.actors ∧
      senders (w.settle e).2 = [] := by
  have hleave (v : Limiter) : FedAll (w.handed (.settle e)) rs v.actors (v.leave e).actors :=
    (FedAll.refl _ _ _).afterwards (fedAll_leave v e)
  unfold settle
  split
  · rename_i hdiscovery
    split
    · exact ⟨hleave w, rfl⟩
    · exact ⟨hleave w, rfl⟩
    · rename_i waiting hroute
      split
      · refine ⟨.before ?_ (hleave _), senders_answerAll _ _ _⟩
        exact (fedAll_of_core (core_answerAll (w.removeRoute e) _ waiting) :)
      · split
        · refine settleFound_feeds w e _ waiting ?_
          simp only [handed, hdiscovery, hroute, if_true]
        · exact settleFailed_feeds w e _ waiting
  · exact ⟨.refl _ _ _, rfl⟩

theorem stop_eq (a : Actor) : a.stop = a.live [.post .shutdown] := rfl

theorem shutdown_feeds (w : Limiter) :
    FedAll (fun _ => []) rs w.actors w.shutdown.1.actors ∧ senders w.shutdown.2 = [] := by
  unfold shutdown
  split
  · exact ⟨.refl _ _ _, rfl⟩
  · have hstop : Actor.Feeding [] rs [.post .shutdown] := Actor.feeding_post [] rfl nofun
    dsimp only
    refine ⟨(fedAll_mapRegistered hstop stop_eq w).afterwards ?_, ?_⟩
    · exact (fedAll_of_core (core_answerAll { w with
        closed := true
        actors := w.mapRegistered Actor.stop } _ _) :)
    · exact senders_answerAll _ _ _

end

theorem core_awaitPause (w : Limiter) : w.awaitPause.core = w.core := by
  unfold awaitPause
  split
  · split <;> rfl
  · rfl
  · rfl

theorem core_tick (w : Limiter) : w.tick.1.core = w.core := by
  unfold tick
  split
  · split
    · rfl
    · split <;> rfl
  · rfl

theorem senders_tick (w : Limiter) : senders w.tick.2 = [] := by
  unfold tick
  split
  · split
    · rfl
    · split <;> rfl
  · rfl

theorem senders_refresh (w : Limiter) : senders w.refresh = [] := by
  unfold refresh senders
  rw [List.filterMap_map, List.filterMap_eq_nil_iff]
  exact fun _ _ => rfl

theorem actors_letGo (w : Limiter) (id : Nat) : (w.letGo id).actors = w.actors := by
  unfold letGo
  split <;> rfl

end Limiter

/-- The manager that acts in a move. -/
def Move.actor? : Move → Option Nat
  | .command i => some i
  | .signal i => some i
  | .ring i => some i
  | .returned i _ _ => some i
  | _ => none

/-- What it does, in given surroundings. -/
def Move.deed? (s : Surroundings) : Move → Option Actor.Deed
  | .command _ => some (.command s)
  | .signal _ => some (.signal s)
  | .ring _ => some (.ring s.now)
  | .returned _ id result => some (.returned id result)
  | _ => none

/-- The reply of a probe that comes in a move. -/
def Move.probeReply? : Move → Option Reply
  | .endProbe _ result => result.toOption
  | _ => none

namespace Limiter

variable {w v : Limiter} {m : Move} {i k : Nat}

/-- A move in which no manager acts feeds the managers, and nothing is sent but a probe. -/
theorem feeding_step (h : m.actor? = none) (w : Limiter) :
    FedAll (w.handed m) m.probeReply? w.actors (w.step m).1.actors ∧
      (senders (w.step m).2 = [] ∨
        ∃ e, m = .startProbe e ∧ senders (w.step m).2 = [.probe e]) := by
  unfold step
  split
  · exact ⟨.refl _ _ _, .inl rfl⟩
  · cases m with
    | submit e r => exact (submit_feeds w e r).imp_right .inl
    | startProbe e =>
      refine ⟨?_, (senders_startProbe w e).imp_right fun hsent => ⟨e, rfl, hsent⟩⟩
      show FedAll _ _ w.actors (w.startProbe e).1.actors
      rw [actors_startProbe]
      exact .refl _ _ _
    | endProbe e result => exact (endProbe_feeds w e result).imp_right .inl
    | settle e => exact (settle_feeds w e).imp_right .inl
    | shutdown => exact (shutdown_feeds w).imp_right .inl
    | release => exact ⟨fedAll_hangUpIfFree { w with owners := w.owners - 1 }, .inl rfl⟩
    | elapse d => exact ⟨.refl _ _ _, .inl rfl⟩
    | retain => exact ⟨.refl _ _ _, .inl rfl⟩
    | renew f => exact ⟨.refl _ _ _, .inl rfl⟩
    | cancel id =>
      refine ⟨?_, .inl rfl⟩
      show FedAll _ _ w.actors (w.letGo id).actors
      rw [actors_letGo]
      exact .refl _ _ _
    | letGo id =>
      refine ⟨?_, .inl rfl⟩
      show FedAll _ _ w.actors (w.letGo id).actors
      rw [actors_letGo]
      exact .refl _ _ _
    | call k => exact ⟨fedAll_of_core (core_call w k), .inl rfl⟩
    | awaitPause => exact ⟨fedAll_of_core (core_awaitPause w), .inl rfl⟩
    | tick => exact ⟨fedAll_of_core (core_tick w), .inl (senders_tick w)⟩
    | refresh => exact ⟨.refl _ _ _, .inl (senders_refresh w)⟩
    | command k => cases h
    | signal k => cases h
    | ring k => cases h
    | returned k id result => cases h

end Limiter

end Throttle
