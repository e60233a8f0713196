import Throttle.Proofs.Limiter.Absorption
import Throttle.Proofs.Limiter.Owing
import Throttle.Proofs.Limiter.Range
import Throttle.Proofs.Limiter.Register
import Throttle.Proofs.Limiter.Suspension
import Throttle.Proofs.Manager.Withdrawal

/-!
  Requests whose callers have stopped waiting, over the runs of a limiter. Whatever the drop found
  the request doing, no manager hands it to the transport afterwards: a caller that stopped waiting
  stays away, and a submission that had its result when it was dropped is held by no manager any
  more. The manager that would have sent the request, or put it off after a refusal, turns to its
  queue instead (`Relieved`), as long as the instants that it needs for this are in the calendar; if
  one is not, the manager is over (`OffCalendar`).
-/

namespace Throttle

open Http Actor

namespace Limiter

variable {w v : Limiter} {m : Move} {i k id : Nat} {a : Actor} {p : Pending} {n : Manager}
  {r : Except Overflow Manager}

/-! ## Those who have their results -/

theorem answered_orphans (w : Limiter) (ps : List Pending) :
    (each orphan w ps).1.answered = (paid (each orphan w ps).2).reverse ++ w.answered := by
  induction ps generalizing w with
  | nil => rfl
  | cons p ps ih =>
    rw [each_cons, paid_append, List.reverse_append, List.append_assoc]
    exact (ih _).trans (congrArg _ (answered_orphan w p))

/-- Whoever gets a result from a step of a manager has it, whether the manager fails or not. -/
theorem answered_taken (w : Limiter) (k : Nat) (step : Actor.Step) :
    (w.commit k step).1.answered = (paid (w.commit k step).2).reverse ++ w.answered := by
  unfold commit
  dsimp only
  rw [paid_append, List.reverse_append, List.append_assoc]
  generalize hu : each (perform k (managerSpan step.actor))
    { w with actors := w.actors.set k step.actor } step.outputs = u
  have hfirst : u.1.answered = (paid u.2).reverse ++ w.answered := by
    rw [← hu]
    exact answered_performAll _ _ _ _
  rw [← hfirst, ← answered_orphans]
  split <;> rfl

theorem answered_withActor (w : Limiter) (k : Nat)
    (g : Surroundings → Actor → Option Actor.Step) :
    (w.withActor k g).1.answered = (paid (w.withActor k g).2).reverse ++ w.answered := by
  unfold withActor
  split
  · rfl
  · split
    · rfl
    · exact answered_taken w k _

/-- Whoever gets a result in a move has it. -/
theorem answered_step (h : w.Housed) (m : Move) :
    (w.step m).1.answered = (paid (w.step m).2).reverse ++ w.answered := by
  by_cases hacts : ∃ k, m = .command k ∨ m = .signal k
  · obtain ⟨k, rfl | rfl⟩ := hacts
    · exact answered_withActor w k Actor.command
    · exact answered_withActor w k Actor.signal
  · by_cases hcalm : ∀ id, m ≠ .cancel id ∧ m ≠ .letGo id
    · exact (settles_step h m hcalm fun k hm => absurd ⟨k, hm⟩ hacts).answered
    · have hkept (id : Nat) : (w.letGo id).answered = w.answered := by
        unfold letGo
        split <;> rfl
      push Not at hcalm
      obtain ⟨id, hid⟩ := hcalm
      by_cases hcancel : m = .cancel id
      · subst hcancel
        exact hkept id
      · obtain rfl := hid hcancel
        exact hkept id

/-- In every run, those who have their results are those who got them. -/
theorem answered_run (config : Config) (authorizer : Authorizer) (now : Moment) (ms : List Move) :
    ((new config authorizer now).after ms).answered =
      (((new config authorizer now).results ms).map (·.1)).reverse := by
  induction ms using List.reverseRecOn with
  | nil => rfl
  | append_singleton ms m ih =>
    rw [after_append, after_cons, after_nil, answered_step (housed_new config authorizer now ms) m,
      ih, results_snoc, List.map_append, List.reverse_append]
    rfl

/-! ## What is sent is waited for -/

theorem sentBy_of_none (hnone : w.actors[i]? = none) (m : Move) : sentBy i (w.step m).2 = [] := by
  by_cases hm : m.actor? = some i
  · obtain ⟨d, -, -, hsenders, -⟩ := acting_step hm w
    rw [sentBy_of_senders hsenders, hnone]
    exact ite_self _
  · exact sentBy_of_other hm

/-- What a running manager sends is its active request, whose caller still waits. -/
theorem live_of_sentBy (ha : w.actors[i]? = some a) (hsound : Sound w.now a)
    (hsent : id ∈ sentBy i (w.step m).2) :
    a.stage = .running ∧ ∃ p, a.manager.active = some p ∧ id = p.id ∧ id ∉ w.dropped := by
  obtain ⟨-, d, hd, hmark⟩ := mark_of_sentBy ha hsent
  have hchange := undergo_change a d
  obtain ⟨-, hgoes, -⟩ := hchange.sends_due hsound hmark
  obtain ⟨hrunning, ⟨-, hnone⟩ | ⟨s, msg, c, os, hs, -, hhandled, hos⟩⟩ := hchange.takes hgoes
  · rw [hnone] at hmark
    cases hmark
  · obtain rfl := surroundings_of_deed hd hs
    rw [hos] at hmark
    obtain ⟨p, hactive, rfl, hlive⟩ := hhandled.sends_live hmark
    refine ⟨hrunning, p, hactive, rfl, fun hdropped => ?_⟩
    have hgone : w.surroundings.gone p.id = true := List.contains_iff_mem.2 hdropped
    exact nomatch hgone.symm.trans hlive

/-- In every run, a manager sends neither what was dropped nor what has its result. -/
theorem unsent_of_over (config : Config) (authorizer : Authorizer) (now : Moment) (ms : List Move)
    (h : id ∈ ((new config authorizer now).after ms).dropped ∨
      id ∈ ((new config authorizer now).after ms).answered) (m : Move) (i : Nat) :
    id ∉ sentBy i (((new config authorizer now).after ms).step m).2 := by
  intro hsent
  cases ha : ((new config authorizer now).after ms).actors[i]? with
  | none =>
    rw [sentBy_of_none ha] at hsent
    cases hsent
  | some a =>
    obtain ⟨hrunning, p, hactive, rfl, hheld⟩ := live_of_sentBy ha (sound_run rfl ms ha) hsent
    rcases h with hdropped | hanswered
    · exact hheld hdropped
    · -- it is owed an answer by its manager, and it got one
      have hone := resolutions_le_one config authorizer now ms p.id
      have hmine : 0 < a.dues.count p.id := by
        rw [dues_of_stage (by rw [hrunning]; nofun), custody_eq, List.count_pos_iff]
        refine List.mem_append_left _ ?_
        rw [Manager.custody_of_some hactive]
        exact List.mem_cons_self
      have howed : a.dues.count p.id ≤ ((new config authorizer now).after ms).owed p.id :=
        Nat.le_trans (count_le_flatMap ha) (Nat.le_add_left _ _)
      have hgot : 0 < (new config authorizer now).resolutions ms p.id := by
        rw [answered_run, List.mem_reverse] at hanswered
        exact List.count_pos_iff.2 hanswered
      omega

/-! ## Drops -/

/-- The caller of a submission stops waiting in a move. -/
def Drops (id : Nat) (m : Move) : Prop := m = .cancel id ∨ m = .letGo id

/-- Nobody waits for a submission any more: its caller has stopped waiting or has its result. -/
def Over (w : Limiter) (id : Nat) : Prop := id ∈ w.dropped ∨ id ∈ w.answered

theorem over_letGo (hpos : 0 < id) (hissued : id < w.nextId) : (w.letGo id).Over id := by
  unfold letGo
  split
  · exact .inl List.mem_cons_self
  · rename_i hnot
    unfold isWaiting at hnot
    simp only [hpos, hissued, decide_true, Bool.and_true, Bool.true_and, Bool.and_eq_true,
      Bool.not_eq_true', List.contains_eq_mem, decide_eq_false_iff_not] at hnot
    by_cases hdropped : id ∈ w.dropped
    · exact .inl hdropped
    · exact .inr (by_contra fun hanswered => hnot ⟨hdropped, hanswered⟩)

theorem over_of_drops (h : Drops id m) (hpos : 0 < id) (hissued : id < w.nextId) :
    (w.step m).1.Over id := by
  rcases h with rfl | rfl
  · exact over_letGo hpos hissued
  · exact over_letGo hpos hissued

theorem Over.step (h : w.Over id) (hw : w.Housed) (m : Move) : (w.step m).1.Over id := by
  rcases h with hdropped | hanswered
  · have hgone := (leads_step w m).gone id (List.contains_iff_mem.2 hdropped)
    exact .inl (List.contains_iff_mem.1 hgone)
  · refine .inr ?_
    rw [answered_step hw]
    exact List.mem_append_right _ hanswered

/-- Nobody comes back to a submission, and no manager sends it. -/
theorem unsent_later (config : Config) (authorizer : Authorizer) (now : Moment) (ms : List Move)
    (h : ((new config authorizer now).after ms).Over id) (back : List Move) (i : Nat) :
    id ∉ sentBy i ((((new config authorizer now).after ms).run back).2.map (·.what)) := by
  have hover (back : List Move) : ((new config authorizer now).after (ms ++ back)).Over id := by
    induction back using List.reverseRecOn with
    | nil =>
      rw [List.append_nil]
      exact h
    | append_singleton back m ih =>
      rw [← List.append_assoc, after_append, after_cons, after_nil]
      exact ih.step (housed_new config authorizer now _) m
  induction back using List.reverseRecOn with
  | nil => exact List.not_mem_nil
  | append_singleton back m ih =>
    rw [run_snoc_what, sentBy_append, List.mem_append, not_or, ← after_append]
    exact ⟨ih, unsent_of_over config authorizer now _ (hover back) m i⟩

/-! ## Letting go of the active request -/

/-- The next signal of a running manager is one with which it would send its active request, or put
it off after a refusal, but the caller has stopped waiting. `r` is the manager with its active place
free, unless the wait after the refusal oversteps the calendar. -/
structure Withheld (w : Limiter) (i : Nat) (p : Pending) (a : Actor) (r : Except Overflow Manager) :
    Prop where
  there : w.actors[i]? = some a
  running : a.stage = .running
  active : a.manager.active = some p
  dropped : p.id ∈ w.dropped
  next : ∃ msg c, a.Takes msg c ∧ a.manager.Attempts w.surroundings msg r

/-- The oldest request in a queue whose caller still waits, with those behind it. -/
structure Eldest (w : Limiter) (queue : List Pending) (q : Pending) (rest : List Pending) : Prop where
  split : ∃ gone, queue = gone ++ q :: rest ∧ ∀ x ∈ gone, x.id ∈ w.dropped
  held : q.id ∉ w.dropped

/-- An instant that the manager would need is not in the calendar: the end of the wait after a refusal,
or the time at which the next request is to leave. -/
inductive OffCalendar (w : Limiter) (queue : List Pending) : Except Overflow Manager → Prop where
  | wait (e : Overflow) : OffCalendar w queue (.error e)
  | leave {n : Manager} {q : Pending} {rest : List Pending} {e : Overflow}
      (h : w.Eldest queue q rest) (hsend : n.sendTime w.surroundings = .error e) :
      OffCalendar w queue (.ok n)

/-- What the manager does instead of sending the request. -/
structure Relieved (w : Limiter) (i : Nat) (p : Pending) (a : Actor) (n : Manager) : Prop where
  /-- The active place is free, and the queue is what it was. -/
  freed : n.active = none ∧ n.phase = .idle ∧ n.queue = a.manager.queue
  /-- The log and the counts say that the caller is gone. -/
  logged : .notice (some (managerSpan a)) (.callerGone p.id) ∈ (w.step (.signal i)).2 ∧
    .count n.policy.name.text .abandoned ∈ (w.step (.signal i)).2
  /-- Without a caller that waits, the queue is emptied and the manager is idle. -/
  drained : (∀ q ∈ a.manager.queue, q.id ∈ w.dropped) →
    ∃ b, (w.step (.signal i)).1.actors[i]? = some b ∧ b.stage = .running ∧
      b.manager.active = none ∧ b.manager.phase = .idle ∧ b.manager.queue = []
  /-- Else the oldest request whose caller waits becomes the active one, which the listeners learn,
  and gets a time to leave. -/
  next : ∀ q rest, w.Eldest a.manager.queue q rest →
    .event (.queueUpdated n.policy.name rest.length) ∈ (w.step (.signal i)).2 ∧
    ∃ b t, (w.step (.signal i)).1.actors[i]? = some b ∧ n.sendTime w.surroundings = .ok t ∧
      b.stage = .running ∧ b.manager.active = some q ∧ b.manager.queue = rest ∧
      b.manager.phase = .activating t ∧ b.alarm = some ⟨b.manager.generation, t⟩

/-- The message with which a manager would send its active request is a signal. -/
theorem signal_of_attempts {s : Surroundings} {msg : Manager.Message} {c : Actor}
    (htakes : a.Takes msg c) (hrunning : a.stage = .running) (h : a.manager.Attempts s msg r) :
    a.signal s = some (c.finish .running [] (a.manager.receive s msg)) := by
  cases htakes with
  | seed hmailbox => cases h
  | queue hmailbox => cases h
  | fire hinbox => exact signal_of_fire hrunning hinbox
  | reply hinbox => exact signal_of_reply hrunning hinbox

/-- What the signal makes of the manager takes its place. -/
theorem Withheld.place (h : Withheld w i p a r) {step : Actor.Step}
    (hmove : w.step (.signal i) = w.commit i step) :
    (w.step (.signal i)).1.actors[i]? = some step.actor := by
  rw [hmove]
  exact actor_commit h.there step

/-- The active request is let go of in the next signal. -/
theorem Withheld.step (h : Withheld w i p a (.ok n)) :
    ∃ (c : Actor) (os : List Output) (step : Actor.Step),
      step = c.finish .running [] (do Turn.tell os; Manager.activate w.surroundings n) ∧
      AllQuiet os ∧ (∀ o ∈ n.abandon p, o ∈ os) ∧ managerSpan step.actor = managerSpan a ∧
      w.step (.signal i) = w.commit i step := by
  obtain ⟨msg, c, htakes, hattempts⟩ := h.next
  have hgone : w.surroundings.gone p.id = true := List.contains_iff_mem.2 h.dropped
  obtain ⟨os, hquiet, habandoned, hturn⟩ := hattempts.receive_eq h.active hgone
  have hsignal := signal_of_attempts htakes h.running hattempts
  rw [hturn] at hsignal
  refine ⟨c, os, _, rfl, hquiet, habandoned, ?_, step_signal h.there hsignal⟩
  unfold managerSpan
  rw [(signal_advance hsignal).name]

theorem Withheld.unsent (h : Withheld w i p a r) (hsound : Sound w.now a) :
    sentBy i (w.step (.signal i)).2 = [] := by
  refine List.eq_nil_iff_forall_not_mem.2 fun id hsent => ?_
  obtain ⟨-, q, hq, rfl, hheld⟩ := live_of_sentBy h.there hsound hsent
  obtain rfl := Option.some.inj (h.active.symm.trans hq)
  exact hheld h.dropped

/-- Without an instant that it needs, the manager fails. -/
theorem Withheld.fails (h : Withheld w i p a r) (hoff : w.OffCalendar a.manager.queue r) :
    ∃ b, (w.step (.signal i)).1.actors[i]? = some b ∧ b.stage = .failed := by
  cases hoff with
  | wait e =>
    obtain ⟨msg, c, htakes, hattempts⟩ := h.next
    have hsignal := signal_of_attempts htakes h.running hattempts
    exact ⟨_, h.place (step_signal h.there hsignal), finish_of_fails hattempts.fails⟩
  | @leave n q rest e heldest hsend =>
    obtain ⟨msg, -, -, hattempts⟩ := h.next
    obtain ⟨c, os, step, rfl, -, -, -, hmove⟩ := h.step
    obtain ⟨gone, hsplit, hgone⟩ := heldest.split
    have hbroken := Manager.activate_of_overflow hattempts.active_eq hattempts.phase_eq
      (hattempts.queue_eq.trans hsplit) (fun x hx => List.contains_iff_mem.2 (hgone x hx))
      (gone_eq_false heldest.held) hsend
    exact ⟨_, h.place hmove, finish_of_fails (.bind rfl hbroken)⟩

/-- With the instants that it needs, the manager turns to its queue. -/
theorem Withheld.relieved (h : Withheld w i p a (.ok n))
    (hin : ¬ w.OffCalendar a.manager.queue (.ok n)) : Relieved w i p a n := by
  obtain ⟨msg, -, -, hattempts⟩ := h.next
  have hfree := hattempts.active_eq
  have hidle := hattempts.phase_eq
  have hqueue := hattempts.queue_eq
  obtain ⟨c, os, step, hstep, hquiet, habandoned, hspan, hmove⟩ := h.step
  have hafter := h.place hmove
  have houtputs : step.outputs = os ++ (Manager.activate w.surroundings n).outputs := by
    rw [hstep, finish_outputs, Turn.tell_bind]
  have hshown {o : Output} (ho : o ∈ n.abandon p) : o ∈ step.outputs := by
    rw [houtputs]
    exact List.mem_append_left _ (habandoned o ho)
  refine ⟨⟨hfree, hidle, hqueue⟩, ⟨?_, ?_⟩, ?_, ?_⟩
  · rw [hmove, ← hspan]
    exact mem_commit (fun _ => .head _) (hshown (.head _)) w
  · rw [hmove]
    exact mem_commit (fun _ => .head _) (hshown (.tail _ (.head _))) w
  · intro hnobody
    rw [hafter, hstep]
    have hgone (q : Pending) (hq : q ∈ n.queue) : w.surroundings.gone q.id = true :=
      List.contains_iff_mem.2 (hnobody q (hqueue ▸ hq))
    obtain ⟨b, hb, hdrained⟩ := finish_of_drained hfree hidle hgone c os
    exact ⟨b, congrArg some hb, hdrained⟩
  · intro q rest heldest
    obtain ⟨gone, hsplit, hgone⟩ := heldest.split
    have hsplit := hqueue.trans hsplit
    have hgone (x : Pending) (hx : x ∈ gone) : w.surroundings.gone x.id = true :=
      List.contains_iff_mem.2 (hgone x hx)
    have hlive := gone_eq_false heldest.held
    have htold := Manager.queueUpdated_mem_activate hfree hidle hsplit hgone hlive
    obtain ⟨t, hsend⟩ : ∃ t, n.sendTime w.surroundings = .ok t := by
      cases hsend : n.sendTime w.surroundings with
      | ok t => exact ⟨t, rfl⟩
      | error e => exact absurd (.leave heldest hsend) hin
    obtain ⟨b, rfl, hplanned⟩ := finish_of_time hfree hidle hsplit hgone hlive hquiet hsend c
    refine ⟨?_, _, t, hstep ▸ hafter, hsend, hplanned⟩
    rw [hmove]
    refine event_mem_commit ?_ w i
    rw [houtputs]
    exact List.mem_append_right _ htold

/-- In every run, a submission whose caller has stopped waiting is never sent by a manager, whatever
became of it before. A manager that has the turn to send it sends nothing; it frees its active place and
makes the oldest request in its queue whose caller waits the active one, or it fails if an instant that
it needs for this is not in the calendar. -/
theorem withdrawn_unsent (config : Config) (authorizer : Authorizer) (now : Moment)
    (ms : List Move) :
    (∀ id m, Drops id m → 0 < id → id < ((new config authorizer now).after ms).nextId →
      ∀ back i, id ∉ sentBy i
        (((((new config authorizer now).after ms).step m).1.run back).2.map (·.what))) ∧
    ∀ i p a r, ((new config authorizer now).after ms).Withheld i p a r →
      sentBy i (((new config authorizer now).after ms).step (.signal i)).2 = [] ∧
      (((new config authorizer now).after ms).OffCalendar a.manager.queue r →
        ∃ b, (((new config authorizer now).after ms).step (.signal i)).1.actors[i]? = some b ∧
          b.stage = .failed) ∧
      ∀ n, r = .ok n → ¬ ((new config authorizer now).after ms).OffCalendar a.manager.queue r →
        ((new config authorizer now).after ms).Relieved i p a n := by
  refine ⟨fun id m hdrops hpos hissued back i => ?_, fun i p a r h => ?_⟩
  · have hover : ((new config authorizer now).after (ms ++ [m])).Over id := by
      rw [after_append, after_cons, after_nil]
      exact over_of_drops hdrops hpos hissued
    have hlater := unsent_later config authorizer now (ms ++ [m]) hover back i
    rwa [after_append, after_cons, after_nil] at hlater
  · refine ⟨h.unsent (sound_run rfl ms h.there), h.fails, ?_⟩
    rintro n rfl hin
    exact h.relieved hin

theorem fire_of_fires {inbox : List Signal} {g : Nat} (hlength : inbox.length = 1)
    (h : fires inbox = [g]) : ∃ rest, inbox = .fire g :: rest := by
  obtain ⟨x, rfl⟩ := List.length_eq_one_iff.1 hlength
  cases x with
  | fire generation => exact ⟨[], by rw [List.head_eq_of_cons_eq h]⟩
  | reply result => cases h

/-- Of three requests, the first one is sent and refused, and the second one is dropped. -/
def refusedRun : List Move :=
  [.submit plainEndpoint plainRequest, .submit plainEndpoint plainRequest,
    .submit plainEndpoint plainRequest, .startProbe plainEndpoint,
    .endProbe plainEndpoint (.ok (sharedReply 1)), .settle plainEndpoint, .command 0, .command 0,
    .command 0, .command 0, .elapse 2000000000, .ring 0, .signal 0,
    .returned 0 1 (.ok refusedReply), .signal 0, .letGo 2]

/-- The first one is dropped while it waits to be sent again, and its alarm goes off. -/
def withdrawnRun : List Move := refusedRun ++ .letGo 1 :: overrunWait

/-- Of two requests, the first one is dropped while it is under way, and comes to a refusal that asks for
as many seconds as a word can count. -/
def overaskedRun : List Move :=
  [.submit plainEndpoint plainRequest, .submit plainEndpoint plainRequest,
    .startProbe plainEndpoint, .endProbe plainEndpoint (.ok (sharedReply 1)), .settle plainEndpoint,
    .command 0, .command 0, .command 0, .elapse 2000000000, .ring 0, .signal 0, .letGo 1,
    .returned 0 1 (.ok endlessReply)]

theorem withheld_withdrawnRun :
    ∃ p a, ((new .default .none 0).after withdrawnRun).Withheld 0 p a (.ok a.manager.vacated) ∧
      p.id = 1 ∧ a.manager.queue.map (·.id) = [2, 3] := by
  have hshape : (((new .default .none 0).after withdrawnRun).actors[0]?).map (fun a =>
      (a.stage, a.manager.phase, a.manager.active.map (·.id), a.manager.queue.map (·.id))) =
      some (.running, .violationWait 67200000000, some 1, [2, 3]) := by decide +kernel
  have hrang : (((new .default .none 0).after withdrawnRun).actors[0]?).map (fun a =>
      (a.inbox.length, fires a.inbox == [a.manager.generation])) = some (1, true) := by
    decide +kernel
  have hdropped : 1 ∈ ((new .default .none 0).after withdrawnRun).dropped := by decide +kernel
  obtain ⟨a, ha, hstate⟩ := Option.map_eq_some_iff.1 hshape
  rw [ha, Option.map_some, Option.some.injEq] at hrang
  simp only [Prod.mk.injEq, beq_iff_eq] at hstate hrang
  obtain ⟨hrunning, hphase, hactive, hqueue⟩ := hstate
  obtain ⟨p, hp, hid⟩ := Option.map_eq_some_iff.1 hactive
  obtain ⟨rest, hinbox⟩ := fire_of_fires hrang.1 hrang.2
  refine ⟨p, a, ?_, hid, hqueue⟩
  exact {
    there := ha
    running := hrunning
    active := hp
    dropped := hid ▸ hdropped
    next := ⟨_, _, .fire hinbox, .again hphase⟩ }

theorem withheld_overaskedRun :
    ∃ p a, ((new .default .none 0).after overaskedRun).Withheld 0 p a (.error .calendar) ∧
      p.id = 1 ∧ a.manager.queue.map (·.id) = [2] := by
  have hshape : (((new .default .none 0).after overaskedRun).actors[0]?).map (fun a =>
      (a.stage, a.manager.phase, a.manager.active.map (·.id), a.manager.queue.map (·.id),
        a.inbox.length)) = some (.running, .sending, some 1, [2], 1) := by decide +kernel
  have hresults : (((new .default .none 0).after overaskedRun).actors[0]?).map (fun a =>
      resultsIn a.inbox) = some [.ok endlessReply] := by decide +kernel
  have hdropped : 1 ∈ ((new .default .none 0).after overaskedRun).dropped := by decide +kernel
  have hnow : ((new .default .none 0).after overaskedRun).now = 2000000000 := by decide +kernel
  obtain ⟨a, ha, hstate⟩ := Option.map_eq_some_iff.1 hshape
  rw [ha, Option.map_some, Option.some.injEq] at hresults
  simp only [Prod.mk.injEq] at hstate
  obtain ⟨hrunning, hsending, hactive, hqueue, hlength⟩ := hstate
  obtain ⟨p, hp, hid⟩ := Option.map_eq_some_iff.1 hactive
  obtain ⟨rest, hinbox⟩ := reply_of_resultsIn hlength hresults
  have hover : endlessReply.Oversteps ((new .default .none 0).after overaskedRun).surroundings.now
      0 := by
    refine ⟨rfl, Delay.ofSeconds 18446744073709551615, by decide +kernel, ?_⟩
    show Moment.last < ((new .default .none 0).after overaskedRun).now + _ + _
    rw [hnow]
    decide
  refine ⟨p, a, ?_, hid, hqueue⟩
  exact {
    there := ha
    running := hrunning
    active := hp
    dropped := hid ▸ hdropped
    next := ⟨_, _, .reply hinbox, .overasked hsending rfl (Manager.after_of_oversteps hover _)⟩ }

/-- In the first run the request that was refused is not sent again; the manager passes over the second
one, which waits in its queue, and makes the third one its active request. In the other run the second
request waits as well, but the manager fails. -/
theorem withdrawn_unsent_withdrawnRun :
    1 < ((new .default .none 0).after refusedRun).nextId ∧
      (∀ back i, 1 ∉ sentBy i
        (((((new .default .none 0).after refusedRun).step (.letGo 1)).1.run back).2.map (·.what))) ∧
      (∃ p a, ((new .default .none 0).after withdrawnRun).Withheld 0 p a (.ok a.manager.vacated) ∧
        p.id = 1 ∧ a.manager.queue.map (·.id) = [2, 3] ∧
        ¬ ((new .default .none 0).after withdrawnRun).OffCalendar a.manager.queue
          (.ok a.manager.vacated) ∧
        ((new .default .none 0).after withdrawnRun).Relieved 0 p a a.manager.vacated ∧
        ((((new .default .none 0).after withdrawnRun).step (.signal 0)).1.actors[0]?).map (fun b =>
          (b.stage, b.manager.active.map (·.id), b.manager.queue.length)) =
            some (.running, some 3, 0)) ∧
      ∃ p a b, ((new .default .none 0).after overaskedRun).Withheld 0 p a (.error .calendar) ∧
        p.id = 1 ∧ a.manager.queue.map (·.id) = [2] ∧
        2 ∉ ((new .default .none 0).after overaskedRun).dropped ∧
        (((new .default .none 0).after overaskedRun).step (.signal 0)).1.actors[0]? = some b ∧
        b.stage = .failed := by
  have hissued : 1 < ((new .default .none 0).after refusedRun).nextId := by decide +kernel
  refine ⟨hissued, (withdrawn_unsent .default .none 0 refusedRun).1 1 (.letGo 1) (.inr rfl)
    (by decide) hissued, ?_, ?_⟩
  · obtain ⟨p, a, hwithheld, hid, hqueue⟩ := withheld_withdrawnRun
    have hthird : ((((new .default .none 0).after withdrawnRun).step (.signal 0)).1.actors[0]?).map
        (fun b => (b.stage, b.manager.active.map (·.id), b.manager.queue.length)) =
          some (.running, some 3, 0) := by decide +kernel
    obtain ⟨-, hfails, hrelieved⟩ :=
      (withdrawn_unsent .default .none 0 withdrawnRun).2 0 p a _ hwithheld
    have hin : ¬ ((new .default .none 0).after withdrawnRun).OffCalendar a.manager.queue
        (.ok a.manager.vacated) := by
      intro hoff
      obtain ⟨b, hb, hfailed⟩ := hfails hoff
      rw [hb, Option.map_some, hfailed] at hthird
      cases hthird
    exact ⟨p, a, hwithheld, hid, hqueue, hin, hrelieved _ rfl hin, hthird⟩
  · obtain ⟨p, a, hwithheld, hid, hqueue⟩ := withheld_overaskedRun
    obtain ⟨-, hfails, -⟩ :=
      (withdrawn_unsent .default .none 0 overaskedRun).2 0 p a _ hwithheld
    obtain ⟨b, hb, hfailed⟩ := hfails (.wait .calendar)
    exact ⟨p, a, b, hwithheld, hid, hqueue, by decide +kernel, hb, hfailed⟩

end Limiter

end Throttle
