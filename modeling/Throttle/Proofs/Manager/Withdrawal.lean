import Throttle.Proofs.Manager.Restriction

/-!
  What a manager does with a request whose caller has stopped waiting. It hands over no such request
  (`Handling.sends_live`). A message with which it would have handed the active request over, or have
  put it off to hand it over again, makes it let go of the request and turn to its queue
  (`Attempts.receive_eq`): the first request in the queue whose caller still waits becomes the active
  one. It does not come to that if the wait that a refusal asks for oversteps the calendar
  (`Attempts.fails`).
-/

namespace Throttle

open Http Turn

namespace Manager

variable {s : Surroundings} {m m' n : Manager} {msg : Message} {os : List Output} {p q : Pending}
  {gone rest : List Pending} {t : Moment}

/-- What a manager sends is its active request, and the caller still waits for it. -/
theorem Handling.sends_live {id : Nat} (h : Handling s m msg m' os) (hid : id ∈ sends os) :
    ∃ p, m.active = some p ∧ id = p.id ∧ s.gone p.id = false := by
  rcases h.order with ⟨hnone, -⟩ | ⟨p, hactive, hone, -, -, hmsg⟩
  · rw [hnone] at hid
    cases hid
  · rw [hone] at hid
    refine ⟨p, hactive, List.mem_singleton.1 hid, ?_⟩
    subst hmsg
    cases h with
    | fireStale hstale => cases hone
    | fireIdle hphase => cases hone
    | resumed hphase next => exact nomatch next.sends_eq.symm.trans hone
    | fireEmpty hphase hnone next => exact nomatch next.sends_eq.symm.trans hone
    | skipped hphase hsome hgone next =>
      rw [sends_append, (abandon_quiet m _).sends_eq, next.sends_eq] at hone
      cases hone
    | unsigned hphase hsome hlive hsigned next =>
      obtain rfl := Option.some.inj (hactive.symm.trans hsome)
      exact hlive
    | sent hphase hsome hlive hsigned =>
      obtain rfl := Option.some.inj (hactive.symm.trans hsome)
      exact hlive

/-! ## Turning to the queue -/

/-- The listeners learn that the first request whose caller waits has left the queue. -/
theorem queueUpdated_mem_activate (hactive : m.active = none) (hphase : m.phase = .idle)
    (hqueue : m.queue = gone ++ q :: rest) (hgone : ∀ x ∈ gone, s.gone x.id = true)
    (hlive : s.gone q.id = false) :
    ({ m with queue := rest, active := some q } : Manager).queueUpdated ∈ (activate s m).outputs := by
  rw [activate_of_live hactive hphase hqueue hgone hlive, tell_bind, tell_bind]
  exact List.mem_append_right _ (List.mem_append_left _ (.head _))

/-- The first request in the queue whose caller waits becomes the active one, with a time to leave. -/
theorem activate_of_time (hactive : m.active = none) (hphase : m.phase = .idle)
    (hqueue : m.queue = gone ++ q :: rest) (hgone : ∀ x ∈ gone, s.gone x.id = true)
    (hlive : s.gone q.id = false) (hsend : m.sendTime s = .ok t) :
    activate s m =
      ⟨gone.flatMap m.abandon ++
          ({ m with queue := rest, active := some q : Manager }.queueUpdated ::
            planOutputs s q t { m with queue := rest, active := some q }),
        .ok { m with
          queue := rest
          active := some q
          lastSend := some t
          phase := .activating t
          generation := m.generation + 1 }⟩ := by
  rw [activate_of_live hactive hphase hqueue hgone hlive, tell_bind, tell_bind,
    plan_eq_of_ok (m := { m with queue := rest, active := some q }) hsend]
  rfl

/-- Without a time to leave, the turn breaks off. -/
theorem activate_of_overflow {e : Overflow} (hactive : m.active = none) (hphase : m.phase = .idle)
    (hqueue : m.queue = gone ++ q :: rest) (hgone : ∀ x ∈ gone, s.gone x.id = true)
    (hlive : s.gone q.id = false) (hsend : m.sendTime s = .error e) : (activate s m).Fails := by
  rw [activate_of_live hactive hphase hqueue hgone hlive, tell_bind, tell_bind,
    plan_eq_of_error (m := { m with queue := rest, active := some q }) hsend]
  exact ⟨e, rfl⟩

/-! ## Letting go of the active request -/

/-- A message with which a manager would hand over its active request, or put it off after a refusal,
and what becomes of the manager if it is to let go of the request instead: it has its active place
free, unless the wait that the refusal asks for oversteps the calendar. -/
inductive Attempts (s : Surroundings) (m : Manager) : Message → Except Overflow Manager → Prop
  | first {t : Moment} (hphase : m.phase = .activating t) :
      Attempts s m (.fire m.generation) (.ok m.vacated)
  | again {t : Moment} (hphase : m.phase = .violationWait t) :
      Attempts s m (.fire m.generation) (.ok m.vacated)
  | refused {reply : Reply} {lapse : Moment} (hphase : m.phase = .sending)
      (hrefused : reply.isViolation = true)
      (hlapse : Moment.after s.now ((m.heard reply).violationWait s reply) = .ok lapse) :
      Attempts s m (.reply (.ok reply)) (.ok ((m.heard reply).counted.restrictUntil lapse).vacated)
  | overasked {reply : Reply} {e : Overflow} (hphase : m.phase = .sending)
      (hrefused : reply.isViolation = true)
      (hlapse : Moment.after s.now ((m.heard reply).violationWait s reply) = .error e) :
      Attempts s m (.reply (.ok reply)) (.error e)

theorem Attempts.active_eq (h : Attempts s m msg (.ok n)) : n.active = none := by
  cases h <;> rfl

theorem Attempts.phase_eq (h : Attempts s m msg (.ok n)) : n.phase = .idle := by
  cases h <;> rfl

theorem Attempts.queue_eq (h : Attempts s m msg (.ok n)) : n.queue = m.queue := by
  cases h <;> rfl

theorem onFire_of_due (h : ∃ t, m.phase = .activating t ∨ m.phase = .violationWait t) :
    m.onFire s m.generation = m.send s := by
  unfold onFire
  rw [if_neg fun hne => hne rfl]
  obtain ⟨t, h | h⟩ := h <;> rw [h]

theorem skipActive_eq (s : Surroundings) (p : Pending) (m : Manager) :
    m.skipActive s p = (do tell (m.vacated.abandon p); activate s m.vacated) := rfl

/-- A refused request whose caller has stopped waiting is let go of. -/
theorem onViolation_of_gone {reply : Reply} {lapse : Moment} (hactive : m.active = some p)
    (hgone : s.gone p.id = true) (hlapse : Moment.after s.now (m.violationWait s reply) = .ok lapse)
    (before : Status) :
    m.onViolation s reply before =
      (do tell (refusalOutputs s before m); (m.counted.restrictUntil lapse).skipActive s p) := by
  have hretry : (m.counted.restrictUntil lapse).retry s (m.violationWait s reply) lapse =
      (m.counted.restrictUntil lapse).skipActive s p := by
    unfold retry
    rw [restrictUntil_active, counted_active, hactive]
    exact if_pos hgone
  have hlift : lift (Moment.after s.now (m.counted.violationWait s reply)) = ⟨[], .ok lapse⟩ :=
    congrArg (Turn.mk []) hlapse
  have hcounted : (m.countViolation s (m.active.map (·.id))).result = .ok m.counted :=
    countViolation_result s _ m
  rw [onViolation_eq, tell_bind, bind_of_ok hcounted, hlift, bind_of_ok (a := lapse) rfl, tell_bind,
    ← hretry]
  simp only [refusalOutputs, List.nil_append, List.append_assoc]
  rfl

/-- A message with which a manager lets go of its active request: it is logged that the caller is
gone, and the manager turns to its queue. -/
theorem Attempts.receive_eq (h : Attempts s m msg (.ok n)) (hactive : m.active = some p)
    (hgone : s.gone p.id = true) :
    ∃ os, AllQuiet os ∧ (∀ o ∈ n.abandon p, o ∈ os) ∧
      m.receive s msg = (do tell os; activate s n) := by
  cases h with
  | first hphase =>
    refine ⟨_, abandon_quiet m.vacated p, fun o ho => ho, ?_⟩
    show m.onFire s m.generation = _
    rw [onFire_of_due ⟨_, .inl hphase⟩, send_of_gone hactive hgone, skipActive_eq]
  | again hphase =>
    refine ⟨_, abandon_quiet m.vacated p, fun o ho => ho, ?_⟩
    show m.onFire s m.generation = _
    rw [onFire_of_due ⟨_, .inr hphase⟩, send_of_gone hactive hgone, skipActive_eq]
  | @refused reply lapse hphase hrefused hlapse =>
    refine ⟨(m.back.absorb reply).outputs ++ (refusalOutputs s m.policy.status (m.back.heard reply) ++
      ((m.heard reply).counted.restrictUntil lapse).vacated.abandon p), ?_, ?_, ?_⟩
    · exact (absorb_quiet _ _).append ((refusalOutputs_quiet _ _ _).append (abandon_quiet _ p))
    · exact fun o ho => List.mem_append_right _ (List.mem_append_right _ ho)
    · have hviolated := onViolation_of_gone (m := m.back.heard reply) hactive hgone hlapse
        m.policy.status
      show m.onReply s (.ok reply) = _
      unfold onReply
      rw [if_neg fun hne => hne hphase]
      refine (bind_of_ok (absorb_result reply m.back) fun x =>
        if reply.isViolation then x.1.onViolation s reply m.policy.status
        else x.1.onAccepted s reply x.2).trans ?_
      dsimp only
      rw [if_pos hrefused, hviolated, tell_bind, tell_bind, skipActive_eq, tell_bind]
      simp only [List.append_assoc]
      rfl

theorem Attempts.fails {e : Overflow} (h : Attempts s m msg (.error e)) :
    (m.receive s msg).Fails := by
  cases h with
  | overasked hphase hrefused hlapse => exact receive_fails hphase hrefused hlapse

end Manager

namespace Actor

variable {s : Surroundings} {n : Manager} {os : List Output} {q : Pending}
  {gone rest : List Pending} {t : Moment}

/-! ## What becomes of the actor -/

/-- Without a caller that waits, the manager is idle, and its queue is empty. -/
theorem finish_of_drained (hactive : n.active = none) (hphase : n.phase = .idle)
    (hgone : ∀ x ∈ n.queue, s.gone x.id = true) (c : Actor) (os : List Output) :
    ∃ b, (c.finish .running [] (do tell os; Manager.activate s n)).actor = b ∧
      b.stage = .running ∧ b.manager.active = none ∧ b.manager.phase = .idle ∧
      b.manager.queue = [] := by
  have hemptied := Manager.activate_of_drained hactive hphase hgone
  rw [finish_of_ok (by rw [tell_bind, hemptied])]
  exact ⟨_, rfl, rfl, hactive, hphase, rfl⟩

/-- The alarm is set for the time at which the new active request is to leave. -/
theorem finish_of_time (hactive : n.active = none) (hphase : n.phase = .idle)
    (hqueue : n.queue = gone ++ q :: rest) (hgone : ∀ x ∈ gone, s.gone x.id = true)
    (hlive : s.gone q.id = false) (hquiet : AllQuiet os) (hsend : n.sendTime s = .ok t)
    (c : Actor) :
    ∃ b, (c.finish .running [] (do tell os; Manager.activate s n)).actor = b ∧
      b.stage = .running ∧ b.manager.active = some q ∧ b.manager.queue = rest ∧
      b.manager.phase = .activating t ∧ b.alarm = some ⟨b.manager.generation, t⟩ := by
  have hplanned := Manager.activate_of_time hactive hphase hqueue hgone hlive hsend
  rw [finish_of_ok (by rw [tell_bind, hplanned])]
  refine ⟨_, rfl, rfl, rfl, rfl, rfl, ?_⟩
  rw [after_alarm, tell_bind, hplanned]
  simp [Manager.queueUpdated, hquiet]

end Actor

end Throttle
