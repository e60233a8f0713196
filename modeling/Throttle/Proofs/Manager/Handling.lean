import Mathlib.Data.List.TakeWhile
import Throttle.Manager.Receive
import Throttle.Proofs.Manager.Outputs

/-!
  Everything that one handled message can do to a manager. `Activation` lists the ways in which a
  manager turns to its queue, `Handling` those in which it handles a message; `receive_ends`
  says that there are no others, except that an instant leaves the calendar; then nothing was
  handed to the transport. What holds of every handled message is proved from these lists, and the
  handlers are not opened again.
-/

namespace Throttle

open Http Turn

namespace Manager

variable {s : Surroundings} {m m' : Manager}

/-! ## Turning to the queue -/

/-- The outputs of planning a send. -/
def planOutputs (s : Surroundings) (p : Pending) (sendAt : Moment) (m : Manager) : List Output :=
  .notice (.activated p.id m.policy.status (Moment.gap s.now sendAt)) ::
    (schedule s sendAt { m with lastSend := some sendAt, phase := .activating sendAt }).outputs

@[simp] theorem sends_planOutputs (s : Surroundings) (p : Pending) (sendAt : Moment)
    (m : Manager) : sends (planOutputs s p sendAt m) = [] :=
  sends_schedule s sendAt _

@[simp] theorem alarmAfter_planOutputs (s : Surroundings) (p : Pending) (sendAt : Moment)
    (m : Manager) (x : Option Alarm) :
    alarmAfter (planOutputs s p sendAt m) x = some ⟨m.generation + 1, sendAt⟩ :=
  alarmAfter_schedule s sendAt _ x

/-- What turning to the queue makes of a manager. -/
inductive Activation (s : Surroundings) (m : Manager) : Manager → List Output → Prop where
  /-- A manager that has a request or has to wait stays as it is. -/
  | busy (hbusy : m.active ≠ none ∨ m.phase ≠ .idle) : Activation s m m []
  /-- Nobody in the queue waits any more. -/
  | drained (hactive : m.active = none) (hphase : m.phase = .idle)
      (hgone : ∀ q ∈ m.queue, s.gone q.id = true) :
      Activation s m { m with queue := [] }
        (m.queue.flatMap m.abandon ++
          if m.queue ≠ [] then [{ m with queue := [] : Manager }.queueUpdated] else [])
  /-- The first request whose caller waits gets a time to leave. -/
  | planned (gone rest : List Pending) (p : Pending) (sendAt : Moment)
      (hactive : m.active = none) (hphase : m.phase = .idle)
      (hqueue : m.queue = gone ++ p :: rest) (hgone : ∀ q ∈ gone, s.gone q.id = true)
      (hlive : s.gone p.id = false) (hsend : m.sendTime s = .ok sendAt) :
      Activation s m
        { m with
          queue := rest
          active := some p
          lastSend := some sendAt
          phase := .activating sendAt
          generation := m.generation + 1 }
        (gone.flatMap m.abandon ++
          ({ m with queue := rest, active := some p : Manager }.queueUpdated ::
            planOutputs s p sendAt { m with queue := rest, active := some p }))

theorem plan_eq_of_ok {p : Pending} {sendAt : Moment} (h : m.sendTime s = .ok sendAt) :
    plan s p m =
      ⟨planOutputs s p sendAt m,
        .ok { m with
          lastSend := some sendAt
          phase := .activating sendAt
          generation := m.generation + 1 }⟩ := by
  unfold plan
  rw [h, bind_of_ok (a := sendAt) rfl, tell_bind, schedule_result]
  rfl

theorem plan_eq_of_error {p : Pending} {e : Overflow} (h : m.sendTime s = .error e) :
    plan s p m = ⟨[], .error e⟩ := by
  unfold plan
  rw [h]
  rfl

theorem activate_of_busy (h : m.active ≠ none ∨ m.phase ≠ .idle) : activate s m = pure m := by
  unfold activate
  apply if_pos
  rcases h with h | h
  · simp [Option.isSome_iff_ne_none.2 h]
  · simp [h]

theorem activate_of_drained (hactive : m.active = none) (hphase : m.phase = .idle)
    (hgone : ∀ q ∈ m.queue, s.gone q.id = true) :
    activate s m =
      ⟨m.queue.flatMap m.abandon ++
          (if m.queue ≠ [] then [{ m with queue := [] : Manager }.queueUpdated] else []),
        .ok { m with queue := [] }⟩ := by
  have htake : m.queue.takeWhile (fun p => s.gone p.id) = m.queue := by
    rw [List.takeWhile_eq_self_iff]
    exact hgone
  have hdrop : m.queue.dropWhile (fun p => s.gone p.id) = [] := by
    rw [List.dropWhile_eq_nil_iff]
    exact hgone
  unfold activate
  simp only [hactive, hphase, htake, hdrop, tell_bind]
  cases hq : m.queue with
  | nil => rfl
  | cons p rest => simp [pure_def]

theorem activate_of_live {gone rest : List Pending} {p : Pending} (hactive : m.active = none)
    (hphase : m.phase = .idle) (hqueue : m.queue = gone ++ p :: rest)
    (hgone : ∀ q ∈ gone, s.gone q.id = true) (hlive : s.gone p.id = false) :
    activate s m =
      (do
        tell (gone.flatMap m.abandon)
        tell [{ m with queue := rest, active := some p : Manager }.queueUpdated]
        plan s p { m with queue := rest, active := some p }) := by
  have htake : m.queue.takeWhile (fun q => s.gone q.id) = gone := by
    rw [hqueue, List.takeWhile_append_of_pos hgone]
    simp [hlive]
  have hdrop : m.queue.dropWhile (fun q => s.gone q.id) = p :: rest := by
    rw [hqueue, List.dropWhile_append_of_pos hgone]
    simp [hlive]
  unfold activate
  simp only [hactive, hphase, htake, hdrop]
  rfl

/-- A queue holds a request whose caller waits, or it does not. -/
theorem queue_split (s : Surroundings) (q : List Pending) :
    (∀ p ∈ q, s.gone p.id = true) ∨
      ∃ gone p rest, q = gone ++ p :: rest ∧ (∀ q ∈ gone, s.gone q.id = true) ∧
        s.gone p.id = false := by
  induction q with
  | nil => exact .inl (List.forall_mem_nil _)
  | cons a q ih =>
    cases ha : s.gone a.id with
    | false => exact .inr ⟨[], a, q, rfl, List.forall_mem_nil _, ha⟩
    | true =>
      rcases ih with h | ⟨gone, p, rest, rfl, hgone, hp⟩
      · exact .inl (List.forall_mem_cons.2 ⟨ha, h⟩)
      · exact .inr ⟨a :: gone, p, rest, rfl, List.forall_mem_cons.2 ⟨ha, hgone⟩, hp⟩

theorem idle_or_busy (m : Manager) :
    (m.active = none ∧ m.phase = .idle) ∨ (m.active ≠ none ∨ m.phase ≠ .idle) := by
  by_cases hactive : m.active = none
  · by_cases hphase : m.phase = .idle
    · exact .inl ⟨hactive, hphase⟩
    · exact .inr (.inr hphase)
  · exact .inr (.inl hactive)

theorem activate_ends (s : Surroundings) (m : Manager) : (activate s m).Ends (Activation s m) := by
  rcases m.idle_or_busy with ⟨hactive, hphase⟩ | hbusy
  · rcases queue_split s m.queue with hgone | ⟨gone, p, rest, hqueue, hgone, hlive⟩
    · rw [activate_of_drained hactive hphase hgone]
      exact .of_ok rfl (.drained hactive hphase hgone)
    · rw [activate_of_live hactive hphase hqueue hgone hlive]
      refine .tell (flatMap_abandon_quiet m gone) (.tell ?_ ?_)
      · exact allQuiet_cons trivial allQuiet_nil
      · cases hsend : m.sendTime s with
        | error e =>
          rw [plan_eq_of_error (m := { m with queue := rest, active := some p }) hsend]
          exact .of_error
        | ok sendAt =>
          rw [plan_eq_of_ok (m := { m with queue := rest, active := some p }) hsend]
          exact .of_ok rfl (.planned gone rest p sendAt hactive hphase hqueue hgone hlive hsend)
  · rw [activate_of_busy hbusy]
    exact .pure (.busy hbusy)

/-! ## Handling a message -/

section restrictUntil

variable (t : Moment) (m : Manager)

@[simp] theorem restrictUntil_queue : (m.restrictUntil t).queue = m.queue := rfl

@[simp] theorem restrictUntil_active : (m.restrictUntil t).active = m.active := rfl

@[simp] theorem restrictUntil_phase : (m.restrictUntil t).phase = m.phase := rfl

@[simp] theorem restrictUntil_generation : (m.restrictUntil t).generation = m.generation := rfl

@[simp] theorem restrictUntil_policy : (m.restrictUntil t).policy = m.policy := rfl

@[simp] theorem restrictUntil_history : (m.restrictUntil t).history = m.history := rfl

end restrictUntil

/-- A manager that has counted a refusal. -/
@[simps]
def counted (m : Manager) : Manager := { m with violations := m.violations + 1 }

/-- A manager whose transmission has come to an end. -/
@[simps]
def back (m : Manager) : Manager := { m with phase := .idle }

/-- A manager whose request has left the active place. -/
@[simps]
def vacated (m : Manager) : Manager := { m with active := none, phase := .idle }

/-- A manager that holds the active request back until an instant. -/
@[simps]
def holding (sendAt : Moment) (m : Manager) : Manager :=
  { m with lastSend := some sendAt, phase := .violationWait sendAt }

/-- A manager that holds its queue back until an instant. -/
@[simps]
def pausing (resume : Moment) (m : Manager) : Manager :=
  { m with active := none, phase := .suspended resume }

/-- A manager that has set its alarm once more. -/
@[simps]
def armed (m : Manager) : Manager := { m with generation := m.generation + 1 }

/-- The outputs of taking in a refusal of the active request. -/
def refusalOutputs (s : Surroundings) (before : Status) (m : Manager) : List Output :=
  (if before < .violation then [.notice (.surprisingViolation before)] else []) ++
    (m.countViolation s (m.active.map (·.id))).outputs

/-- The outputs of passing on a reply that was not refused. -/
def passOutputs (reply : Reply) (m : Manager) : List Output :=
  (if reply.isSuccess && m.policy.status == .violation then
    [.notice (.acceptedInViolation reply.status)] else []) ++
    ((m.outcome reply (verdict reply)).outputs ++ (m.finish (m.resultOf reply)).outputs)

/-- What becomes of a refused request, once the wait and its end are known. -/
inductive Retrial (s : Surroundings) (wait : Delay) (lapse : Moment) (m : Manager) :
    Manager → List Output → Prop where
  | empty {m' : Manager} {os : List Output} (hactive : m.active = none)
      (next : Activation s m m' os) : Retrial s wait lapse m m' os
  | skipped {p : Pending} {m' : Manager} {os : List Output} (hactive : m.active = some p)
      (hgone : s.gone p.id = true) (next : Activation s m.vacated m' os) :
      Retrial s wait lapse m m' (m.abandon p ++ os)
  | again {p : Pending} {sendAt : Moment} (hactive : m.active = some p)
      (hlive : s.gone p.id = false)
      (hsend : Moment.after lapse s.config.violationBuffer = .ok sendAt) :
      Retrial s wait lapse m (m.holding sendAt).armed
        (.notice (.resending p.id wait) :: (schedule s sendAt (m.holding sendAt)).outputs)

/-- What handling a message makes of a manager. -/
inductive Handling (s : Surroundings) (m : Manager) :
    Message → Manager → List Output → Prop where
  | seeded {reply : Reply} {m' : Manager} {os : List Output}
      (haccepted : reply.isViolation = false) (next : Activation s (m.heard reply) m' os) :
      Handling s m (.seed reply) m' ((m.absorb reply).outputs ++ os)
  | seedRefused {reply : Reply} {paused lapse : Moment} {m' : Manager} {os : List Output}
      (hrefused : reply.isViolation = true)
      (hpaused : Moment.after s.now ((m.heard reply).violationWait s reply) = .ok paused)
      (hlapse : Moment.after paused s.config.violationBuffer = .ok lapse)
      (next : Activation s ((m.heard reply).counted.restrictUntil lapse) m' os) :
      Handling s m (.seed reply) m'
        ((m.absorb reply).outputs ++
          (.notice (.seedViolated ((m.heard reply).violationWait s reply)) ::
            (((m.heard reply).countViolation s none).outputs ++ os)))
  | joinedGone {p : Pending} (hgone : s.gone p.id = true) :
      Handling s m (.queue p) m (m.abandon p)
  | joined {p : Pending} {m' : Manager} {os : List Output} (hlive : s.gone p.id = false)
      (next : Activation s { m with queue := m.queue ++ [p] } m' os) :
      Handling s m (.queue p) m'
        (.notice (.queued p.id p.endpoint) ::
          { m with queue := m.queue ++ [p] : Manager }.queueUpdated :: os)
  | fireStale {generation : Nat} (hstale : generation ≠ m.generation) :
      Handling s m (.fire generation) m []
  | fireIdle (hphase : m.phase = .idle ∨ m.phase = .sending) :
      Handling s m (.fire m.generation) m []
  | resumed {t : Moment} {m' : Manager} {os : List Output} (hphase : m.phase = .suspended t)
      (next : Activation s m.back m' os) :
      Handling s m (.fire m.generation) m' (.notice .resumed :: os)
  | fireEmpty {m' : Manager} {os : List Output}
      (hphase : ∃ t, m.phase = .activating t ∨ m.phase = .violationWait t)
      (hactive : m.active = none) (next : Activation s m.back m' os) :
      Handling s m (.fire m.generation) m' os
  | skipped {p : Pending} {m' : Manager} {os : List Output}
      (hphase : ∃ t, m.phase = .activating t ∨ m.phase = .violationWait t)
      (hactive : m.active = some p) (hgone : s.gone p.id = true)
      (next : Activation s m.vacated m' os) :
      Handling s m (.fire m.generation) m' (m.abandon p ++ os)
  | unsigned {p : Pending} {refusal : Refusal} {m' : Manager} {os : List Output}
      (hphase : ∃ t, m.phase = .activating t ∨ m.phase = .violationWait t)
      (hactive : m.active = some p) (hlive : s.gone p.id = false)
      (hsigned : s.authorizer p.request = .error refusal)
      (next : Activation s m.vacated m' os) :
      Handling s m (.fire m.generation) m'
        (.notice (.refused p.id (.authorization refusal)) ::
          ((m.back.finish (.error (.authorization refusal))).outputs ++ os))
  | sent {p : Pending} {signed : Request}
      (hphase : ∃ t, m.phase = .activating t ∨ m.phase = .violationWait t)
      (hactive : m.active = some p) (hlive : s.gone p.id = false)
      (hsigned : s.authorizer p.request = .ok signed) :
      Handling s m (.fire m.generation) { m with phase := .sending }
        [.notice (.sending p.id signed.method signed.url), .count m.policy.name .sent,
          .transmit p.id signed]
  | stray {result : Except TransportFailure Reply} (hphase : m.phase ≠ .sending) :
      Handling s m (.reply result) m [.notice (.strayReply m.phase.describe)]
  | lost {e : TransportFailure} {m' : Manager} {os : List Output} (hphase : m.phase = .sending)
      (next : Activation s m.vacated m' os) :
      Handling s m (.reply (.error e)) m'
        (.notice (.transportFailed e) ::
          ((m.back.finish (.error (.transport e))).outputs ++ os))
  | passed {reply : Reply} {m' : Manager} {os : List Output} (hphase : m.phase = .sending)
      (haccepted : reply.isViolation = false) (hclear : ∀ e, verdict reply ≠ .malformed e)
      (next : Activation s (m.heard reply).vacated m' os) :
      Handling s m (.reply (.ok reply)) m'
        ((m.back.absorb reply).outputs ++ (passOutputs reply (m.back.heard reply) ++ os))
  | suspended {reply : Reply} {e : PolicyError} {resume : Moment} (hphase : m.phase = .sending)
      (haccepted : reply.isViolation = false) (hmalformed : verdict reply = .malformed e)
      (hresume : Moment.after s.now s.config.invalidPolicyBackoff = .ok resume) :
      Handling s m (.reply (.ok reply)) ((m.heard reply).pausing resume).armed
        ((m.back.absorb reply).outputs ++
          (passOutputs reply (m.back.heard reply) ++
            (.notice (.suspending resume) ::
              .event (.diagnostic (m.policyAfter reply).name
                ((m.heard reply).malformedMessage e resume)) ::
              (schedule s resume ((m.heard reply).pausing resume)).outputs)))
  | refused {reply : Reply} {lapse : Moment} {m' : Manager} {os : List Output}
      (hphase : m.phase = .sending) (hrefused : reply.isViolation = true)
      (hlapse : Moment.after s.now ((m.heard reply).violationWait s reply) = .ok lapse)
      (next : Retrial s ((m.heard reply).violationWait s reply) lapse
        ((m.back.heard reply).counted.restrictUntil lapse) m' os) :
      Handling s m (.reply (.ok reply)) m'
        ((m.back.absorb reply).outputs ++
          (refusalOutputs s m.policy.status (m.back.heard reply) ++ os))

theorem onSeed_ends (s : Surroundings) (reply : Reply) (m : Manager) :
    (m.onSeed s reply).Ends (Handling s m (.seed reply)) := by
  unfold onSeed
  refine .bind (absorb_result reply m) (absorb_quiet reply m) ?_
  dsimp only
  cases hv : reply.isViolation with
  | false => exact (activate_ends s _).mono fun _ _ h => .seeded hv h
  | true =>
    refine .tell (allQuiet_cons trivial allQuiet_nil) ?_
    refine .bind (countViolation_result s none _) (countViolation_quiet s none _) ?_
    refine .lift ?_
    intro lapse hl
    cases hpaused : Moment.after s.now ((m.heard reply).violationWait s reply) with
    | error e =>
      rw [hpaused] at hl
      cases hl
    | ok paused =>
      rw [hpaused] at hl
      exact (activate_ends s _).mono fun _ _ h => .seedRefused hv hpaused hl h

theorem onQueue_ends (s : Surroundings) (p : Pending) (m : Manager) :
    (m.onQueue s p).Ends (Handling s m (.queue p)) := by
  unfold onQueue
  cases hg : s.gone p.id with
  | true =>
    refine .tell (abandon_quiet m p) (.pure ?_)
    rw [List.append_nil]
    exact .joinedGone hg
  | false =>
    refine .tell (allQuiet_cons trivial (allQuiet_cons trivial allQuiet_nil)) ?_
    exact (activate_ends s _).mono fun _ _ h => .joined hg h

theorem skipActive_ends (s : Surroundings) (p : Pending) (m : Manager) :
    (m.skipActive s p).Ends fun m' os =>
      ∃ ps, os = m.abandon p ++ ps ∧ Activation s m.vacated m' ps := by
  unfold skipActive
  refine .tell (abandon_quiet m p) ?_
  exact (activate_ends s m.vacated).mono fun _ ps h => ⟨ps, rfl, h⟩

theorem send_of_none (h : m.active = none) : m.send s = activate s m.back := by
  unfold send back
  rw [h]

theorem send_of_gone {p : Pending} (h : m.active = some p) (hg : s.gone p.id = true) :
    m.send s = m.skipActive s p := by
  unfold send
  rw [h]
  exact if_pos hg

theorem send_of_unsigned {p : Pending} {refusal : Refusal} (h : m.active = some p)
    (hg : s.gone p.id = false) (ha : s.authorizer p.request = .error refusal) :
    m.send s = (do
      tell [.notice (.refused p.id (.authorization refusal))]
      let m ← m.back.finish (.error (.authorization refusal))
      activate s m) := by
  unfold send back
  simp only [h, hg, ha]
  rfl

theorem send_of_signed {p : Pending} {signed : Request} (h : m.active = some p)
    (hg : s.gone p.id = false) (ha : s.authorizer p.request = .ok signed) :
    m.send s =
      ⟨[.notice (.sending p.id signed.method signed.url), .count m.policy.name .sent,
        .transmit p.id signed], .ok { m with phase := .sending }⟩ := by
  unfold send
  simp only [h, hg, ha]
  rfl

theorem send_ends (s : Surroundings) (m : Manager)
    (hphase : ∃ t, m.phase = .activating t ∨ m.phase = .violationWait t) :
    (m.send s).Ends (Handling s m (.fire m.generation)) := by
  cases hactive : m.active with
  | none =>
    rw [send_of_none hactive]
    exact (activate_ends s _).mono fun _ _ h => .fireEmpty hphase hactive h
  | some p =>
    cases hg : s.gone p.id with
    | true =>
      rw [send_of_gone hactive hg]
      refine (skipActive_ends s p m).mono ?_
      rintro m' os ⟨ps, rfl, h⟩
      exact .skipped hphase hactive hg h
    | false =>
      cases ha : s.authorizer p.request with
      | error refusal =>
        rw [send_of_unsigned hactive hg ha]
        refine .tell (allQuiet_cons trivial allQuiet_nil) ?_
        refine .bind (finish_result _ _) (finish_quiet _ _) ?_
        exact (activate_ends s m.vacated).mono fun _ _ h => .unsigned hphase hactive hg ha h
      | ok signed =>
        rw [send_of_signed hactive hg ha]
        exact .of_ok rfl (.sent hphase hactive hg ha)

theorem onFire_ends (s : Surroundings) (generation : Nat) (m : Manager) :
    (m.onFire s generation).Ends (Handling s m (.fire generation)) := by
  unfold onFire
  by_cases hg : generation = m.generation
  · subst hg
    rw [if_neg (fun h => h rfl)]
    cases hp : m.phase with
    | idle => exact .pure (.fireIdle (.inl hp))
    | activating t => exact send_ends s m ⟨t, .inl hp⟩
    | sending => exact .pure (.fireIdle (.inr hp))
    | violationWait t => exact send_ends s m ⟨t, .inr hp⟩
    | suspended t =>
      refine .tell (allQuiet_cons trivial allQuiet_nil) ?_
      exact (activate_ends s _).mono fun _ _ h => .resumed hp h
  · rw [if_pos hg]
    exact .pure (.fireStale hg)

@[simp] theorem refusalOutputs_quiet (s : Surroundings) (before : Status) (m : Manager) :
    AllQuiet (refusalOutputs s before m) := by
  exact .append (allQuiet_ite (allQuiet_cons trivial allQuiet_nil)) (countViolation_quiet s _ m)

@[simp] theorem passOutputs_quiet (reply : Reply) (m : Manager) : AllQuiet (passOutputs reply m) := by
  exact .append (allQuiet_ite (allQuiet_cons trivial allQuiet_nil))
    (.append (outcome_quiet m reply _) (finish_quiet m _))

/-- What is left to do with a refused request, once the wait and its end are known. -/
def retry (s : Surroundings) (wait : Delay) (lapse : Moment) (m : Manager) : Turn Manager :=
  match m.active with
  | none => activate s m
  | some p =>
    if s.gone p.id then m.skipActive s p
    else do
      let sendAt ← lift (Moment.after lapse s.config.violationBuffer)
      tell [.notice (.resending p.id wait)]
      schedule s sendAt (m.holding sendAt)

theorem onViolation_eq (s : Surroundings) (reply : Reply) (before : Status) (m : Manager) :
    m.onViolation s reply before = (do
      tell (if before < .violation then [.notice (.surprisingViolation before)] else [])
      let m ← m.countViolation s (m.active.map (·.id))
      let lapse ← lift (Moment.after s.now (m.violationWait s reply))
      retry s (m.violationWait s reply) lapse (m.restrictUntil lapse)) := by
  unfold onViolation
  split <;> rfl

theorem retry_ends (s : Surroundings) (wait : Delay) (lapse : Moment) (m : Manager) :
    (m.retry s wait lapse).Ends (Retrial s wait lapse m) := by
  unfold retry
  split
  · rename_i hactive
    exact (activate_ends s m).mono fun _ _ h => .empty hactive h
  · rename_i p hactive
    cases hg : s.gone p.id with
    | true =>
      refine (skipActive_ends s p m).mono ?_
      rintro m' os ⟨ps, rfl, h⟩
      exact .skipped hactive hg h
    | false =>
      refine .lift fun sendAt hsend => .tell (allQuiet_cons trivial allQuiet_nil) ?_
      exact .of_ok (schedule_result s sendAt _) (.again hactive hg hsend)

theorem onViolation_ends (s : Surroundings) (reply : Reply) (before : Status) (m : Manager) :
    (m.onViolation s reply before).Ends fun m' os =>
      ∃ lapse ps, Moment.after s.now (m.violationWait s reply) = .ok lapse ∧
        os = refusalOutputs s before m ++ ps ∧
        Retrial s (m.violationWait s reply) lapse (m.counted.restrictUntil lapse) m' ps := by
  rw [onViolation_eq]
  refine .tell ?_ (.bind (countViolation_result s _ m) (countViolation_quiet s _ m) ?_)
  · exact allQuiet_ite (allQuiet_cons trivial allQuiet_nil)
  · refine .lift fun lapse hlapse => (retry_ends s _ lapse _).mono ?_
    intro m' ps h
    exact ⟨lapse, ps, hlapse, (List.append_assoc ..).symm, h⟩

theorem suspend_eq_of_ok {error : PolicyError} {resume : Moment} (hactive : m.active = none)
    (h : Moment.after s.now s.config.invalidPolicyBackoff = .ok resume) :
    m.suspend s error =
      ⟨.notice (.suspending resume) ::
          .event (.diagnostic m.policy.name (m.malformedMessage error resume)) ::
          (schedule s resume (m.pausing resume)).outputs,
        .ok (m.pausing resume).armed⟩ := by
  unfold suspend pausing
  rw [h, bind_of_ok (a := resume) rfl, tell_bind, schedule_result]
  simp only [hactive]
  rfl

theorem suspend_eq_of_error {error : PolicyError} {e : Overflow}
    (h : Moment.after s.now s.config.invalidPolicyBackoff = .error e) :
    m.suspend s error = ⟨[], .error e⟩ := by
  unfold suspend
  rw [h]
  rfl

/-- A reply that was not refused is passed on first; then the queue goes on or is held back. -/
theorem onAccepted_eq (s : Surroundings) (reply : Reply) (absorbed : Absorbed) (m : Manager) :
    m.onAccepted s reply absorbed = (do
      tell (if reply.isSuccess && m.policy.status == .violation then
        [.notice (.acceptedInViolation reply.status)] else [])
      let result ← m.outcome reply absorbed
      let m ← m.finish result
      match absorbed with
      | .malformed e => do activate s (← m.suspend s e)
      | _ => activate s m) := by
  unfold onAccepted
  cases absorbed <;> dsimp only <;> split <;> rfl

theorem onAccepted_ends (s : Surroundings) (reply : Reply) (m : Manager) (hidle : m.phase = .idle) :
    (m.onAccepted s reply (verdict reply)).Ends fun m' os =>
      ∃ ps, os = passOutputs reply m ++ ps ∧
        (((∀ e, verdict reply ≠ .malformed e) ∧ Activation s m.vacated m' ps) ∨
          ∃ e resume, verdict reply = .malformed e ∧
            Moment.after s.now s.config.invalidPolicyBackoff = .ok resume ∧
            m' = (m.pausing resume).armed ∧
            ps = .notice (.suspending resume) ::
              .event (.diagnostic m.policy.name (m.malformedMessage e resume)) ::
              (schedule s resume (m.pausing resume)).outputs) := by
  have hvacated : { m with active := none } = m.vacated := by
    unfold vacated
    rw [← hidle]
  rw [onAccepted_eq]
  refine .tell ?_ (.bind (outcome_result m reply) (outcome_quiet m reply _)
    (.bind (finish_result m _) (finish_quiet m _) ?_))
  · exact allQuiet_ite (allQuiet_cons trivial allQuiet_nil)
  · unfold passOutputs
    simp only [List.append_assoc, hvacated]
    cases hv : verdict reply with
    | missing =>
      refine (activate_ends s _).mono fun m' ps h => ⟨ps, rfl, .inl ⟨?_, h⟩⟩
      exact fun e he => by cases he
    | parsed =>
      refine (activate_ends s _).mono fun m' ps h => ⟨ps, rfl, .inl ⟨?_, h⟩⟩
      exact fun e he => by cases he
    | malformed e =>
      dsimp only
      cases hresume : Moment.after s.now s.config.invalidPolicyBackoff with
      | error o =>
        rw [suspend_eq_of_error hresume]
        exact .of_error
      | ok resume =>
        rw [suspend_eq_of_ok (m := m.vacated) rfl hresume, bind_of_ok rfl,
          activate_of_busy (.inr fun h => by cases h)]
        refine .of_ok rfl ⟨_, rfl, .inr ⟨e, resume, rfl, rfl, rfl, ?_⟩⟩
        rw [pure_def, List.append_nil]
        rfl

theorem onReply_ends (s : Surroundings) (result : Except TransportFailure Reply) (m : Manager) :
    (m.onReply s result).Ends (Handling s m (.reply result)) := by
  unfold onReply
  by_cases hphase : m.phase = .sending
  · rw [if_neg (fun h => h hphase)]
    dsimp only
    cases result with
    | error e =>
      refine .tell (allQuiet_cons trivial allQuiet_nil) ?_
      refine .bind (finish_result _ _) (finish_quiet _ _) ?_
      exact (activate_ends s m.vacated).mono fun _ _ h => .lost hphase h
    | ok reply =>
      refine .bind (absorb_result reply m.back) (absorb_quiet reply m.back) ?_
      dsimp only
      cases hv : reply.isViolation with
      | true =>
        refine (onViolation_ends s reply _ _).mono ?_
        rintro m' os ⟨lapse, ps, hlapse, rfl, h⟩
        exact .refused hphase hv hlapse h
      | false =>
        refine (onAccepted_ends s reply _ rfl).mono ?_
        rintro m' os ⟨ps, rfl, ⟨hclear, h⟩ | ⟨e, resume, hmalformed, hresume, rfl, rfl⟩⟩
        · exact .passed hphase hv hclear h
        · exact .suspended hphase hv hmalformed hresume
  · rw [if_pos hphase]
    exact .of_ok rfl (.stray hphase)

/-- A handled message does one of the things on the list, or its outputs are quiet and an instant
has left the calendar. -/
theorem receive_ends (s : Surroundings) (m : Manager) (msg : Message) :
    (m.receive s msg).Ends (Handling s m msg) := by
  cases msg with
  | seed reply => exact onSeed_ends s reply m
  | queue p => exact onQueue_ends s p m
  | fire generation => exact onFire_ends s generation m
  | reply result => exact onReply_ends s result m

/-- A refusal is not handled to its end if the wait has none in the calendar. -/
theorem receive_fails {reply : Reply} {e : Overflow} (hphase : m.phase = .sending)
    (hrefused : reply.isViolation = true)
    (hlapse : Moment.after s.now ((m.heard reply).violationWait s reply) = .error e) :
    (m.receive s (.reply (.ok reply))).Fails := by
  have hover : Moment.after s.now ((m.back.heard reply).counted.violationWait s reply) = .error e :=
    hlapse
  show (m.onReply s (.ok reply)).Fails
  unfold onReply
  rw [if_neg fun hne => hne hphase]
  refine .bind (absorb_result reply m.back) ?_
  dsimp only
  rw [if_pos hrefused, onViolation_eq]
  exact .bind (t := tell _) rfl (.bind (countViolation_result s _ _) (.lift hover))

end Manager

end Throttle
