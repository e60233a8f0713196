import Throttle.Proofs.Manager.Answers
import Throttle.Proofs.Manager.Reports
import Throttle.Proofs.Manager.Restriction
import Throttle.Proofs.Policy.Consistency

/-!
  What malformed rate limit headers do to a manager. `verdict_malformed_iff` says which headers these
  are. The policy keeps its rules and is marked as invalid, the caller gets the reply all the same,
  and the manager is suspended (`receive_malformed`), unless the end of the backoff is past the end of
  the calendar, which ends the manager (`receive_unsuspended`). Whatever a suspended manager is told in
  the meantime, it stays so until the alarm goes off that was set then (`Handling.keeps_suspended`,
  `Dormant`).
-/

namespace Throttle

open Http Turn

namespace Policy

/-- The headers do not parse as a policy, or they pair limits and states over different periods. -/
def Malformed (h : Headers) : Prop :=
  ∀ policy, ofHeaders? h = .ok policy → ∃ i ∈ policy.items, ¬ i.Consistent

/-- Headers are malformed if and only if no consistent policy can be read from them. -/
theorem malformed_iff {h : Headers} :
    Malformed h ↔ ∃ e, ofHeaders? h >>= ensureConsistent = .error e := by
  unfold Malformed
  cases hp : ofHeaders? h with
  | error e => exact ⟨fun _ => ⟨e, rfl⟩, fun _ _ h => nomatch h⟩
  | ok policy =>
    change _ ↔ ∃ e, policy.ensureConsistent = .error e
    simp only [ensureConsistent_eq_error_iff, ← Option.isSome_iff_exists, Option.isSome_iff_ne_none,
      ne_eq, mismatch?_eq_none_iff]
    push Not
    exact ⟨fun h => h policy rfl, fun h policy' hsame => Except.ok.inj hsame ▸ h⟩

end Policy

namespace Manager

variable {s : Surroundings} {m m' : Manager} {msg : Message} {os : List Output} {reply : Reply}
  {e : PolicyError} {t : Moment}

theorem declaration_malformed_iff :
    declaration reply = some (.error e) ↔
      namesPolicy reply.headers = true ∧
        Policy.ofHeaders? reply.headers >>= Policy.ensureConsistent = .error e := by
  unfold declaration
  split <;> simp_all

theorem verdict_of_malformed (h : declaration reply = some (.error e)) :
    verdict reply = .malformed e := by
  unfold verdict
  rw [h]

/-! ## The turn -/

/-- A manager that is suspended does not turn to its queue. -/
theorem suspend_bind_activate (hactive : m.active = none) (s : Surroundings) (e : PolicyError) :
    m.suspend s e >>= activate s = m.suspend s e := by
  cases hresume : Moment.after s.now s.config.invalidPolicyBackoff with
  | error o =>
    rw [suspend_eq_of_error hresume]
    rfl
  | ok resume =>
    rw [suspend_eq_of_ok hactive hresume, bind_of_ok rfl, activate_of_busy (.inr fun h => by cases h),
      pure_def, List.append_nil]

theorem onAccepted_malformed (h : verdict reply = .malformed e) (hidle : m.phase = .idle) :
    m.onAccepted s reply (.malformed e) =
      ⟨passOutputs reply m ++ (m.vacated.suspend s e).outputs, (m.vacated.suspend s e).result⟩ := by
  have hvacated : { m with active := none } = m.vacated := by
    unfold vacated
    rw [← hidle]
  have houtcome := outcome_result m reply
  rw [h] at houtcome
  rw [onAccepted_eq, tell_bind, bind_of_ok houtcome, bind_of_ok (finish_result m _), hvacated]
  dsimp only
  rw [suspend_bind_activate rfl]
  unfold passOutputs
  rw [h]
  simp only [List.append_assoc]

/-- The turn of a manager that takes in a reply with malformed headers to its request: the caller
gets its result, and then the manager is suspended. -/
theorem receive_malformed (hphase : m.phase = .sending) (haccepted : reply.isViolation = false)
    (h : verdict reply = .malformed e) (s : Surroundings) :
    m.receive s (.reply (.ok reply)) =
      ⟨(m.back.absorb reply).outputs ++ (passOutputs reply (m.back.heard reply) ++
          ((m.back.heard reply).vacated.suspend s e).outputs),
        ((m.back.heard reply).vacated.suspend s e).result⟩ := by
  have habsorb := absorb_result reply m.back
  rw [h] at habsorb
  show m.onReply s (.ok reply) = _
  unfold onReply
  rw [if_neg fun hne => hne hphase]
  refine (bind_of_ok habsorb fun x =>
    if reply.isViolation then x.1.onViolation s reply m.policy.status
    else x.1.onAccepted s reply x.2).trans ?_
  dsimp only
  rw [haccepted, if_neg Bool.false_ne_true, onAccepted_malformed h rfl]

/-- Malformed headers leave the rules as they are. -/
theorem heard_of_malformed (h : declaration reply = some (.error e)) (m : Manager) :
    m.heard reply =
      { m with policy := m.policy.invalidated, history := m.history.push reply.date } := by
  unfold heard policyAfter historyAfter
  rw [h]

/-- A manager has marked its policy as invalid, and knows of it what another one knows. -/
structure Invalidates (m' m : Manager) : Prop where
  name : m'.policy.name = m.policy.name
  rules : m'.policy.rules = m.policy.rules
  maximumHits : m'.policy.maximumHits = m.policy.maximumHits
  status : m'.policy.status = .invalid
  capacity : m'.history.capacity = m.history.capacity

theorem invalidates_of_malformed (h : declaration reply = some (.error e)) (m : Manager)
    (resume : Moment) : ((m.heard reply).pausing resume).armed.Invalidates m := by
  rw [heard_of_malformed h]
  exact ⟨rfl, rfl, rfl, rfl, rfl⟩

/-- The caller gets the reply if it is a success. -/
theorem answers_of_malformed (hphase : m.phase = .sending) (haccepted : reply.isViolation = false)
    (h : declaration reply = some (.error e)) (s : Surroundings) :
    answers (m.receive s (.reply (.ok reply))).outputs = m.active.toList.map fun p =>
      (p.id, if reply.isSuccess then .ok reply
        else .error (.unexpectedStatus m.policy.name reply.status)) := by
  have hverdict := verdict_of_malformed h
  have hsilent : answers ((m.back.heard reply).vacated.suspend s e).outputs = [] := by
    cases hresume : Moment.after s.now s.config.invalidPolicyBackoff with
    | error o =>
      rw [suspend_eq_of_error hresume]
      rfl
    | ok resume =>
      rw [suspend_eq_of_ok rfl hresume]
      exact (silent_schedule s resume _).answers_eq
  have hresult : (m.back.heard reply).resultOf reply =
      if reply.isSuccess then .ok reply
      else .error (.unexpectedStatus m.policy.name reply.status) := by
    unfold resultOf
    rw [hverdict, heard_of_malformed h]
    rfl
  rw [receive_malformed hphase haccepted hverdict, answers_append, answers_append,
    (silent_absorb reply m.back).answers_eq, passOutputs_answers, hsilent, List.append_nil,
    List.nil_append, hresult]
  rfl

/-- The manager is suspended, and the listeners are told. -/
theorem receive_suspends (hphase : m.phase = .sending) (haccepted : reply.isViolation = false)
    (h : declaration reply = some (.error e)) {resume : Moment}
    (hresume : Moment.after s.now s.config.invalidPolicyBackoff = .ok resume) :
    (m.receive s (.reply (.ok reply))).result = .ok ((m.heard reply).pausing resume).armed ∧
      .event (.diagnostic m.policy.name (m.malformedMessage e resume)) ∈
        (m.receive s (.reply (.ok reply))).outputs := by
  rw [receive_malformed hphase haccepted (verdict_of_malformed h), suspend_eq_of_ok rfl hresume]
  refine ⟨rfl, List.mem_append_right _ (List.mem_append_right _ (.tail _ ?_))⟩
  rw [heard_of_malformed h]
  exact .head _

/-- Of malformed headers the listeners learn that the policy is invalid. -/
theorem tells_absorb_malformed (h : declaration reply = some (.error e)) (m : Manager) :
    tells (m.absorb reply).outputs = [.policyUpdated m.policy.invalidated] := by
  obtain ⟨hnamed, hunread⟩ := declaration_malformed_iff.1 h
  unfold absorb
  rw [bind_of_ok (readHeaders_result reply m), tells_append]
  unfold readHeaders
  rw [hnamed, hunread]
  rfl

theorem tells_passOutputs (reply : Reply) (m : Manager) : tells (passOutputs reply m) = [] := by
  unfold passOutputs
  rw [tells_append, tells_append, tells_outcome, tells_finish]
  split <;> rfl

/-- Without an end of the backoff in the calendar, the turn breaks off before the listeners hear of a
suspension. -/
theorem receive_unsuspended (hphase : m.phase = .sending) (haccepted : reply.isViolation = false)
    (h : declaration reply = some (.error e)) {o : Overflow}
    (hresume : Moment.after s.now s.config.invalidPolicyBackoff = .error o) :
    (m.receive s (.reply (.ok reply))).Fails ∧
      tells (m.receive s (.reply (.ok reply))).outputs = [.policyUpdated m.policy.invalidated] := by
  rw [receive_malformed hphase haccepted (verdict_of_malformed h), suspend_eq_of_error hresume]
  refine ⟨⟨o, rfl⟩, ?_⟩
  rw [tells_append, tells_append, tells_absorb_malformed h, tells_passOutputs]
  rfl

/-- A manager that goes on after malformed headers is suspended until the backoff is over. -/
theorem phase_of_malformed (hphase : m.phase = .sending) (haccepted : reply.isViolation = false)
    (h : declaration reply = some (.error e))
    (hm' : (m.receive s (.reply (.ok reply))).result = .ok m') :
    m'.phase = .suspended (s.now + s.config.invalidPolicyBackoff) := by
  cases hresume : Moment.after s.now s.config.invalidPolicyBackoff with
  | error o =>
    rw [receive_malformed hphase haccepted (verdict_of_malformed h),
      suspend_eq_of_error hresume] at hm'
    cases hm'
  | ok resume =>
    obtain rfl := Except.ok.inj ((receive_suspends hphase haccepted h hresume).1.symm.trans hm')
    obtain ⟨-, rfl⟩ := Moment.after_eq_ok_iff.1 hresume
    rfl

/-! ## The suspension -/

theorem Activation.eq_of_phase (h : Activation s m m' os) (hphase : m.phase ≠ .idle) : m' = m := by
  cases h with
  | busy hbusy => rfl
  | drained hactive hidle hgone => exact absurd hidle hphase
  | planned gone rest p sendAt hactive hidle hqueue hgone hlive hsend => exact absurd hidle hphase

/-- Nothing but the alarm that was set for it ends a suspension. -/
theorem Handling.keeps_suspended (h : Handling s m msg m' os) (hphase : m.phase = .suspended t) :
    m'.phase = .suspended t ∨ msg = .fire m.generation := by
  have kept {k : Manager} {ps : List Output} (next : Activation s k m' ps)
      (hsame : k.phase = m.phase) : m'.phase = .suspended t := by
    rw [hphase] at hsame
    rw [next.eq_of_phase (by rw [hsame]; nofun), hsame]
  have away (hother : m.phase = .sending) : False := nomatch hphase.symm.trans hother
  cases h with
  | seeded haccepted next => exact .inl (kept next rfl)
  | seedRefused hrefused hpaused hlapse next => exact .inl (kept next rfl)
  | joinedGone hgone => exact .inl hphase
  | joined hlive next => exact .inl (kept next rfl)
  | fireStale hstale => exact .inl hphase
  | fireIdle hother => exact .inr rfl
  | resumed hsuspended next => exact .inr rfl
  | fireEmpty hother hactive next => exact .inr rfl
  | skipped hother hactive hgone next => exact .inr rfl
  | unsigned hother hactive hlive hsigned next => exact .inr rfl
  | sent hother hactive hlive hsigned => exact .inr rfl
  | stray hother => exact .inl hphase
  | lost hother next => exact (away hother).elim
  | passed hother haccepted hclear next => exact (away hother).elim
  | suspended hother haccepted hmalformed hresume => exact (away hother).elim
  | refused hother hrefused hlapse next => exact (away hother).elim

end Manager

/-! ## Actors -/

namespace Actor

variable {s : Surroundings} {a b : Actor} {d : Deed} {ns : List Mark} {t : Moment} {id : Nat}

/-- A running actor is suspended until an instant, or the instant has come. -/
structure Dormant (t : Moment) (s : Surroundings) (a : Actor) : Prop where
  sound : Sound s.now a
  holds : a.stage = .running → a.manager.phase = .suspended t ∨ t ≤ s.now

theorem Dormant.mono {u : Surroundings} (h : Dormant t s a) (hle : s.now ≤ u.now) :
    Dormant t u a :=
  ⟨h.sound.mono hle, fun hstage => (h.holds hstage).imp_right (Int.le_trans · hle)⟩

/-- Whatever comes, it stays suspended until the instant has come. -/
theorem Dormant.change (h : Dormant t s a) (hc : Change a d b ns) (hd : d.At s) :
    Dormant t s b := by
  refine ⟨hc.sound h.sound ?_, fun hstage => ?_⟩
  · rintro u rfl
    exact Int.le_of_eq hd
  · obtain ⟨hrunning, ⟨hsame, -⟩ | ⟨u, msg, c, os, hu, htakes, hhandled, -⟩⟩ := hc.takes hstage
    · rw [hsame]
      exact h.holds hrunning
    · obtain rfl : u = s := by rcases hu with rfl | rfl <;> exact hd
      rcases h.holds hrunning with hphase | hover
      · refine (hhandled.keeps_suspended hphase).imp_right fun hmsg => ?_
        obtain ⟨v, hv, hle⟩ := h.sound.due hrunning htakes hmsg
        rw [hphase] at hv
        cases hv
        exact hle
      · exact .inr hover

/-- It sends nothing before. -/
theorem Dormant.sends (h : Dormant t s a) (hc : Change a d b ns) (hid : id ∈ sentIn ns) :
    t ≤ s.now := by
  obtain ⟨hrunning, -, u, hu, hle⟩ := hc.sends_due h.sound hid
  rcases h.holds hrunning with hphase | hover
  · rw [hphase] at hu
    cases hu
    exact hle
  · exact hover

end Actor

end Throttle
