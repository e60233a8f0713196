import Throttle.Proofs.Manager.Answers
import Throttle.Proofs.Manager.Restriction

/-!
  Refusals of the request under way. `Asks` says for how long a refusal asks the manager to wait;
  it is what the manager waits (`asks_iff`). A refused request keeps its place, and so does the
  queue behind it (`Handling.absorbs`), until the request is sent again, its caller is gone, or the
  authorizer, which is asked once more when the wait is over, refuses to sign it (`Resends.step`).
-/

namespace Throttle

open Http Turn

/-! ## How long to wait -/

namespace Policy

/-- The longest penalty among the violated items is that of one of them. -/
theorem violationRestriction_eq_some_iff {policy : Policy} {n : Nat} :
    policy.violationRestriction = some n ↔
      (∃ i ∈ policy.items, i.status = .violation ∧ penalty i = n) ∧
        ∀ i ∈ policy.items, i.status = .violation → penalty i ≤ n := by
  unfold violationRestriction
  rw [List.max?_eq_some_iff]
  simp only [List.mem_map, List.mem_filter, decide_eq_true_eq]
  constructor
  · rintro ⟨⟨i, ⟨hi, hviolated⟩, rfl⟩, hle⟩
    exact ⟨⟨i, hi, hviolated, rfl⟩, fun j hj hj' => hle _ ⟨j, ⟨hj, hj'⟩, rfl⟩⟩
  · rintro ⟨⟨i, hi, hviolated, rfl⟩, hle⟩
    refine ⟨⟨i, ⟨hi, hviolated⟩, rfl⟩, ?_⟩
    rintro _ ⟨j, ⟨hj, hj'⟩, rfl⟩
    exact hle j hj hj'

theorem violationRestriction_eq_none_iff {policy : Policy} :
    policy.violationRestriction = none ↔ ∀ i ∈ policy.items, i.status ≠ .violation := by
  unfold violationRestriction
  rw [List.max?_eq_none_iff, List.map_eq_nil_iff, List.filter_eq_nil_iff]
  simp

end Policy

namespace Manager

variable {s : Surroundings} {m m' : Manager} {msg : Message} {os : List Output} {p : Pending}
  {t : Moment} {reply : Reply} {wait : Delay}

/-- For how long a refusal asks a manager to wait: what the reply says, else the longest penalty
among the violated items of the policy, else the default. -/
inductive Asks (config : Config) (policy : Policy) (reply : Reply) : Delay → Prop where
  | stated {wait : Delay} (h : reply.retryAfter = some wait) : Asks config policy reply wait
  | longest {i : Item} (hsilent : reply.retryAfter = none) (hi : i ∈ policy.items)
      (hviolated : i.status = .violation)
      (hlongest : ∀ j ∈ policy.items, j.status = .violation → Policy.penalty j ≤ Policy.penalty i) :
      Asks config policy reply (Delay.ofSeconds (Policy.penalty i))
  | default (hsilent : reply.retryAfter = none)
      (hnone : ∀ i ∈ policy.items, i.status ≠ .violation) :
      Asks config policy reply config.defaultRetryAfter

theorem violationWait_of_stated (h : reply.retryAfter = some wait) :
    m.violationWait s reply = wait := by
  unfold violationWait
  rw [h]

theorem violationWait_of_longest {n : Nat} (hsilent : reply.retryAfter = none)
    (h : m.policy.violationRestriction = some n) :
    m.violationWait s reply = Delay.ofSeconds n := by
  unfold violationWait
  rw [hsilent, h]

theorem violationWait_of_none (hsilent : reply.retryAfter = none)
    (h : m.policy.violationRestriction = none) :
    m.violationWait s reply = s.config.defaultRetryAfter := by
  unfold violationWait
  rw [hsilent, h]

/-- A manager waits as long as it is asked to. -/
theorem asks_iff : Asks s.config m.policy reply wait ↔ wait = m.violationWait s reply := by
  constructor
  · intro h
    cases h with
    | stated h => exact (violationWait_of_stated h).symm
    | longest hsilent hi hviolated hlongest =>
      refine (violationWait_of_longest hsilent ?_).symm
      exact Policy.violationRestriction_eq_some_iff.2 ⟨⟨_, hi, hviolated, rfl⟩, hlongest⟩
    | default hsilent hnone =>
      exact (violationWait_of_none hsilent (Policy.violationRestriction_eq_none_iff.2 hnone)).symm
  · rintro rfl
    cases hstated : reply.retryAfter with
    | some wait =>
      rw [violationWait_of_stated hstated]
      exact .stated hstated
    | none =>
      cases hlongest : m.policy.violationRestriction with
      | some n =>
        rw [violationWait_of_longest hstated hlongest]
        obtain ⟨⟨i, hi, hviolated, rfl⟩, hle⟩ := Policy.violationRestriction_eq_some_iff.1 hlongest
        exact .longest hstated hi hviolated hle
      | none =>
        rw [violationWait_of_none hstated hlongest]
        exact .default hstated (Policy.violationRestriction_eq_none_iff.1 hlongest)

/-! ## A refusal is taken in -/

theorem retry_of_live (hactive : m.active = some p) (hlive : s.gone p.id = false)
    {lapse sendAt : Moment} (hsend : Moment.after lapse s.config.violationBuffer = .ok sendAt) :
    (m.retry s wait lapse).result = .ok (m.holding sendAt).armed := by
  unfold retry
  rw [hactive]
  dsimp only
  rw [hlive, hsend, bind_of_ok (a := sendAt) rfl, tell_bind]
  exact schedule_result s sendAt _

theorem onViolation_of_live (hactive : m.active = some p) (hlive : s.gone p.id = false)
    {lapse sendAt : Moment} (hlapse : Moment.after s.now (m.violationWait s reply) = .ok lapse)
    (hsend : Moment.after lapse s.config.violationBuffer = .ok sendAt) (before : Status) :
    (m.onViolation s reply before).result =
      .ok ((m.counted.restrictUntil lapse).holding sendAt).armed := by
  have hlift : (lift (Moment.after s.now (m.violationWait s reply))).result = .ok lapse := hlapse
  rw [onViolation_eq, tell_bind, bind_of_ok (countViolation_result s _ _)]
  refine (congrArg Turn.result (bind_of_ok hlift fun lapse =>
    m.counted.restrictUntil lapse |>.retry s (m.violationWait s reply) lapse)).trans ?_
  exact retry_of_live (m := m.counted.restrictUntil lapse) hactive hlive hsend

/-- A refusal is taken in, as long as the instant to send again is in the calendar. -/
theorem receive_refused (hphase : m.phase = .sending) (hactive : m.active = some p)
    (hlive : s.gone p.id = false) (hrefused : reply.isViolation = true) {lapse sendAt : Moment}
    (hlapse : Moment.after s.now ((m.heard reply).violationWait s reply) = .ok lapse)
    (hsend : Moment.after lapse s.config.violationBuffer = .ok sendAt) :
    ∃ m', (m.receive s (.reply (.ok reply))).result = .ok m' := by
  refine ⟨(((m.back.heard reply).counted.restrictUntil lapse).holding sendAt).armed, ?_⟩
  show (m.onReply s (.ok reply)).result = _
  unfold onReply
  rw [if_neg fun hne => hne hphase]
  refine (congrArg Turn.result (bind_of_ok (absorb_result reply m.back) fun x =>
    if reply.isViolation then x.1.onViolation s reply m.policy.status
    else x.1.onAccepted s reply x.2)).trans ?_
  dsimp only
  rw [if_pos hrefused]
  exact onViolation_of_live (m := m.back.heard reply) hactive hlive hlapse hsend _

/-- The refused request keeps its place, and the queue behind it stays. -/
theorem Handling.absorbs (h : Handling s m (.reply (.ok reply)) m' os)
    (hphase : m.phase = .sending) (hactive : m.active = some p) (hlive : s.gone p.id = false)
    (hrefused : reply.isViolation = true) :
    m'.active = some p ∧ m'.queue = m.queue ∧
      m'.phase = .violationWait
        (s.now + ((m.heard reply).violationWait s reply : Delay) + s.config.violationBuffer) := by
  cases h with
  | stray hstray => exact absurd hphase hstray
  | passed _ haccepted hclear next => exact nomatch haccepted.symm.trans hrefused
  | suspended _ haccepted hmalformed hresume => exact nomatch haccepted.symm.trans hrefused
  | refused _ _ hlapse next =>
    cases next with
    | empty hnone next => exact nomatch hnone.symm.trans hactive
    | skipped hsome hgone next =>
      obtain rfl := Option.some.inj (hactive.symm.trans hsome)
      exact nomatch hgone.symm.trans hlive
    | again hsome hheld hsend =>
      obtain ⟨-, rfl⟩ := Moment.after_eq_ok_iff.1 hlapse
      obtain ⟨-, rfl⟩ := Moment.after_eq_ok_iff.1 hsend
      exact ⟨hactive, rfl, rfl⟩

/-- A refusal answers nobody. -/
theorem Handling.answers_of_refused (h : Handling s m (.reply (.ok reply)) m' os)
    (hrefused : reply.isViolation = true) : answers os = [] := by
  refine List.eq_nil_iff_forall_not_mem.2 fun ⟨id, result⟩ hmem => ?_
  obtain ⟨p, -, -, hresult⟩ := h.answered hmem
  cases hresult with
  | passed haccepted => exact nomatch haccepted.symm.trans hrefused

/-! ## The wait -/

theorem Activation.eq_of_active (h : Activation s m m' os) (hactive : m.active = some p) :
    m' = m := by
  cases h with
  | busy hbusy => rfl
  | drained hnone hidle hgone => exact nomatch hnone.symm.trans hactive
  | planned gone rest q sendAt hnone hidle hqueue hgone hlive hsend =>
    exact nomatch hnone.symm.trans hactive

/-- Whatever comes during the wait, the request keeps its place until its alarm goes off: then it is
sent again, or the authorizer refuses to sign it. -/
theorem Handling.keeps_waiting (h : Handling s m msg m' os) (hphase : m.phase = .violationWait t)
    (hactive : m.active = some p) (hlive : s.gone p.id = false) (hsends : sends os = []) :
    (m'.active = some p ∧ m'.phase = .violationWait t) ∨
      msg = .fire m.generation ∧ ∃ refusal, s.authorizer p.request = .error refusal ∧
        (p.id, .error (.authorization refusal)) ∈ answers os := by
  have kept {k : Manager} {ps : List Output} (next : Activation s k m' ps)
      (hk : k.active = some p) (hsame : k.phase = m.phase) :
      m'.active = some p ∧ m'.phase = .violationWait t := by
    rw [next.eq_of_active hk]
    exact ⟨hk, hsame.trans hphase⟩
  cases h with
  | seeded haccepted next => exact .inl (kept next hactive rfl)
  | seedRefused hrefused hpaused hlapse next => exact .inl (kept next hactive rfl)
  | joinedGone hgone => exact .inl ⟨hactive, hphase⟩
  | joined hq next => exact .inl (kept next hactive rfl)
  | fireStale hstale => exact .inl ⟨hactive, hphase⟩
  | fireIdle hother => exact .inl ⟨hactive, hphase⟩
  | resumed hsuspended next => exact nomatch hphase.symm.trans hsuspended
  | fireEmpty _ hnone next => exact nomatch hnone.symm.trans hactive
  | skipped _ hsome hgone next =>
    obtain rfl := Option.some.inj (hactive.symm.trans hsome)
    exact nomatch hgone.symm.trans hlive
  | unsigned _ hsome _ hunsigned next =>
    obtain rfl := Option.some.inj (hactive.symm.trans hsome)
    refine .inr ⟨rfl, _, hunsigned, ?_⟩
    show _ ∈ answers ((m.back.finish _).outputs ++ _)
    rw [answers_append, finish_answers, show m.back.active = some p from hactive]
    exact List.mem_append_left _ (List.mem_singleton_self _)
  | sent _ _ _ _ => cases hsends
  | stray hstray => exact .inl ⟨hactive, hphase⟩
  | lost hsending next => exact nomatch hphase.symm.trans hsending
  | passed hsending haccepted hclear next => exact nomatch hphase.symm.trans hsending
  | suspended hsending haccepted hmalformed hresume => exact nomatch hphase.symm.trans hsending
  | refused hsending hrefused hlapse next => exact nomatch hphase.symm.trans hsending

end Manager

/-! ## Actors -/

namespace Actor

variable {s : Surroundings} {a b : Actor} {d : Deed} {ns : List Mark} {p : Pending} {t : Moment}

/-- A running actor waits to send a request again, unless the caller is gone. -/
structure Resends (p : Pending) (t : Moment) (s : Surroundings) (a : Actor) : Prop where
  sound : Sound s.now a
  holds : a.stage = .running → s.gone p.id = false →
    a.manager.active = some p ∧ a.manager.phase = .violationWait t

theorem Resends.mono {u : Surroundings} (h : Resends p t s a) (hle : s.Leads u) :
    Resends p t u a where
  sound := h.sound.mono hle.now
  holds hstage hlive := by
    refine h.holds hstage ?_
    by_contra hgone
    rw [hle.gone p.id (eq_true_of_ne_false hgone)] at hlive
    cases hlive

/-- The authorizer refuses to sign a request that has waited, which its caller learns. -/
def Unsigned (p : Pending) (t : Moment) (s : Surroundings) (os : List Output) : Prop :=
  t ≤ s.now ∧ s.gone p.id = false ∧ ∃ refusal, s.authorizer p.request = .error refusal ∧
    (p.id, .error (.authorization refusal)) ∈ answers os

/-- It waits through a step in which it sends nothing, unless the authorizer refuses to sign. -/
theorem Resends.step {os : List Output} (h : Resends p t s a) (hadvance : Advance s a b os)
    (hsilent : sends os = []) (hsigned : ¬ Unsigned p t s os) : Resends p t s b where
  sound := hadvance.sound h.sound
  holds hstage hlive := by
    obtain ⟨hrunning, msg, c, m', htakes, hhandled, rfl⟩ := hadvance.running hstage
    obtain ⟨hactive, hphase⟩ := h.holds hrunning hlive
    refine (hhandled.keeps_waiting hphase hactive hlive hsilent).resolve_right ?_
    rintro ⟨hmsg, hrefused⟩
    obtain ⟨u, hu, hdue⟩ := h.sound.due hrunning htakes hmsg
    rw [hphase] at hu
    cases hu
    exact hsigned ⟨hdue, hlive, hrefused⟩

/-- What it sends is the request, when it has waited. -/
theorem Resends.sends (h : Resends p t s a) (hc : Change a d b ns) {id : Nat}
    (hid : id ∈ sentIn ns) : s.gone p.id = true ∨ id = p.id ∧ t ≤ s.now := by
  obtain ⟨hrunning, q, u, hactive, rfl, hphase, hdue⟩ := hc.sends_active h.sound hid
  cases hgone : s.gone p.id with
  | true => exact .inl rfl
  | false =>
    obtain ⟨hp, hwaits⟩ := h.holds hrunning hgone
    obtain rfl := Option.some.inj (hactive.symm.trans hp)
    rw [hwaits] at hphase
    rcases hphase with hphase | hphase <;> cases hphase
    exact .inr ⟨rfl, hdue⟩

/-! ### Results -/

/-- The result that the end of a transmission gives the caller: the failure of the transport, or
what becomes of a reply. A refusal gives none. -/
inductive Outcome (m : Manager) : Except TransportFailure Reply → Except Failure Reply → Prop where
  | lost (e : TransportFailure) : Outcome m (.error e) (.error (.transport e))
  | passed {reply : Reply} (haccepted : reply.isViolation = false) :
      Outcome m (.ok reply) ((m.heard reply).resultOf reply)

/-- A running actor answers nobody when it handles a command. -/
theorem answers_of_command {step : Step} (h : a.command s = some step)
    (hstage : step.actor.stage = .running) : answers step.outputs = [] := by
  refine List.eq_nil_iff_forall_not_mem.2 fun ⟨id, result⟩ hmem => ?_
  obtain ⟨-, msg, c, m', htakes, hhandled, hactor⟩ := (command_advance h).running hstage
  have hinbox := command_inbox h hstage
  rw [hactor, after_inbox] at hinbox
  -- a message that answers somebody is a signal, which would be gone from the inbox
  have gone {x : Signal} {rest : List Signal} (htaken : a.inbox = x :: rest) (hc : c.inbox = rest) :
      False := by
    have hlength := congrArg List.length (hc.symm.trans (hinbox.trans htaken))
    rw [List.length_cons] at hlength
    omega
  obtain ⟨p, -, -, hresult⟩ := hhandled.answered hmem
  cases htakes with
  | seed hmailbox => cases hresult
  | queue hmailbox => cases hresult
  | fire htaken => exact gone htaken rfl
  | reply htaken => exact gone htaken rfl

/-- A running actor answers its active request: its authorizer refused it, or it came to an end. -/
theorem answered_of_signal {step : Step} {id : Nat} {result : Except Failure Reply}
    (h : a.signal s = some step) (hstage : step.actor.stage = .running)
    (hmem : (id, result) ∈ answers step.outputs) :
    ∃ p, a.manager.active = some p ∧ id = p.id ∧
      ((∃ t refusal, (a.manager.phase = .activating t ∨ a.manager.phase = .violationWait t) ∧
          s.authorizer p.request = .error refusal ∧ result = .error (.authorization refusal)) ∨
        ∃ r rest, a.inbox = .reply r :: rest ∧ Outcome a.manager r result) := by
  obtain ⟨-, msg, c, m', htakes, hhandled, -⟩ := (signal_advance h).running hstage
  obtain ⟨p, hactive, hid, hresult⟩ := hhandled.answered hmem
  refine ⟨p, hactive, hid, ?_⟩
  cases hresult with
  | unsigned hphase hsigned =>
    obtain ⟨t, ht⟩ := hphase
    exact .inl ⟨t, _, ht, hsigned, rfl⟩
  | lost e =>
    cases htakes with
    | reply hinbox => exact .inr ⟨_, _, hinbox, .lost e⟩
  | passed haccepted =>
    cases htakes with
    | reply hinbox => exact .inr ⟨_, _, hinbox, .passed haccepted⟩

end Actor

end Throttle
