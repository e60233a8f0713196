import Throttle.Proofs.Limiter.Delivery
import Throttle.Proofs.Limiter.Later
import Throttle.Proofs.Limiter.Listeners
import Throttle.Proofs.Limiter.Room
import Throttle.Proofs.Manager.Suspension

/-!
  Malformed rate limit headers, over the runs of a limiter. When a manager takes in a reply to its
  request whose headers make no sense, the caller gets the reply all the same, the manager keeps what
  it knew, and it hands nothing to the transport until the backoff is over, whatever comes in the
  meantime. But a backoff that is over only after the end of the calendar ends the manager: nobody
  hears that the policy rests, and nothing is sent any more (`malformed_suspends`).
-/

namespace Throttle

open Http Actor

namespace Limiter

variable {w : Limiter} {i : Nat} {a : Actor} {p : Pending} {reply : Reply} {step : Actor.Step}
  {t : Moment}

/-! ## What a step shows -/

/-- What an output of a step of a manager shows, the step shows. -/
theorem mem_commit {x : Happening} {o : Output} {k : Nat}
    (hx : ∀ w, x ∈ (perform k (managerSpan step.actor) w o).2) (h : o ∈ step.outputs)
    (w : Limiter) : x ∈ (w.commit k step).2 := by
  refine List.mem_append_left _ ?_
  generalize { w with actors := w.actors.set k step.actor } = v
  generalize step.outputs = os at h
  induction os generalizing v with
  | nil => cases h
  | cons o os ih =>
    rw [each_cons]
    rcases List.mem_cons.1 h with rfl | h
    · exact List.mem_append_left _ (hx v)
    · exact List.mem_append_right _ (ih _ h)

/-- Listeners are told what a step of a manager tells them. -/
theorem event_mem_commit {e : Event} (h : .event e ∈ step.outputs) (w : Limiter) (k : Nat) :
    .event e ∈ (w.commit k step).2 :=
  mem_commit (fun w => by cases e <;> exact .head _) h w

/-! ## Taking in malformed headers -/

/-- The request that a running manager has under way came to a reply that was not refused, and the
reply is the next signal that the manager handles. It names a policy, but its rate limit headers are
malformed. -/
structure Garbled (w : Limiter) (i : Nat) (p : Pending) (reply : Reply) (a : Actor) : Prop where
  there : w.actors[i]? = some a
  running : a.stage = .running
  sending : a.manager.phase = .sending
  active : a.manager.active = some p
  next : ∃ rest, a.inbox = .reply (.ok reply) :: rest
  accepted : reply.isViolation = false
  named : namesPolicy reply.headers = true
  malformed : Policy.Malformed reply.headers

/-- What taking in malformed headers comes to: a suspension until the end of the backoff, if that is in
the calendar, and else the end of the manager. -/
structure Suspends (w : Limiter) (i : Nat) (p : Pending) (reply : Reply) (a : Actor)
    (resume : Moment) : Prop where
  /-- The caller gets the reply if it is a success. -/
  paid : p.id ∉ w.dropped →
    (p.id, if reply.isSuccess then .ok reply
      else .error (.unexpectedStatus a.manager.policy.name reply.status)) ∈
        delivered (w.step (.signal i)).2
  /-- The manager waits with what it knew before, and its queue stays. -/
  waits : Moment.InRange resume → ∃ b, (w.step (.signal i)).1.actors[i]? = some b ∧
    b.stage = .running ∧ b.manager.Invalidates a.manager ∧ b.manager.queue = a.manager.queue ∧
    b.manager.active = none ∧ b.manager.phase = .suspended resume
  /-- The listeners are told. -/
  announced : Moment.InRange resume → ∃ message,
    .event (.diagnostic a.manager.policy.name message) ∈ (w.step (.signal i)).2
  /-- The manager fails, the listeners hear that the policy is invalid and nothing of a suspension, and
  nothing leaves the manager any more. -/
  fails : ¬ Moment.InRange resume →
    (∃ b, (w.step (.signal i)).1.actors[i]? = some b ∧ b.stage = .failed) ∧
    told (w.step (.signal i)).2 = [.policyUpdated a.manager.policy.invalidated] ∧
    ∀ between n, sentBy i (((w.step (.signal i)).1.after between).step n).2 = []
  /-- Nothing leaves the manager before the end of the backoff. -/
  silent : ∀ between n id,
    id ∈ sentBy i (((w.step (.signal i)).1.after between).step n).2 →
    resume ≤ ((w.step (.signal i)).1.after between).now

/-- A manager that is suspended sends nothing before its time. -/
theorem le_of_dormant (ha : w.actors[i]? = some a) (h : Dormant t w.surroundings a)
    (between : List Move) (n : Move) {id : Nat}
    (hsent : id ∈ sentBy i ((w.after between).step n).2) : t ≤ (w.after between).now := by
  obtain ⟨b, hb, hlater⟩ := later_induction (fun h hle => h.mono hle.now)
    (fun _ _ h => ⟨⟨h.sound.wired, h.sound.settled⟩, h.holds⟩)
    (fun h hc hat => h.change hc hat) ha h between
  obtain ⟨-, d, -, hmark⟩ := mark_of_sentBy hb hsent
  exact hlater.sends (undergo_change b d) hmark

/-- A manager that has failed sends nothing any more: it is as good as suspended until any instant. -/
theorem unsent_of_failed (ha : w.actors[i]? = some a) (hsound : Sound w.now a)
    (hfailed : a.stage = .failed) (between : List Move) (n : Move) :
    sentBy i ((w.after between).step n).2 = [] := by
  refine List.eq_nil_iff_forall_not_mem.2 fun id hsent => ?_
  have hdormant (t : Moment) : Dormant t w.surroundings a :=
    ⟨hsound, fun hstage => nomatch hfailed.symm.trans hstage⟩
  exact absurd (le_of_dormant ha (hdormant ((w.after between).now + 1)) between n hsent)
    (Int.not_le.2 (Int.lt_succ _))

theorem Garbled.declared (h : Garbled w i p reply a) :
    ∃ e, Manager.declaration reply = some (.error e) := by
  obtain ⟨e, he⟩ := Policy.malformed_iff.1 h.malformed
  exact ⟨e, Manager.declaration_malformed_iff.2 ⟨h.named, he⟩⟩

theorem Garbled.suspends (h : Garbled w i p reply a) (hsound : Sound w.now a) {config : Config}
    (hconfig : w.config = config) :
    Suspends w i p reply a (w.now + config.invalidPolicyBackoff) := by
  subst hconfig
  obtain ⟨rest, hinbox⟩ := h.next
  obtain ⟨e, he⟩ := h.declared
  -- the step of the manager, and the move that it makes
  obtain ⟨step, hstep, hsignal⟩ : ∃ step : Actor.Step,
      step = ({ a with inbox := rest } : Actor).finish .running []
        (a.manager.receive w.surroundings (.reply (.ok reply))) ∧
      a.signal w.surroundings = some step := ⟨_, rfl, signal_of_reply h.running hinbox⟩
  have hmove := step_signal h.there hsignal
  have houtputs : step.outputs =
      (a.manager.receive w.surroundings (.reply (.ok reply))).outputs := by
    rw [hstep, finish_outputs]
  have hafter : (w.step (.signal i)).1.actors[i]? = some step.actor := by
    rw [hmove]
    exact actor_commit h.there step
  have hsafe : Sound (w.step (.signal i)).1.now step.actor :=
    ((signal_advance hsignal).sound hsound).mono (leads_step w _).now
  have hturn (hrange : Moment.InRange (w.now + w.config.invalidPolicyBackoff)) :=
    Manager.receive_suspends (s := w.surroundings) h.sending h.accepted he
      (Moment.after_eq_ok_iff.2 ⟨hrange, rfl⟩)
  constructor
  · intro hlive
    rw [hmove]
    refine mem_delivered_commit ?_ hlive i
    rw [houtputs, Manager.answers_of_malformed h.sending h.accepted he, h.active]
    exact .head _
  · intro hrange
    refine ⟨_, hafter, ?_⟩
    rw [hstep, finish_of_ok (hturn hrange).1]
    exact ⟨rfl, Manager.invalidates_of_malformed he a.manager _, rfl, rfl, rfl⟩
  · intro hrange
    have htold := (hturn hrange).2
    rw [← houtputs] at htold
    rw [hmove]
    exact ⟨_, event_mem_commit htold w i⟩
  · intro hover
    obtain ⟨hfails, htells⟩ := Manager.receive_unsuspended (s := w.surroundings) h.sending h.accepted
      he (Moment.after_of_not_inRange hover)
    have hfailed : step.actor.stage = .failed := by
      rw [hstep]
      exact finish_of_fails hfails
    refine ⟨⟨_, hafter, hfailed⟩, ?_, unsent_of_failed hafter hsafe hfailed⟩
    rw [hmove, told_commit, houtputs, htells]
  · intro between n id hsent
    refine le_of_dormant hafter ⟨hsafe, fun hstage => .inl ?_⟩ between n hsent
    rw [hstep] at hstage ⊢
    obtain ⟨m', hm'⟩ := finish_ok (by rw [hstage]; intro hfailed; cases hfailed)
    rw [finish_of_ok hm']
    exact Manager.phase_of_malformed h.sending h.accepted he hm'

/-- In every run, malformed headers in the reply to a request suspend the manager: the caller gets
its result, the rules stay, and nothing leaves the manager before the backoff is over. If the backoff
oversteps the calendar, the caller gets its result, and the manager is over. -/
theorem malformed_suspends (config : Config) (authorizer : Authorizer) (now : Moment)
    (ms : List Move) (h : ((new config authorizer now).after ms).Garbled i p reply a) :
    ((new config authorizer now).after ms).Suspends i p reply a
      (((new config authorizer now).after ms).now + config.invalidPolicyBackoff) :=
  h.suspends (sound_run rfl ms h.there) (leads_run (new config authorizer now) ms).config

/-- A reply at the start that names the policy of `sharedReply` and none of its rules. -/
def garbledReply : Reply :=
  { sharedReply 1 with headers := Policy.put .empty policyHeader "s".toList }

/-- Of two requests, the first one is sent and comes to malformed headers. -/
def garbledRun : List Move :=
  [.submit plainEndpoint plainRequest, .submit plainEndpoint plainRequest,
    .startProbe plainEndpoint, .endProbe plainEndpoint (.ok (sharedReply 1)), .settle plainEndpoint,
    .command 0, .command 0, .command 0, .elapse 2000000000, .ring 0, .signal 0,
    .returned 0 1 (.ok garbledReply)]

/-- The probe of another endpoint brings a valid policy. The backoff is over after a minute, and the
second request waits for its alarm. -/
def garbledWait : List Move :=
  [.submit otherEndpoint plainRequest, .startProbe otherEndpoint,
    .endProbe otherEndpoint (.ok (sharedReply 1)), .settle otherEndpoint, .command 0, .command 0,
    .elapse 60000000000, .ring 0, .signal 0, .elapse 2000000000, .ring 0]

/-- Settings under which a policy rests for as many milliseconds as a word can count. -/
def endlessBackoff : Config := Config.default.set .invalidPolicyBackoff 18446744073709551615

theorem garbled_of_shape {w : Limiter}
    (hshape : (w.actors[0]?).map (fun a =>
      (a.stage, a.manager.phase, a.manager.active.map (·.id), a.inbox.length)) =
        some (.running, .sending, some 1, 1))
    (hresults : (w.actors[0]?).map (fun a => resultsIn a.inbox) = some [.ok garbledReply]) :
    ∃ p a, w.Garbled 0 p garbledReply a ∧ p.id = 1 := by
  have hunread : (Policy.ofHeaders? garbledReply.headers).toOption.isNone = true := by
    decide +kernel
  obtain ⟨a, ha, hstate⟩ := Option.map_eq_some_iff.1 hshape
  rw [ha, Option.map_some, Option.some.injEq] at hresults
  simp only [Prod.mk.injEq] at hstate
  obtain ⟨hrunning, hsending, hactive, hlength⟩ := hstate
  obtain ⟨p, hp, hid⟩ := Option.map_eq_some_iff.1 hactive
  refine ⟨p, a, ?_, hid⟩
  exact {
    there := ha
    running := hrunning
    sending := hsending
    active := hp
    next := reply_of_resultsIn hlength hresults
    accepted := by decide
    named := by decide +kernel
    malformed := fun policy hpolicy => by
      rw [hpolicy] at hunread
      cases hunread }

/-- In spite of the valid policy, the second request leaves after the minute. With an endless backoff,
which is a valid setting, the manager fails. -/
theorem malformed_suspends_garbledRun :
    (∃ p a, ((new .default .none 0).after garbledRun).Garbled 0 p garbledReply a ∧ p.id = 1 ∧
      p.id ∉ ((new .default .none 0).after garbledRun).dropped ∧
      Moment.InRange 62000000000 ∧
      ((new .default .none 0).after garbledRun).Suspends 0 p garbledReply a 62000000000 ∧
      2 ∈ sentBy 0 (((((new .default .none 0).after garbledRun).step (.signal 0)).1.after
        garbledWait).step (.signal 0)).2) ∧
    endlessBackoff.Valid ∧
    ∃ p a b, ((new endlessBackoff .none 0).after garbledRun).Garbled 0 p garbledReply a ∧
      (((new endlessBackoff .none 0).after garbledRun).step (.signal 0)).1.actors[0]? = some b ∧
      b.stage = .failed := by
  constructor
  · have hnow : ((new .default .none 0).after garbledRun).now = 2000000000 := by decide +kernel
    obtain ⟨p, a, hgarbled, hid⟩ :=
      garbled_of_shape (w := (new .default .none 0).after garbledRun) (by decide +kernel)
        (by decide +kernel)
    have hsuspends := malformed_suspends .default .none 0 garbledRun hgarbled
    rw [hnow] at hsuspends
    exact ⟨p, a, hgarbled, hid, by rw [hid]; decide +kernel, by decide, hsuspends,
      by decide +kernel⟩
  · have hnow : ((new endlessBackoff .none 0).after garbledRun).now = 2000000000 := by
      decide +kernel
    obtain ⟨p, a, hgarbled, -⟩ :=
      garbled_of_shape (w := (new endlessBackoff .none 0).after garbledRun) (by decide +kernel)
        (by decide +kernel)
    have hsuspends := malformed_suspends endlessBackoff .none 0 garbledRun hgarbled
    rw [hnow] at hsuspends
    obtain ⟨⟨b, hb, hfailed⟩, -⟩ := hsuspends.fails (by decide +kernel)
    have hvalid : endlessBackoff.fault? = none := by decide +kernel
    exact ⟨hvalid, p, a, b, hgarbled, hb, hfailed⟩

end Limiter

end Throttle
