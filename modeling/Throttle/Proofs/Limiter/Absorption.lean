import Throttle.Proofs.Limiter.Delivery
import Throttle.Proofs.Limiter.Later
import Throttle.Proofs.Limiter.Room
import Throttle.Proofs.Manager.Absorption

/-!
  Refusals of requests that were sent, over the runs of a limiter. A refusal reaches no caller: the
  request keeps its place, the queue behind it stays, and the next that its manager hands to the
  transport is that request, when it has waited as long as the refusal asks, unless its caller has
  stopped waiting (`Absorbed`). What a running manager delivers for a request that it has sent is
  never a refusal of the server (`refusal_absorbed`).

  There is one exception. The authorizer is asked again when the wait is over, with the credentials of
  that moment, and it may refuse what it signed before. Then its refusal goes to the caller, nothing
  is sent, and the manager turns to its queue (`Denied`, `resend_denied`).
-/

namespace Throttle

open Http Actor

namespace Limiter

variable {w v : Limiter} {m : Move} {i : Nat} {a b : Actor} {p : Pending} {reply : Reply}
  {resume : Moment}

/-! ## Taking in a refusal -/

/-- The request that a running manager has under way was refused, its caller still waits, and the
refusal is the next signal that the manager handles. -/
structure Refused (w : Limiter) (i : Nat) (p : Pending) (reply : Reply) (a : Actor) : Prop where
  there : w.actors[i]? = some a
  running : a.stage = .running
  sending : a.manager.phase = .sending
  active : a.manager.active = some p
  next : ∃ rest, a.inbox = .reply (.ok reply) :: rest
  refused : reply.isViolation = true
  held : p.id ∉ w.dropped

/-- The authorizer refuses in a move to sign a request that has waited to be sent again, and the caller
learns that. -/
structure Denied (w : Limiter) (i : Nat) (p : Pending) (resume : Moment) (m : Move) : Prop where
  acts : m.actor? = some i
  due : resume ≤ w.now
  refused : ∃ refusal, w.authorizer p.request = .error refusal ∧
    (p.id, .error (.authorization refusal)) ∈ delivered (w.step m).2

/-- What taking in a refusal comes to: nobody gets a result, the request stays active with the queue
behind it, and nothing else leaves the manager before that request does, at an instant or later,
unless its caller stops waiting or the authorizer refuses to sign it again. -/
structure Absorbed (w : Limiter) (i : Nat) (p : Pending) (a : Actor) (resume : Moment) : Prop where
  unresolved : delivered (w.step (.signal i)).2 = [] ∧
    (w.step (.signal i)).1.answered = w.answered
  waits : ∃ b, (w.step (.signal i)).1.actors[i]? = some b ∧ b.stage = .running ∧
    b.manager.active = some p ∧ b.manager.queue = a.manager.queue ∧
    b.manager.phase = .violationWait resume
  resent : ∀ between n id,
    sentBy i (((w.step (.signal i)).1.run between).2.map (·.what)) = [] →
    id ∈ sentBy i ((((w.step (.signal i)).1.after between).step n).2) →
    p.id ∈ ((w.step (.signal i)).1.after between).dropped ∨
      (id = p.id ∧ resume ≤ ((w.step (.signal i)).1.after between).now) ∨
      ∃ front m back, between = front ++ m :: back ∧
        ((w.step (.signal i)).1.after front).Denied i p resume m

theorem gone_eq_false {id : Nat} (h : id ∉ w.dropped) : w.surroundings.gone id = false := by
  show w.dropped.contains id = false
  simpa using h

/-- A manager that waits to send a request again waits through a move in which it sends nothing, unless
the authorizer refuses to sign. -/
theorem resends_step (hb : v.actors[i]? = some b) (h : Resends p resume v.surroundings b)
    (hsilent : sentBy i (v.step m).2 = []) (hsigned : ¬ v.Denied i p resume m) :
    ∃ c, (v.step m).1.actors[i]? = some c ∧ Resends p resume (v.step m).1.surroundings c := by
  have moved {c : Actor} (hc : (v.step m).1.actors[i]? = some c)
      (h : Resends p resume v.surroundings c) :
      ∃ c, (v.step m).1.actors[i]? = some c ∧ Resends p resume (v.step m).1.surroundings c :=
    ⟨c, hc, h.mono (leads_step v m)⟩
  obtain ⟨c, hc⟩ := step_keeps v m hb
  cases step_touches v m i hc with
  | @fed a ha hother cs connected hseeds =>
    obtain rfl := Option.some.inj (hb.symm.trans ha)
    exact moved hc ⟨⟨h.sound.wired, h.sound.settled⟩, h.holds⟩
  | made name hnone hprobe cs connected => exact nomatch hb.symm.trans hnone
  | @acted a d ha hacts hd =>
    obtain rfl := Option.some.inj (hb.symm.trans ha)
    rcases acting_cases hb hacts with ⟨-, e, he, hstage, hmanager⟩ | ⟨step, hstep, hmove⟩
    · -- the manager goes on as it was
      obtain rfl := Option.some.inj (hc.symm.trans he)
      refine moved hc ⟨(undergo_change b d).sound h.sound ?_, ?_⟩
      · rintro t rfl
        exact Int.le_of_eq (deed_at hd)
      · rw [hstage, hmanager]
        exact h.holds
    · -- it handles a message
      have hadvance : Advance v.surroundings b step.actor step.outputs := by
        rcases hstep with ⟨-, hstep⟩ | ⟨-, hstep⟩
        · exact command_advance hstep
        · exact signal_advance hstep
      have hplace : (v.step m).1.actors[i]? = some step.actor := by
        rw [hmove]
        exact actor_commit hb step
      rw [hmove, sentBy_of_senders (senders_commit v i step), if_pos rfl] at hsilent
      refine moved hplace (h.step hadvance hsilent fun hunsigned => hsigned ?_)
      obtain ⟨hdue, hlive, refusal, hrefused, hanswer⟩ := hunsigned
      refine ⟨hacts, hdue, refusal, hrefused, ?_⟩
      rw [hmove]
      refine mem_delivered_commit hanswer (fun hdropped => ?_) i
      exact nomatch hlive.symm.trans (List.contains_iff_mem.2 hdropped)

/-- A manager that waits to send a request again sends nothing else before, unless the authorizer
refuses to sign. -/
theorem resent_next (hb : v.actors[i]? = some b) (h : Resends p resume v.surroundings b)
    (between : List Move) (n : Move) {id : Nat}
    (hsilent : sentBy i ((v.run between).2.map (·.what)) = [])
    (hsent : id ∈ sentBy i ((v.after between).step n).2) :
    p.id ∈ (v.after between).dropped ∨ (id = p.id ∧ resume ≤ (v.after between).now) ∨
      ∃ front m back, between = front ++ m :: back ∧ (v.after front).Denied i p resume m := by
  induction between generalizing v b with
  | nil =>
    obtain ⟨-, d, -, hmark⟩ := mark_of_sentBy hb hsent
    exact (h.sends (undergo_change b d) hmark).imp List.contains_iff_mem.1 .inl
  | cons m between ih =>
    rw [run_cons_what, sentBy_append, List.append_eq_nil_iff] at hsilent
    by_cases hdenied : v.Denied i p resume m
    · exact .inr (.inr ⟨[], m, between, rfl, hdenied⟩)
    · obtain ⟨c, hc, hlater⟩ := resends_step hb h hsilent.1 hdenied
      rcases ih hc hlater hsilent.2 hsent with hdropped | hmine | ⟨front, n, back, rfl, hlast⟩
      · exact .inl hdropped
      · exact .inr (.inl hmine)
      · exact .inr (.inr ⟨m :: front, n, back, rfl, hlast⟩)

/-- A delay before an instant in the calendar is over within the calendar. -/
theorem after_of_resume {now : Moment} {wait buffer : Delay} (hfirst : Moment.first ≤ now)
    (hrange : Moment.InRange (now + wait + buffer)) : Moment.after now wait = .ok (now + wait) := by
  refine Moment.after_eq_ok_iff.2 ⟨⟨?_, ?_⟩, rfl⟩
  · exact Int.le_trans hfirst (Int.le_add_of_nonneg_right (Int.natCast_nonneg wait))
  · exact Int.le_trans (Int.le_add_of_nonneg_right (Int.natCast_nonneg buffer)) hrange.2

/-- A refusal is absorbed, as long as the instant to send again is in the calendar. -/
theorem Refused.absorbed (h : Refused w i p reply a) (hsound : Sound w.now a)
    {config : Config} (hconfig : w.config = config)
    {wait : Delay} (hwait : Manager.Asks config (a.manager.policyAfter reply) reply wait)
    (hfirst : Moment.first ≤ w.now)
    (hrange : Moment.InRange (w.now + wait + config.violationBuffer)) :
    Absorbed w i p a (w.now + wait + config.violationBuffer) := by
  subst hconfig
  obtain ⟨rest, hinbox⟩ := h.next
  have hlive := gone_eq_false h.held
  obtain rfl : wait = (a.manager.heard reply).violationWait w.surroundings reply :=
    Manager.asks_iff.1 hwait
  generalize hd : (a.manager.heard reply).violationWait w.surroundings reply = wait at *
  have hlapse : Moment.after w.surroundings.now
      ((a.manager.heard reply).violationWait w.surroundings reply) = .ok (w.now + wait) := by
    rw [hd]
    exact after_of_resume hfirst hrange
  obtain ⟨m', hm'⟩ := Manager.receive_refused h.sending h.active hlive h.refused hlapse
    (Moment.after_eq_ok_iff.2 ⟨hrange, rfl⟩)
  have hhandled := (Manager.receive_ends w.surroundings a.manager (.reply (.ok reply))).result hm'
  obtain ⟨hactive, hqueue, hphase⟩ := hhandled.absorbs h.sending h.active hlive h.refused
  have hsilent := hhandled.answers_of_refused h.refused
  -- the step of the manager, and the move that it makes
  have hsignal := signal_of_reply (s := w.surroundings) h.running hinbox
  rw [finish_of_ok hm'] at hsignal
  have hmove := step_signal h.there hsignal
  have hdelivered : delivered (w.step (.signal i)).2 = [] := by
    rw [hmove, delivered_commit w i rfl]
    dsimp only
    rw [hsilent]
    rfl
  have hthere : (w.step (.signal i)).1.actors[i]? =
      some (({ a with inbox := rest } : Actor).after .running m'
        (a.manager.receive w.surroundings (.reply (.ok reply))).outputs) := by
    rw [hmove]
    exact actor_commit h.there _
  refine ⟨⟨hdelivered, ?_⟩, ⟨_, hthere, rfl, hactive, hqueue, hd ▸ hphase⟩, ?_⟩
  · rw [hmove, answered_commit w i rfl, ← hmove, hdelivered]
    rfl
  · intro between n id hnone hsent
    refine resent_next hthere (.mono ⟨?_, ?_⟩ (leads_step w _)) between n hnone hsent
    · exact (signal_advance hsignal).sound hsound
    · exact fun _ _ => ⟨hactive, hd ▸ hphase⟩

/-! ## Results -/

/-- A manager delivers a result in a move, and goes on. -/
structure Delivers (w : Limiter) (m : Move) (i id : Nat) (result : Except Failure Reply) :
    Prop where
  acts : m.actor? = some i
  running : ∃ b, (w.step m).1.actors[i]? = some b ∧ b.stage = .running
  delivered : .answered id result ∈ (w.step m).2

/-- A request that waits to leave for the first time was not sent. -/
theorem unsent_of_activating (hl : Lined w' (w.log ms)) (hactors : w.actors = []) {t : Moment}
    (ha : (w.after ms).actors[i]? = some a) (hstage : a.stage = .running)
    (hactive : a.manager.active = some p) (hphase : a.manager.phase = .activating t) :
    p.id ∉ sentIn (w.passagesOver i ms) := by
  obtain ⟨name, ds, rfl, hover⟩ := run_lives hactors ms ha
  obtain ⟨now, ho⟩ := orderly_live name ds
  rw [hover]
  have hnodup := hl.entered_nodup i
  rw [marksOf_log, hover] at hnodup
  have hfresh : p.id ∈ ((Actor.new name).live ds).fresh := by
    rw [fresh_of_running hstage]
    simp [Manager.untried, hphase, hactive]
  intro hsent
  exact (List.nodup_append.1 (ho.order.nodup hnodup)).2.2 _ (List.mem_eraseDups.2 hsent) _ hfresh
    rfl

/-- Where the result that a running manager delivers for a request that it has sent comes from: the end
of a transmission that was not refused, or an authorizer that refuses to sign the request again. -/
inductive Source (w : Limiter) (m : Move) (i id : Nat) (result : Except Failure Reply) : Prop where
  | ended (a : Actor) {r : Except TransportFailure Reply} {rest : List Signal}
      (ha : w.actors[i]? = some a) (hm : m = .signal i) (hinbox : a.inbox = .reply r :: rest)
      (haccepted : Actor.refused r = false) (h : Outcome a.manager r result)
  | denied (a : Actor) {p : Pending} {t : Moment} {refusal : Refusal}
      (ha : w.actors[i]? = some a) (hm : m = .signal i) (hactive : a.manager.active = some p)
      (hid : id = p.id) (hphase : a.manager.phase = .violationWait t)
      (hrefused : w.authorizer p.request = .error refusal)
      (h : result = .error (.authorization refusal))

theorem source_of_delivers (hl : Lined w' (w.log ms)) (hactors : w.actors = []) {id : Nat}
    {result : Except Failure Reply} (h : (w.after ms).Delivers m i id result)
    (hsent : id ∈ sentBy i ((w.run ms).2.map (·.what))) : (w.after ms).Source m i id result := by
  obtain ⟨b, hb, hstage⟩ := h.running
  have hacted : ∃ a, (w.after ms).actors[i]? = some a := by
    cases step_touches (w.after ms) m i hb with
    | fed ha hother cs connected hseeds => exact absurd h.acts hother
    | made name hnone hprobe cs connected =>
      have hacts := h.acts
      cases m <;> cases hacts <;> exact absurd rfl hprobe
    | acted ha hacts hd => exact ⟨_, ha⟩
  obtain ⟨a, ha⟩ := hacted
  obtain ⟨step, hstep, rfl, hanswer⟩ :=
    delivered_acting ha h.acts hb hstage (mem_delivered.2 h.delivered)
  rcases hstep with ⟨-, hstep⟩ | ⟨hm, hstep⟩
  · rw [answers_of_command hstep hstage] at hanswer
    cases hanswer
  · have hrunning := ((signal_advance hstep).running hstage).1
    obtain ⟨p, hactive, rfl, ⟨t, refusal, hphase, hrefused, hresult⟩ | ⟨r, rest, hinbox, houtcome⟩⟩ :=
      answered_of_signal hstep hstage hanswer
    · rw [← sentIn_passagesOver] at hsent
      rcases hphase with hphase | hphase
      · exact absurd hsent (unsent_of_activating hl hactors ha hrunning hactive hphase)
      · exact .denied a ha hm hactive rfl hphase hrefused hresult
    · refine .ended a ha hm hinbox ?_ houtcome
      cases houtcome with
      | lost e => rfl
      | passed haccepted => exact haccepted

/-- In every run, a refusal of a request that was sent is absorbed: its caller gets nothing, and the
request is sent again, unless the authorizer refuses to sign it once more. What a running manager
delivers for a request that it has sent is a failure of the transport, what becomes of a reply that is
no refusal, or what the authorizer says when the request is to be sent again. -/
theorem refusal_absorbed (config : Config) (authorizer : Authorizer) {now : Moment}
    (hnow : Moment.InRange now) (ms : List Move) :
    (∀ i p reply a wait, ((new config authorizer now).after ms).Refused i p reply a →
      Manager.Asks config (a.manager.policyAfter reply) reply wait →
      Moment.InRange
        (((new config authorizer now).after ms).now + wait + config.violationBuffer) →
      ((new config authorizer now).after ms).Absorbed i p a
        (((new config authorizer now).after ms).now + wait + config.violationBuffer)) ∧
    ∀ m i id result, ((new config authorizer now).after ms).Delivers m i id result →
      id ∈ sentBy i (((new config authorizer now).run ms).2.map (·.what)) →
      ((new config authorizer now).after ms).Source m i id result := by
  refine ⟨fun i p reply a wait h hwait hrange => ?_, fun m i id result h hsent => ?_⟩
  · have hleads := leads_run (new config authorizer now) ms
    exact h.absorbed (sound_run rfl ms h.there) hleads.config hwait
      (Int.le_trans hnow.1 hleads.now) hrange
  · exact source_of_delivers (lined_run rfl rfl ms) rfl h hsent

/-- Of two requests, the first one is sent and refused. -/
def overrunRun : List Move :=
  [.submit plainEndpoint plainRequest, .submit plainEndpoint plainRequest,
    .startProbe plainEndpoint, .endProbe plainEndpoint (.ok (sharedReply 1)), .settle plainEndpoint,
    .command 0, .command 0, .command 0, .elapse 2000000000, .ring 0, .signal 0,
    .returned 0 1 (.ok refusedReply)]

/-- The wait that the refusal asks for is over, and the alarm goes off. -/
def overrunWait : List Move := [.elapse 65200000000, .ring 0]

/-- The request leaves again and comes back with a reply that is no refusal. -/
def acceptedRun : List Move :=
  overrunRun ++ .signal 0 :: overrunWait ++ [.signal 0, .returned 0 1 (.ok (sharedReply 1))]

/-- The manager of `overrunRun` before it takes in the refusal, which says nothing about the wait; the
policy asks for a minute. -/
theorem refused_overrunRun :
    ∃ p a, ((new .default .none 0).after overrunRun).Refused 0 p refusedReply a ∧ p.id = 1 ∧
      Manager.Asks .default (a.manager.policyAfter refusedReply) refusedReply 60000000000 := by
  have hsome : ((new .default .none 0).after overrunRun).actors[0]?.isSome = true := by
    decide +kernel
  obtain ⟨a, ha⟩ := Option.isSome_iff_exists.1 hsome
  have hshape : (((new .default .none 0).after overrunRun).actors[0]?).map (fun a =>
      (a.stage, a.manager.phase, a.manager.active.map (·.id), a.inbox.length)) =
      some (.running, .sending, some 1, 1) := by decide +kernel
  have hresults : (((new .default .none 0).after overrunRun).actors[0]?).map (fun a =>
      resultsIn a.inbox) = some [.ok refusedReply] := by decide +kernel
  have hwait : (((new .default .none 0).after overrunRun).actors[0]?).map (fun a =>
      (a.manager.heard refusedReply).violationWait (new .default .none 0).surroundings
        refusedReply) = some 60000000000 := by decide +kernel
  rw [ha, Option.map_some, Option.some.injEq] at hshape hresults hwait
  simp only [Prod.mk.injEq] at hshape
  obtain ⟨hrunning, hsending, hactive, hlength⟩ := hshape
  obtain ⟨p, hp, hid⟩ := Option.map_eq_some_iff.1 hactive
  refine ⟨p, a, ?_, hid, ?_⟩
  · exact {
      there := ha
      running := hrunning
      sending := hsending
      active := hp
      next := reply_of_resultsIn hlength hresults
      refused := by decide
      held := by rw [hid]; decide +kernel }
  · exact (Manager.asks_iff (s := (new .default .none 0).surroundings)
      (m := a.manager.heard refusedReply)).2 hwait.symm

/-- The first request leaves again when the minute and the margin are over, and its caller gets what
becomes of the second reply. -/
theorem refusal_absorbed_overrunRun :
    ∃ p a, ((new .default .none 0).after overrunRun).Refused 0 p refusedReply a ∧ p.id = 1 ∧
      Manager.Asks .default (a.manager.policyAfter refusedReply) refusedReply 60000000000 ∧
      ((new .default .none 0).after overrunRun).Absorbed 0 p a 67200000000 ∧
      1 ∈ sentBy 0 (((((new .default .none 0).after overrunRun).step (.signal 0)).1.after
        overrunWait).step (.signal 0)).2 ∧
      p.id ∉ ((((new .default .none 0).after overrunRun).step (.signal 0)).1.after
        overrunWait).dropped ∧
      ∃ result, ((new .default .none 0).after acceptedRun).Delivers (.signal 0) 0 1 result ∧
        ((new .default .none 0).after acceptedRun).Source (.signal 0) 0 1 result := by
  have hnow : ((new .default .none 0).after overrunRun).now = 2000000000 := by decide +kernel
  have hagain : 1 ∈ sentBy 0 (((((new .default .none 0).after overrunRun).step (.signal 0)).1.after
      overrunWait).step (.signal 0)).2 := by decide +kernel
  obtain ⟨p, a, hrefused, hid, hasks⟩ := refused_overrunRun
  have habsorbed := (refusal_absorbed .default .none (by decide) overrunRun).1 0 p refusedReply a
    60000000000 hrefused hasks (by rw [hnow]; decide)
  rw [hnow] at habsorbed
  -- the reply after the second transmission
  have hpaid : (delivered (((new .default .none 0).after acceptedRun).step (.signal 0)).2).map
      (·.1) = [1] := by decide +kernel
  obtain ⟨⟨id, result⟩, hmem, rfl⟩ := List.mem_map.1 (hpaid.symm ▸ List.mem_singleton_self 1)
  have hgoes : ((((new .default .none 0).after acceptedRun).step (.signal 0)).1.actors[0]?).map
      (·.stage) = some .running := by decide +kernel
  have hdelivers : ((new .default .none 0).after acceptedRun).Delivers (.signal 0) 0 1 result :=
    ⟨rfl, Option.map_eq_some_iff.1 hgoes, mem_delivered.1 hmem⟩
  have hsource := (refusal_absorbed .default .none (by decide) acceptedRun).2 _ 0 1 result hdelivers
    (by decide +kernel)
  exact ⟨p, a, hrefused, hid, hasks, habsorbed, hagain, by rw [hid]; decide +kernel,
    result, hdelivers, hsource⟩

/-- An authorizer without a session. -/
def expired : Authorizer := fun _ => .error ⟨"session expired"⟩

/-- The session ends during the wait of `overrunRun`. The first request is not signed again, and a new
session comes in time for the second one. -/
def deniedWait : List Move :=
  .renew expired :: overrunWait ++ [.signal 0, .renew .none, .elapse 15000000000, .ring 0]

/-- The refusal of the first request in `overrunRun` asks to send it again at 67.2 s. Its caller waits
all the time, yet if the session ends during the wait the authorizer's refusal is its result, and the
next that the manager sends is the second request. If the limiter is stopped during the wait, that is
what both callers learn, and the manager is over. -/
theorem resend_denied :
    ∃ p a, ((new .default .none 0).after overrunRun).Refused 0 p refusedReply a ∧ p.id = 1 ∧
      Manager.Asks .default (a.manager.policyAfter refusedReply) refusedReply 60000000000 ∧
      ((((new .default .none 0).after overrunRun).step (.signal 0)).1.actors[0]?).map
        (fun b => (b.manager.active.map (·.id), b.manager.phase)) =
          some (some 1, .violationWait 67200000000) ∧
      sentBy 0 ((((new .default .none 0).after (overrunRun ++ [.signal 0])).run
        deniedWait).2.map (·.what)) = [] ∧
      sentBy 0 (((new .default .none 0).after
        (overrunRun ++ .signal 0 :: deniedWait)).step (.signal 0)).2 = [2] ∧
      1 ∉ ((new .default .none 0).after (overrunRun ++ .signal 0 :: deniedWait)).dropped ∧
      delivered ((((new .default .none 0).after (overrunRun ++ [.signal 0])).run
        deniedWait).2.map (·.what)) = [(1, .error (.authorization ⟨"session expired"⟩))] ∧
      delivered ((((new .default .none 0).after (overrunRun ++ [.signal 0])).run
        [.shutdown, .command 0]).2.map (·.what)) =
          [(1, .error .shutdown), (2, .error .shutdown)] ∧
      (((new .default .none 0).after
        (overrunRun ++ [.signal 0, .shutdown, .command 0])).actors[0]?).map (·.stage) =
          some .stopped := by
  obtain ⟨p, a, hrefused, hid, hasks⟩ := refused_overrunRun
  exact ⟨p, a, hrefused, hid, hasks, by decide +kernel, by decide +kernel, by decide +kernel,
    by decide +kernel, by decide +kernel, by decide +kernel, by decide +kernel⟩

end Limiter

end Throttle
