import Throttle.Proofs.Limiter.Later
import Throttle.Proofs.Limiter.Room
import Throttle.Proofs.Manager.Restriction

/-!
  Waits that the server asks for, over the runs of a limiter. From the move on in which a manager
  takes in a refusal, it hands nothing to the transport before the wait is over, with one exception
  (`refusal_heeded`): a refusal that came to a probe does not reach the request that has the active
  place already. That request leaves when it was planned to (`refusal_heeded_restrictedRun`).
-/

namespace Throttle

open Http

namespace Actor

variable {s : Surroundings} {a b : Actor} {i : Nat} {m : Move} {reply : Reply}

/-- A manager hears of a reply with its next message: of one that came to a probe, or to the request
that it has under way. -/
inductive Hears (a : Actor) (i : Nat) : Move → Reply → Prop where
  | probe {reply : Reply} {rest : List Command} (h : a.mailbox = .seed reply :: rest) :
      Hears a i (.command i) reply
  | own {reply : Reply} {rest : List Signal} (h : a.inbox = .reply (.ok reply) :: rest) :
      Hears a i (.signal i) reply

/-- An actor that goes on after a message has handled it. -/
theorem finish_handles {msg : Manager.Message} {holding : List Pending}
    (h : (b.finish .running holding (a.manager.receive s msg)).actor.stage = .running) :
    Manager.Handling s a.manager msg
      (b.finish .running holding (a.manager.receive s msg)).actor.manager
      (b.finish .running holding (a.manager.receive s msg)).outputs := by
  have hends := Manager.receive_ends s a.manager msg
  cases hr : (a.manager.receive s msg).result with
  | ok m' =>
    rw [finish_of_ok hr]
    exact hends.result hr
  | error e =>
    rw [finish_of_error hr (hends.quiet hr)] at h
    cases h

/-- What a move in which a manager hears of a refusal leaves behind. -/
theorem Hears.waits (h : a.Hears i m reply) (hs : Sound s.now a)
    (hrefused : reply.isViolation = true) {d : Deed} (hd : m.deed? s = some d) :
    ∃ x, Waits (s.now + ((a.manager.heard reply).violationWait s reply : Delay)) x s (a.undergo d) ∧
      ∀ id, x = some id → m = .command i ∧ a.manager.active.map (·.id) = some id := by
  have hchange := undergo_change a d
  have hsound : Sound s.now (a.undergo d) := by
    refine hchange.sound hs ?_
    rintro t rfl
    cases h <;> cases hd
  cases h with
  | probe hmailbox =>
    cases hd
    refine ⟨a.manager.active.map (·.id), ⟨hsound, fun hstage => ?_⟩, fun id hid => ⟨rfl, hid⟩⟩
    have hrunning := (hchange.takes hstage).1
    simp only [undergo, command_of_seed hrunning hmailbox, Option.elim_some] at hstage ⊢
    exact (finish_handles hstage).heeds_seed hrefused (hs.wired hrunning).counts.1
  | own hinbox =>
    cases hd
    refine ⟨none, ⟨hsound, fun hstage => ?_⟩, fun id hid => by cases hid⟩
    have hrunning := (hchange.takes hstage).1
    have hphase : a.manager.phase = .sending := by
      have hwired := hs.wired hrunning
      rw [hinbox] at hwired
      exact hwired.of_reply.1
    simp only [undergo, signal_of_reply hrunning hinbox, Option.elim_some] at hstage ⊢
    exact (finish_handles hstage).heeds_reply hrefused hphase

end Actor

namespace Limiter

open Actor

variable {i : Nat} {a : Actor}

/-- After a manager has taken in a refusal, nothing leaves it before the wait is over that the
refusal asks for, unless the refusal came to a probe, and what leaves had the active place when it
was taken in. -/
theorem refusal_heeded (config : Config) (authorizer : Authorizer) (now : Moment)
    (ms : List Move) (m : Move) (between : List Move) (n : Move) {reply : Reply} {id : Nat}
    (ha : ((new config authorizer now).after ms).actors[i]? = some a)
    (hears : a.Hears i m reply) (hrefused : reply.isViolation = true)
    (hsent : id ∈ sentBy i (((new config authorizer now).after (ms ++ m :: between)).step n).2) :
    ((new config authorizer now).after ms).now +
          ((a.manager.heard reply).violationWait
            ((new config authorizer now).after ms).surroundings reply : Delay) ≤
        ((new config authorizer now).after (ms ++ m :: between)).now ∨
      m = .command i ∧ a.manager.active.map (·.id) = some id := by
  rw [after_append, after_cons] at hsent ⊢
  have hsound := sound_run (w := new config authorizer now) rfl ms ha
  obtain ⟨b, hb⟩ := step_keeps _ m ha
  have hm : m.actor? = some i := by cases hears <;> rfl
  cases step_touches _ m i hb with
  | fed hc hother cs connected hseeds => exact absurd hm hother
  | made name hnone hprobe cs connected => exact nomatch hnone.symm.trans ha
  | @acted c d hc hacts hd =>
    obtain rfl := Option.some.inj (ha.symm.trans hc)
    obtain ⟨x, hwaits, hx⟩ := hears.waits hsound hrefused hd
    obtain ⟨e, he, hlater⟩ := later_induction
      (fun h hle => h.mono hle.now) (fun _ _ h => ⟨⟨h.sound.wired, h.sound.settled⟩, h.heeds⟩)
      (fun h hc hat => h.change hc hat) hb (hwaits.mono (leads_step _ m).now) between
    obtain ⟨-, f, -, hmark⟩ := mark_of_sentBy he hsent
    obtain ⟨hstage, p, t, hactive, rfl, hphase, hdue⟩ :=
      (undergo_change e f).sends_active hlater.sound hmark
    rcases (hlater.heeds hstage).sends hactive hphase hdue with hexcepted | hover
    · exact .inr (hx _ hexcepted)
    · exact .inl hover

/-- Two endpoints share a policy. The request to the first one waits for its alarm when the probe of
the second one is refused. -/
def restrictedRun : List Move :=
  [.submit plainEndpoint plainRequest, .submit otherEndpoint plainRequest,
    .startProbe plainEndpoint, .startProbe otherEndpoint,
    .endProbe plainEndpoint (.ok (sharedReply 1)), .settle plainEndpoint, .command 0, .command 0,
    .endProbe otherEndpoint (.ok refusedReply)]

/-- The alarm of the first request goes off. -/
def alarmRings : List Move := [.elapse 2000000000, .ring 0]

/-- The request leaves after two seconds, in spite of the minute that the refusal asked for. -/
theorem refusal_heeded_restrictedRun :
    ∃ a, ((new .default .none 0).after restrictedRun).actors[0]? = some a ∧
      a.Hears 0 (.command 0) refusedReply ∧
      (a.manager.heard refusedReply).violationWait
        ((new .default .none 0).after restrictedRun).surroundings refusedReply = 60000000000 ∧
      1 ∈ sentBy 0
        (((new .default .none 0).after (restrictedRun ++ .command 0 :: alarmRings)).step
          (.signal 0)).2 ∧
      ((new .default .none 0).after (restrictedRun ++ .command 0 :: alarmRings)).now = 2000000000 ∧
      a.manager.active.map (·.id) = some 1 := by
  have hsome : ((new .default .none 0).after restrictedRun).actors[0]?.isSome = true := by
    decide +kernel
  obtain ⟨a, ha⟩ := Option.isSome_iff_exists.1 hsome
  have hmailbox : (((new .default .none 0).after restrictedRun).actors[0]?).map (·.mailbox) =
      some [.seed refusedReply] := by decide +kernel
  have hwait : (((new .default .none 0).after restrictedRun).actors[0]?).map (fun a =>
      (a.manager.heard refusedReply).violationWait
        ((new .default .none 0).after restrictedRun).surroundings refusedReply) =
      some 60000000000 := by decide +kernel
  have hsent : 1 ∈ sentBy 0
      (((new .default .none 0).after (restrictedRun ++ .command 0 :: alarmRings)).step
        (.signal 0)).2 := by decide +kernel
  have hnow : ((new .default .none 0).after (restrictedRun ++ .command 0 :: alarmRings)).now =
      2000000000 := by decide +kernel
  have hstart : ((new .default .none 0).after restrictedRun).now = 0 := by decide +kernel
  rw [ha] at hmailbox hwait
  replace hwait : (a.manager.heard refusedReply).violationWait
      ((new .default .none 0).after restrictedRun).surroundings refusedReply = 60000000000 :=
    Option.some.inj hwait
  have hears : a.Hears 0 (.command 0) refusedReply := .probe (Option.some.inj hmailbox)
  refine ⟨a, ha, hears, hwait, hsent, hnow, ?_⟩
  rcases refusal_heeded .default .none 0 restrictedRun (.command 0) alarmRings (.signal 0) ha hears
    (by decide) hsent with hover | ⟨-, hactive⟩
  · rw [hwait, hnow, hstart] at hover
    exact absurd hover (by decide)
  · exact hactive

end Limiter

end Throttle
