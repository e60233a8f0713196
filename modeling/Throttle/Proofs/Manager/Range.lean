import Throttle.Proofs.Century
import Throttle.Proofs.Manager.Knowledge

/-!
  The instants that a manager computes, from a clock and from dates in the years 2000 to 2100. A
  manager is timely while its own instants leave room to plan a send, and its last planned send is
  not ahead of its alarm (`Timely`). A timely manager handles every message to its end and is timely
  then, unless the message is a refusal whose wait oversteps the calendar (`receive_gives`); it does
  not survive such a refusal (`receive_overstepped`). `Steady` is the same for an actor, with what
  is on its way to it.
-/

namespace Throttle

open Http Turn

/-! ## Turns that come to their end -/

/-- A turn does not leave the calendar, and comes to a value with a property. -/
def Turn.Gives (t : Turn α) (P : α → Prop) : Prop := ∃ a, t.result = .ok a ∧ P a

namespace Turn.Gives

variable {t : Turn α} {f : α → Turn β} {a : α} {P : α → Prop} {Q : β → Prop}

theorem pure (h : P a) : (Pure.pure a : Turn α).Gives P := ⟨a, rfl, h⟩

theorem bind (h : t.result = .ok a) (hf : (f a).Gives Q) : (t >>= f).Gives Q := by
  rw [bind_of_ok h]
  exact hf

theorem tell {os : List Output} {f : Unit → Turn β} (hf : (f ()).Gives Q) :
    (Turn.tell os >>= f).Gives Q := bind rfl hf

theorem lift {r : Except Overflow α} (h : r = .ok a) (hf : (f a).Gives Q) :
    (Turn.lift r >>= f).Gives Q := bind (t := Turn.lift r) h hf

end Turn.Gives

namespace Manager

variable {s : Surroundings} {m m' : Manager} {reply : Reply}

/-- The end of a wait that does not overstep the calendar, with a margin. -/
theorem violationWait_fits (hconfig : s.config = .default) (hnow : s.now.Modern)
    (hrefused : reply.isViolation = true)
    (hfits : ¬ reply.Oversteps s.now Config.default.margin) (m : Manager) :
    s.now + (m.violationWait s reply : Int) + (Config.default.margin : Int) ≤ Moment.last := by
  have hmargin : (Config.default.margin : Int) ≤ (longestDelay : Int) := by decide
  have near {d : Delay} (hd : d ≤ longestDelay) :
      s.now + (d : Int) + (Config.default.margin : Int) ≤ Moment.last :=
    Int.le_trans (Int.add_le_add (hnow.le_horizon hd) hmargin) Moment.horizon_le_last
  unfold violationWait
  cases hwait : reply.retryAfter with
  | some wait => exact Int.not_lt.1 fun hover => hfits ⟨hrefused, wait, hwait, hover⟩
  | none =>
    cases hpenalty : m.policy.violationRestriction with
    | some seconds => exact near (Policy.violationRestriction_le hpenalty)
    | none =>
      rw [hconfig]
      exact near (by decide)

/-- Both ends of such a wait, with the buffer and without, leave room to plan a send. -/
theorem ends_of_fits {wait : Delay} (hconfig : s.config = .default) (hnow : s.now.Modern)
    (hend : s.now + (wait : Int) + (Config.default.margin : Int) ≤ Moment.last) :
    ∃ paused lapse, Moment.after s.now wait = .ok paused ∧
      Moment.after paused s.config.violationBuffer = .ok lapse ∧
      paused + (Config.default.borderlineBuffer : Int) ≤ Moment.last ∧
      lapse + (Config.default.borderlineBuffer : Int) ≤ Moment.last := by
  have hfirst : Moment.first ≤ s.now + (wait : Int) :=
    Int.le_trans hnow.inRange.1 (Int.le_add_of_nonneg_right (Int.natCast_nonneg wait))
  have hsplit : (Config.default.margin : Int) =
      (Config.default.violationBuffer : Int) + (Config.default.borderlineBuffer : Int) := rfl
  rw [hsplit, ← Int.add_assoc] at hend
  rw [hconfig]
  have hlapse : s.now + (wait : Int) + (Config.default.violationBuffer : Int) ≤ Moment.last :=
    Int.le_trans (Int.le_add_of_nonneg_right (Int.natCast_nonneg _)) hend
  have hpaused : s.now + (wait : Int) ≤
      s.now + (wait : Int) + (Config.default.violationBuffer : Int) :=
    Int.le_add_of_nonneg_right (Int.natCast_nonneg _)
  exact ⟨_, _, Moment.after_of_le hnow.inRange.1 (Int.le_trans hpaused hlapse),
    Moment.after_of_le hfirst hlapse, Int.le_trans (Int.add_le_add_right hpaused _) hend, hend⟩

/-! ## Planning -/

/-- The instants of a manager leave room to plan a send. -/
structure Ranged (m : Manager) : Prop where
  recent : m.history.Recent
  sent : ∀ t, m.lastSend = some t → Moment.InRange t
  lenient : ∀ t, m.restrictedUntil = some t →
    t + (Config.default.borderlineBuffer : Int) ≤ Moment.last

/-- A manager whose last planned send is not ahead of its alarm. -/
structure Timely (now : Moment) (m : Manager) : Prop where
  ranged : m.Ranged
  spaced : ∀ t, m.lastSend = some t → t ≤ now ∨ ∃ u, m.phase.due? = some u ∧ t ≤ u

/-- Nothing that a manager has planned is still to come. -/
structure Rested (now : Moment) (m : Manager) : Prop where
  ranged : m.Ranged
  past : ∀ t, m.lastSend = some t → t ≤ now

theorem Rested.timely {now : Moment} (h : m.Rested now) : m.Timely now :=
  ⟨h.ranged, fun t ht => .inl (h.past t ht)⟩

/-- Once no alarm is waited for, or the alarm has gone off, all that was planned is past. -/
theorem Timely.rested {now : Moment} (h : m.Timely now)
    (hdue : ∀ u, m.phase.due? = some u → u ≤ now) : m.Rested now where
  ranged := h.ranged
  past t ht := by
    rcases h.spaced t ht with hpast | ⟨u, hu, hle⟩
    · exact hpast
    · exact Int.le_trans hle (hdue u hu)

theorem Timely.mono {now now' : Moment} (h : m.Timely now) (hle : now ≤ now') : m.Timely now' :=
  ⟨h.ranged, fun t ht => (h.spaced t ht).imp_left fun hpast => Int.le_trans hpast hle⟩

theorem buffer_le (hconfig : s.config = .default) (m : Manager) :
    m.buffer s ≤ Config.default.borderlineBuffer := by
  unfold buffer
  rw [hconfig]
  split
  · exact Nat.le_refl _
  · decide

theorem sendTime_inRange {t : Moment} (h : m.sendTime s = .ok t) : Moment.InRange t := by
  obtain ⟨safe, allowed, -, hallowed, ⟨-, rfl⟩ | ⟨last, spaced, -, hspaced, rfl⟩⟩ :=
    sendTime_eq_ok h
  · exact Moment.inRange_of_after hallowed
  · exact max_rec' Moment.InRange (Moment.inRange_of_after hallowed)
      (Moment.inRange_of_after hspaced)

/-- The margin after the safe instant and the restriction ends in the calendar. -/
theorem Ranged.allowed {safe : Moment} (hconfig : s.config = .default) (h : m.Ranged)
    (hfirst : Moment.first ≤ safe) (hsoon : safe ≤ Moment.horizon) :
    ∃ t, Moment.after (m.restrictedUntil.elim safe (max safe)) (m.buffer s) = .ok t := by
  have hbuffer := Int.ofNat_le.2 (buffer_le hconfig m)
  have hshort : (Config.default.borderlineBuffer : Int) ≤ (longestDelay : Int) := by decide
  have hlast : safe + (m.buffer s : Int) ≤ Moment.last :=
    Int.le_trans (Int.add_le_add hsoon (Int.le_trans hbuffer hshort)) Moment.horizon_le_last
  cases hr : m.restrictedUntil with
  | none => exact ⟨_, Moment.after_of_le hfirst hlast⟩
  | some r =>
    have hlate : r + (m.buffer s : Int) ≤ Moment.last :=
      Int.le_trans (Int.add_le_add_left hbuffer r) (h.lenient r hr)
    refine ⟨_, Moment.after_of_le (Int.le_trans hfirst (Int.le_max_left safe r)) ?_⟩
    exact max_rec' (fun t => t + (m.buffer s : Int) ≤ Moment.last) hlast hlate

/-- The minimum interval after a past send ends in the calendar. -/
theorem Rested.interval {t : Moment} (hconfig : s.config = .default) (hnow : s.now.Modern)
    (h : m.Rested s.now) (hlast : m.lastSend = some t) :
    ∃ u, Moment.after t s.config.minimumInterval = .ok u := by
  have hshort : s.config.minimumInterval ≤ longestDelay := by
    rw [hconfig]
    decide
  refine ⟨_, Moment.after_of_le (h.ranged.sent t hlast).1 ?_⟩
  calc t + (s.config.minimumInterval : Int)
      ≤ s.now + (s.config.minimumInterval : Int) := Int.add_le_add_right (h.past t hlast) _
    _ ≤ Moment.horizon := hnow.le_horizon hshort
    _ ≤ Moment.last := by decide

/-- A send can be planned. -/
theorem Rested.sendTime (hconfig : s.config = .default) (hnow : s.now.Modern)
    (h : m.Rested s.now) : ∃ t, m.sendTime s = .ok t := by
  obtain ⟨safe, hsafe, hfrom, hto⟩ := h.ranged.recent.nextSafeSend hnow m.policy
  obtain ⟨allowed, hallowed⟩ :=
    h.ranged.allowed hconfig (Int.le_trans hnow.inRange.1 hfrom) hto
  unfold Manager.sendTime
  rw [hsafe]
  change ∃ t, (Moment.after _ _ >>= _) = Except.ok t
  rw [hallowed]
  cases hlast : m.lastSend with
  | none => exact ⟨allowed, rfl⟩
  | some t =>
    obtain ⟨spaced, hspaced⟩ := h.interval hconfig hnow hlast
    change ∃ u, (Moment.after t s.config.minimumInterval >>= _) = Except.ok u
    rw [hspaced]
    exact ⟨max allowed spaced, rfl⟩

/-! ## Handling a message -/

theorem Ranged.heard (h : m.Ranged) (hdate : reply.date.Modern) : (m.heard reply).Ranged where
  recent := by
    show (m.historyAfter reply).Recent
    unfold historyAfter
    split
    · exact History.Recent.push (h := m.history.grow _) h.recent hdate
    · exact h.recent.push hdate
  sent := h.sent
  lenient := h.lenient

theorem Ranged.restrictUntil {t : Moment} (h : m.Ranged)
    (ht : t + (Config.default.borderlineBuffer : Int) ≤ Moment.last) :
    (m.restrictUntil t).Ranged where
  recent := h.recent
  sent := h.sent
  lenient u hu := by
    obtain rfl := Option.some.inj hu
    cases hr : m.restrictedUntil with
    | none => exact ht
    | some r =>
      exact max_rec' (fun u => u + (Config.default.borderlineBuffer : Int) ≤ Moment.last)
        (h.lenient r hr) ht

theorem Timely.heard {now : Moment} (h : m.Timely now) (hdate : reply.date.Modern) :
    (m.heard reply).Timely now :=
  ⟨h.ranged.heard hdate, h.spaced⟩

theorem Timely.restrictUntil {now t : Moment} (h : m.Timely now)
    (ht : t + (Config.default.borderlineBuffer : Int) ≤ Moment.last) :
    (m.restrictUntil t).Timely now :=
  ⟨h.ranged.restrictUntil ht, h.spaced⟩

theorem Rested.heard {now : Moment} (h : m.Rested now) (hdate : reply.date.Modern) :
    (m.heard reply).Rested now :=
  ⟨h.ranged.heard hdate, h.past⟩

/-- The place of the active request, the queue and the phase do not matter. -/
theorem Ranged.of_same (h : m.Ranged) (hhistory : m'.history = m.history)
    (hsent : m'.lastSend = m.lastSend) (hrestricted : m'.restrictedUntil = m.restrictedUntil) :
    m'.Ranged :=
  ⟨hhistory ▸ h.recent, hsent ▸ h.sent, hrestricted ▸ h.lenient⟩

theorem Rested.of_same {now : Moment} (h : m.Rested now) (hhistory : m'.history = m.history)
    (hsent : m'.lastSend = m.lastSend) (hrestricted : m'.restrictedUntil = m.restrictedUntil) :
    m'.Rested now :=
  ⟨h.ranged.of_same hhistory hsent hrestricted, hsent ▸ h.past⟩

theorem Rested.timely_of_same {now : Moment} (h : m.Rested now)
    (hhistory : m'.history = m.history) (hsent : m'.lastSend = m.lastSend)
    (hrestricted : m'.restrictedUntil = m.restrictedUntil) : m'.Timely now :=
  (h.of_same hhistory hsent hrestricted).timely

section

variable (hconfig : s.config = .default) (hnow : s.now.Modern)
include hconfig hnow

theorem activate_gives (hm : m.Timely s.now) : (activate s m).Gives (Timely s.now) := by
  rcases m.idle_or_busy with ⟨hactive, hphase⟩ | hbusy
  · rcases queue_split s m.queue with hgone | ⟨gone, p, rest, hqueue, hgone, hlive⟩
    · rw [activate_of_drained hactive hphase hgone]
      exact ⟨_, rfl, hm.ranged.of_same rfl rfl rfl, hm.spaced⟩
    · have hrested : m.Rested s.now := hm.rested fun u hu => by
        rw [hphase] at hu
        cases hu
      obtain ⟨t, ht⟩ := hrested.sendTime hconfig hnow
      rw [activate_of_live hactive hphase hqueue hgone hlive]
      refine .tell (.tell ?_)
      rw [plan_eq_of_ok (m := { m with queue := rest, active := some p }) ht]
      refine ⟨_, rfl, ⟨hm.ranged.recent, fun u hu => ?_, hm.ranged.lenient⟩, fun u hu => ?_⟩
      · obtain rfl := Option.some.inj hu
        exact sendTime_inRange ht
      · obtain rfl := Option.some.inj hu
        exact .inr ⟨t, rfl, Int.le_refl t⟩
  · rw [activate_of_busy hbusy]
    exact .pure hm

theorem onSeed_gives (hm : m.Timely s.now) (hdate : reply.date.Modern)
    (hfits : ¬ reply.Oversteps s.now Config.default.margin) :
    (m.onSeed s reply).Gives (Timely s.now) := by
  unfold onSeed
  refine .bind (absorb_result reply m) ?_
  dsimp only
  cases hv : reply.isViolation with
  | false => exact activate_gives hconfig hnow (hm.heard hdate)
  | true =>
    have hend := violationWait_fits hconfig hnow hv hfits (m.heard reply)
    obtain ⟨paused, lapse, hpaused, hlapse, -, hlenient⟩ := ends_of_fits hconfig hnow hend
    refine .tell (.bind (countViolation_result s none _) (.lift (a := lapse) ?_ ?_))
    · rw [hpaused]
      exact hlapse
    · have hheard := hm.heard hdate
      have hcounted : (m.heard reply).counted.Timely s.now :=
        ⟨hheard.ranged.of_same rfl rfl rfl, hheard.spaced⟩
      exact activate_gives hconfig hnow (hcounted.restrictUntil hlenient)

theorem onQueue_gives (hm : m.Timely s.now) (p : Pending) :
    (m.onQueue s p).Gives (Timely s.now) := by
  unfold onQueue
  split
  · exact .tell (.pure hm)
  · exact .tell (activate_gives hconfig hnow
      ⟨hm.ranged.of_same rfl rfl rfl, hm.spaced⟩)

theorem skipActive_gives (hm : m.Rested s.now) (p : Pending) :
    (m.skipActive s p).Gives (Timely s.now) :=
  .tell (activate_gives hconfig hnow (hm.timely_of_same rfl rfl rfl))

theorem send_gives (hm : m.Rested s.now) : (m.send s).Gives (Timely s.now) := by
  have hvacated : m.vacated.Timely s.now := hm.timely_of_same rfl rfl rfl
  cases hactive : m.active with
  | none =>
    rw [send_of_none hactive]
    exact activate_gives hconfig hnow (hm.timely_of_same rfl rfl rfl)
  | some p =>
    cases hg : s.gone p.id with
    | true =>
      rw [send_of_gone hactive hg]
      exact skipActive_gives hconfig hnow hm p
    | false =>
      cases ha : s.authorizer p.request with
      | error refusal =>
        rw [send_of_unsigned hactive hg ha]
        exact .tell (.bind (finish_result _ _) (activate_gives hconfig hnow hvacated))
      | ok signed =>
        rw [send_of_signed hactive hg ha]
        exact ⟨_, rfl, hm.timely_of_same rfl rfl rfl⟩

theorem onFire_gives (hm : m.Timely s.now) (generation : Nat)
    (hdue : generation = m.generation → ∀ u, m.phase.due? = some u → u ≤ s.now) :
    (m.onFire s generation).Gives (Timely s.now) := by
  unfold onFire
  by_cases hg : generation = m.generation
  · have hrested : m.Rested s.now := hm.rested (hdue hg)
    rw [if_neg (not_not.2 hg)]
    cases m.phase with
    | idle => exact .pure hm
    | activating t => exact send_gives hconfig hnow hrested
    | sending => exact .pure hm
    | violationWait t => exact send_gives hconfig hnow hrested
    | suspended t =>
      exact .tell (activate_gives hconfig hnow
        (hrested.timely_of_same rfl rfl rfl))
  · rw [if_pos hg]
    exact .pure hm

theorem onViolation_gives (hm : m.Rested s.now) (hrefused : reply.isViolation = true)
    (hfits : ¬ reply.Oversteps s.now Config.default.margin) (before : Status) :
    (m.onViolation s reply before).Gives (Timely s.now) := by
  have hend := violationWait_fits hconfig hnow hrefused hfits m
  obtain ⟨lapse, sendAt, hlapse, hsend, hlenient, -⟩ := ends_of_fits hconfig hnow hend
  have hranged : (m.counted.restrictUntil lapse).Ranged :=
    Ranged.restrictUntil (m := m.counted) (hm.ranged.of_same rfl rfl rfl) hlenient
  have hrested : (m.counted.restrictUntil lapse).Rested s.now := ⟨hranged, hm.past⟩
  rw [onViolation_eq]
  refine .tell (.bind (countViolation_result s _ m) (.lift hlapse ?_))
  unfold retry
  split
  · exact activate_gives hconfig hnow hrested.timely
  · rename_i p hactive
    split
    · exact skipActive_gives hconfig hnow hrested p
    · refine .lift hsend (.tell ⟨_, schedule_result s sendAt _, ?_, fun u hu => ?_⟩)
      · refine ⟨hranged.recent, fun u hu => ?_, hranged.lenient⟩
        obtain rfl := Option.some.inj hu
        exact Moment.inRange_of_after hsend
      · obtain rfl := Option.some.inj hu
        exact .inr ⟨sendAt, rfl, Int.le_refl sendAt⟩

theorem onAccepted_gives (hm : m.Rested s.now) (reply : Reply) :
    (m.onAccepted s reply (verdict reply)).Gives (Timely s.now) := by
  have hfree : { m with active := none : Manager }.Timely s.now :=
    hm.timely_of_same rfl rfl rfl
  rw [onAccepted_eq]
  refine .tell (.bind (outcome_result m reply) (.bind (finish_result m _) ?_))
  cases verdict reply with
  | missing => exact activate_gives hconfig hnow hfree
  | parsed => exact activate_gives hconfig hnow hfree
  | malformed e =>
    have hresume := (hnow.after (d := s.config.invalidPolicyBackoff) (by rw [hconfig]; decide)).1
    dsimp only
    rw [suspend_eq_of_ok (m := { m with active := none }) rfl hresume]
    refine .bind rfl (activate_gives hconfig hnow (hm.timely_of_same rfl rfl rfl))

theorem onReply_gives (hm : m.Timely s.now) (result : Except TransportFailure Reply)
    (hdate : ∀ reply, result = .ok reply → reply.date.Modern)
    (hfits : ∀ reply, result = .ok reply → ¬ reply.Oversteps s.now Config.default.margin) :
    (m.onReply s result).Gives (Timely s.now) := by
  unfold onReply
  by_cases hphase : m.phase = .sending
  · have hrested : m.Rested s.now := hm.rested fun u hu => by
      rw [hphase] at hu
      cases hu
    have hback : m.back.Rested s.now := hrested.of_same rfl rfl rfl
    rw [if_neg (not_not.2 hphase)]
    dsimp only
    cases result with
    | error e =>
      exact .tell (.bind (finish_result _ _) (activate_gives hconfig hnow
        (hrested.timely_of_same rfl rfl rfl)))
    | ok reply =>
      refine .bind (absorb_result reply m.back) ?_
      dsimp only
      cases hv : reply.isViolation with
      | true =>
        exact onViolation_gives hconfig hnow (hback.heard (hdate reply rfl)) hv (hfits reply rfl) _
      | false => exact onAccepted_gives hconfig hnow (hback.heard (hdate reply rfl)) reply
  · rw [if_pos hphase]
    exact .tell (.pure hm)

/-- A message is handled to its end, unless its reply oversteps the calendar. -/
theorem receive_gives (hm : m.Timely s.now) (msg : Message)
    (hdate : ∀ reply, msg.reply? = some reply → reply.date.Modern)
    (hfits : ∀ reply, msg.reply? = some reply → ¬ reply.Oversteps s.now Config.default.margin)
    (hdue : msg = .fire m.generation → ∀ u, m.phase.due? = some u → u ≤ s.now) :
    (m.receive s msg).Gives (Timely s.now) := by
  cases msg with
  | seed reply => exact onSeed_gives hconfig hnow hm (hdate reply rfl) (hfits reply rfl)
  | queue p => exact onQueue_gives hconfig hnow hm p
  | fire generation => exact onFire_gives hconfig hnow hm generation fun h => hdue (h ▸ rfl)
  | reply result =>
    refine onReply_gives hconfig hnow hm result (fun reply h => ?_) fun reply h => ?_
    · subst h
      exact hdate reply rfl
    · subst h
      exact hfits reply rfl

end

/-- The wait has no end in the calendar if the reply oversteps it, with no margin. -/
theorem after_of_oversteps (h : reply.Oversteps s.now 0) (n : Manager) :
    Moment.after s.now (n.violationWait s reply) = .error .calendar := by
  obtain ⟨-, wait, hwait, hover⟩ := h
  unfold violationWait
  rw [hwait]
  exact Moment.after_of_lt (by simpa using hover)

/-- A message is not handled to its end if its reply oversteps the calendar, with no margin. -/
theorem receive_overstepped {msg : Message} (hmsg : msg.reply? = some reply)
    (hphase : ∀ result, msg = .reply result → m.phase = .sending)
    (h : reply.Oversteps s.now 0) : (m.receive s msg).Fails := by
  have hrefused := h.1
  have hafter := after_of_oversteps h
  cases msg with
  | seed r =>
    obtain rfl : r = reply := Option.some.inj hmsg
    show (m.onSeed s r).Fails
    unfold onSeed
    refine .bind (absorb_result r m) ?_
    dsimp only
    rw [if_pos hrefused]
    refine .bind (t := tell _) rfl (.bind (countViolation_result s none _) ?_)
    refine .lift (e := .calendar) ?_
    rw [hafter]
    rfl
  | queue p => cases hmsg
  | fire generation => cases hmsg
  | reply result =>
    obtain rfl : result = .ok reply := by
      cases result with
      | error e => cases hmsg
      | ok r => exact congrArg _ (Option.some.inj hmsg)
    exact receive_fails (hphase _ rfl) hrefused (hafter _)

end Manager

/-! ## Actors -/

namespace Actor

variable {s : Surroundings} {now : Moment} {a b : Actor}

/-- An actor that runs in time, or has come to a regular end, and has modern replies before it. -/
structure Steady (now : Moment) (a : Actor) : Prop where
  unfailed : a.stage ≠ .failed
  timely : a.stage = .running → a.manager.Timely now
  seeds : ∀ reply, .seed reply ∈ a.mailbox → reply.date.Modern
  replies : ∀ reply, .reply (.ok reply) ∈ a.inbox → reply.date.Modern

theorem Steady.mono {now' : Moment} (h : Steady now a) (hle : now ≤ now') : Steady now' a :=
  ⟨h.unfailed, fun hstage => (h.timely hstage).mono hle, h.seeds, h.replies⟩

theorem Steady.fed (h : Steady now a) {cs : List Command} (connected : Bool)
    (hcs : ∀ reply, .seed reply ∈ cs → reply.date.Modern) :
    Steady now { a with mailbox := a.mailbox ++ cs, connected } where
  unfailed := h.unfailed
  timely := h.timely
  seeds reply hmem := (List.mem_append.1 hmem).elim (h.seeds reply) (hcs reply)
  replies := h.replies

theorem steady_new (name : PolicyName) {cs : List Command} (connected : Bool)
    (hcs : ∀ reply, .seed reply ∈ cs → reply.date.Modern) :
    Steady now { new name with mailbox := cs, connected } where
  unfailed hstage := by cases hstage
  timely _ :=
    { ranged :=
        { recent := List.forall_mem_nil _
          sent := fun t ht => by cases ht
          lenient := fun t ht => by cases ht }
      spaced := fun t ht => by cases ht }
  seeds := hcs
  replies := fun reply hmem => by cases hmem

/-- The messages that an actor takes bring modern replies. -/
theorem Takes.modern {msg : Manager.Message} (htakes : a.Takes msg b) (h : Steady now a)
    (reply : Reply) (hmsg : msg.reply? = some reply) : reply.date.Modern := by
  cases htakes with
  | seed hmailbox =>
    obtain rfl := Option.some.inj hmsg
    exact h.seeds _ (hmailbox ▸ .head _)
  | queue hmailbox => cases hmsg
  | fire hinbox => cases hmsg
  | @reply result rest hinbox =>
    cases result with
    | error e => cases hmsg
    | ok r =>
      obtain rfl := Option.some.inj hmsg
      exact h.replies _ (hinbox ▸ .head _)

section

variable (hconfig : s.config = .default) (hnow : s.now.Modern)
include hconfig hnow

theorem Takes.steady {msg : Manager.Message} (htakes : a.Takes msg b) (h : Steady s.now a)
    (hsound : Sound s.now a) (hstage : a.stage = .running)
    (hfits : ∀ reply, msg.reply? = some reply →
      ¬ reply.Oversteps s.now Config.default.margin) (holding : List Pending) :
    Steady s.now (b.finish .running holding (a.manager.receive s msg)).actor := by
  obtain ⟨m', hm', htimely⟩ := Manager.receive_gives hconfig hnow (h.timely hstage) msg
    (htakes.modern h) hfits fun hmsg u hu => by
      obtain ⟨t, ht, hle⟩ := hsound.due hstage htakes hmsg
      obtain rfl := Option.some.inj (hu.symm.trans ht)
      exact hle
  rw [finish_of_ok hm']
  refine ⟨(fun hfailed => by cases hfailed), fun _ => htimely, fun reply hmem => ?_,
    fun reply hmem => ?_⟩
  · exact h.seeds reply (htakes.mem_mailbox hmem)
  · refine h.replies reply ?_
    rw [htakes.inbox_eq]
    exact List.mem_append_right _ hmem

theorem Steady.command (h : Steady s.now a) (hsound : Sound s.now a)
    (hfits : ∀ reply rest, a.stage = .running → a.mailbox = .seed reply :: rest →
      ¬ reply.Oversteps s.now Config.default.margin) :
    Steady s.now (a.undergo (.command s)) := by
  have hclose {b : Actor} (hinbox : b.inbox = a.inbox) : Steady s.now b.close.actor := by
    refine ⟨close_unfailed b, fun hrunning => absurd hrunning (close_stage b), ?_, ?_⟩
    · rw [close_eq]
      exact fun reply hmem => by cases hmem
    · rw [close_eq]
      exact fun reply hmem => h.replies reply (hinbox ▸ hmem)
  cases hc : a.command s with
  | none =>
    simp only [undergo, hc, Option.elim_none]
    exact h
  | some step =>
    simp only [undergo, hc, Option.elim_some]
    unfold Actor.command at hc
    split at hc
    · cases hc
    · rename_i hstage
      rw [not_not] at hstage
      split at hc
      · rename_i hmailbox
        split at hc <;> cases hc
        exact hclose rfl
      · rename_i c rest hmailbox
        cases c with
        | seed reply =>
          cases hc
          refine (Takes.seed hmailbox).steady hconfig hnow h hsound hstage ?_ []
          intro r hr
          obtain rfl := Option.some.inj hr
          exact hfits reply rest hstage hmailbox
        | queue p =>
          cases hc
          exact (Takes.queue hmailbox).steady hconfig hnow h hsound hstage
            (fun r hr => by cases hr) [p]
        | shutdown =>
          cases hc
          exact hclose rfl

theorem Steady.signal (h : Steady s.now a) (hsound : Sound s.now a)
    (hfits : ∀ reply rest, a.stage = .running → a.inbox = .reply (.ok reply) :: rest →
      ¬ reply.Oversteps s.now Config.default.margin) :
    Steady s.now (a.undergo (.signal s)) := by
  cases hinbox : a.inbox with
  | nil =>
    have hnone : a.signal s = none := by
      unfold Actor.signal
      rw [hinbox]
    simp only [undergo, hnone, Option.elim_none]
    exact h
  | cons x rest =>
    have hkept (reply : Reply) (hmem : .reply (.ok reply) ∈ rest) : reply.date.Modern :=
      h.replies reply (hinbox ▸ .tail _ hmem)
    by_cases hrunning : a.stage = .running
    · cases x with
      | fire generation =>
        simp only [undergo, signal_of_fire hrunning hinbox, Option.elim_some]
        exact (Takes.fire hinbox).steady hconfig hnow h hsound hrunning
          (fun r hr => by cases hr) []
      | reply result =>
        simp only [undergo, signal_of_reply hrunning hinbox, Option.elim_some]
        refine (Takes.reply hinbox).steady hconfig hnow h hsound hrunning (fun r hr => ?_) []
        cases result with
        | error e => cases hr
        | ok reply =>
          obtain rfl := Option.some.inj hr
          exact hfits reply rest hrunning hinbox
    · by_cases hlast : a.stage = .closing ∧ ∃ result, x = .reply result
      · obtain ⟨hclosing, result, rfl⟩ := hlast
        simp only [undergo, signal_of_last hclosing hinbox, Option.elim_some, conclude_eq]
        exact ⟨(fun hfailed => by cases hfailed), (fun hstopped => by cases hstopped), h.seeds,
          hkept⟩
      · have hdropped (hclosing : a.stage = .closing) (result) : x ≠ .reply result :=
          fun hx => hlast ⟨hclosing, result, hx⟩
        simp only [undergo, signal_of_dropped hrunning hdropped hinbox, Option.elim_some]
        exact ⟨h.unfailed, fun hstage => absurd hstage hrunning, h.seeds, hkept⟩

end

theorem Steady.ring (h : Steady now a) (t : Moment) : Steady now (a.undergo (.ring t)) := by
  simp only [undergo, Actor.ring]
  cases a.alarm.filter fun x => decide (x.due ≤ t) with
  | none => exact h
  | some x =>
    refine ⟨h.unfailed, h.timely, h.seeds, fun reply hmem => ?_⟩
    refine h.replies reply ((List.mem_append.1 hmem).resolve_right fun hlast => ?_)
    cases List.mem_singleton.1 hlast

theorem Steady.returned (h : Steady now a) (id : Nat) (result : Except TransportFailure Reply)
    (hdate : ∀ reply, result = .ok reply → reply.date.Modern) :
    Steady now (a.undergo (.returned id result)) := by
  simp only [undergo, Actor.returned]
  split
  · refine ⟨h.unfailed, h.timely, h.seeds, fun reply hmem => ?_⟩
    rcases List.mem_append.1 hmem with hold | hlast
    · exact h.replies reply hold
    · cases List.mem_singleton.1 hlast
      exact hdate reply rfl
  · exact h

end Actor

end Throttle
