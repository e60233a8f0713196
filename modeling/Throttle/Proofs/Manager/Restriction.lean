import Throttle.Proofs.Manager.Planning
import Throttle.Proofs.Manager.Sending

/-!
  How a manager keeps a wait that the server asked for. Once it has taken in a refusal it plans no
  send before the wait is over (`restricted_le_sendTime`), and it puts a refused request off until
  then. A send that was planned before stays planned: so `Heeds` excepts the request that had the
  active place. Every message keeps it (`Handling.heeds`).
-/

namespace Throttle

open Http

/-- A phase in which nothing leaves before the instant `r`. -/
def Phase.Holds (r now : Moment) : Phase → Prop
  | .idle => True
  | .activating t => r ≤ t
  | .sending => r ≤ now
  | .violationWait t => r ≤ t
  | .suspended _ => True

theorem Phase.Holds.mono {r now now' : Moment} {phase : Phase} (h : phase.Holds r now)
    (hle : now ≤ now') : phase.Holds r now' := by
  cases phase with
  | sending => exact Int.le_trans h hle
  | _ => exact h

theorem Phase.holds_of_empty {r now : Moment} {phase : Phase} (h : phase.holds = false) :
    phase.Holds r now := by
  cases phase with
  | idle => trivial
  | suspended t => trivial
  | activating t => cases h
  | sending => cases h
  | violationWait t => cases h

namespace Manager

variable {s : Surroundings} {m m' : Manager} {msg : Message} {os : List Output} {r t : Moment}
  {x : Option Nat}

/-- Sends are kept back until `r` at least. -/
def RestrictedTo (r : Moment) (m : Manager) : Prop := ∃ t, m.restrictedUntil = some t ∧ r ≤ t

theorem restrictedTo_restrictUntil (h : r ≤ t) (m : Manager) :
    (m.restrictUntil t).RestrictedTo r := by
  refine ⟨_, rfl, ?_⟩
  cases m.restrictedUntil with
  | none => exact h
  | some u => exact Int.le_trans h (Int.le_max_right u t)

theorem RestrictedTo.restrictUntil (h : m.RestrictedTo r) (t : Moment) :
    (m.restrictUntil t).RestrictedTo r := by
  obtain ⟨u, hu, hle⟩ := h
  refine ⟨max u t, ?_, Int.le_trans hle (Int.le_max_left u t)⟩
  unfold Manager.restrictUntil
  rw [hu]
  rfl

/-- No send is planned before the end of a restriction. -/
theorem restricted_le_sendTime (hr : m.RestrictedTo r) (h : m.sendTime s = .ok t) : r ≤ t := by
  obtain ⟨u, hu, hle⟩ := hr
  obtain ⟨safe, -, hafter⟩ := safe_le_sendTime h
  rw [hu] at hafter
  exact Int.le_trans hle (Int.le_trans (Int.le_max_right safe u) hafter)

/-- Nothing leaves before `r`, unless it is the request `x`, which has had the active place since
before. -/
structure Heeds (r : Moment) (x : Option Nat) (now : Moment) (m : Manager) : Prop where
  restricted : m.RestrictedTo r
  active : (∃ p, m.active = some p ∧ x = some p.id) ∨ m.phase.Holds r now

theorem Heeds.mono {now now' : Moment} (h : m.Heeds r x now) (hle : now ≤ now') :
    m.Heeds r x now' :=
  ⟨h.restricted, h.active.imp_right fun hphase => hphase.mono hle⟩

/-- Turning to the queue plans for the end of the restriction, if it plans at all. -/
theorem Activation.heeds (h : Activation s m m' os) (hm : m.Heeds r x s.now) :
    m'.Heeds r x s.now := by
  cases h with
  | busy hbusy => exact hm
  | drained hactive hphase hgone => exact ⟨hm.restricted, hm.active⟩
  | planned gone rest p sendAt hactive hphase hqueue hgone hlive hsend =>
    exact ⟨hm.restricted, .inr (restricted_le_sendTime hm.restricted hsend)⟩

/-- Turning to the queue with a free place. -/
theorem Activation.heeds_of_idle {n : Manager} (h : Activation s n m' os) (hn : n.RestrictedTo r)
    (hphase : n.phase = .idle) : m'.Heeds r x s.now :=
  h.heeds ⟨hn, .inr (by rw [hphase]; trivial)⟩

/-- A refused request waits, or it leaves a free place behind. -/
theorem Retrial.heeds {wait : Delay} {lapse : Moment} (h : Retrial s wait lapse m m' os)
    (hm : m.RestrictedTo r) (hphase : m.phase = .idle) (hle : r ≤ lapse) :
    m'.Heeds r x s.now := by
  cases h with
  | empty hactive next => exact next.heeds_of_idle hm hphase
  | skipped hactive hgone next => exact next.heeds_of_idle hm rfl
  | again hactive hlive hsend =>
    exact ⟨hm, .inr (Int.le_trans hle (le_of_after hsend))⟩

/-- A manager that keeps a restriction goes on doing so, whatever it is told. -/
theorem Handling.heeds (h : Handling s m msg m' os) (hm : m.Heeds r x s.now)
    (hdue : msg = .fire m.generation → ∃ t, m.phase.due? = some t ∧ t ≤ s.now) :
    m'.Heeds r x s.now := by
  have hrestricted := hm.restricted
  cases h with
  | seeded haccepted next => exact next.heeds ⟨hm.restricted, hm.active⟩
  | seedRefused hrefused hpaused hlapse next =>
    exact next.heeds ⟨RestrictedTo.restrictUntil hrestricted _, hm.active⟩
  | joinedGone hgone => exact hm
  | joined hlive next => exact next.heeds ⟨hm.restricted, hm.active⟩
  | fireStale hstale => exact hm
  | fireIdle hphase => exact hm
  | resumed hphase next => exact next.heeds_of_idle hrestricted rfl
  | fireEmpty hphase hactive next => exact next.heeds_of_idle hrestricted rfl
  | skipped hphase hactive hgone next => exact next.heeds_of_idle hrestricted rfl
  | unsigned hphase hactive hlive hsigned next => exact next.heeds_of_idle hrestricted rfl
  | sent hphase hactive hlive hsigned =>
    -- the alarm went off at the planned instant, which is not before `r`
    refine ⟨hrestricted, hm.active.imp_right fun hholds => ?_⟩
    obtain ⟨t, ht, hle⟩ := hdue rfl
    obtain ⟨u, hu | hu⟩ := hphase <;> rw [hu] at ht hholds <;> cases ht
    · exact Int.le_trans hholds hle
    · exact Int.le_trans hholds hle
  | stray hphase => exact hm
  | lost hphase next => exact next.heeds_of_idle hrestricted rfl
  | passed hphase haccepted hclear next => exact next.heeds_of_idle hrestricted rfl
  | suspended hphase haccepted hmalformed hresume => exact ⟨hrestricted, .inr trivial⟩
  | refused hphase hrefused hlapse next =>
    have hrestricted := RestrictedTo.restrictUntil hrestricted ‹Moment›
    cases next with
    | empty hactive next => exact next.heeds_of_idle hrestricted rfl
    | skipped hactive hgone next => exact next.heeds_of_idle hrestricted rfl
    | again hactive hlive hsend =>
      refine ⟨hrestricted, hm.active.imp_right fun hholds => ?_⟩
      rw [hphase] at hholds
      exact Int.le_trans hholds (Int.le_trans (le_of_after hlapse) (le_of_after hsend))

/-! ## Where it begins -/

/-- A refusal of a probe is heeded from then on, but for the request that has the active place. -/
theorem Handling.heeds_seed {reply : Reply} (h : Handling s m (.seed reply) m' os)
    (hrefused : reply.isViolation = true) (hactive : m.active.isSome = m.phase.holds) :
    m'.Heeds (s.now + ((m.heard reply).violationWait s reply : Delay)) (m.active.map (·.id))
      s.now := by
  cases h with
  | seeded haccepted next => exact absurd (hrefused.symm.trans haccepted) nofun
  | seedRefused _ hpaused hlapse next =>
    obtain ⟨-, rfl⟩ := Moment.after_eq_ok_iff.1 hpaused
    refine next.heeds ⟨restrictedTo_restrictUntil (le_of_after hlapse) _, ?_⟩
    cases hm : m.active with
    | some p => exact .inl ⟨p, hm, rfl⟩
    | none =>
      rw [hm] at hactive
      exact .inr (Phase.holds_of_empty hactive.symm)

/-- A refusal of the request under way is heeded from then on. -/
theorem Handling.heeds_reply {reply : Reply} (h : Handling s m (.reply (.ok reply)) m' os)
    (hrefused : reply.isViolation = true) (hphase : m.phase = .sending) :
    m'.Heeds (s.now + ((m.heard reply).violationWait s reply : Delay)) none s.now := by
  cases h with
  | stray hstray => exact absurd hphase hstray
  | passed _ haccepted => exact absurd (hrefused.symm.trans haccepted) nofun
  | suspended _ haccepted => exact absurd (hrefused.symm.trans haccepted) nofun
  | refused _ _ hlapse next =>
    obtain ⟨-, rfl⟩ := Moment.after_eq_ok_iff.1 hlapse
    exact next.heeds (restrictedTo_restrictUntil (Int.le_refl _) _) rfl (Int.le_refl _)

/-- What a manager sends that keeps a restriction is the excepted request, or the restriction is
over. -/
theorem Heeds.sends {now : Moment} {p : Pending} (h : m.Heeds r x now) (hactive : m.active = some p)
    (hphase : m.phase = .activating t ∨ m.phase = .violationWait t) (hdue : t ≤ now) :
    x = some p.id ∨ r ≤ now := by
  rcases h.active with ⟨q, hq, hx⟩ | hholds
  · obtain rfl := Option.some.inj (hactive.symm.trans hq)
    exact .inl hx
  · rcases hphase with hphase | hphase <;> rw [hphase] at hholds
    · exact .inr (Int.le_trans hholds hdue)
    · exact .inr (Int.le_trans hholds hdue)

end Manager

/-! ## Actors -/

namespace Actor

variable {s : Surroundings} {now r : Moment} {a b : Actor} {d : Deed} {ns : List Mark}
  {x : Option Nat}

/-- An actor that runs after a deed ran before it. Its manager is the same and sent nothing, or it
handled the next message. -/
theorem Change.takes (h : Change a d b ns) (hstage : b.stage = .running) :
    a.stage = .running ∧
      (b.manager = a.manager ∧ sentIn ns = [] ∨
        ∃ s msg c os, (d = .command s ∨ d = .signal s) ∧ a.Takes msg c ∧
          Manager.Handling s a.manager msg b.manager os ∧ sentIn ns = sends os) := by
  cases h with
  | none d hseeds => exact ⟨hstage, .inl ⟨rfl, rfl⟩⟩
  | posted c hrunning =>
    refine ⟨hrunning, .inl ⟨rfl, ?_⟩⟩
    cases c <;> rfl
  | @commanded s b os h hinbox =>
    obtain ⟨hrunning, msg, c, m', htakes, hhandled, rfl⟩ := h.running hstage
    exact ⟨hrunning, .inr ⟨s, msg, c, os, .inl rfl, htakes, hhandled, sentIn_sent _⟩⟩
  | @signaled s b os h hmailbox =>
    obtain ⟨hrunning, msg, c, m', htakes, hhandled, rfl⟩ := h.running hstage
    exact ⟨hrunning, .inr ⟨s, msg, c, os, .inr rfl, htakes, hhandled, sentIn_sent _⟩⟩
  | rang halarm hdue => exact ⟨hstage, .inl ⟨rfl, rfl⟩⟩
  | returned result hid => exact ⟨hstage, .inl ⟨rfl, rfl⟩⟩
  | disconnected => exact ⟨hstage, .inl ⟨rfl, rfl⟩⟩

/-- The step with which a running actor takes the reply to a probe. -/
theorem command_of_seed {reply : Reply} {rest : List Command} (hstage : a.stage = .running)
    (h : a.mailbox = .seed reply :: rest) :
    a.command s =
      some ({ a with mailbox := rest }.finish .running [] (a.manager.receive s (.seed reply))) := by
  unfold command
  rw [if_neg fun hne => hne hstage, h]

/-- The step with which a running actor takes a request from its mailbox. -/
theorem command_of_queue {p : Pending} {rest : List Command} (hstage : a.stage = .running)
    (h : a.mailbox = .queue p :: rest) :
    a.command s =
      some ({ a with mailbox := rest }.finish .running [p] (a.manager.receive s (.queue p))) := by
  unfold command
  rw [if_neg fun hne => hne hstage, h]

/-- The step with which a running actor takes the end of its transmission. -/
theorem signal_of_reply {result : Except TransportFailure Reply} {rest : List Signal}
    (hstage : a.stage = .running) (h : a.inbox = .reply result :: rest) :
    a.signal s =
      some ({ a with inbox := rest }.finish .running [] (a.manager.receive s (.reply result))) := by
  unfold signal
  rw [h, hstage]

/-- The step with which a running actor takes the ring of its alarm. -/
theorem signal_of_fire {generation : Nat} {rest : List Signal} (hstage : a.stage = .running)
    (h : a.inbox = .fire generation :: rest) :
    a.signal s =
      some ({ a with inbox := rest }.finish .running []
        (a.manager.receive s (.fire generation))) := by
  unfold signal
  rw [h, hstage]

/-- The step with which a closing actor takes the end of its last transmission. -/
theorem signal_of_last {result : Except TransportFailure Reply} {rest : List Signal}
    (hstage : a.stage = .closing) (h : a.inbox = .reply result :: rest) :
    a.signal s =
      some ({ a with inbox := rest }.finish .stopped [] (a.manager.conclude s result)) := by
  unfold signal
  rw [h, hstage]

/-- The step of an actor that does not listen to a signal. -/
theorem signal_of_dropped {x : Signal} {rest : List Signal} (hstage : a.stage ≠ .running)
    (hlast : a.stage = .closing → ∀ result, x ≠ .reply result) (h : a.inbox = x :: rest) :
    a.signal s = some ⟨{ a with inbox := rest }, [], []⟩ := by
  unfold signal
  rw [h]
  dsimp only
  split
  · rename_i hrunning
    exact absurd hrunning hstage
  · rename_i hrunning
    exact absurd hrunning hstage
  · rfl
  · rename_i hclosing
    exact absurd rfl (hlast hclosing _)
  · rfl

/-- An alarm that counts has been waited for. -/
theorem Sound.due {msg : Manager.Message} (h : Sound now a) (hstage : a.stage = .running)
    (htakes : a.Takes msg b) (hmsg : msg = .fire a.manager.generation) :
    ∃ t, a.manager.phase.due? = some t ∧ t ≤ now := by
  have hwired := h.wired hstage
  rw [htakes.inbox_eq, hmsg] at hwired
  exact hwired.of_fire.1

/-- What a deed sends is the active request, at the instant for which it was planned or later. -/
theorem Change.sends_active {id : Nat} (h : Change a d b ns) (hs : Sound now a)
    (hid : id ∈ sentIn ns) :
    a.stage = .running ∧ ∃ p t, a.manager.active = some p ∧ id = p.id ∧
      (a.manager.phase = .activating t ∨ a.manager.phase = .violationWait t) ∧ t ≤ now := by
  obtain ⟨-, hstage, u, hu, hle⟩ := h.sends_due hs hid
  obtain ⟨hrunning, ⟨-, hnone⟩ | ⟨s, msg, c, os, -, htakes, hhandled, hsent⟩⟩ := h.takes hstage
  · rw [hnone] at hid
    cases hid
  · rw [hsent] at hid
    rcases hhandled.order with ⟨hnone, -⟩ | ⟨p, hactive, hone, -, ⟨t, hphase⟩, -⟩
    · rw [hnone] at hid
      cases hid
    · rw [hone] at hid
      obtain rfl : t = u := by
        rcases hphase with hphase | hphase <;> rw [hphase] at hu <;> exact Option.some.inj hu
      exact ⟨hrunning, p, t, hactive, List.mem_singleton.1 hid, hphase, hle⟩

/-- A running actor that keeps a restriction. -/
structure Waits (r : Moment) (x : Option Nat) (s : Surroundings) (a : Actor) : Prop where
  sound : Sound s.now a
  heeds : a.stage = .running → a.manager.Heeds r x s.now

theorem Waits.mono {t : Surroundings} (h : Waits r x s a) (hle : s.now ≤ t.now) :
    Waits r x t a :=
  ⟨h.sound.mono hle, fun hstage => (h.heeds hstage).mono hle⟩

theorem Waits.change (h : Waits r x s a) (hc : Change a d b ns) (hd : d.At s) :
    Waits r x s b := by
  refine ⟨hc.sound h.sound ?_, fun hstage => ?_⟩
  · rintro t rfl
    exact Int.le_of_eq hd
  · obtain ⟨hrunning, ⟨hsame, -⟩ | ⟨t, msg, c, os, ht, htakes, hhandled, -⟩⟩ := hc.takes hstage
    · rw [hsame]
      exact h.heeds hrunning
    · obtain rfl : t = s := by rcases ht with rfl | rfl <;> exact hd
      exact hhandled.heeds (h.heeds hrunning) fun hmsg => h.sound.due hrunning htakes hmsg

end Actor

end Throttle
