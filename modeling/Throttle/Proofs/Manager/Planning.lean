import Throttle.Proofs.History
import Throttle.Proofs.Manager.Life

/-!
  What a manager knows when it plans a send, and what it learns afterwards. `Handling.learns` says
  which message changes the policy and the history, `Handling.plans` that a send is planned once,
  with the alarm set anew, at an instant from which every window has room. `Change.plans` is the
  same for an actor: between the plan and the alarm only the replies of probes change what is known.
-/

namespace Throttle

namespace Manager

variable {s : Surroundings} {m m' : Manager} {msg : Message} {os : List Output} {t : Moment}

/-! ## What is known -/

/-- A manager that has learned what a message tells. -/
def learning (m : Manager) : Message → Manager
  | .seed reply => m.heard reply
  | .queue _ => m
  | .fire _ => m
  | .reply (.error _) => m
  | .reply (.ok reply) => if m.phase = .sending then m.heard reply else m

/-- Two managers know the same of their policy. -/
structure KnowsAs (m n : Manager) : Prop where
  policy : m.policy = n.policy
  history : m.history = n.history

theorem KnowsAs.refl (m : Manager) : m.KnowsAs m := ⟨rfl, rfl⟩

theorem KnowsAs.heard {n : Manager} (h : m.KnowsAs n) (reply : Http.Reply) :
    (m.heard reply).KnowsAs (n.heard reply) := by
  unfold Manager.heard policyAfter historyAfter
  rw [h.policy, h.history]
  exact ⟨rfl, rfl⟩

theorem KnowsAs.foldl_heard {n : Manager} (h : m.KnowsAs n) (replies : List Http.Reply) :
    (replies.foldl (fun m reply => m.heard reply) m).KnowsAs
      (replies.foldl (fun m reply => m.heard reply) n) := by
  induction replies generalizing m n with
  | nil => exact h
  | cons reply replies ih => exact ih (h.heard reply)

theorem tidy_historyAfter (h : m.history.Tidy) (reply : Http.Reply) :
    (m.historyAfter reply).Tidy := by
  unfold historyAfter
  split
  · exact (h.grow _).push _
  · exact h.push _

theorem tidy_learning (h : m.history.Tidy) (msg : Message) : (m.learning msg).history.Tidy := by
  cases msg with
  | seed reply => exact tidy_historyAfter h reply
  | queue p => exact h
  | fire generation => exact h
  | reply result =>
    cases result with
    | error e => exact h
    | ok reply =>
      simp only [learning]
      split
      · exact tidy_historyAfter h reply
      · exact h

/-- Turning to the queue teaches nothing. -/
theorem Activation.knows {n : Manager} (h : Activation s m m' os) (hn : m.KnowsAs n) :
    m'.KnowsAs n := by
  cases h <;> exact ⟨hn.policy, hn.history⟩

theorem Retrial.knows {n : Manager} {wait : Delay} {lapse : Moment}
    (h : Retrial s wait lapse m m' os) (hn : m.KnowsAs n) : m'.KnowsAs n := by
  cases h with
  | empty hactive next => exact next.knows hn
  | skipped hactive hgone next => exact next.knows ⟨hn.policy, hn.history⟩
  | again hactive hlive hsend => exact ⟨hn.policy, hn.history⟩

/-- A manager learns from the replies to probes, and from the reply that it waits for. -/
theorem Handling.learns (h : Handling s m msg m' os) : m'.KnowsAs (m.learning msg) := by
  cases h with
  | seeded haccepted next => exact next.knows (.refl _)
  | seedRefused hrefused hpaused hlapse next => exact next.knows ⟨rfl, rfl⟩
  | joinedGone hgone => exact .refl m
  | joined hlive next => exact next.knows ⟨rfl, rfl⟩
  | fireStale hstale => exact .refl m
  | fireIdle hphase => exact .refl m
  | resumed hphase next => exact next.knows ⟨rfl, rfl⟩
  | fireEmpty hphase hactive next => exact next.knows ⟨rfl, rfl⟩
  | skipped hphase hactive hgone next => exact next.knows ⟨rfl, rfl⟩
  | unsigned hphase hactive hlive hsigned next => exact next.knows ⟨rfl, rfl⟩
  | sent hphase hactive hlive hsigned => exact ⟨rfl, rfl⟩
  | stray hphase =>
    rename_i result
    cases result with
    | error e => exact .refl m
    | ok reply =>
      simp only [learning, if_neg hphase]
      exact .refl m
  | lost hphase next => exact next.knows ⟨rfl, rfl⟩
  | passed hphase haccepted hclear next =>
    simp only [learning, if_pos hphase]
    exact next.knows ⟨rfl, rfl⟩
  | suspended hphase haccepted hmalformed hresume =>
    simp only [learning, if_pos hphase]
    exact ⟨rfl, rfl⟩
  | refused hphase hrefused hlapse next =>
    simp only [learning, if_pos hphase]
    exact next.knows ⟨rfl, rfl⟩

/-! ## Planning -/

theorem le_of_after {t u : Moment} {d : Delay} (h : Moment.after t d = .ok u) : t ≤ u := by
  obtain ⟨-, rfl⟩ := Moment.after_eq_ok_iff.1 h
  exact Int.le_add_of_nonneg_right (Int.natCast_nonneg d)

/-- A send is planned for the safe instant or the end of the restriction, and the margin after that,
and for no instant before the minimum interval after the last send is over. -/
theorem sendTime_eq_ok (h : m.sendTime s = .ok t) :
    ∃ safe allowed, m.history.nextSafeSend m.policy s.now = .ok safe ∧
      Moment.after (m.restrictedUntil.elim safe (max safe)) (m.buffer s) = .ok allowed ∧
      (m.lastSend = none ∧ t = allowed ∨
        ∃ last spaced, m.lastSend = some last ∧
          Moment.after last s.config.minimumInterval = .ok spaced ∧ t = max allowed spaced) := by
  unfold sendTime at h
  cases hsafe : m.history.nextSafeSend m.policy s.now with
  | error e =>
    rw [hsafe] at h
    cases h
  | ok safe =>
    rw [hsafe] at h
    change (Moment.after _ _ >>= _) = _ at h
    cases hallowed : Moment.after (m.restrictedUntil.elim safe (max safe)) (m.buffer s) with
    | error e =>
      rw [hallowed] at h
      cases h
    | ok allowed =>
      rw [hallowed] at h
      refine ⟨safe, allowed, rfl, hallowed, ?_⟩
      cases hlast : m.lastSend with
      | none =>
        simp only [hlast] at h
        cases h
        exact .inl ⟨rfl, rfl⟩
      | some last =>
        simp only [hlast] at h
        cases hspaced : Moment.after last s.config.minimumInterval with
        | error e =>
          rw [hspaced] at h
          cases h
        | ok spaced =>
          rw [hspaced] at h
          cases h
          exact .inr ⟨last, spaced, rfl, hspaced, rfl⟩

/-- A planned send is before neither the safe instant nor the end of the restriction. -/
theorem safe_le_sendTime (h : m.sendTime s = .ok t) :
    ∃ safe, m.history.nextSafeSend m.policy s.now = .ok safe ∧
      m.restrictedUntil.elim safe (max safe) ≤ t := by
  obtain ⟨safe, allowed, hsafe, hallowed, ⟨-, rfl⟩ | ⟨last, spaced, -, -, rfl⟩⟩ := sendTime_eq_ok h
  · exact ⟨safe, hsafe, le_of_after hallowed⟩
  · exact ⟨safe, hsafe, Int.le_trans (le_of_after hallowed) (Int.le_max_left allowed spaced)⟩

/-- From the planned instant on, every window has room for what the manager knew. -/
theorem room_of_sendTime (h : m.sendTime s = .ok t) (hm : m.history.Tidy) :
    ∀ u, t ≤ u → m.history.Room m.policy u := by
  obtain ⟨safe, hsafe, hle⟩ := safe_le_sendTime h
  have hrestricted : safe ≤ m.restrictedUntil.elim safe (max safe) := by
    cases m.restrictedUntil with
    | none => exact Int.le_refl _
    | some r => exact Int.le_max_left safe r
  exact fun u htu => (History.nextSafeSend_room hm hsafe).2 u
    (Int.le_trans hrestricted (Int.le_trans hle htu))

/-- What is planned: the old plan, or a new one that the manager has just made. -/
inductive Plans (s : Surroundings) (m m' : Manager) (t : Moment) : Prop where
  | old (hphase : m.phase = .activating t) (hgeneration : m'.generation = m.generation)
  | new {n : Manager} (hgeneration : m.generation < m'.generation) (hknows : m'.KnowsAs n)
      (hsend : n.sendTime s = .ok t)

/-- A manager that turns to its queue, as another one that was idle at most. -/
theorem Activation.plans {n : Manager} (h : Activation s n m' os)
    (hphase : m'.phase = .activating t) (hn : n.phase = .idle ∨ n.phase = m.phase)
    (hgeneration : n.generation = m.generation) : Plans s m m' t := by
  cases h with
  | busy hbusy =>
    rcases hn with hn | hn
    · exact nomatch hn.symm.trans hphase
    · exact .old (hn.symm.trans hphase) hgeneration
  | drained hactive hidle hgone => exact nomatch hidle.symm.trans hphase
  | planned gone rest p sendAt hactive hidle hqueue hgone hlive hsend =>
    cases hphase
    refine .new (n := n) ?_ ⟨rfl, rfl⟩ hsend
    rw [← hgeneration]
    exact Nat.lt_succ_self _

theorem Retrial.plans {n : Manager} {wait : Delay} {lapse : Moment}
    (h : Retrial s wait lapse n m' os) (hphase : m'.phase = .activating t)
    (hn : n.phase = .idle) (hgeneration : n.generation = m.generation) : Plans s m m' t := by
  cases h with
  | empty hactive next => exact next.plans hphase (.inl hn) hgeneration
  | skipped hactive hgone next => exact next.plans hphase (.inl rfl) hgeneration
  | again hactive hlive hsend => cases hphase

/-- Only a manager that sets its alarm anew plans a send. -/
theorem Handling.plans (h : Handling s m msg m' os) (hphase : m'.phase = .activating t) :
    Plans s m m' t := by
  cases h with
  | seeded haccepted next => exact next.plans hphase (.inr rfl) rfl
  | seedRefused hrefused hpaused hlapse next => exact next.plans hphase (.inr rfl) rfl
  | joinedGone hgone => exact .old hphase rfl
  | joined hlive next => exact next.plans hphase (.inr rfl) rfl
  | fireStale hstale => exact .old hphase rfl
  | fireIdle hidle => exact .old hphase rfl
  | resumed hsuspended next => exact next.plans hphase (.inl rfl) rfl
  | fireEmpty hdue hactive next => exact next.plans hphase (.inl rfl) rfl
  | skipped hdue hactive hgone next => exact next.plans hphase (.inl rfl) rfl
  | unsigned hdue hactive hlive hsigned next => exact next.plans hphase (.inl rfl) rfl
  | sent hdue hactive hlive hsigned => cases hphase
  | stray hstray => exact .old hphase rfl
  | lost hsending next => exact next.plans hphase (.inl rfl) rfl
  | passed hsending haccepted hclear next => exact next.plans hphase (.inl rfl) rfl
  | suspended hsending haccepted hmalformed hresume => cases hphase
  | refused hsending hrefused hlapse next => exact next.plans hphase rfl rfl

end Manager

namespace Actor

variable {s : Surroundings} {a b : Actor} {d : Deed} {ns : List Mark} {t : Moment}

/-- The replies to probes among the messages. -/
def seedsOf : Manager.Message → List Http.Reply
  | .seed reply => [reply]
  | _ => []

theorem Takes.nextSeed_eq {msg : Manager.Message} (h : a.Takes msg b) (hstage : a.stage = .running)
    (hinbox : b.inbox = a.inbox) : a.nextSeed = seedsOf msg := by
  unfold nextSeed
  cases h with
  | seed hmailbox =>
    rw [hstage, hmailbox]
    rfl
  | queue hmailbox =>
    rw [hstage, hmailbox]
    rfl
  | fire h =>
    rw [h] at hinbox
    exact absurd hinbox ((List.cons_ne_self _ _).symm)
  | reply h =>
    rw [h] at hinbox
    exact absurd hinbox ((List.cons_ne_self _ _).symm)

theorem Takes.seedsOf_eq {msg : Manager.Message} (h : a.Takes msg b)
    (hmailbox : b.mailbox = a.mailbox) : seedsOf msg = [] := by
  cases h with
  | seed h =>
    rw [h] at hmailbox
    exact absurd hmailbox ((List.cons_ne_self _ _).symm)
  | queue h => rfl
  | fire hinbox => rfl
  | reply hinbox => rfl

/-- An actor that runs after a deed ran before it. Its manager handled a message, or is the same. -/
theorem Change.handles (h : Change a d b ns) (hstage : b.stage = .running) :
    a.stage = .running ∧
      (b.manager = a.manager ∧ a.seeds d = [] ∨
        ∃ s msg os, (d = .command s ∨ d = .signal s) ∧
          Manager.Handling s a.manager msg b.manager os ∧ a.seeds d = seedsOf msg) := by
  cases h with
  | none d hseeds => exact ⟨hstage, .inl ⟨rfl, hseeds⟩⟩
  | posted c hrunning => exact ⟨hrunning, .inl ⟨rfl, rfl⟩⟩
  | @commanded s b os h hinbox =>
    obtain ⟨hrunning, msg, c, m', htakes, hhandled, rfl⟩ := h.running hstage
    refine ⟨hrunning, .inr ⟨s, msg, os, .inl rfl, hhandled, ?_⟩⟩
    exact htakes.nextSeed_eq hrunning (hinbox hstage)
  | @signaled s b os h hmailbox =>
    obtain ⟨hrunning, msg, c, m', htakes, hhandled, rfl⟩ := h.running hstage
    refine ⟨hrunning, .inr ⟨s, msg, os, .inr rfl, hhandled, ?_⟩⟩
    exact (htakes.seedsOf_eq (hmailbox hstage)).symm
  | rang halarm hdue => exact ⟨hstage, .inl ⟨rfl, rfl⟩⟩
  | returned result hid => exact ⟨hstage, .inl ⟨rfl, rfl⟩⟩
  | disconnected => exact ⟨hstage, .inl ⟨rfl, rfl⟩⟩

/-- A running actor keeps its history tidy. -/
theorem Change.tidy (h : Change a d b ns) (ha : a.stage = .running → a.manager.history.Tidy)
    (hstage : b.stage = .running) : b.manager.history.Tidy := by
  obtain ⟨hrunning, ⟨hsame, -⟩ | ⟨s, msg, os, -, hhandled, -⟩⟩ := h.handles hstage
  · rw [hsame]
    exact ha hrunning
  · rw [hhandled.learns.history]
    exact Manager.tidy_learning (ha hrunning) msg

/-- A planned send was planned before, and only replies of probes were taken in; or it has just been
planned, with room in every window from that instant on. -/
theorem Change.plans (h : Change a d b ns) (ha : a.stage = .running → a.manager.history.Tidy)
    (hstage : b.stage = .running) (hphase : b.manager.phase = .activating t) :
    a.stage = .running ∧
      (a.manager.phase = .activating t ∧ b.manager.generation = a.manager.generation ∧
          b.manager.KnowsAs ((a.seeds d).foldl (fun m reply => m.heard reply) a.manager) ∨
        a.manager.generation < b.manager.generation ∧
          ∀ u, t ≤ u → b.manager.history.Room b.manager.policy u) := by
  have htidy := h.tidy ha hstage
  obtain ⟨hrunning, ⟨hsame, hseeds⟩ | ⟨s, msg, os, -, hhandled, hseeds⟩⟩ := h.handles hstage
  · rw [hsame] at hphase ⊢
    rw [hseeds]
    exact ⟨hrunning, .inl ⟨hphase, rfl, .refl _⟩⟩
  · refine ⟨hrunning, ?_⟩
    cases hhandled.plans hphase with
    | old hold hgeneration =>
      refine .inl ⟨hold, hgeneration, ?_⟩
      rw [hseeds]
      have hlearns := hhandled.learns
      cases msg with
      | seed reply => exact hlearns
      | queue p => exact hlearns
      | fire generation => exact hlearns
      | reply result =>
        cases result with
        | error e => exact hlearns
        | ok reply =>
          have hnot : a.manager.phase ≠ .sending := by
            rw [hold]
            nofun
          simp only [Manager.learning, if_neg hnot] at hlearns
          exact hlearns
    | new hgeneration hknows hsend =>
      refine .inr ⟨hgeneration, ?_⟩
      rw [hknows.history] at htidy
      rw [hknows.policy, hknows.history]
      exact Manager.room_of_sendTime hsend htidy

end Actor

end Throttle
