import Throttle.Proofs.Manager.Ending

/-!
  The name of a manager's policy. A manager is made for one name, and takes over whatever policy a
  reply declares, its name included. `undergo_name` says from which replies a manager can take a
  name: from the reply to a probe, which its mailbox holds, or from the reply to a request of its
  own, which is its next signal.
-/

namespace Throttle

open Http

namespace Manager

variable {s : Surroundings} {m m' : Manager} {msg : Message} {os : List Output}

/-- The headers of a reply declare a policy of a name. -/
def Declares (reply : Reply) (name : PolicyName) : Prop :=
  ∃ policy, declaration reply = some (.ok policy) ∧ policy.name = name

theorem Declares.unique {reply : Reply} {name name' : PolicyName} (h : Declares reply name)
    (h' : Declares reply name') : name = name' := by
  obtain ⟨policy, hpolicy, rfl⟩ := h
  obtain ⟨policy', hpolicy', rfl⟩ := h'
  rw [hpolicy] at hpolicy'
  cases hpolicy'
  rfl

/-- A policy keeps its name, or takes the one that a reply declares. -/
theorem policyAfter_name (reply : Reply) (m : Manager) :
    (m.policyAfter reply).name = m.policy.name ∨ Declares reply (m.policyAfter reply).name := by
  unfold policyAfter
  split
  · exact .inl rfl
  · rename_i policy hdeclared
    exact .inr ⟨policy, hdeclared, rfl⟩
  · exact .inl rfl

/-- The reply in a message. -/
def Message.reply? : Message → Option Reply
  | .seed r => some r
  | .queue _ => none
  | .fire _ => none
  | .reply result => result.toOption

theorem learning_name (m : Manager) (msg : Message) :
    (m.learning msg).policy.name = m.policy.name ∨
      ∃ reply, msg.reply? = some reply ∧ Declares reply (m.learning msg).policy.name := by
  have heard (reply : Reply) (hmsg : msg.reply? = some reply) :
      (m.heard reply).policy.name = m.policy.name ∨
        ∃ reply', msg.reply? = some reply' ∧ Declares reply' (m.heard reply).policy.name :=
    (policyAfter_name reply m).imp_right fun hdeclares => ⟨reply, hmsg, hdeclares⟩
  cases msg with
  | seed reply => exact heard reply rfl
  | queue p => exact .inl rfl
  | fire generation => exact .inl rfl
  | reply result =>
    cases result with
    | error e => exact .inl rfl
    | ok reply =>
      simp only [learning]
      split
      · exact heard reply rfl
      · exact .inl rfl

theorem concluded_name (m : Manager) (r : Except TransportFailure Reply) :
    (m.concluded r).policy.name = m.policy.name ∨
      ∃ reply, r = .ok reply ∧ Declares reply (m.concluded r).policy.name := by
  unfold concluded
  cases r with
  | error e => exact .inl rfl
  | ok reply =>
    have hname := policyAfter_name reply m
    dsimp only
    split <;> exact hname.imp_right fun hdeclares => ⟨reply, rfl, hdeclares⟩

end Manager

namespace Actor

variable {s : Surroundings} {a b : Actor} {step : Step} {reply : Reply}

/-- The reply to a request of its own that an actor takes with its next signal. -/
def nextReply (a : Actor) : Option Reply :=
  match a.stage, a.inbox with
  | .running, .reply result :: _ => result.toOption
  | .closing, .reply result :: _ => result.toOption
  | _, _ => none

/-- A message that a running actor takes leaves its policy the name, or brings a reply that declares
another one. -/
theorem finish_name (msg : Manager.Message) (holding : List Pending) (hb : b.manager = a.manager) :
    (b.finish .running holding (a.manager.receive s msg)).actor.manager.policy.name =
        a.manager.policy.name ∨
      ∃ reply, msg.reply? = some reply ∧ Manager.Declares reply
        (b.finish .running holding (a.manager.receive s msg)).actor.manager.policy.name := by
  have hends := Manager.receive_ends s a.manager msg
  cases hr : (a.manager.receive s msg).result with
  | ok m' =>
    rw [finish_of_ok hr, after_manager, (hends.result hr).learns.policy]
    exact a.manager.learning_name msg
  | error e =>
    rw [finish_of_error hr (hends.quiet hr), broken_manager, hb]
    exact .inl rfl

theorem close_name (a : Actor) : a.close.actor.manager.policy.name = a.manager.policy.name := by
  unfold close
  dsimp only
  rw [finish_of_ok (Manager.close_result _ _), after_manager]
  rfl

/-- A command leaves the policy its name, or brings the reply to a probe that declares another. -/
theorem command_name (h : a.command s = some step) :
    step.actor.manager.policy.name = a.manager.policy.name ∨
      ∃ reply, .seed reply ∈ a.mailbox ∧
        Manager.Declares reply step.actor.manager.policy.name := by
  unfold command at h
  split at h
  · cases h
  · split at h
    · split at h <;> cases h
      exact .inl (close_name a)
    · rename_i c rest hmailbox
      rw [hmailbox]
      cases c with
      | seed reply =>
        cases h
        refine (finish_name (.seed reply) [] rfl).imp_right ?_
        rintro ⟨_, ⟨⟩, hdeclares⟩
        exact ⟨reply, .head _, hdeclares⟩
      | queue p =>
        cases h
        refine (finish_name (.queue p) [p] rfl).imp_right ?_
        rintro ⟨_, ⟨⟩, -⟩
      | shutdown =>
        cases h
        exact .inl (close_name _)

/-- A signal leaves the policy its name, or brings a reply that declares another. -/
theorem signal_name (h : a.signal s = some step) :
    step.actor.manager.policy.name = a.manager.policy.name ∨
      ∃ reply, a.nextReply = some reply ∧
        Manager.Declares reply step.actor.manager.policy.name := by
  unfold signal at h
  unfold nextReply
  split at h
  · cases h
  · rename_i x rest hinbox
    dsimp only at h
    rw [hinbox]
    split at h <;> cases h
    · rename_i generation hstage
      refine (finish_name (.fire generation) [] rfl).imp_right ?_
      rintro ⟨_, ⟨⟩, -⟩
    · rename_i result hstage
      rw [hstage]
      exact finish_name (a := a) (.reply result) [] rfl
    · exact .inl rfl
    · rename_i result hstage
      rw [hstage, finish_of_ok (Manager.conclude_yields s result a.manager).result, after_manager]
      refine (a.manager.concluded_name result).imp_right ?_
      rintro ⟨reply, rfl, hdeclares⟩
      exact ⟨reply, rfl, hdeclares⟩
    · exact .inl rfl

/-- A deed leaves the policy its name, or takes a reply that declares another. -/
theorem undergo_name (a : Actor) (d : Deed) :
    (a.undergo d).manager.policy.name = a.manager.policy.name ∨
      (∃ reply, .seed reply ∈ a.mailbox ∧
        Manager.Declares reply (a.undergo d).manager.policy.name) ∨
      ∃ s reply, d = .signal s ∧ a.nextReply = some reply ∧
        Manager.Declares reply (a.undergo d).manager.policy.name := by
  cases d with
  | post c =>
    simp only [undergo]
    split <;> exact .inl rfl
  | command s =>
    cases hstep : a.command s with
    | none =>
      simp only [undergo, hstep]
      exact .inl rfl
    | some step =>
      simp only [undergo, hstep]
      exact (command_name hstep).imp_right .inl
  | signal s =>
    cases hstep : a.signal s with
    | none =>
      simp only [undergo, hstep]
      exact .inl rfl
    | some step =>
      simp only [undergo, hstep]
      refine (signal_name hstep).imp_right fun hdeclared => .inr ?_
      obtain ⟨reply, hreply, hdeclares⟩ := hdeclared
      exact ⟨s, reply, rfl, hreply, hdeclares⟩
  | ring now =>
    simp only [undergo, ring]
    cases a.alarm.filter (·.due ≤ now) <;> exact .inl rfl
  | returned id result =>
    simp only [undergo, Actor.returned]
    split <;> exact .inl rfl
  | disconnect => exact .inl rfl

theorem Advance.mem_mailbox {os : List Output} (h : Advance s a b os) {c : Command}
    (hc : c ∈ b.mailbox) : c ∈ a.mailbox := by
  cases h with
  | handled hstage htakes h => exact htakes.mem_mailbox hc
  | broke hquiet => cases hc
  | stopped hstage hquiet => cases hc
  | concluded hstage hinbox hquiet hactive hphase hqueue => exact hc
  | ignored hstage hinbox => exact hc

/-- Only others write to a mailbox. -/
theorem Change.mem_mailbox {d : Deed} {ms : List Mark} (h : Change a d b ms) (hd : ¬ d.Feeds)
    {c : Command} (hc : c ∈ b.mailbox) : c ∈ a.mailbox := by
  cases h with
  | none => exact hc
  | posted c hstage => exact absurd trivial hd
  | commanded h => exact h.mem_mailbox hc
  | signaled h => exact h.mem_mailbox hc
  | rang halarm hdue => exact hc
  | returned result hid => exact hc
  | disconnected => exact absurd trivial hd

end Actor

end Throttle
